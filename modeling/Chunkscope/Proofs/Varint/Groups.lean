import Chunkscope.Varint.Encode
import Chunkscope.Varint.Scan
import Mathlib.Data.List.TakeWhile
import Mathlib.Tactic.Ring

/-!
# Groups of seven bits as numbers

The bit tests on a byte are comparisons of its number, and joining groups is a sum of powers of
128. A sequence is sealed when every byte but its last carries the continuation bit; splitting an
input finds exactly its sealed front.
-/

namespace Chunkscope.Varint

theorem continues_iff (byte : UInt8) : continues byte = true ↔ 128 ≤ byte.toNat := by
  have table : ∀ number : Fin 256,
      continues (UInt8.ofNat number.val) = decide (128 ≤ number.val) := by decide +kernel
  have entry := table ⟨byte.toNat, byte.toNat_lt⟩
  rw [UInt8.ofNat_toNat] at entry
  rw [entry, decide_eq_true_eq]

theorem has_sign_iff (byte : UInt8) : hasSign byte = true ↔ 64 ≤ byte.toNat % 128 := by
  have table : ∀ number : Fin 256,
      hasSign (UInt8.ofNat number.val) = decide (64 ≤ number.val % 128) := by decide +kernel
  have entry := table ⟨byte.toNat, byte.toNat_lt⟩
  rw [UInt8.ofNat_toNat] at entry
  rw [entry, decide_eq_true_eq]

theorem low_bits_value (byte : UInt8) : (byte &&& 0x7f).toNat = byte.toNat % 128 := by
  rw [UInt8.toNat_and]
  exact Nat.and_two_pow_sub_one_eq_mod byte.toNat 7

/-- Shifting drops the highest bits, so the bits put below stay apart from those that are left. -/
theorem or_shifted_value (bits above : Nat) (whole : bits + above = 64) {low high shift : UInt64}
    (size : shift.toNat = bits) (small : low.toNat < 2 ^ bits) (room : 0 < above) :
    (low ||| high <<< shift).toNat = low.toNat + 2 ^ bits * (high.toNat % 2 ^ above) := by
  have within : bits < 64 := by omega
  have shifted : (high <<< shift).toNat = 2 ^ bits * (high.toNat % 2 ^ above) := by
    rw [UInt64.toNat_shiftLeft, size, Nat.mod_eq_of_lt within, Nat.shiftLeft_eq, Nat.mul_comm,
      ← whole, pow_add, Nat.mul_mod_mul_left]
  rw [UInt64.toNat_or, shifted, Nat.or_comm, ← Nat.two_pow_add_eq_or_of_lt small, Nat.add_comm]

/-- The number of some groups, whatever stands in their continuation bits. -/
def groupsValue (groups : Bytes) : Nat :=
  groups.foldr (fun byte above => byte.toNat % 128 + 128 * above) 0

@[simp] theorem groups_value_nil : groupsValue [] = 0 := rfl

@[simp] theorem groups_value_cons (byte : UInt8) (groups : Bytes) :
    groupsValue (byte :: groups) = byte.toNat % 128 + 128 * groupsValue groups := rfl

theorem groups_value_append (first second : Bytes) :
    groupsValue (first ++ second) =
      groupsValue first + 128 ^ first.length * groupsValue second := by
  induction first with
  | nil => simp
  | cons byte first induction =>
      rw [List.cons_append, groups_value_cons, induction, groups_value_cons, List.length_cons,
        pow_succ]
      ring

theorem groups_value_lt (groups : Bytes) : groupsValue groups < 128 ^ groups.length := by
  induction groups with
  | nil => simp
  | cons byte groups induction =>
      rw [groups_value_cons, List.length_cons, pow_succ]
      omega

/-- Joining keeps the low 64 bits of the number that the groups and what is above them make. -/
theorem join_value (high : UInt64) (groups : Bytes) :
    (join high groups).toNat =
      (groupsValue groups + 128 ^ groups.length * high.toNat) % 2 ^ 64 := by
  induction groups with
  | nil =>
      have bounded := high.toNat_lt
      simp only [join, List.foldr_nil, groups_value_nil, List.length_nil]
      omega
  | cons byte groups induction =>
      have low : (byte &&& 0x7f).toUInt64.toNat = byte.toNat % 128 := by
        rw [UInt8.toNat_toUInt64, low_bits_value]
      have small : (byte &&& 0x7f).toUInt64.toNat < 2 ^ 7 := by
        rw [low]
        exact Nat.mod_lt _ (by decide)
      have power : 128 ^ (byte :: groups).length * high.toNat =
          128 * (128 ^ groups.length * high.toNat) := by
        rw [List.length_cons]
        ring
      have step : join high (byte :: groups) =
          (byte &&& 0x7f).toUInt64 ||| join high groups <<< 7 := rfl
      rw [step, or_shifted_value 7 57 rfl rfl small (by decide), low, induction, groups_value_cons,
        power]
      omega

/-- Groups that end where their last byte does: only the bytes before it say that more follow. -/
structure Sealed (leading : Bytes) (last : UInt8) : Prop where
  continued : ∀ byte ∈ leading, 128 ≤ byte.toNat
  ended : last.toNat < 128

namespace Sealed

theorem tail {byte last : UInt8} {leading : Bytes} (groups : Sealed (byte :: leading) last) :
    Sealed leading last :=
  ⟨fun other member => groups.continued other (List.mem_cons_of_mem byte member), groups.ended⟩

theorem head_continues {byte last : UInt8} {leading : Bytes}
    (groups : Sealed (byte :: leading) last) : 128 ≤ byte.toNat :=
  groups.continued byte List.mem_cons_self

theorem cons {byte last : UInt8} {leading : Bytes} (more : 128 ≤ byte.toNat)
    (groups : Sealed leading last) : Sealed (byte :: leading) last := by
  refine ⟨?_, groups.ended⟩
  intro other member
  obtain rfl | later := List.mem_cons.mp member
  · exact more
  · exact groups.continued other later

end Sealed

/-- Splitting finds the sealed front of an input, and there is no other. -/
theorem split_eq_some_iff (input leading rest : Bytes) (last : UInt8) :
    split input = some (leading, last, rest) ↔
      Sealed leading last ∧ input = leading ++ last :: rest := by
  constructor
  · intro found
    refine ⟨?_, (split_append found).symm⟩
    simp only [split] at found
    split at found
    · cases found
    · next remaining =>
        cases found
        constructor
        · intro byte member
          exact (continues_iff byte).mp (List.mem_takeWhile_imp member)
        · have stops := List.head_dropWhile_not continues (l := input) (by simp [remaining])
          simp only [remaining, List.head_cons] at stops
          exact Nat.lt_of_not_le fun more => by simp [(continues_iff last).mpr more] at stops
  · rintro ⟨groups, rfl⟩
    have going : ∀ byte ∈ leading, continues byte = true :=
      fun byte member => (continues_iff byte).mpr (groups.continued byte member)
    have stops : ¬ continues last = true :=
      fun more => absurd ((continues_iff last).mp more) (Nat.not_le.mpr groups.ended)
    simp only [split, List.dropWhile_append_of_pos going, List.takeWhile_append_of_pos going,
      List.dropWhile_cons_of_neg stops, List.takeWhile_cons_of_neg stops, List.append_nil]

/-- A scan sees nothing of what follows the integer, if the integer has an end. -/
theorem scan_with_kept {Value : Type} (zero : Value) (value : Bytes → UInt8 → Value)
    (fault : Bytes → UInt8 → Option Fault) {input kept : Bytes}
    (ends : split input = none → kept = []) :
    scanWith zero value fault ((scanWith zero value fault input).bytes ++ kept) =
      { scanWith zero value fault input with rest := kept } := by
  cases cutting : split input with
  | none =>
      obtain rfl := ends cutting
      simp only [scanWith, cutting, List.append_nil]
  | some parts =>
      obtain ⟨leading, last, rest⟩ := parts
      have groups := ((split_eq_some_iff input leading rest last).mp cutting).1
      have again : split (leading ++ [last] ++ kept) = some (leading, last, kept) := by
        rw [split_eq_some_iff]
        exact ⟨groups, by rw [List.append_assoc, List.singleton_append]⟩
      simp only [scanWith, cutting, again]

/-- The bytes of an integer alone give the same integer. -/
theorem scan_signed_alone (input : Bytes) :
    scanSigned (scanSigned input).bytes = { scanSigned input with rest := [] } := by
  have kept : scanSigned ((scanSigned input).bytes ++ []) = { scanSigned input with rest := [] } :=
    scan_with_kept _ _ _ fun _ => rfl
  rwa [List.append_nil] at kept

/-- A strict scan succeeds exactly on sealed groups without a fault. -/
theorem scan_result_eq_ok_iff {Value : Type} (zero : Value) (value : Bytes → UInt8 → Value)
    (fault : Bytes → UInt8 → Option Fault) (input rest : Bytes) (found : Value) :
    (scanWith zero value fault input).result = .ok (found, rest) ↔
      ∃ leading last, Sealed leading last ∧ input = leading ++ last :: rest ∧
        fault leading last = none ∧ value leading last = found := by
  constructor
  · intro scanned
    cases cutting : split input with
    | none => simp [scanWith, cutting, Scan.result] at scanned
    | some parts =>
        obtain ⟨leading, last, remaining⟩ := parts
        obtain ⟨groups, whole⟩ := (split_eq_some_iff _ _ _ _).mp cutting
        simp only [scanWith, cutting, Scan.result] at scanned
        split at scanned
        · cases scanned
        · next sound =>
            cases scanned
            exact ⟨leading, last, groups, whole, sound, rfl⟩
  · rintro ⟨leading, last, groups, whole, sound, rfl⟩
    have cutting := (split_eq_some_iff input leading rest last).mpr ⟨groups, whole⟩
    simp only [scanWith, cutting, Scan.result, sound]

end Chunkscope.Varint
