import Chunkscope.Proofs.Varint.Groups
import Mathlib.Tactic.Linarith

/-!
# Strict reading accepts exactly the shortest encodings

A scan without a fault has found minimal groups whose number has 64 bits. A number has exactly one
sequence of minimal groups, the one that encoding writes. Both hold for either sign, so a strict
read and an encoder undo one another.
-/

namespace Chunkscope.Varint

section Unsigned

/-- The last group of a number of several groups is not zero. -/
def UnsignedMinimal (leading : Bytes) (last : UInt8) : Prop := last = 0 → leading = []

theorem groups_value_sealed {leading : Bytes} {last : UInt8} (groups : Sealed leading last) :
    groupsValue (leading ++ [last]) =
      groupsValue leading + 128 ^ leading.length * last.toNat := by
  rw [groups_value_append, groups_value_cons, groups_value_nil, Nat.mul_zero, Nat.add_zero,
    Nat.mod_eq_of_lt groups.ended]

/-- A last group that is not zero keeps the number above all shorter ones. -/
theorem groups_value_ge {leading : Bytes} {last : UInt8} (groups : Sealed leading last)
    (nonzero : last ≠ 0) : 128 ^ leading.length ≤ groupsValue (leading ++ [last]) := by
  have positive : 1 ≤ last.toNat := by
    refine Nat.one_le_iff_ne_zero.mpr fun zero => nonzero ?_
    exact UInt8.toNat_inj.mp zero
  have scaled := Nat.mul_le_mul_left (128 ^ leading.length) positive
  rw [groups_value_sealed groups]
  omega

/-- Only bit 0 of the tenth group belongs to a word of 64 bits. -/
theorem high_bits_clear_iff {last : UInt8} (ended : last.toNat < 128) :
    last &&& 0x7e = 0 ↔ last.toNat < 2 := by
  have table : ∀ number : Fin 128,
      (UInt8.ofNat number.val &&& 0x7e = 0) ↔ number.val < 2 := by decide +kernel
  have entry := table ⟨last.toNat, ended⟩
  rwa [UInt8.ofNat_toNat] at entry

theorem tenth_group_overflow_iff {leading : Bytes} {last : UInt8} (groups : Sealed leading last)
    (tenth : leading.length = 9) :
    last &&& 0x7e ≠ 0 ↔ 2 ^ 64 ≤ groupsValue (leading ++ [last]) := by
  have total := groups_value_sealed groups
  have below := groups_value_lt leading
  rw [tenth] at total below
  rw [Ne, high_bits_clear_iff groups.ended]
  omega

/-- The scan's test for too many groups is a comparison of the number with 64 bits. -/
theorem unsigned_overflow_iff {leading : Bytes} {last : UInt8} (groups : Sealed leading last)
    (minimal : UnsignedMinimal leading last) :
    (9 < leading.length ∨ leading.length = 9 ∧ last &&& 0x7e ≠ 0) ↔
      2 ^ 64 ≤ groupsValue (leading ++ [last]) := by
  -- Nine groups always fit, eleven minimal ones never do: only the tenth group needs a test.
  rcases Nat.lt_trichotomy leading.length 9 with short | tenth | long
  · have fits : groupsValue (leading ++ [last]) < 128 ^ 9 := by
      apply Nat.lt_of_lt_of_le (groups_value_lt _)
      apply Nat.pow_le_pow_right (by decide)
      rw [List.length_append, List.length_singleton]
      omega
    apply iff_of_false <;> omega
  · rw [← tenth_group_overflow_iff groups tenth]
    simp only [tenth, Nat.lt_irrefl, false_or, true_and]
  · have nonzero : last ≠ 0 := by
      intro zero
      rw [minimal zero] at long
      cases long
    have bound := groups_value_ge groups nonzero
    have huge : 128 ^ 10 ≤ 128 ^ leading.length := Nat.pow_le_pow_right (by decide) long
    apply iff_of_true <;> omega

theorem unsigned_fault_none_iff {leading : Bytes} {last : UInt8} (groups : Sealed leading last) :
    unsignedFault leading last = none ↔
      UnsignedMinimal leading last ∧ groupsValue (leading ++ [last]) < 2 ^ 64 := by
  unfold unsignedFault
  by_cases redundant : last = 0 ∧ leading ≠ []
  · have refused : ¬ UnsignedMinimal leading last := by
      intro minimal
      exact redundant.2 (minimal redundant.1)
    simp only [if_pos redundant, refused, false_and, reduceCtorEq]
  · have minimal : UnsignedMinimal leading last := by
      intro zero
      by_contra several
      exact redundant ⟨zero, several⟩
    simp only [if_neg redundant, minimal, true_and, unsigned_overflow_iff groups minimal,
      ite_eq_right_iff, reduceCtorEq, imp_false, Nat.not_le]

/-- The groups of a number are sealed and minimal and have its value. -/
theorem natural_groups_form (value : Nat) :
    ∃ leading last, naturalGroups value = leading ++ [last] ∧ Sealed leading last ∧
      UnsignedMinimal leading last ∧ groupsValue (leading ++ [last]) = value := by
  induction value using Nat.strongRecOn with
  | ind value induction =>
      rw [naturalGroups]
      by_cases small : value < 128
      · have single : (UInt8.ofNat value).toNat = value :=
          UInt8.toNat_ofNat_of_lt (Nat.lt_trans small (by decide))
        refine ⟨[], UInt8.ofNat value, by rw [if_pos small]; rfl, ⟨by simp, by omega⟩,
          fun _ => rfl, ?_⟩
        simp only [List.nil_append, groups_value_cons, groups_value_nil, single]
        omega
      · obtain ⟨leading, last, same, groups, minimal, total⟩ :=
          induction (value / 128) (by omega)
        have byte : (UInt8.ofNat (value % 128 + 128)).toNat = value % 128 + 128 :=
          UInt8.toNat_ofNat_of_lt (show value % 128 + 128 < 256 by omega)
        refine ⟨UInt8.ofNat (value % 128 + 128) :: leading, last, ?_, groups.cons (by omega), ?_, ?_⟩
        · rw [if_neg small, same, List.cons_append]
        · intro zero
          have alone := minimal zero
          subst zero alone
          rw [List.nil_append, groups_value_cons, groups_value_nil, UInt8.toNat_zero] at total
          omega
        · rw [List.cons_append, groups_value_cons, total, byte]
          omega

theorem natural_groups_length_le (more : Nat) {value : Nat} (small : value < 128 ^ (more + 1)) :
    (naturalGroups value).length ≤ more + 1 := by
  induction more generalizing value with
  | zero =>
      rw [naturalGroups, if_pos (by omega)]
      exact Nat.le_refl 1
  | succ more induction =>
      have above : value / 128 < 128 ^ (more + 1) := by
        rw [Nat.div_lt_iff_lt_mul (by decide), ← pow_succ]
        exact small
      rw [naturalGroups]
      split
      · exact Nat.succ_le_succ (Nat.zero_le _)
      · exact Nat.succ_le_succ (induction above)

/-- Minimal groups are the groups of their number. -/
theorem natural_groups_of_minimal {leading : Bytes} {last : UInt8} (groups : Sealed leading last)
    (minimal : UnsignedMinimal leading last) :
    naturalGroups (groupsValue (leading ++ [last])) = leading ++ [last] := by
  induction leading with
  | nil =>
      have ended := groups.ended
      rw [List.nil_append, groups_value_cons, groups_value_nil, naturalGroups,
        if_pos (by omega), Nat.mul_zero, Nat.add_zero, Nat.mod_eq_of_lt ended, UInt8.ofNat_toNat]
  | cons byte leading induction =>
      have nonzero : last ≠ 0 := fun zero => by cases minimal zero
      have more := groups.head_continues
      have bounded := byte.toNat_lt
      have above := groups_value_ge groups.tail nonzero
      have positive : 0 < 128 ^ leading.length := Nat.pow_pos (by decide)
      rw [List.cons_append, groups_value_cons, naturalGroups, if_neg (by omega)]
      congr 1
      · rw [← UInt8.ofNat_toNat (x := byte)]
        congr 1
        rw [UInt8.ofNat_toNat]
        omega
      · rw [show (byte.toNat % 128 + 128 * groupsValue (leading ++ [last])) / 128 =
          groupsValue (leading ++ [last]) by omega]
        exact induction groups.tail fun zero => absurd zero nonzero

theorem join_groups_value {groups : Bytes} (fits : groupsValue groups < 2 ^ 64) :
    (join 0 groups).toNat = groupsValue groups := by
  rw [join_value, UInt64.toNat_zero, Nat.mul_zero, Nat.add_zero, Nat.mod_eq_of_lt fits]

theorem read_unsigned_eq_ok_iff (input rest : Bytes) (value : UInt64) :
    readUnsigned input = .ok (value, rest) ↔ input = encodeUnsigned value ++ rest := by
  rw [readUnsigned, scanUnsigned, scan_result_eq_ok_iff]
  constructor
  · rintro ⟨leading, last, groups, rfl, sound, rfl⟩
    obtain ⟨minimal, fits⟩ := (unsigned_fault_none_iff groups).mp sound
    rw [encodeUnsigned, join_groups_value fits, natural_groups_of_minimal groups minimal,
      List.append_assoc, List.singleton_append]
  · rintro rfl
    obtain ⟨leading, last, same, groups, minimal, total⟩ := natural_groups_form value.toNat
    have fits : groupsValue (leading ++ [last]) < 2 ^ 64 := total ▸ value.toNat_lt
    refine ⟨leading, last, groups, ?_, (unsigned_fault_none_iff groups).mpr ⟨minimal, fits⟩, ?_⟩
    · rw [encodeUnsigned, same, List.append_assoc, List.singleton_append]
    · exact UInt64.toNat_inj.mp ((join_groups_value fits).trans total)

end Unsigned

section Signed

/-- The last group as a signed number of seven bits. -/
def signedGroup (last : UInt8) : Int :=
  if 64 ≤ last.toNat % 128 then (last.toNat % 128 : Nat) - 128 else (last.toNat % 128 : Nat)

/-- The number of some groups of which the last one carries the sign. -/
def signedValue (leading : Bytes) (last : UInt8) : Int :=
  groupsValue leading + 128 ^ leading.length * signedGroup last

/-- The last of several groups is not the one that repeats the sign of the group before it. -/
def SignedMinimal (leading : Bytes) (last : UInt8) : Prop :=
  ∀ previous ∈ leading.getLast?, last.toNat ≠ if 64 ≤ previous.toNat % 128 then 127 else 0

theorem signed_group_range (last : UInt8) : -64 ≤ signedGroup last ∧ signedGroup last < 64 := by
  rw [signedGroup]
  split <;> omega

@[simp] theorem signed_value_nil (last : UInt8) : signedValue [] last = signedGroup last := by
  simp [signedValue]

theorem signed_value_cons (byte last : UInt8) (leading : Bytes) :
    signedValue (byte :: leading) last =
      (byte.toNat % 128 : Nat) + 128 * signedValue leading last := by
  rw [signedValue, signedValue, groups_value_cons, List.length_cons]
  push_cast
  ring

theorem signed_value_range (leading : Bytes) (last : UInt8) :
    -(64 * 128 ^ leading.length) ≤ signedValue leading last ∧
      signedValue leading last < 64 * 128 ^ leading.length := by
  induction leading with
  | nil => simpa using signed_group_range last
  | cons byte leading induction =>
      rw [signed_value_cons, List.length_cons, pow_succ]
      omega

theorem signed_group_eq_zero_iff {last : UInt8} (ended : last.toNat < 128) :
    signedGroup last = 0 ↔ last.toNat = 0 := by
  rw [signedGroup]
  split <;> omega

theorem signed_group_eq_neg_one_iff {last : UInt8} (ended : last.toNat < 128) :
    signedGroup last = -1 ↔ last.toNat = 127 := by
  rw [signedGroup]
  split <;> omega

/-- A minimal last group keeps the number outside the range of all shorter ones. -/
theorem signed_value_large {byte last : UInt8} {leading : Bytes}
    (groups : Sealed (byte :: leading) last) (minimal : SignedMinimal (byte :: leading) last) :
    64 * 128 ^ leading.length ≤ signedValue (byte :: leading) last ∨
      signedValue (byte :: leading) last < -(64 * 128 ^ leading.length) := by
  -- Minimality speaks of the last two groups alone, so it passes to every tail of two or more.
  induction leading generalizing byte with
  | nil =>
      have zero := signed_group_eq_zero_iff groups.ended
      have ones := signed_group_eq_neg_one_iff groups.ended
      have needed := minimal byte rfl
      rw [signed_value_cons, signed_value_nil, List.length_nil, pow_zero]
      split at needed <;> omega
  | cons next leading induction =>
      have inner := induction groups.tail fun previous member => minimal previous (by
        rwa [List.getLast?_cons_cons])
      rw [signed_value_cons, List.length_cons, pow_succ]
      omega

theorem low_bits_of_ended {last : UInt8} (ended : last.toNat < 128) : last &&& 0x7f = last := by
  rw [← UInt8.toNat_inj, low_bits_value, Nat.mod_eq_of_lt ended]

/-- The scan's test on the last two groups is minimality. -/
theorem signed_fault_eq (leading : Bytes) (last : UInt8) [Decidable (SignedMinimal leading last)] :
    signedFault leading last =
      if SignedMinimal leading last then
        if 9 < leading.length ∨
            (leading.length = 9 ∧ last &&& 0x7f ≠ 0 ∧ last &&& 0x7f ≠ 0x7f) then some .overflow
        else none
      else some .overlong := by
  cases ending : leading.getLast? with
  | none =>
      have minimal : SignedMinimal leading last := by simp [SignedMinimal, ending]
      simp only [signedFault, ending, Bool.false_eq_true, if_false, if_pos minimal]
  | some previous =>
      have minimal : SignedMinimal leading last ↔
          last.toNat ≠ if 64 ≤ previous.toNat % 128 then 127 else 0 := by
        simp only [SignedMinimal, ending, Option.mem_some_iff, forall_eq']
      have sign := has_sign_iff previous
      by_cases negative : 64 ≤ previous.toNat % 128
      · have ones : last = 0x7f ↔ ¬ SignedMinimal leading last := by
          rw [minimal, if_pos negative, not_not, ← UInt8.toNat_inj]
          rfl
        simp only [signedFault, ending, if_pos (sign.mpr negative), decide_eq_true_eq, ones,
          ite_not]
      · have zero : last = 0 ↔ ¬ SignedMinimal leading last := by
          rw [minimal, if_neg negative, not_not, ← UInt8.toNat_inj]
          rfl
        simp only [signedFault, ending, if_neg (mt sign.mp negative), decide_eq_true_eq, zero,
          ite_not]

theorem signed_tenth_group_overflow_iff {leading : Bytes} {last : UInt8}
    (groups : Sealed leading last) (tenth : leading.length = 9) :
    last ≠ 0 ∧ last ≠ 0x7f ↔
      ¬ (-2 ^ 63 ≤ signedValue leading last ∧ signedValue leading last < 2 ^ 63) := by
  have total : signedValue leading last = groupsValue leading + 128 ^ 9 * signedGroup last := by
    rw [signedValue, tenth]
  have below := groups_value_lt leading
  have zero : last = 0 ↔ signedGroup last = 0 := by
    rw [signed_group_eq_zero_iff groups.ended, ← UInt8.toNat_inj]
    rfl
  have ones : last = 0x7f ↔ signedGroup last = -1 := by
    rw [signed_group_eq_neg_one_iff groups.ended, ← UInt8.toNat_inj]
    rfl
  rw [tenth] at below
  rw [Ne, Ne, zero, ones]
  omega

theorem signed_overflow_iff {leading : Bytes} {last : UInt8} (groups : Sealed leading last)
    (minimal : SignedMinimal leading last) :
    (9 < leading.length ∨ leading.length = 9 ∧ last ≠ 0 ∧ last ≠ 0x7f) ↔
      ¬ (-2 ^ 63 ≤ signedValue leading last ∧ signedValue leading last < 2 ^ 63) := by
  rcases Nat.lt_trichotomy leading.length 9 with short | tenth | long
  · have range := signed_value_range leading last
    have power : (128 : Int) ^ leading.length ≤ 128 ^ 8 :=
      pow_le_pow_right₀ (by decide) (Nat.le_of_lt_succ short)
    apply iff_of_false <;> omega
  · rw [← signed_tenth_group_overflow_iff groups tenth]
    simp only [tenth, Nat.lt_irrefl, false_or, true_and]
  · obtain ⟨byte, more, rfl⟩ := List.exists_cons_of_length_pos (Nat.zero_lt_of_lt long)
    have large := signed_value_large groups minimal
    have power : (128 : Int) ^ 9 ≤ 128 ^ more.length :=
      pow_le_pow_right₀ (by decide) (Nat.le_of_lt_succ long)
    apply iff_of_true <;> omega

theorem signed_fault_none_iff {leading : Bytes} {last : UInt8} (groups : Sealed leading last) :
    signedFault leading last = none ↔
      SignedMinimal leading last ∧
        -2 ^ 63 ≤ signedValue leading last ∧ signedValue leading last < 2 ^ 63 := by
  classical
  rw [signed_fault_eq, low_bits_of_ended groups.ended]
  by_cases minimal : SignedMinimal leading last
  · simp only [minimal, if_true, true_and, signed_overflow_iff groups minimal,
      ite_eq_right_iff, reduceCtorEq, imp_false, not_not]
  · simp only [minimal, if_false, reduceCtorEq, false_and]

/-- The groups of an integer are sealed and minimal and have its value. -/
theorem integer_groups_form (value : Int) :
    ∃ leading last, integerGroups value = leading ++ [last] ∧ Sealed leading last ∧
      SignedMinimal leading last ∧ signedValue leading last = value := by
  induction size : value.natAbs using Nat.strongRecOn generalizing value with
  | ind size induction =>
      rw [integerGroups]
      by_cases small : -64 ≤ value ∧ value < 64
      · have single : (UInt8.ofNat (value % 128).toNat).toNat = (value % 128).toNat :=
          UInt8.toNat_ofNat_of_lt (show (value % 128).toNat < 256 by omega)
        refine ⟨[], UInt8.ofNat (value % 128).toNat, by rw [if_pos small]; rfl,
          ⟨by simp, by omega⟩, by simp [SignedMinimal], ?_⟩
        rw [signed_value_nil, signedGroup, single]
        split <;> omega
      · obtain ⟨leading, last, same, groups, minimal, total⟩ :=
          induction (value / 128).natAbs (by omega) (value / 128) rfl
        have byte : (UInt8.ofNat (value % 128 + 128).toNat).toNat = (value % 128 + 128).toNat :=
          UInt8.toNat_ofNat_of_lt (show (value % 128 + 128).toNat < 256 by omega)
        refine ⟨UInt8.ofNat (value % 128 + 128).toNat :: leading, last, ?_, groups.cons (by omega),
          ?_, ?_⟩
        · rw [if_neg small, same, List.cons_append]
        · intro previous member
          cases leading with
          | nil =>
              have zero := signed_group_eq_zero_iff groups.ended
              have ones := signed_group_eq_neg_one_iff groups.ended
              obtain rfl : UInt8.ofNat (value % 128 + 128).toNat = previous := by simpa using member
              rw [signed_value_nil] at total
              rw [byte]
              split <;> omega
          | cons next leading => exact minimal previous (by rwa [List.getLast?_cons_cons] at member)
        · rw [signed_value_cons, total, byte]
          omega

/-- Minimal groups are the groups of their integer. -/
theorem integer_groups_of_minimal {leading : Bytes} {last : UInt8} (groups : Sealed leading last)
    (minimal : SignedMinimal leading last) :
    integerGroups (signedValue leading last) = leading ++ [last] := by
  induction leading with
  | nil =>
      have ended := groups.ended
      rw [signed_value_nil, integerGroups, if_pos (signed_group_range last), List.nil_append]
      congr 1
      rw [← UInt8.ofNat_toNat (x := last)]
      congr 1
      rw [UInt8.ofNat_toNat, signedGroup]
      split <;> omega
  | cons byte leading induction =>
      have more := groups.head_continues
      have bounded := byte.toNat_lt
      have large := signed_value_large groups minimal
      have positive : (0 : Int) < 128 ^ leading.length := by positivity
      rw [signed_value_cons] at large ⊢
      rw [integerGroups, if_neg (by omega), List.cons_append]
      congr 1
      · rw [← UInt8.ofNat_toNat (x := byte)]
        congr 1
        rw [UInt8.ofNat_toNat]
        omega
      · rw [show ((byte.toNat % 128 : Nat) + 128 * signedValue leading last) / 128 =
          signedValue leading last by omega]
        refine induction groups.tail ?_
        cases leading with
        | nil => simp [SignedMinimal]
        | cons next leading =>
            intro previous member
            exact minimal previous (by rwa [List.getLast?_cons_cons])

/-- Joining under a sign that fills all higher bits keeps the low 64 bits of the signed number. -/
theorem join_signed_wraps (leading : Bytes) (last : UInt8) :
    (join (if hasSign last then 0xffffffffffffffff else 0)
      (leading ++ [last])).toInt64.toInt = Int.bmod (signedValue leading last) (2 ^ 64) := by
  have sign := has_sign_iff last
  -- The filled sign bits add a multiple of 2 ^ 64 to a negative number.
  have above : ∃ wraps : Int,
      (groupsValue (leading ++ [last]) + 128 ^ (leading ++ [last]).length *
        (if hasSign last then 0xffffffffffffffff else 0 : UInt64).toNat : Nat) =
        signedValue leading last + (2 ^ 64 : Nat) * wraps := by
    rw [groups_value_append, groups_value_cons, groups_value_nil, signedValue, signedGroup,
      List.length_append, List.length_singleton]
    by_cases negative : 64 ≤ last.toNat % 128
    · refine ⟨128 ^ (leading.length + 1), ?_⟩
      rw [if_pos (sign.mpr negative), if_pos negative,
        show (0xffffffffffffffff : UInt64).toNat = 2 ^ 64 - 1 from rfl]
      push_cast
      ring
    · refine ⟨0, ?_⟩
      rw [if_neg (mt sign.mp negative), if_neg negative, UInt64.toNat_zero]
      push_cast
      ring
  obtain ⟨wraps, same⟩ := above
  calc (join (if hasSign last then 0xffffffffffffffff else 0)
          (leading ++ [last])).toInt64.toInt
      = Int.bmod (join (if hasSign last then 0xffffffffffffffff else 0)
          (leading ++ [last])).toNat (2 ^ 64) := BitVec.toInt_eq_toNat_bmod _
    _ = Int.bmod (signedValue leading last) (2 ^ 64) := by
        rw [join_value, Int.natCast_emod, Int.emod_bmod, same, Int.add_mul_bmod_self_left]

theorem join_signed_value {leading : Bytes} {last : UInt8}
    (low : -2 ^ 63 ≤ signedValue leading last) (high : signedValue leading last < 2 ^ 63) :
    (join (if hasSign last then 0xffffffffffffffff else 0)
      (leading ++ [last])).toInt64.toInt = signedValue leading last := by
  rw [join_signed_wraps]
  apply Int.bmod_eq_of_le <;> omega

theorem read_signed_eq_ok_iff (input rest : Bytes) (value : Int64) :
    readSigned input = .ok (value, rest) ↔ input = encodeSigned value ++ rest := by
  rw [readSigned, scanSigned, scan_result_eq_ok_iff]
  constructor
  · rintro ⟨leading, last, groups, rfl, sound, rfl⟩
    obtain ⟨minimal, low, high⟩ := (signed_fault_none_iff groups).mp sound
    rw [encodeSigned, join_signed_value low high,
      integer_groups_of_minimal groups minimal, List.append_assoc, List.singleton_append]
  · rintro rfl
    obtain ⟨leading, last, same, groups, minimal, total⟩ := integer_groups_form value.toInt
    have low : -2 ^ 63 ≤ signedValue leading last := total ▸ value.le_toInt
    have high : signedValue leading last < 2 ^ 63 := total ▸ value.toInt_lt
    refine ⟨leading, last, groups, ?_, (signed_fault_none_iff groups).mpr ⟨minimal, low, high⟩, ?_⟩
    · rw [encodeSigned, same, List.append_assoc, List.singleton_append]
    · exact Int64.toInt_inj.mp ((join_signed_value low high).trans total)

end Signed

/-- No word takes more than ten groups. -/
theorem encode_unsigned_length_le (value : UInt64) : (encodeUnsigned value).length ≤ 10 := by
  apply natural_groups_length_le 9
  exact Nat.lt_trans value.toNat_lt (by decide)

theorem encode_unsigned_ne_nil (value : UInt64) : encodeUnsigned value ≠ [] := by
  obtain ⟨leading, last, same, -⟩ := natural_groups_form value.toNat
  rw [encodeUnsigned, same]
  exact List.append_ne_nil_of_right_ne_nil leading (List.cons_ne_nil last [])

theorem encode_signed_ne_nil (value : Int64) : encodeSigned value ≠ [] := by
  obtain ⟨leading, last, same, -⟩ := integer_groups_form value.toInt
  rw [encodeSigned, same]
  exact List.append_ne_nil_of_right_ne_nil leading (List.cons_ne_nil last [])

/-- Decoding undoes encoding on every word with any suffix, and whatever is accepted encodes again
to the very bytes that were read. -/
theorem strict_read_iff_encoded :
    (∀ (input rest : Bytes) (value : UInt64),
      readUnsigned input = .ok (value, rest) ↔ input = encodeUnsigned value ++ rest) ∧
    (∀ (input rest : Bytes) (value : Int64),
      readSigned input = .ok (value, rest) ↔ input = encodeSigned value ++ rest) :=
  ⟨read_unsigned_eq_ok_iff, read_signed_eq_ok_iff⟩

end Chunkscope.Varint
