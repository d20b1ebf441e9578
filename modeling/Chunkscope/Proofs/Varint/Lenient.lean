import Chunkscope.Proofs.Varint.Canonical
import Mathlib.Algebra.BigOperators.Group.Finset.Basic
import Mathlib.Algebra.BigOperators.Ring.Finset

/-!
# What a lenient scan says about a malformed sequence

A scan takes the groups up to the first byte without a continuation bit, however many there are.
They denote an unbounded number; the scan keeps its low 64 bits and names the sequence overlong when
the number needs fewer groups, or else too large when it needs more than 64 bits. The scan itself
looks at no more than the number of groups and the last two of them.
-/

namespace Chunkscope.Varint

/-- The sum of the groups, each with its power of 128. -/
def unsignedNumber (groups : Bytes) : Nat :=
  ∑ place ∈ Finset.range groups.length, (groups.getD place 0).toNat % 128 * 128 ^ place

/-- Bit 6 of the last group stands for a negative number. -/
def signedNumber (groups : Bytes) : Int :=
  unsignedNumber groups - if (groups.getLastD 0).toNat.testBit 6 then 128 ^ groups.length else 0

/-- What is wrong with groups that denote a number, where numbers from `low` up to `high` fit. -/
def faultOf (number : Bytes → Int) (low high : Int) (groups : Bytes) : Option Fault :=
  if 1 < groups.length ∧ number groups.dropLast = number groups then some .overlong
  else if number groups < low ∨ high ≤ number groups then some .overflow
  else none

theorem unsigned_number_eq (groups : Bytes) : unsignedNumber groups = groupsValue groups := by
  induction groups with
  | nil => rfl
  | cons byte groups induction =>
      rw [unsignedNumber, List.length_cons, Finset.sum_range_succ', groups_value_cons, ← induction,
        unsignedNumber, Finset.mul_sum, Nat.add_comm]
      congr 1
      · simp
      · apply Finset.sum_congr rfl
        intro place _
        rw [List.getD_cons_succ, pow_succ]
        ring

theorem bit_six_iff (byte : UInt8) : byte.toNat.testBit 6 = true ↔ 64 ≤ byte.toNat % 128 := by
  have bounded := byte.toNat_lt
  rw [Nat.testBit_eq_decide_div_mod_eq, decide_eq_true_eq]
  omega

theorem signed_number_eq (leading : Bytes) (last : UInt8) :
    signedNumber (leading ++ [last]) = signedValue leading last := by
  have total := groups_value_append leading [last]
  rw [groups_value_cons, groups_value_nil] at total
  rw [signedNumber, unsigned_number_eq, total, List.getLastD_concat, signedValue, signedGroup,
    List.length_append, List.length_singleton, pow_succ]
  simp only [bit_six_iff]
  split <;> push_cast <;> ring

section Redundant

theorem last_group_adds_nothing_iff (leading : Bytes) (last : UInt8) :
    unsignedNumber leading = unsignedNumber (leading ++ [last]) ↔ last.toNat % 128 = 0 := by
  have positive : 0 < 128 ^ leading.length := Nat.pow_pos (by decide)
  rw [unsigned_number_eq, unsigned_number_eq, groups_value_append, groups_value_cons,
    groups_value_nil]
  constructor
  · intro same
    have nothing : 128 ^ leading.length * (last.toNat % 128 + 128 * 0) = 0 := by omega
    rcases Nat.mul_eq_zero.mp nothing with none | zero <;> omega
  · intro zero
    rw [zero]
    rfl

theorem last_group_repeats_sign_iff (leading : Bytes) (previous last : UInt8) :
    signedNumber (leading ++ [previous]) = signedNumber (leading ++ [previous] ++ [last]) ↔
      last.toNat % 128 = if previous.toNat.testBit 6 then 127 else 0 := by
  have positive : (0 : Int) < 128 ^ leading.length := by positivity
  -- Both numbers hold the groups before the last two; what is left are two groups of seven bits.
  have reduced : signedNumber (leading ++ [previous]) =
      signedNumber (leading ++ [previous] ++ [last]) ↔
      signedGroup previous = (previous.toNat % 128 : Nat) + 128 * signedGroup last := by
    rw [signed_number_eq, signed_number_eq, signedValue, signedValue, groups_value_append,
      groups_value_cons, groups_value_nil, List.length_append, List.length_singleton, pow_succ]
    push_cast
    constructor
    · intro same
      apply Int.eq_of_mul_eq_mul_left (ne_of_gt positive)
      linarith
    · intro same
      rw [same]
      ring
  rw [reduced, signedGroup, signedGroup]
  simp only [bit_six_iff]
  split <;> split <;> omega

end Redundant

section Faults

variable {leading : Bytes} {last : UInt8}

theorem several_groups_iff : 1 < (leading ++ [last]).length ↔ leading ≠ [] := by
  rw [List.length_append, List.length_singleton, ← List.length_pos_iff]
  omega

theorem fault_of_concat (number : Bytes → Int) (low high : Int) (leading : Bytes) (last : UInt8) :
    faultOf number low high (leading ++ [last]) =
      if leading ≠ [] ∧ number leading = number (leading ++ [last]) then some .overlong
      else if number (leading ++ [last]) < low ∨ high ≤ number (leading ++ [last]) then
        some .overflow
      else none := by
  rw [faultOf, List.dropLast_concat]
  simp only [several_groups_iff]

theorem unsigned_fault_eq (groups : Sealed leading last) :
    unsignedFault leading last =
      faultOf (fun groups => unsignedNumber groups) 0 (2 ^ 64) (leading ++ [last]) := by
  have adds : unsignedNumber leading = unsignedNumber (leading ++ [last]) ↔ last = 0 := by
    rw [last_group_adds_nothing_iff, Nat.mod_eq_of_lt groups.ended, ← UInt8.toNat_inj]
    rfl
  rw [unsignedFault, fault_of_concat]
  by_cases redundant : last = 0 ∧ leading ≠ []
  · have same : (unsignedNumber leading : Int) = unsignedNumber (leading ++ [last]) :=
      congrArg Nat.cast (adds.mpr redundant.1)
    rw [if_pos redundant, if_pos ⟨redundant.2, same⟩]
  · have minimal : UnsignedMinimal leading last := by
      intro zero
      by_contra several
      exact redundant ⟨zero, several⟩
    have needed :
        ¬(leading ≠ [] ∧ (unsignedNumber leading : Int) = unsignedNumber (leading ++ [last])) := by
      rintro ⟨several, same⟩
      exact several (minimal (adds.mp (Int.ofNat_inj.mp same)))
    rw [if_neg redundant, if_neg needed]
    apply if_congr _ rfl rfl
    rw [unsigned_overflow_iff groups minimal, unsigned_number_eq]
    omega

theorem not_signed_minimal_iff (ended : last.toNat < 128) :
    ¬SignedMinimal leading last ↔
      leading ≠ [] ∧ signedNumber leading = signedNumber (leading ++ [last]) := by
  rcases List.eq_nil_or_concat leading with rfl | ⟨more, previous, rfl⟩
  · simp [SignedMinimal]
  · rw [List.concat_eq_append, last_group_repeats_sign_iff, SignedMinimal, List.getLast?_concat,
      Nat.mod_eq_of_lt ended]
    simp [bit_six_iff]

theorem signed_fault_eq_fault_of (groups : Sealed leading last) :
    signedFault leading last =
      faultOf signedNumber (-2 ^ 63) (2 ^ 63) (leading ++ [last]) := by
  classical
  have redundant : ¬SignedMinimal leading last ↔ _ := not_signed_minimal_iff groups.ended
  rw [signed_fault_eq, low_bits_of_ended groups.ended, fault_of_concat]
  by_cases minimal : SignedMinimal leading last
  · have needed := mt redundant.mpr (not_not.mpr minimal)
    rw [if_pos minimal, if_neg needed]
    apply if_congr _ rfl rfl
    rw [signed_overflow_iff groups minimal, signed_number_eq]
    omega
  · rw [if_neg minimal, if_pos (redundant.mp minimal)]

end Faults

/-- The scan that looks for the first byte without a continuation bit and then goes by the number
that the groups up to it denote. -/
def numberScan {Value : Type} [OfNat Value 0] (reduce : Int → Value) (number : Bytes → Int)
    (low high : Int) (input : Bytes) : Scan Value :=
  match input.findIdx? fun byte => byte < 0x80 with
  | none => { value := 0, bytes := input, rest := [], fault := some .truncated }
  | some index =>
      let groups := input.take (index + 1)
      { value := reduce (number groups), bytes := groups, rest := input.drop (index + 1),
        fault := faultOf number low high groups }

section Scans

variable {input : Bytes}

theorem split_of_ended {index : Nat}
    (found : (input.findIdx? fun byte => byte < 0x80) = some index) :
    ∃ leading last, Sealed leading last ∧ input.take (index + 1) = leading ++ [last] ∧
      split input = some (leading, last, input.drop (index + 1)) := by
  obtain ⟨within, ended, going⟩ := List.findIdx?_eq_some_iff_getElem.mp found
  have groups : Sealed (input.take index) input[index] := by
    constructor
    · intro byte member
      obtain ⟨place, bound, rfl⟩ := List.mem_take_iff_getElem.mp member
      have above := going place (by omega)
      rw [decide_eq_true_eq, UInt8.not_lt] at above
      exact above
    · exact of_decide_eq_true ended
  refine ⟨input.take index, input[index], groups, (List.take_concat_get' _ _ _).symm, ?_⟩
  apply (split_eq_some_iff _ _ _ _).mpr
  refine ⟨groups, ?_⟩
  rw [List.getElem_cons_drop, List.take_append_drop]

theorem split_of_unended (none : (input.findIdx? fun byte => byte < 0x80) = none) :
    split input = Option.none := by
  cases cutting : split input with
  | none => rfl
  | some parts =>
      obtain ⟨leading, last, rest⟩ := parts
      obtain ⟨groups, rfl⟩ := (split_eq_some_iff _ _ _ _).mp cutting
      have going := List.findIdx?_eq_none_iff.mp none last (by simp)
      exact absurd groups.ended (of_decide_eq_false going)

/-- A scan is the one that goes by the number when its value and its fault are. -/
theorem scan_with_eq_number_scan {Value : Type} [OfNat Value 0] {reduce : Int → Value}
    {number : Bytes → Int} {low high : Int} {value : Bytes → UInt8 → Value}
    {fault : Bytes → UInt8 → Option Fault}
    (values : ∀ leading last, value leading last = reduce (number (leading ++ [last])))
    (faults : ∀ leading last, Sealed leading last →
      fault leading last = faultOf number low high (leading ++ [last])) (input : Bytes) :
    scanWith 0 value fault input = numberScan reduce number low high input := by
  unfold scanWith numberScan
  cases finding : input.findIdx? fun byte => byte < 0x80 with
  | none => rw [split_of_unended finding]
  | some index =>
      obtain ⟨leading, last, groups, taken, cutting⟩ := split_of_ended finding
      simp only [cutting, taken, values, faults leading last groups]

theorem join_unsigned_wraps (groups : Bytes) :
    join 0 groups = UInt64.ofInt (unsignedNumber groups) := by
  apply UInt64.toNat_inj.mp
  rw [join_value, UInt64.toNat_zero, Nat.mul_zero, Nat.add_zero, unsigned_number_eq, UInt64.ofInt,
    UInt64.toNat_ofNat']
  omega

theorem scan_unsigned_eq (input : Bytes) :
    scanUnsigned input =
      numberScan UInt64.ofInt (fun groups => unsignedNumber groups) 0 (2 ^ 64) input := by
  apply scan_with_eq_number_scan
  · intro leading last
    exact join_unsigned_wraps (leading ++ [last])
  · intro leading last groups
    exact unsigned_fault_eq groups

theorem scan_signed_eq (input : Bytes) :
    scanSigned input = numberScan Int64.ofInt signedNumber (-2 ^ 63) (2 ^ 63) input := by
  apply scan_with_eq_number_scan
  · intro leading last
    apply Int64.toInt_inj.mp
    rw [join_signed_wraps, signed_number_eq, Int64.toInt_ofInt]
    rfl
  · intro leading last groups
    exact signed_fault_eq_fault_of groups

end Scans

section Zero

theorem unsigned_number_pos_of_sign (leading : Bytes) {last : UInt8}
    (sign : last.toNat.testBit 6 = true) : 0 < unsignedNumber (leading ++ [last]) := by
  have group := (bit_six_iff last).mp sign
  have place : 0 < 128 ^ leading.length := Nat.pow_pos (by decide)
  rw [unsigned_number_eq, groups_value_append, groups_value_cons]
  exact Nat.add_pos_right _ (Nat.mul_pos place (by omega))

/-- Extending the sign changes nothing below it. -/
theorem whole_words_iff (groups : Bytes) :
    (2 ^ 64 : Int) ∣ signedNumber groups ↔ (2 ^ 64 : Int) ∣ unsignedNumber groups := by
  rcases List.eq_nil_or_concat groups with rfl | ⟨leading, last, rfl⟩
  · rfl
  rw [List.concat_eq_append, signedNumber, List.getLastD_concat]
  split
  · next sign =>
    by_cases long : 10 ≤ (leading ++ [last]).length
    · apply dvd_sub_left
      calc (2 ^ 64 : Int) ∣ 128 ^ 10 := by decide
        _ ∣ 128 ^ (leading ++ [last]).length := pow_dvd_pow 128 long
    -- In at most nine groups neither number is zero, and both are nearer to zero than 2 ^ 63.
    · have positive := unsigned_number_pos_of_sign leading sign
      have bounded := groups_value_lt (leading ++ [last])
      rw [← unsigned_number_eq] at bounded
      have most : 128 ^ (leading ++ [last]).length ≤ 128 ^ 9 :=
        Nat.pow_le_pow_right (by decide) (by omega)
      zify at bounded most positive
      omega
  · rw [Int.sub_zero]

/-- The same bytes are zero as a signed integer and as an unsigned one. -/
theorem signed_zero_iff (input : Bytes) :
    (scanSigned input).value = 0 ↔ (scanUnsigned input).value = 0 := by
  have unsigned (number : Int) : UInt64.ofInt number = 0 ↔ (2 ^ 64 : Int) ∣ number := by
    rw [← UInt64.toNat_inj, UInt64.ofInt, UInt64.toNat_ofNat', UInt64.toNat_zero]
    omega
  have signed (number : Int) : Int64.ofInt number = 0 ↔ (2 ^ 64 : Int) ∣ number := by
    rw [← Int64.toInt_inj, Int64.toInt_ofInt, Int64.toInt_zero]
    exact Int.dvd_iff_bmod_eq_zero.symm
  rw [scan_signed_eq, scan_unsigned_eq]
  unfold numberScan
  split
  · exact iff_of_true rfl rfl
  · exact (signed _).trans ((whole_words_iff _).trans (unsigned _).symm)

theorem encode_signed_zero : encodeSigned 0 = [0] := by decide +kernel

theorem encode_unsigned_zero : encodeUnsigned 0 = [0] := by decide +kernel

end Zero

/-- Lenient scans go by the unbounded number that a sequence denotes: they keep its low 64 bits,
call it overlong when the groups before the last one denote it too, and else too large when it does
not fit. That the last of several groups adds nothing shows in it and the one before it. -/
theorem lenient_scans_exact (input : Bytes) :
    scanUnsigned input =
      numberScan UInt64.ofInt (fun groups => unsignedNumber groups) 0 (2 ^ 64) input ∧
    scanSigned input = numberScan Int64.ofInt signedNumber (-2 ^ 63) (2 ^ 63) input ∧
    ∀ (leading : Bytes) (previous last : UInt8),
      (unsignedNumber (leading ++ [previous]) = unsignedNumber (leading ++ [previous] ++ [last]) ↔
        last.toNat % 128 = 0) ∧
      (signedNumber (leading ++ [previous]) = signedNumber (leading ++ [previous] ++ [last]) ↔
        last.toNat % 128 = if previous.toNat.testBit 6 then 127 else 0) := by
  refine ⟨scan_unsigned_eq input, scan_signed_eq input, ?_⟩
  intro leading previous last
  exact ⟨last_group_adds_nothing_iff _ last, last_group_repeats_sign_iff leading previous last⟩

end Chunkscope.Varint
