import Chunkscope.Proofs.Column.RunFormat
import Chunkscope.Proofs.Column.Running

/-!
# Running values in range

A repeated difference is looked at once, after its last step. As its running values go one way only,
that is enough to know that none of them is negative or too large, as long as the one before them was
neither. So a column of which nothing is reported is one whose exact sums are all in range.
-/

namespace Chunkscope

namespace Delta

/-- The integers that a signed word holds. -/
def Fits (value : Int) : Prop := -2 ^ 63 ≤ value ∧ value < 2 ^ 63

/-- The integers that call for no report when they are a running value. -/
def Proper (value : Int) : Prop := 0 ≤ value ∧ value < 2 ^ 63

section Words

theorem Proper.fits {value : Int} (proper : Proper value) : Fits value :=
  ⟨Int.le_trans (by decide) proper.1, proper.2⟩

theorem fits_word (word : Int64) : Fits word.toInt := ⟨word.le_toInt, word.toInt_lt⟩

theorem to_int_of_int {value : Int} (fits : Fits value) : (Int64.ofInt value).toInt = value :=
  Int64.toInt_ofInt_of_le fits.1 fits.2

theorem word_of_fits {value : Int} (fits : Fits value) : word? value = some (Int64.ofInt value) :=
  if_pos ⟨fits.1, Int.le_of_lt_add_one fits.2⟩

theorem word_of_not_fits {value : Int} (large : ¬Fits value) : word? value = none :=
  if_neg fun fits => large ⟨fits.1, Int.lt_add_one_of_le fits.2⟩

section Distances

variable {running delta : Int64} {count : UInt64}

/-- Advancing looks at the distance first, and then at the sum. -/
theorem advance_of_fits (few : count.toNat < 2 ^ 63) (whole : Fits (delta.toInt * count.toNat)) :
    advance? running delta count = word? (running.toInt + delta.toInt * count.toNat) := by
  have counted : Fits count.toNat := ⟨by omega, by omega⟩
  simp only [advance?, word_of_fits counted, to_int_of_int counted, word_of_fits whole,
    to_int_of_int whole, Option.bind_eq_bind, Option.bind_some]

theorem advance_of_not_fits (few : count.toNat < 2 ^ 63)
    (large : ¬Fits (delta.toInt * count.toNat)) : advance? running delta count = none := by
  have counted : Fits count.toNat := ⟨by omega, by omega⟩
  simp only [advance?, word_of_fits counted, to_int_of_int counted, word_of_not_fits large,
    Option.bind_eq_bind, Option.bind_some, Option.bind_none]

end Distances

end Words

section Sums

/-- Every sum on the way through some differences is proper, the one before them included. -/
def SumsProper (sum : Int) (differences : List Int) : Prop :=
  ∀ few, few <+: differences → Proper (sum + few.sum)

variable {sum : Int} {differences : List Int}

theorem SumsProper.first (proper : SumsProper sum differences) : Proper sum := by
  have start := proper [] List.nil_prefix
  rwa [List.sum_nil, Int.add_zero] at start

theorem SumsProper.last (proper : SumsProper sum differences) : Proper (sum + differences.sum) :=
  proper differences (List.prefix_refl _)

theorem sums_proper_nil (sum : Int) : SumsProper sum [] ↔ Proper sum := by
  constructor
  · exact SumsProper.first
  · intro proper few before
    rw [List.prefix_nil.mp before, List.sum_nil, Int.add_zero]
    exact proper

theorem sums_proper_cons (sum difference : Int) (differences : List Int) :
    SumsProper sum (difference :: differences) ↔
      Proper sum ∧ SumsProper (sum + difference) differences := by
  constructor
  · intro proper
    refine ⟨proper.first, fun few before => ?_⟩
    have longer := proper (difference :: few) ((List.prefix_cons_inj difference).mpr before)
    rwa [List.sum_cons, ← Int.add_assoc] at longer
  · rintro ⟨start, later⟩ few before
    rcases List.prefix_cons_iff.mp before with rfl | ⟨more, rfl, within⟩
    · rwa [List.sum_nil, Int.add_zero]
    · rw [List.sum_cons, ← Int.add_assoc]
      exact later more within

theorem sums_proper_append (sum : Int) (first second : List Int) :
    SumsProper sum (first ++ second) ↔
      SumsProper sum first ∧ SumsProper (sum + first.sum) second := by
  induction first generalizing sum with
  | nil =>
      rw [List.nil_append, sums_proper_nil, List.sum_nil, Int.add_zero]
      exact (and_iff_right_of_imp SumsProper.first).symm
  | cons difference first induction =>
      rw [List.cons_append, sums_proper_cons, sums_proper_cons, induction, List.sum_cons, and_assoc,
        Int.add_assoc]

variable {low high start delta : Int} {count : Nat}

/-- Steps that are all alike go one way, so they stay between the start and the end. -/
theorem steps_between (first : low ≤ start ∧ start < high)
    (last : low ≤ start + delta * count ∧ start + delta * count < high) {steps : Nat}
    (few : steps ≤ count) : low ≤ start + delta * steps ∧ start + delta * steps < high := by
  have within : (steps : Int) ≤ count := Int.ofNat_le.mpr few
  have positive : (0 : Int) ≤ steps := Int.natCast_nonneg steps
  rcases Int.le_total 0 delta with up | down
  · have above := Int.mul_nonneg up positive
    have below := Int.mul_le_mul_of_nonneg_left within up
    omega
  · have below := Int.mul_nonpos_of_nonpos_of_nonneg down positive
    have above := Int.mul_le_mul_of_nonpos_left down within
    omega

theorem sum_replicate_eq (count : Nat) (delta : Int) :
    (List.replicate count delta).sum = delta * count := by
  rw [List.sum_replicate, nsmul_eq_mul, mul_comm]

theorem sums_proper_replicate (proper : Proper start) :
    SumsProper start (List.replicate count delta) ↔ Proper (start + delta * count) := by
  constructor
  · intro sums
    have last := sums.last
    rwa [sum_replicate_eq] at last
  · intro last few before
    obtain ⟨shorter, alike⟩ := List.prefix_replicate_iff.mp before
    rw [alike, sum_replicate_eq]
    exact steps_between proper last shorter

end Sums

end Delta

section Silence

/-- Nothing is said about a running value, neither that it is negative nor that it overflowed. -/
def Diagnostic.Silent (diagnostics : List Diagnostic) : Prop :=
  ∀ diagnostic ∈ diagnostics,
    diagnostic.problem ≠ .negativeRunningValue ∧ diagnostic.problem ≠ .runningValueOverflow

def Run.Silent (run : Run DeltaStep DeltaValue) : Prop := Diagnostic.Silent run.diagnostics

/-- The differences of a run, one for each step. -/
def Run.differences : Run DeltaStep DeltaValue → List Int
  | .null _ => []
  | .repeated step => List.replicate step.value.count.toNat step.value.value.delta.toInt
  | .literal _ items => items.map fun item => item.value.delta.toInt

theorem Run.sum_differences (run : Run DeltaStep DeltaValue) :
    run.differences.sum = run.distance := by
  cases run with
  | null nulls => rfl
  | repeated step => exact Delta.sum_replicate_eq _ _
  | literal header items => rfl

namespace Diagnostic

theorem silent_append (first second : List Diagnostic) :
    Silent (first ++ second) ↔ Silent first ∧ Silent second :=
  List.forall_mem_append

theorem silent_nil : Silent [] := by simp [Silent]

theorem silent_behind {first : List Diagnostic} (silent : Silent first)
    (second : List Diagnostic) : Silent (first ++ second) ↔ Silent second := by
  rw [silent_append, and_iff_right silent]

theorem silent_of_fault (part : Option String) (fault : Option Varint.Fault) :
    Silent (ofFault part fault) := by
  cases fault with
  | none => simp [Silent]
  | some fault => simp [Silent, ofFault]

theorem silent_shortfall (declared : UInt64) (limit found : Nat) (rest : Bytes) :
    Silent (Payload.shortfall declared limit found rest) := by
  unfold Payload.shortfall Diagnostic.missing
  split
  · split <;> simp [Silent, error]
  · split <;> simp [Silent, error]

end Diagnostic

namespace Delta

open Diagnostic (Silent)

theorem settle_none_not_silent (wrapped : Int64) : ¬Silent (settle none wrapped).2 := by
  simp [Silent, settle, Diagnostic.errorIn]

theorem settle_some_silent_iff (word wrapped : Int64) :
    Silent (settle (some word) wrapped).2 ↔ 0 ≤ word.toInt := by
  have sign : word < 0 ↔ ¬0 ≤ word.toInt := by
    rw [Int64.lt_iff_toInt_lt, Int64.toInt_zero, Int.not_le]
  simp only [settle, sign]
  by_cases positive : 0 ≤ word.toInt
  · simp [Silent, positive]
  · simp [Silent, positive, Diagnostic.warningIn]

theorem settle_word_silent_iff (value : Int) (wrapped : Int64) :
    Silent (settle (word? value) wrapped).2 ↔ Proper value := by
  by_cases fits : Fits value
  · rw [word_of_fits fits, settle_some_silent_iff, to_int_of_int fits]
    exact (and_iff_left fits.2).symm
  · rw [word_of_not_fits fits]
    exact iff_of_false (settle_none_not_silent wrapped) (mt Proper.fits fits)

/-- No distance between two proper running values is too large, so looking at the distance first adds
no report. -/
theorem settle_advance_silent_iff {running delta : Int64} {count : UInt64}
    (few : count.toNat < 2 ^ 63) (proper : Proper running.toInt) (wrapped : Int64) :
    Silent (settle (advance? running delta count) wrapped).2 ↔
      Proper (running.toInt + delta.toInt * count.toNat) := by
  by_cases whole : Fits (delta.toInt * count.toNat)
  · rw [advance_of_fits few whole]
    exact settle_word_silent_iff _ wrapped
  · rw [advance_of_not_fits few whole]
    apply iff_of_false (settle_none_not_silent wrapped)
    intro later
    apply whole
    unfold Proper Fits at *
    omega

section Payloads

variable {running : Int64}

theorem literal_silent_iff (running : Int64) (input : Bytes) :
    Silent (literal running input).1.diagnostics ↔
      Proper (running.toInt + (literal running input).1.value.delta.toInt) :=
  (Diagnostic.silent_behind (Diagnostic.silent_of_fault _ _) _).trans (settle_word_silent_iff _ _)

theorem repeated_silent_iff {count : UInt64} (few : count.toNat < 2 ^ 63)
    (proper : Proper running.toInt) (input : Bytes) :
    Silent (repeated running count input).1.diagnostics ↔
      Proper (running.toInt + (repeated running count input).1.value.delta.toInt * count.toNat) :=
  (Diagnostic.silent_behind (Diagnostic.silent_of_fault _ _) _).trans
    (settle_advance_silent_iff few proper _)

end Payloads

theorem items_silent_iff (count : Nat) {sum : Int} (proper : Proper sum) (input : Bytes) :
    Silent ((takeUpTo literal count (Int64.ofInt sum) input).1.flatMap Field.diagnostics) ↔
      SumsProper sum ((takeUpTo literal count (Int64.ofInt sum) input).1.map
        fun item => item.value.delta.toInt) := by
  induction count generalizing sum input with
  | zero =>
      rw [take_up_to_zero, List.map_nil, sums_proper_nil]
      exact iff_of_true Diagnostic.silent_nil proper
  | succ count induction =>
      cases input with
      | nil =>
          rw [take_up_to_nil, List.map_nil, sums_proper_nil]
          exact iff_of_true Diagnostic.silent_nil proper
      | cons byte rest =>
          have first := literal_silent_iff (Int64.ofInt sum) (byte :: rest)
          have state := state_of_literal (Int64.ofInt sum) (byte :: rest)
          rw [to_int_of_int proper.fits] at first
          rw [reduce_reduced] at state
          simp only [take_up_to_succ, List.flatMap_cons, List.map_cons, Diagnostic.silent_append,
            first, sums_proper_cons, and_iff_right proper, state]
          -- A sum that is proper starts the rest of the list; one that is not fails both sides.
          constructor
          · rintro ⟨next, later⟩
            exact (induction next _).mp later
          · intro sums
            exact ⟨sums.first, (induction sums.first _).mpr sums⟩

theorem next_run_silent_iff (limit : Nat) {sum : Int} (proper : Proper sum) (input : Bytes) :
    (payload.nextRun limit (Int64.ofInt sum) input).1.Silent ↔
      SumsProper sum (payload.nextRun limit (Int64.ofInt sum) input).1.differences := by
  unfold Payload.nextRun
  by_cases zero : (Varint.scanSigned input).value = 0
  · simp only [if_pos zero, Run.differences, sums_proper_nil]
    refine iff_of_true ?_ proper
    exact (Diagnostic.silent_append _ _).mpr
      ⟨Diagnostic.silent_of_fault _ _, Diagnostic.silent_of_fault _ _⟩
  by_cases positive : 0 < (Varint.scanSigned input).value
  · simp only [if_neg zero, if_pos positive, Run.differences, sums_proper_replicate proper]
    have start : Proper (Int64.ofInt sum).toInt := by rwa [to_int_of_int proper.fits]
    have silent := repeated_silent_iff (RunFormat.count_lt positive) start (Varint.scanSigned input).rest
    rw [to_int_of_int proper.fits] at silent
    exact (Diagnostic.silent_behind (Diagnostic.silent_of_fault _ _) _).trans silent
  · simp only [if_neg zero, if_neg positive, Run.differences]
    have header := fun found rest => (Diagnostic.silent_append _ _).mpr
      ⟨Diagnostic.silent_of_fault (some "length") (Varint.scanSigned input).fault,
        Diagnostic.silent_shortfall (-(Varint.scanSigned input).value).toUInt64 limit found rest⟩
    exact (Diagnostic.silent_behind (header _ _) _).trans (items_silent_iff _ proper _)

theorem decode_runs_silent_iff (limit : Nat) {sum : Int} (proper : Proper sum) (input : Bytes) :
    (∀ run ∈ payload.decodeRuns limit (Int64.ofInt sum) input, run.Silent) ↔
      SumsProper sum
        ((payload.decodeRuns limit (Int64.ofInt sum) input).flatMap Run.differences) := by
  generalize start : Int64.ofInt sum = state
  induction state, input using (payload.walk limit).induct generalizing sum with
  | ended state =>
      simp only [Payload.decodeRuns, Walk.pieces_nil, List.flatMap_nil, sums_proper_nil]
      exact iff_of_true (List.forall_mem_nil _) proper
  | onward state byte rest induction =>
      subst start
      have first := next_run_silent_iff limit proper (byte :: rest)
      have state := (next_run_true limit sum (byte :: rest)).2
      rw [Payload.decode_runs_cons, List.forall_mem_cons, first, List.flatMap_cons,
        sums_proper_append, Run.sum_differences]
      apply and_congr_right
      intro here
      have next := here.last
      rw [Run.sum_differences] at next
      exact induction next state.symm

end Delta

/-- Nothing is said about the running values of a column exactly when all of them, the ones inside of
repeated differences included, are neither negative nor too large as exact sums. -/
theorem silent_iff_sums_proper (limit : Nat) (body : Bytes) :
    (∀ run ∈ decodeDeltas limit body, run.Silent) ↔
      ∀ few, few <+: (decodeDeltas limit body).flatMap Run.differences →
        0 ≤ few.sum ∧ few.sum < 2 ^ 63 := by
  have start : Delta.Proper 0 := ⟨Int.le_refl 0, by decide⟩
  apply (Delta.decode_runs_silent_iff limit start body).trans
  unfold Delta.SumsProper Delta.Proper
  simp only [Int.zero_add]
  exact Iff.rfl

/-- Two steps of three up and one down stay in range. Two steps of one down from zero do not, and the
step up behind them comes too late. -/
theorem silent_iff_sums_proper_of_two_bodies :
    (decodeDeltas 5 [2, 3, 0x7f, 0x7d]).flatMap Run.differences = [3, 3, -3] ∧
      (∀ run ∈ decodeDeltas 5 [2, 3, 0x7f, 0x7d], run.Silent) ∧
      (decodeDeltas 5 [2, 0x7f, 0x7f, 3]).flatMap Run.differences = [-1, -1, 3] ∧
      ¬∀ run ∈ decodeDeltas 5 [2, 0x7f, 0x7f, 3], run.Silent := by
  have proper : (decodeDeltas 5 [2, 3, 0x7f, 0x7d]).flatMap Run.differences = [3, 3, -3] := by
    decide +kernel
  have below : (decodeDeltas 5 [2, 0x7f, 0x7f, 3]).flatMap Run.differences = [-1, -1, 3] := by
    decide +kernel
  refine ⟨proper, ?_, below, ?_⟩
  · rw [silent_iff_sums_proper, proper]
    simp only [← List.mem_inits]
    decide
  · rw [silent_iff_sums_proper, below]
    intro sums
    exact absurd (sums [-1] ⟨[-1, 3], rfl⟩) (by decide)

end Silence

end Chunkscope
