import Chunkscope.Proofs.Column.Entries

/-!
# Boolean columns

A boolean column holds the lengths of runs and nothing else: what a run is made of follows from its
place alone. The runs that are written for some values stand for them again, and whatever the bytes
are, a limit takes the first values of the alternating sequence that the lengths give.
-/

namespace Chunkscope

namespace Booleans

/-- Runs of these lengths one after the other, the first one of `current`. -/
def alternating (current : Bool) : List Nat → List Bool
  | [] => []
  | count :: counts => List.replicate count current ++ alternating (!current) counts

/-- The lengths of some runs, which add up to any number. -/
def counts (runs : List (Field (Repeated Bool))) : List Nat :=
  runs.map fun run => run.value.count.toNat

section Writing

theorem alternating_run_lengths (current : Bool) (count : Nat) (values : List Bool) :
    alternating current (runLengths current count values) =
      List.replicate count current ++ values := by
  induction values generalizing current count with
  | nil =>
      rw [runLengths]
      split
      · rfl
      · next none =>
          obtain rfl : count = 0 := Nat.eq_zero_of_not_pos none
          rfl
  | cons value values induction =>
      rw [runLengths]
      split
      · next same =>
          rw [induction, same, List.replicate_succ', List.append_assoc]
          rfl
      · next different =>
          have other : (!current) = value := by
            cases current <;> cases value <;> simp_all
          rw [alternating, other, induction]
          rfl

theorem run_lengths_le (current : Bool) (count : Nat) (values : List Bool) :
    ∀ length ∈ runLengths current count values, length ≤ count + values.length := by
  induction values generalizing current count with
  | nil =>
      rw [runLengths]
      split <;> simp
  | cons value values induction =>
      rw [runLengths, List.length_cons]
      split
      · intro length member
        have bounded := induction current (count + 1) length member
        omega
      · intro length member
        rcases List.mem_cons.mp member with rfl | later
        · omega
        · have bounded := induction value 1 length later
          omega

end Writing

section Reading

/-- A run that was decoded from the length of a run, with nothing wrong with it. -/
def Shows (count : Nat) (run : Field (Repeated Bool)) : Prop :=
  run.value.count.toNat = count ∧ run.diagnostics = []

theorem next_run_written {count : Nat} (fits : count < 2 ^ 64) :
    ReadsBack walk.step (Varint.encodeUnsigned (UInt64.ofNat count)) (Shows count) := by
  constructor
  case nonempty => exact Varint.encode_unsigned_ne_nil _
  case shown =>
    intro current rest
    simp only [walk, nextRun, unsigned_field_encode]
    exact ⟨UInt64.toNat_ofNat_of_lt' fits, rfl⟩
  case rest =>
    intro current rest
    simp only [walk, nextRun, unsigned_field_encode]

theorem decode_written {values : List Bool} (few : values.length < 2 ^ 64) :
    List.Forall₂ Shows (runLengths false 0 values) (decodeBooleans (encodeBooleans values)) := by
  have each : ∀ count ∈ runLengths false 0 values,
      ReadsBack walk.step (Varint.encodeUnsigned (UInt64.ofNat count)) (Shows count) := by
    intro count member
    have bounded := run_lengths_le false 0 values count member
    exact next_run_written (by omega)
  exact Walk.pieces_written each false

theorem counts_of_shown {lengths : List Nat} {runs : List (Field (Repeated Bool))}
    (shown : List.Forall₂ Shows lengths runs) :
    counts runs = lengths ∧ ∀ run ∈ runs, run.diagnostics = [] := by
  induction shown with
  | nil => simp [counts]
  | cons first _ induction =>
      obtain ⟨same, clean⟩ := induction
      exact ⟨congrArg₂ List.cons first.1 same, List.forall_mem_cons.mpr ⟨first.2, clean⟩⟩

/-- The runs of a column take turns, whatever their lengths are. -/
theorem spelled_pieces (current : Bool) (input : Bytes) :
    Repeated.spelled ((walk.pieces current input).map Field.value) =
      alternating current (counts (walk.pieces current input)) := by
  induction current, input using walk.induct with
  | ended current => simp [Repeated.spelled, counts, alternating]
  | onward current byte rest induction =>
      rw [walk.pieces_cons, List.map_cons, Repeated.spelled_cons, induction]
      rfl

theorem expand_decoded (limit : Nat) (body : Bytes) :
    expandBooleans limit (decodeBooleans body) =
      (alternating false (counts (decodeBooleans body))).take limit := by
  rw [expandBooleans, Repeated.expand_eq_take]
  exact congrArg _ (spelled_pieces false body)

end Reading

end Booleans

/-- Booleans that were written are read back, as many of them as the limit allows. Of any bytes the
limit takes the first values of the runs that take turns. No list in memory has 2 ^ 64 elements. -/
theorem booleans_take_turns {values : List Bool} (few : values.length < 2 ^ 64) (limit : Nat)
    (body : Bytes) :
    (∀ run ∈ decodeBooleans (encodeBooleans values), run.diagnostics = []) ∧
      expandBooleans limit (decodeBooleans (encodeBooleans values)) =
        values.take (min limit values.length) ∧
      expandBooleans limit (decodeBooleans body) =
        (Booleans.alternating false (Booleans.counts (decodeBooleans body))).take limit := by
  obtain ⟨lengths, clean⟩ := Booleans.counts_of_shown (Booleans.decode_written few)
  refine ⟨clean, ?_, Booleans.expand_decoded limit body⟩
  rw [Booleans.expand_decoded, lengths, Booleans.alternating_run_lengths, List.replicate_zero,
    List.nil_append, List.take_eq_take_min]

/-- The first values are true, so a run without values stands before them. The two counts of the
other column add up to more than 64 bits, and the limit cuts the first of them. -/
theorem booleans_take_turns_of_huge_counts :
    [true, true, false].length < 2 ^ 64 ∧
      ((∀ run ∈ decodeBooleans (encodeBooleans [true, true, false]), run.diagnostics = []) ∧
        expandBooleans 2 (decodeBooleans (encodeBooleans [true, true, false])) =
          [true, true, false].take (min 2 [true, true, false].length) ∧
        expandBooleans 2 (decodeBooleans (Varint.encodeUnsigned 0xffffffffffffffff ++ [1])) =
          (Booleans.alternating false (Booleans.counts
            (decodeBooleans (Varint.encodeUnsigned 0xffffffffffffffff ++ [1])))).take 2) ∧
      Booleans.counts (decodeBooleans (Varint.encodeUnsigned 0xffffffffffffffff ++ [1])) =
        [2 ^ 64 - 1, 1] :=
  ⟨by decide, booleans_take_turns (by decide) 2 _, by decide +kernel⟩

end Chunkscope
