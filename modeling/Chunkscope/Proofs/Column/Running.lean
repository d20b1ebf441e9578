import Chunkscope.Proofs.Column.Limit
import Mathlib.Algebra.BigOperators.Group.List.Basic
import Mathlib.Tactic.Ring

/-!
# Running values of delta columns

Reducing an integer to 64 bits is additive and multiplicative, so a running value that has wrapped
around is still the reduction of the exact sum, and nothing is lost by going on with it. The
invariant of the walk is that its state is the reduction of the sum of all differences so far.
-/

namespace Chunkscope

/-- A piece of a list is what is read after the pieces before it. -/
theorem piece_of_take_up_to {State Piece : Type} (read : State → Bytes → Piece × State × Bytes)
    {count : Nat} {state : State} {input : Bytes} {before after : List Piece} {piece : Piece}
    (found : (takeUpTo read count state input).1 = before ++ piece :: after) :
    ∃ later rest, takeUpTo read before.length state input = (before, later, rest) ∧
      (read later rest).1 = piece := by
  induction count generalizing state input before with
  | zero => simp at found
  | succ count induction =>
      cases input with
      | nil => simp at found
      | cons byte next =>
          rw [take_up_to_succ] at found
          cases before with
          | nil =>
              obtain ⟨here, _⟩ := List.cons.inj found
              exact ⟨state, byte :: next, take_up_to_zero read _ _, here⟩
          | cons head before =>
              obtain ⟨rfl, tail⟩ := List.cons.inj found
              obtain ⟨later, rest, taken, here⟩ := induction tail
              refine ⟨later, rest, ?_, here⟩
              rw [List.length_cons, take_up_to_succ]
              simp only [taken]

namespace Delta

theorem word_eq_some {value : Int} {word : Int64} (fits : word? value = some word) :
    word = Int64.ofInt value ∧ word.toInt = value := by
  unfold word? at fits
  split at fits
  · next range =>
      obtain rfl := Option.some.inj fits
      exact ⟨rfl, Int64.toInt_ofInt_of_le range.1 (Int.lt_add_one_of_le range.2)⟩
  · cases fits

theorem reduced_count (count : UInt64) : count.toInt64 = Int64.ofInt count.toNat := by
  apply Int64.toInt_inj.mp
  rw [Int64.toInt_ofInt]
  exact BitVec.toInt_eq_toNat_bmod _

/-- Reducing on the way changes no later reduction. -/
theorem reduce_reduced (sum more : Int) :
    Int64.ofInt ((Int64.ofInt sum).toInt + more) = Int64.ofInt (sum + more) := by
  rw [Int64.ofInt_add, Int64.ofInt_toInt, Int64.ofInt_add]

theorem settled_sum (running delta : Int64) :
    (settle (word? (running.toInt + delta.toInt)) (running + delta)).1 =
      Int64.ofInt (running.toInt + delta.toInt) := by
  cases fits : word? (running.toInt + delta.toInt) with
  | none => rw [Int64.ofInt_add, Int64.ofInt_toInt, Int64.ofInt_toInt]; rfl
  | some word => exact (word_eq_some fits).1

/-- The checked way and the way around give the same, so it does not matter which one was taken. -/
theorem settled_advance (running delta : Int64) (count : UInt64) :
    (settle (advance? running delta count) (running + delta * count.toInt64)).1 =
      Int64.ofInt (running.toInt + delta.toInt * count.toNat) := by
  cases advanced : advance? running delta count with
  | none =>
      rw [Int64.ofInt_add, Int64.ofInt_mul, Int64.ofInt_toInt, Int64.ofInt_toInt, ← reduced_count]
      rfl
  | some word =>
      -- Neither the count nor the distance wrapped, so both are their own reductions.
      simp only [advance?, Option.bind_eq_bind, Option.bind_eq_some_iff] at advanced
      obtain ⟨steps, counted, distance, stepped, added⟩ := advanced
      rw [← (word_eq_some counted).2, ← (word_eq_some stepped).2]
      exact (word_eq_some added).1

theorem state_of_literal (running : Int64) (input : Bytes) :
    (literal running input).2.1 =
      Int64.ofInt (running.toInt + (Varint.scanSigned input).value.toInt) :=
  settled_sum running _

theorem state_of_repeated (running : Int64) (count : UInt64) (input : Bytes) :
    (repeated running count input).2.1 =
      Int64.ofInt (running.toInt + (Varint.scanSigned input).value.toInt * count.toNat) :=
  settled_advance running _ count

/-- Single differences that are all alike come to their number times the difference. -/
theorem state_of_equal_literals (running delta : Int64) {inputs : List Bytes}
    (alike : ∀ input ∈ inputs, (Varint.scanSigned input).value = delta) :
    inputs.foldl (fun running input => (literal running input).2.1) running =
      Int64.ofInt (running.toInt + delta.toInt * inputs.length) := by
  induction inputs generalizing running with
  | nil => simp
  | cons input inputs induction =>
      obtain ⟨first, later⟩ := List.forall_mem_cons.mp alike
      rw [List.foldl_cons, induction _ later, state_of_literal, first, reduce_reduced,
        List.length_cons]
      congr 1
      push_cast
      ring

end Delta

def DeltaValue.total (items : List (Field DeltaValue)) : Int :=
  (items.map fun item => item.value.delta.toInt).sum

@[simp] theorem DeltaValue.total_nil : total [] = 0 := rfl

theorem DeltaValue.total_cons (item : Field DeltaValue) (items : List (Field DeltaValue)) :
    total (item :: items) = item.value.delta.toInt + total items := by
  rw [total, List.map_cons, List.sum_cons, total]

namespace Run

/-- The exact sum of the differences of a run. -/
def distance : Run DeltaStep DeltaValue → Int
  | .null _ => 0
  | .repeated step => step.value.value.delta.toInt * step.value.count.toNat
  | .literal _ items => DeltaValue.total items

/-- Every running value that a run reports is the low 64 bits of the exact sum so far, where `sum`
is the one before the run. -/
inductive TrueAfter (sum : Int) : Run DeltaStep DeltaValue → Prop where
  | null {nulls : Field UInt64} : TrueAfter sum (.null nulls)
  | repeated {step : Field (Repeated DeltaStep)}
      (first : step.value.value.first = Int64.ofInt (sum + step.value.value.delta.toInt))
      (last : step.value.value.last =
        Int64.ofInt (sum + step.value.value.delta.toInt * step.value.count.toNat)) :
      TrueAfter sum (.repeated step)
  | literal {header : Field UInt64} {items : List (Field DeltaValue)}
      (each : ∀ before item after, items = before ++ item :: after →
        item.value.value =
          Int64.ofInt (sum + DeltaValue.total before + item.value.delta.toInt)) :
      TrueAfter sum (.literal header items)

end Run

namespace Delta

theorem state_of_items (count : Nat) (sum : Int) (input : Bytes) :
    (takeUpTo literal count (Int64.ofInt sum) input).2.1 =
      Int64.ofInt (sum + DeltaValue.total (takeUpTo literal count (Int64.ofInt sum) input).1) := by
  induction count generalizing sum input with
  | zero => simp
  | succ count induction =>
      cases input with
      | nil => simp
      | cons byte rest =>
          have state := state_of_literal (Int64.ofInt sum) (byte :: rest)
          rw [reduce_reduced] at state
          simp only [take_up_to_succ, state, induction, DeltaValue.total_cons, Int.add_assoc]
          rfl

theorem items_true {count : Nat} {sum : Int} {input : Bytes}
    {before after : List (Field DeltaValue)} {item : Field DeltaValue}
    (found : (takeUpTo literal count (Int64.ofInt sum) input).1 = before ++ item :: after) :
    item.value.value = Int64.ofInt (sum + DeltaValue.total before + item.value.delta.toInt) := by
  obtain ⟨running, rest, taken, rfl⟩ := piece_of_take_up_to literal found
  obtain rfl : running = Int64.ofInt (sum + DeltaValue.total before) := by
    have state := state_of_items before.length sum input
    rwa [taken] at state
  have value := state_of_literal (Int64.ofInt (sum + DeltaValue.total before)) rest
  rw [reduce_reduced] at value
  exact value

/-- One run keeps the invariant, and what it reports is true. -/
theorem next_run_true (limit : Nat) (sum : Int) (input : Bytes) :
    (payload.nextRun limit (Int64.ofInt sum) input).1.TrueAfter sum ∧
      (payload.nextRun limit (Int64.ofInt sum) input).2.1 =
        Int64.ofInt (sum + (payload.nextRun limit (Int64.ofInt sum) input).1.distance) := by
  unfold Payload.nextRun
  by_cases zero : (Varint.scanSigned input).value = 0
  · simp only [if_pos zero]
    exact ⟨.null, congrArg Int64.ofInt (Int.add_zero sum).symm⟩
  by_cases positive : 0 < (Varint.scanSigned input).value
  · simp only [if_neg zero, if_pos positive]
    have last := state_of_repeated (Int64.ofInt sum) (Varint.scanSigned input).value.toUInt64
      (Varint.scanSigned input).rest
    rw [reduce_reduced] at last
    refine ⟨.repeated ?first last, last⟩
    apply Eq.symm
    rw [Int64.ofInt_add, Int64.ofInt_toInt]
    rfl
  · simp only [if_neg zero, if_neg positive]
    constructor
    · exact .literal fun before item after found => items_true found
    · exact state_of_items _ sum _

theorem decode_runs_true (limit : Nat) (sum : Int) (input : Bytes)
    {before after : List (Run DeltaStep DeltaValue)} {run : Run DeltaStep DeltaValue}
    (found : payload.decodeRuns limit (Int64.ofInt sum) input = before ++ run :: after) :
    run.TrueAfter (sum + (before.map Run.distance).sum) := by
  generalize start : Int64.ofInt sum = state at found
  induction state, input using (payload.walk limit).induct generalizing sum before with
  | ended state => simp [Payload.decodeRuns] at found
  | onward state byte rest induction =>
      subst start
      obtain ⟨here, state⟩ := next_run_true limit sum (byte :: rest)
      rw [Payload.decode_runs_cons] at found
      cases before with
      | nil =>
          obtain ⟨rfl, _⟩ := List.cons.inj found
          rw [List.map_nil, List.sum_nil, Int.add_zero]
          exact here
      | cons head before =>
          obtain ⟨rfl, later⟩ := List.cons.inj found
          rw [List.map_cons, List.sum_cons, ← Int.add_assoc]
          exact induction _ state.symm later

end Delta

/-- The values that a column of differences reports are those of the exact running sums, whatever
overflowed on the way, and a repeated difference moves the running value as far as so many single
ones. -/
theorem running_values_true :
    (∀ limit body before run after, decodeDeltas limit body = before ++ run :: after →
      run.TrueAfter (before.map Run.distance).sum) ∧
    ∀ running count input (inputs : List Bytes), inputs.length = count.toNat →
      (∀ other ∈ inputs, (Varint.scanSigned other).value = (Varint.scanSigned input).value) →
      inputs.foldl (fun running input => (Delta.literal running input).2.1) running =
        (Delta.repeated running count input).2.1 := by
  constructor
  · intro limit body before run after found
    have valid := Delta.decode_runs_true limit 0 body found
    rw [Int.zero_add] at valid
    exact valid
  · intro running count input inputs many alike
    rw [Delta.state_of_equal_literals running _ alike, many]
    exact (Delta.state_of_repeated running count input).symm

section PastOverflow

/-- Twice the largest difference, and then five more. -/
def overflowingBody : Bytes :=
  [2, 0xff, 0xff, 0xff, 0xff, 0xff, 0xff, 0xff, 0xff, 0xff, 0, 0x7f, 5]

def overflowingRun : Run DeltaStep DeltaValue :=
  .repeated
    ⟨[2, 0xff, 0xff, 0xff, 0xff, 0xff, 0xff, 0xff, 0xff, 0xff, 0],
      ⟨2, Int64.maxValue, Int64.maxValue, -2⟩, [.errorIn "rle" .runningValueOverflow]⟩

def runPastOverflow : Run DeltaStep DeltaValue := .literal ⟨[0x7f], 1, []⟩ [⟨[5], ⟨5, 3⟩, []⟩]

theorem running_values_true_past_overflow :
    (decodeDeltas 9 overflowingBody = [overflowingRun] ++ runPastOverflow :: [] ∧
        runPastOverflow.TrueAfter ([overflowingRun].map Run.distance).sum) ∧
      [[5], [5]].foldl (fun running input => (Delta.literal running input).2.1) (-3) =
        (Delta.repeated (-3) 2 [5]).2.1 := by
  have read : decodeDeltas 9 overflowingBody = [overflowingRun] ++ runPastOverflow :: [] := by
    decide +kernel
  constructor
  · exact ⟨read, running_values_true.1 9 overflowingBody _ _ _ read⟩
  · exact running_values_true.2 (-3) 2 [5] [[5], [5]] rfl (by decide)

end PastOverflow

end Chunkscope
