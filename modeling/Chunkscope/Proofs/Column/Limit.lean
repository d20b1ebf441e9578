import Mathlib.Data.List.Infix
import Chunkscope.Column.Delta
import Chunkscope.Column.Strings

/-!
# What a limit does to a run-length column

A limit stops a list of payloads that announces too many. Up to the end of the first list that is
stopped, a smaller limit gives the values that a larger one gives, only fewer of them. What comes
after is another matter: the walk goes on behind the last payload that was read and takes the
payloads left there for runs.
-/

namespace Chunkscope

/-- The values that the payloads of one kind of column stand for. -/
structure PayloadValues (Step Item Value : Type) where
  ofStep : Repeated Step → List Value
  ofItem : Item → Value

namespace PayloadValues

def plain (Value : Type) : PayloadValues Value Value Value where
  ofStep step := List.replicate step.count.toNat step.value
  ofItem := id

/-- The values of a column of differences are the running ones, one for each step. -/
def deltas : PayloadValues DeltaStep DeltaValue Int64 where
  ofStep step :=
    (List.range step.count.toNat).map fun index =>
      step.value.first + step.value.delta * Int64.ofNat index
  ofItem := DeltaValue.value

example : deltas.ofStep ⟨3, ⟨2, 12, 16⟩⟩ = [12, 14, 16] := by decide

end PayloadValues

def Diagnostic.isTooMany (diagnostic : Diagnostic) : Bool :=
  match diagnostic.problem with
  | .tooManyValues _ => true
  | _ => false

namespace Run

variable {Step Item Value : Type}

def values (meaning : PayloadValues Step Item Value) : Run Step Item → List (Option Value)
  | .null nulls => List.replicate nulls.value.toNat none
  | .repeated step => (meaning.ofStep step.value).map some
  | .literal _ items => items.map fun item => some (meaning.ofItem item.value)

/-- Whether a run is a list of payloads marked as one with too many values. -/
def isStopped : Run Step Item → Bool
  | .literal header _ => header.diagnostics.any Diagnostic.isTooMany
  | _ => false

/-- The runs up to the first one that was stopped, that one included. -/
def throughStop : List (Run Step Item) → List (Run Step Item)
  | [] => []
  | run :: runs => if run.isStopped then [run] else run :: throughStop runs

end Run

section Lists

variable {State Piece : Type} (read : State → Bytes → Piece × State × Bytes) {few many : Nat}
  (state : State) (input : Bytes)

theorem take_up_to_prefix (le : few ≤ many) :
    (takeUpTo read few state input).1 <+: (takeUpTo read many state input).1 := by
  rw [← Nat.add_sub_cancel' le, take_up_to_add]
  exact List.prefix_append _ _

theorem take_up_to_of_ended (le : few ≤ many)
    (ended : (takeUpTo read few state input).2.2 = []) :
    takeUpTo read many state input = takeUpTo read few state input := by
  rw [← Nat.add_sub_cancel' le, take_up_to_add]
  simp only [ended, take_up_to_nil, List.append_nil]
  rw [← ended]

end Lists

section Shortfall

theorem of_fault_not_too_many (part : Option String) (fault : Option Varint.Fault) :
    (Diagnostic.ofFault part fault).any Diagnostic.isTooMany = false := by
  cases fault <;> rfl

variable {declared : UInt64} {limit found : Nat} {rest : Bytes}

theorem shortfall_is_too_many_iff :
    (Payload.shortfall declared limit found rest).any Diagnostic.isTooMany = true ↔
      rest ≠ [] ∧ found < declared.toNat := by
  unfold Payload.shortfall Diagnostic.missing
  by_cases ended : rest = [] <;> by_cases short : found < declared.toNat <;>
    simp [ended, short, Diagnostic.isTooMany, Diagnostic.error]

theorem shortfall_of_not_stopped (all : ¬(rest ≠ [] ∧ found < declared.toNat)) (other : Nat) :
    Payload.shortfall declared other found rest = Payload.shortfall declared limit found rest := by
  unfold Payload.shortfall
  by_cases ended : rest = []
  · rw [if_pos ended, if_pos ended]
  · have complete : ¬found < declared.toNat := fun short => all ⟨ended, short⟩
    rw [if_neg ended, if_neg ended, if_neg complete, if_neg complete]

end Shortfall

namespace Run

variable {Step Item Value : Type}

theorem through_stop_cons (run : Run Step Item) (runs : List (Run Step Item)) :
    throughStop (run :: runs) = run :: if run.isStopped then [] else throughStop runs := by
  rw [throughStop]
  split <;> rfl

theorem through_stop_prefix (runs : List (Run Step Item)) : throughStop runs <+: runs := by
  induction runs with
  | nil => exact List.prefix_refl []
  | cons run runs induction =>
      rw [through_stop_cons, List.prefix_cons_inj]
      split
      · exact List.nil_prefix
      · exact induction

theorem stopped_through_stop {runs : List (Run Step Item)}
    (stopped : ∃ run ∈ runs, run.isStopped = true) :
    ∃ run ∈ throughStop runs, run.isStopped = true := by
  induction runs with
  | nil => simp at stopped
  | cons run runs induction =>
      rw [through_stop_cons]
      by_cases here : run.isStopped = true
      · exact ⟨run, List.mem_cons_self, here⟩
      · rw [if_neg here]
        obtain ⟨first, member, found⟩ := stopped
        have behind : first ∈ runs := by
          rcases List.mem_cons.mp member with rfl | behind
          · exact absurd found here
          · exact behind
        obtain ⟨last, through, ends⟩ := induction ⟨first, behind, found⟩
        exact ⟨last, List.mem_cons_of_mem _ through, ends⟩

theorem values_prefix (meaning : PayloadValues Step Item Value) {few many : List (Run Step Item)}
    (before : few <+: many) : few.flatMap (values meaning) <+: many.flatMap (values meaning) := by
  obtain ⟨more, rfl⟩ := before
  rw [List.flatMap_append]
  exact List.prefix_append _ _

end Run

namespace Payload

variable {State Step Item Value : Type} (payload : Payload State Step Item) {limit larger : Nat}

/-- Reads the payloads behind the header of a list, as many as the limit allows. -/
def readList (limit : Nat) (header : Field UInt64) (state : State) (input : Bytes) :
    Run Step Item × State × Bytes :=
  let taken := takeUpTo payload.literal (min header.value.toNat limit) state input
  (.literal (header.add (shortfall header.value limit taken.1.length taken.2.2)) taken.1, taken.2)

section Lists

variable {state : State} {header : Field UInt64} {input : Bytes}

theorem stopped_list_iff (clean : header.diagnostics.any Diagnostic.isTooMany = false) :
    (payload.readList limit header state input).1.isStopped = true ↔
      (takeUpTo payload.literal (min header.value.toNat limit) state input).2.2 ≠ [] ∧
        (takeUpTo payload.literal (min header.value.toNat limit) state input).1.length <
          header.value.toNat := by
  simp only [readList, Run.isStopped, Field.add, List.any_append, clean, Bool.false_or]
  exact shortfall_is_too_many_iff

theorem read_list_of_not_stopped (le : limit ≤ larger)
    (clean : header.diagnostics.any Diagnostic.isTooMany = false)
    (whole : ¬(payload.readList limit header state input).1.isStopped = true) :
    payload.readList larger header state input = payload.readList limit header state input := by
  rw [stopped_list_iff payload clean] at whole
  have bounded := length_take_up_to_le payload.literal (min header.value.toNat limit) state input
  have same : takeUpTo payload.literal (min header.value.toNat larger) state input =
      takeUpTo payload.literal (min header.value.toNat limit) state input := by
    by_cases ended :
        (takeUpTo payload.literal (min header.value.toNat limit) state input).2.2 = []
    · exact take_up_to_of_ended payload.literal state input (by omega) ended
    · have allowed : header.value.toNat ≤ limit := by
        by_contra more
        exact whole ⟨ended, by omega⟩
      rw [Nat.min_eq_left allowed, Nat.min_eq_left (Nat.le_trans allowed le)]
  simp only [readList, same]
  rw [shortfall_of_not_stopped whole larger]

end Lists

section Steps

/-- Only the payloads of a list depend on the limit. -/
theorem next_run_cases (state : State) (input : Bytes) :
    (∃ run later, run.isStopped = false ∧
        ∀ limit, payload.nextRun limit state input = (run, later)) ∨
      ∃ header rest, header.diagnostics.any Diagnostic.isTooMany = false ∧
        ∀ limit, payload.nextRun limit state input = payload.readList limit header state rest := by
  unfold nextRun
  by_cases zero : (Varint.scanSigned input).value = 0
  · simp only [if_pos zero]
    exact .inl ⟨_, _, rfl, fun _ => rfl⟩
  by_cases positive : 0 < (Varint.scanSigned input).value
  · simp only [if_neg zero, if_pos positive]
    exact .inl ⟨_, _, rfl, fun _ => rfl⟩
  · simp only [if_neg zero, if_neg positive]
    exact .inr ⟨⟨(Varint.scanSigned input).bytes, (-(Varint.scanSigned input).value).toUInt64,
      Diagnostic.ofFault (some "length") (Varint.scanSigned input).fault⟩,
      (Varint.scanSigned input).rest, of_fault_not_too_many _ _, fun _ => rfl⟩

variable {state : State} {input : Bytes}

theorem rest_of_stopped (stopped : (payload.nextRun limit state input).1.isStopped = true) :
    (payload.nextRun limit state input).2.2 ≠ [] := by
  rcases payload.next_run_cases state input with
    ⟨run, later, whole, step⟩ | ⟨header, rest, clean, step⟩
  · rw [step, whole] at stopped
    cases stopped
  · rw [step] at stopped ⊢
    exact ((payload.stopped_list_iff clean).mp stopped).1

/-- A list is stopped when it has as many payloads as the limit allows. -/
theorem items_of_stopped (stopped : (payload.nextRun limit state input).1.isStopped = true) :
    ∃ header items, (payload.nextRun limit state input).1 = .literal header items ∧
      items.length = limit := by
  rcases payload.next_run_cases state input with
    ⟨run, later, whole, step⟩ | ⟨header, rest, clean, step⟩
  · rw [step, whole] at stopped
    cases stopped
  · rw [step] at stopped ⊢
    obtain ⟨left, short⟩ := (payload.stopped_list_iff clean).mp stopped
    have count := length_take_up_to_of_left payload.literal state rest left
    refine ⟨_, _, rfl, ?_⟩
    omega

theorem next_run_of_not_stopped (le : limit ≤ larger)
    (whole : ¬(payload.nextRun limit state input).1.isStopped = true) :
    payload.nextRun larger state input = payload.nextRun limit state input := by
  rcases payload.next_run_cases state input with
    ⟨run, later, _, step⟩ | ⟨header, rest, clean, step⟩
  · rw [step, step]
  · rw [step] at whole
    rw [step, step]
    exact payload.read_list_of_not_stopped le clean whole

theorem values_next_run_prefix (meaning : PayloadValues Step Item Value) (le : limit ≤ larger)
    (state : State) (input : Bytes) :
    (payload.nextRun limit state input).1.values meaning <+:
      (payload.nextRun larger state input).1.values meaning := by
  rcases payload.next_run_cases state input with
    ⟨run, later, _, step⟩ | ⟨header, rest, _, step⟩
  · rw [step, step]
  · rw [step, step]
    apply List.IsPrefix.map
    exact take_up_to_prefix payload.literal state rest (by omega)

end Steps

section Walks

variable (state : State) (input : Bytes)

theorem decode_runs_cons (limit : Nat) (byte : UInt8) (rest : Bytes) :
    payload.decodeRuns limit state (byte :: rest) =
      let next := payload.nextRun limit state (byte :: rest)
      next.1 :: payload.decodeRuns limit next.2.1 next.2.2 :=
  (payload.walk limit).pieces_cons state byte rest

theorem values_through_stop_prefix (meaning : PayloadValues Step Item Value)
    (le : limit ≤ larger) :
    (Run.throughStop (payload.decodeRuns limit state input)).flatMap (Run.values meaning) <+:
      (Run.throughStop (payload.decodeRuns larger state input)).flatMap (Run.values meaning) := by
  induction state, input using (payload.walk limit).induct with
  | ended state => simp [decodeRuns, Run.throughStop]
  | onward state byte rest induction =>
      have first := payload.values_next_run_prefix meaning le state (byte :: rest)
      rw [decode_runs_cons, decode_runs_cons, Run.through_stop_cons, Run.through_stop_cons]
      -- Both walks take the same run here, unless the smaller limit stops it: then it is the last.
      by_cases stopped : (payload.nextRun limit state (byte :: rest)).1.isStopped = true
      · simp only [if_pos stopped, List.flatMap_cons, List.flatMap_nil, List.append_nil]
        exact first.trans (List.prefix_append _ _)
      · simp only [payload.next_run_of_not_stopped le stopped, if_neg stopped, List.flatMap_cons]
        exact (List.prefix_append_right_inj _).mpr induction

theorem decode_runs_of_none_stopped (le : limit ≤ larger)
    (whole : ∀ run ∈ payload.decodeRuns limit state input, ¬run.isStopped = true) :
    payload.decodeRuns larger state input = payload.decodeRuns limit state input := by
  induction state, input using (payload.walk limit).induct with
  | ended state => simp [decodeRuns]
  | onward state byte rest induction =>
      rw [decode_runs_cons] at whole
      obtain ⟨first, later⟩ := List.forall_mem_cons.mp whole
      simp only [decode_runs_cons, payload.next_run_of_not_stopped le first]
      exact congrArg _ (induction later)

theorem through_stop_eq_iff (limit : Nat) :
    Run.throughStop (payload.decodeRuns limit state input) = payload.decodeRuns limit state input ↔
      ∀ run ∈ payload.decodeRuns limit state input, ¬run.isStopped = true := by
  induction state, input using (payload.walk limit).induct with
  | ended state => simp [decodeRuns, Run.throughStop]
  | onward state byte rest induction =>
      rw [decode_runs_cons, Run.through_stop_cons, List.forall_mem_cons, List.cons_inj_right]
      by_cases stopped : (payload.nextRun limit state (byte :: rest)).1.isStopped = true
      -- There are bytes behind a list that was stopped, and the walk makes a run of them.
      · obtain ⟨next, left, more⟩ := List.exists_cons_of_ne_nil (payload.rest_of_stopped stopped)
        rw [if_pos stopped, more, decode_runs_cons]
        constructor
        · intro none
          cases none
        · intro whole
          exact absurd stopped whole.1
      · rw [if_neg stopped]
        constructor
        · intro same
          exact ⟨stopped, induction.mp same⟩
        · intro whole
          exact induction.mpr whole.2

end Walks

end Payload

/-- How the runs that some limit gives compare with those that a larger limit gives. -/
structure Run.Limited {Step Item Value : Type} (meaning : PayloadValues Step Item Value)
    (few many : List (Run Step Item)) : Prop where
  values_prefix :
    (throughStop few).flatMap (values meaning) <+: (throughStop many).flatMap (values meaning)
  among_all : (throughStop few).flatMap (values meaning) <+: many.flatMap (values meaning)
  eq_of_none_stopped : (∀ run ∈ few, ¬run.isStopped = true) → many = few
  ends_iff : throughStop few = few ↔ ∀ run ∈ few, ¬run.isStopped = true

theorem Payload.limited {State Step Item Value : Type} (payload : Payload State Step Item)
    (meaning : PayloadValues Step Item Value) {limit larger : Nat} (le : limit ≤ larger)
    (state : State) (body : Bytes) :
    Run.Limited meaning (payload.decodeRuns limit state body)
      (payload.decodeRuns larger state body) where
  values_prefix := payload.values_through_stop_prefix state body meaning le
  among_all :=
    (payload.values_through_stop_prefix state body meaning le).trans
      (Run.values_prefix meaning (Run.through_stop_prefix _))
  eq_of_none_stopped := payload.decode_runs_of_none_stopped state body le
  ends_iff := payload.through_stop_eq_iff state body limit

/-- A smaller limit gives fewer values of the same, up to the end of the first list it stops. -/
theorem limit_keeps_values {limit larger : Nat} (le : limit ≤ larger) (body : Bytes) :
    Run.Limited (.plain UInt64) (decodeIntegers limit body) (decodeIntegers larger body) ∧
      Run.Limited (.plain String) (decodeStrings limit body) (decodeStrings larger body) ∧
      Run.Limited .deltas (decodeDeltas limit body) (decodeDeltas larger body) := by
  refine ⟨?_, ?_, ?_⟩
  · exact Payload.limited _ _ le () body
  · exact Payload.limited _ _ le () body
  · exact Payload.limited _ _ le 0 body

theorem limit_keeps_values_of_stopped_list :
    1 ≤ 3 ∧
      (Run.Limited (.plain UInt64) (decodeIntegers 1 [0x7d, 5, 1, 7])
          (decodeIntegers 3 [0x7d, 5, 1, 7]) ∧
        Run.Limited (.plain String) (decodeStrings 1 [0x7d, 5, 1, 7])
          (decodeStrings 3 [0x7d, 5, 1, 7]) ∧
        Run.Limited .deltas (decodeDeltas 1 [0x7d, 5, 1, 7]) (decodeDeltas 3 [0x7d, 5, 1, 7])) ∧
      (Run.throughStop (decodeIntegers 1 [0x7d, 5, 1, 7])).flatMap
        (Run.values (.plain UInt64)) = [some 5] :=
  ⟨by decide, limit_keeps_values (by decide) [0x7d, 5, 1, 7], by decide +kernel⟩

/-- A list of three payloads, stopped after the first one: the other two become a run that the
larger limit does not know. -/
theorem stopped_list_reads_on :
    (decodeIntegers 1 [0x7d, 5, 1, 7]).flatMap (Run.values (.plain UInt64)) = [some 5, some 7] ∧
      (decodeIntegers 3 [0x7d, 5, 1, 7]).flatMap (Run.values (.plain UInt64)) =
        [some 5, some 1, some 7] ∧
      ¬(decodeIntegers 1 [0x7d, 5, 1, 7]).flatMap (Run.values (.plain UInt64)) <+:
        (decodeIntegers 3 [0x7d, 5, 1, 7]).flatMap (Run.values (.plain UInt64)) := by
  refine ⟨?_, ?_, ?_⟩
  · decide +kernel
  · decide +kernel
  · decide +kernel

end Chunkscope
