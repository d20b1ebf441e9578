import Chunkscope.Proofs.Column.Limit
import Chunkscope.Proofs.Column.RunFormat

/-!
# Runs read turn by turn

Runs are read by one loop, and the payloads of a list by another one inside it. Here both loops are
taken apart into single turns, with the number of payloads still to come counted down. A list is
closed when none are to come, when the input has ended or when there are as many payloads as the
limit allows, looked at in this order. Turn by turn the loops come to an end with the runs of
`decodeRuns`, after at most two turns for each run and each payload.
-/

namespace Chunkscope

variable {State Step Item : Type}

namespace Run

/-- The payloads that a run lists one by one. -/
def items : Run Step Item → List (Field Item)
  | .literal _ items => items
  | _ => []

/-- How many runs there are, with all the payloads that they list. -/
def tally (runs : List (Run Step Item)) : Nat := runs.length + (runs.flatMap items).length

theorem tally_cons (run : Run Step Item) (runs : List (Run Step Item)) :
    tally (run :: runs) = 1 + run.items.length + tally runs := by
  simp only [tally, List.length_cons, List.flatMap_cons, List.length_append]
  omega

end Run

/-- Where reading stands: in front of a run, or in a list that has some payloads to come. -/
inductive Reading (State Step Item : Type) where
  | runs (done : List (Run Step Item)) (state : State) (input : Bytes)
  | list (done : List (Run Step Item)) (header : Field UInt64) (items : List (Field Item))
      (remaining : Nat) (state : State) (input : Bytes)

namespace Payload

/-- The header of a list, from the negative count at the front of the input. -/
def listHeader (input : Bytes) : Field UInt64 where
  bytes := (Varint.scanSigned input).bytes
  value := (-(Varint.scanSigned input).value).toUInt64
  diagnostics := Diagnostic.ofFault (some "length") (Varint.scanSigned input).fault

variable (payload : Payload State Step Item) (limit : Nat)

/-- Reads a run in one turn, but of a list only the header. -/
def startRun (done : List (Run Step Item)) (state : State) (input : Bytes) :
    Reading State Step Item :=
  let count := Varint.scanSigned input
  if count.value < 0 then
    .list done (listHeader input) [] (listHeader input).value.toNat state count.rest
  else
    let (run, later, rest) := payload.nextRun limit state input
    .runs (done ++ [run]) later rest

/-- One turn of the loop that reading is in. Reading has ended when there is none. -/
def turn : Reading State Step Item → Option (Reading State Step Item)
  | .runs _ _ [] => none
  | .runs done state (byte :: rest) => some (payload.startRun limit done state (byte :: rest))
  | .list done header items 0 state input =>
      some (.runs (done ++ [.literal header items]) state input)
  | .list done header items (remaining + 1) state [] =>
      let problem := .missingItems (UInt64.ofNat (remaining + 1))
      some (.runs (done ++ [.literal (header.add [.error problem]) items]) state [])
  | .list done header items (remaining + 1) state (byte :: rest) =>
      if limit ≤ items.length then
        let problem := .tooManyValues limit
        some (.runs (done ++ [.literal (header.add [.error problem]) items]) state (byte :: rest))
      else
        let (item, later, left) := payload.literal state (byte :: rest)
        some (.list done header (items ++ [item]) remaining later left)

/-- So many turns lead from one place to another. -/
inductive Turns : Nat → Reading State Step Item → Reading State Step Item → Prop where
  | none (place : Reading State Step Item) : Turns 0 place place
  | more {count : Nat} {first second last : Reading State Step Item}
      (here : payload.turn limit first = some second) (later : Turns count second last) :
      Turns (count + 1) first last

variable {payload limit}

theorem Turns.trans {few many : Nat} {first middle last : Reading State Step Item}
    (before : payload.Turns limit few first middle) (after : payload.Turns limit many middle last) :
    payload.Turns limit (few + many) first last := by
  induction before with
  | none place => rwa [Nat.zero_add]
  | more here _ induction =>
      rw [Nat.add_right_comm]
      exact .more here (induction after)

section Steps

variable {state : State} {input : Bytes}

theorem next_run_of_list (negative : (Varint.scanSigned input).value < 0) :
    payload.nextRun limit state input =
      payload.readList limit (listHeader input) state (Varint.scanSigned input).rest := by
  have nonzero : (Varint.scanSigned input).value ≠ 0 := Int64.ne_of_lt negative
  have small : ¬0 < (Varint.scanSigned input).value := Int64.lt_asymm negative
  unfold nextRun
  simp only [if_neg nonzero, if_neg small]
  rfl

theorem next_run_of_no_list (other : ¬(Varint.scanSigned input).value < 0)
    (header : Field UInt64) (items : List (Field Item)) :
    (payload.nextRun limit state input).1 ≠ .literal header items := by
  unfold nextRun
  by_cases zero : (Varint.scanSigned input).value = 0
  · simp [if_pos zero]
  · have positive : 0 < (Varint.scanSigned input).value :=
      Int64.lt_of_le_of_ne (Int64.not_lt.mp other) (Ne.symm zero)
    simp [if_neg zero, if_pos positive]

theorem items_of_no_list (other : ¬(Varint.scanSigned input).value < 0) :
    (payload.nextRun limit state input).1.items = [] := by
  cases found : (payload.nextRun limit state input).1 with
  | null nulls => rfl
  | repeated step => rfl
  | literal header items => exact absurd found (next_run_of_no_list other header items)

end Steps

section Lists

variable {header : Field UInt64} {items : List (Field Item)} {remaining : Nat}

theorem shortfall_of_ended {declared : UInt64} {found : Nat} (fewer : found < declared.toNat) :
    shortfall declared limit found [] =
      [.error (.missingItems (UInt64.ofNat (declared.toNat - found)))] := by
  rw [shortfall, if_pos rfl, missing_of_fewer fewer]

theorem shortfall_of_stopped {declared : UInt64} {found : Nat} {rest : Bytes}
    (fewer : found < declared.toNat) (left : rest ≠ []) :
    shortfall declared limit found rest = [.error (.tooManyValues limit)] := by
  rw [shortfall, if_neg left, if_pos fewer]

variable (payload limit)

/-- A list takes one turn for each payload and one to be closed. The limit stops it only while there
are payloads to come and bytes to read them from. -/
theorem list_turns (done : List (Run Step Item))
    (counted : header.value.toNat = items.length + remaining) (state : State) (input : Bytes) :
    let taken := takeUpTo payload.literal (min remaining (limit - items.length)) state input
    payload.Turns limit (taken.1.length + 1) (.list done header items remaining state input)
      (.runs (done ++ [.literal (header.add
          (shortfall header.value limit (items.length + taken.1.length) taken.2.2))
          (items ++ taken.1)]) taken.2.1 taken.2.2) := by
  -- The tests of a turn in their order: what is to come, the input, the limit.
  induction remaining generalizing items state input with
  | zero =>
      have all : shortfall header.value limit items.length input = [] := by
        rw [← Nat.add_zero items.length, ← counted, RunFormat.shortfall_of_all]
      simp only [Nat.zero_min, take_up_to_zero, List.length_nil, Nat.add_zero, List.append_nil, all,
        Field.add_nil]
      exact .more rfl (.none _)
  | succ remaining induction =>
      cases input with
      | nil =>
          have missing : header.value.toNat - items.length = remaining + 1 := by omega
          have ended : shortfall header.value limit items.length [] =
              [.error (.missingItems (UInt64.ofNat (remaining + 1)))] := by
            rw [shortfall_of_ended (by omega), missing]
          simp only [take_up_to_nil, List.length_nil, Nat.add_zero, List.append_nil, ended]
          exact .more rfl (.none _)
      | cons byte rest =>
          by_cases full : limit ≤ items.length
          · have none_more : min (remaining + 1) (limit - items.length) = 0 := by omega
            have stopped : shortfall header.value limit items.length (byte :: rest) =
                [.error (.tooManyValues limit)] :=
              shortfall_of_stopped (by omega) (List.cons_ne_nil byte rest)
            simp only [none_more, take_up_to_zero, List.length_nil, Nat.add_zero, List.append_nil,
              stopped]
            exact .more (if_pos full) (.none _)
          · have one_more : min (remaining + 1) (limit - items.length) =
                min remaining (limit - (items.length + 1)) + 1 := by omega
            have fewer : header.value.toNat =
                (items ++ [(payload.literal state (byte :: rest)).1]).length + remaining := by
              rw [List.length_append, List.length_singleton]
              omega
            have later := induction fewer (payload.literal state (byte :: rest)).2.1
              (payload.literal state (byte :: rest)).2.2
            simp only [List.length_append, List.length_singleton, List.append_assoc,
              List.singleton_append, Nat.add_assoc, Nat.add_comm 1] at later
            simp only [one_more, take_up_to_succ, List.length_cons]
            exact .more (if_neg full) later

end Lists

theorem walk_step (payload : Payload State Step Item) (limit : Nat) :
    (payload.walk limit).step = payload.nextRun limit := rfl

section Runs

variable (payload limit) (done : List (Run Step Item)) (state : State)

/-- A run takes at most two turns, and two more for each payload that it lists. -/
theorem run_turns (byte : UInt8) (rest : Bytes) :
    let next := payload.nextRun limit state (byte :: rest)
    ∃ count ≤ 2 * (1 + next.1.items.length),
      payload.Turns limit count (.runs done state (byte :: rest))
        (.runs (done ++ [next.1]) next.2.1 next.2.2) := by
  by_cases negative : (Varint.scanSigned (byte :: rest)).value < 0
  · have none_yet : (listHeader (byte :: rest)).value.toNat =
        ([] : List (Field Item)).length + (listHeader (byte :: rest)).value.toNat :=
      (Nat.zero_add _).symm
    have listed := payload.list_turns limit done none_yet state
      (Varint.scanSigned (byte :: rest)).rest
    simp only [List.length_nil, Nat.zero_add, Nat.sub_zero, List.nil_append] at listed
    have opened : payload.turn limit (.runs done state (byte :: rest)) =
        some (.list done (listHeader (byte :: rest)) [] (listHeader (byte :: rest)).value.toNat
          state (Varint.scanSigned (byte :: rest)).rest) :=
      congrArg some (if_pos negative)
    rw [next_run_of_list negative]
    refine ⟨_, ?_, .more opened listed⟩
    simp only [readList, Run.items]
    omega
  · exact ⟨1, by omega, .more (congrArg some (if_neg negative)) (.none _)⟩

/-- The loops end with the decoded runs. -/
theorem decode_runs_turns (input : Bytes) :
    ∃ count ≤ 2 * Run.tally (payload.decodeRuns limit state input), ∃ last,
      payload.Turns limit count (.runs done state input)
        (.runs (done ++ payload.decodeRuns limit state input) last []) := by
  induction state, input using (payload.walk limit).induct generalizing done with
  | ended state =>
      refine ⟨0, Nat.zero_le _, state, ?_⟩
      rw [decodeRuns, Walk.pieces_nil, List.append_nil]
      exact .none _
  | onward state byte rest induction =>
      rw [walk_step] at induction
      obtain ⟨first, few, start⟩ := payload.run_turns limit done state byte rest
      obtain ⟨later, fewer, last, behind⟩ :=
        induction (done ++ [(payload.nextRun limit state (byte :: rest)).1])
      rw [List.append_assoc] at behind
      rw [decode_runs_cons]
      refine ⟨first + later, ?_, last, start.trans behind⟩
      rw [Run.tally_cons]
      omega

end Runs

end Payload

end Chunkscope
