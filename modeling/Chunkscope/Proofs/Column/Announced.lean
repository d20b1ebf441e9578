import Chunkscope.Column.Delta
import Chunkscope.Column.Meta
import Chunkscope.Column.Strings
import Chunkscope.Proofs.Column.Turns

/-!
# Lists account for the payloads they announce

Counts are not to be trusted: the header of a list can announce 2 ^ 63 payloads in front of a few
bytes. When every payload takes at least one byte, runs and payloads together are no more than the
bytes of the input, whatever is announced, and so few turns of the loops are all there are. A list
that has fewer payloads than announced says so in its header: either the input has ended, or the
limit has stopped the list in front of further bytes.
-/

namespace Chunkscope

variable {State Step Item : Type}

/-- Every single payload takes at least one byte, where there is one. A repeated payload may take
none, for there is a count in front of it. -/
def Payload.Advances (payload : Payload State Step Item) : Prop :=
  ∀ state input, input ≠ [] → (payload.literal state input).1.bytes ≠ []

/-- The ways in which the reading of a list ends. -/
inductive ListEnding where
  /-- All payloads are there. -/
  | complete
  /-- The input has ended. -/
  | exhausted
  /-- The limit allows no more payloads. -/
  | stopped
  deriving DecidableEq, Repr

namespace ListEnding

/-- What the header of a list says about its end. -/
def said (limit declared found : Nat) : ListEnding → List Diagnostic
  | .complete => []
  | .exhausted => [.error (.missingItems (UInt64.ofNat (declared - found)))]
  | .stopped => [.error (.tooManyValues limit)]

/-- When a list that has some of the declared payloads ends in front of the rest of the input. -/
def Holds (limit declared found : Nat) (rest : Bytes) : ListEnding → Prop
  | .complete => found = declared
  | .exhausted => found < declared ∧ rest = []
  | .stopped => found = limit ∧ limit < declared ∧ rest ≠ []

/-- How a decoded list ended. It announces its negated count; beside what is said of the end, only
the count can be at fault. -/
structure Fits (limit : Nat) (header : Field UInt64) (items : List (Field Item)) (rest : Bytes)
    (ending : ListEnding) : Prop where
  announced : 0 < header.value.toNat ∧
    (header.value.toNat : Int) = -(Varint.scanSigned header.bytes).value.toInt
  holds : ending.Holds limit header.value.toNat items.length rest
  reported : header.diagnostics =
    Diagnostic.ofFault (some "length") (Varint.scanSigned header.bytes).fault ++
      ending.said limit header.value.toNat items.length

variable {limit found : Nat} {rest : Bytes}

theorem eq_of_holds {declared : Nat} {ending : ListEnding}
    (holds : ending.Holds limit declared found rest) :
    ending =
      if found = declared then .complete else if rest = [] then .exhausted else .stopped := by
  cases ending with
  | complete => exact (if_pos holds).symm
  | exhausted => rw [if_neg (Nat.ne_of_lt holds.1), if_pos holds.2]
  | stopped =>
      obtain ⟨rfl, more, left⟩ := holds
      rw [if_neg (Nat.ne_of_lt more), if_neg left]

/-- Reading stops early only where the input ends or the limit is reached. -/
theorem exists_ending {declared : UInt64} (few : found ≤ declared.toNat)
    (left : rest ≠ [] → found = min declared.toNat limit) :
    ∃ ending : ListEnding, ending.Holds limit declared.toNat found rest ∧
      Payload.shortfall declared limit found rest = ending.said limit declared.toNat found := by
  by_cases all : found = declared.toNat
  · subst all
    exact ⟨.complete, rfl, RunFormat.shortfall_of_all declared limit rest⟩
  have fewer : found < declared.toNat := by omega
  by_cases ended : rest = []
  · refine ⟨.exhausted, ⟨fewer, ended⟩, ?_⟩
    rw [ended, Payload.shortfall_of_ended fewer]
    rfl
  · have stops := left ended
    exact ⟨.stopped, ⟨by omega, by omega, ended⟩, Payload.shortfall_of_stopped fewer ended⟩

end ListEnding

/-- A negative count announces as many payloads as it is below zero. -/
theorem announced_of_negative {count : Int64} (negative : count < 0) :
    0 < (-count).toUInt64.toNat ∧ ((-count).toUInt64.toNat : Int) = -count.toInt := by
  have value : count.toInt = (count.toUInt64.toNat : Int).bmod (2 ^ 64) :=
    BitVec.toInt_eq_toNat_bmod _
  have negated : (-count).toUInt64.toNat = (2 ^ 64 - count.toUInt64.toNat) % 2 ^ 64 :=
    BitVec.toNat_neg _
  have bounded := count.toUInt64.toNat_lt
  rw [Int64.lt_iff_toInt_lt, Int64.toInt_zero, value, Int.bmod_def] at negative
  rw [negated, value, Int.bmod_def]
  omega

namespace Payload

variable {payload : Payload State Step Item} {limit : Nat}

section Lists

variable {state : State} {input : Bytes}

/-- Wherever a run is a list, its reading ended in one of the ways. -/
theorem ending_of_next_run {header : Field UInt64} {items : List (Field Item)}
    (found : (payload.nextRun limit state input).1 = .literal header items) :
    ∃ ending : ListEnding,
      ending.Fits limit header items (payload.nextRun limit state input).2.2 := by
  by_cases negative : (Varint.scanSigned input).value < 0
  · rw [next_run_of_list negative] at found ⊢
    obtain ⟨rfl, rfl⟩ := Run.literal.inj found
    have few : (takeUpTo payload.literal (min (listHeader input).value.toNat limit) state
        (Varint.scanSigned input).rest).1.length ≤ (listHeader input).value.toNat :=
      Nat.le_trans (length_take_up_to_le _ _ _ _) (Nat.min_le_left _ _)
    obtain ⟨ending, holds, said⟩ := ListEnding.exists_ending few
      (length_take_up_to_of_left payload.literal state (Varint.scanSigned input).rest)
    have count : Varint.scanSigned (listHeader input).bytes =
        { Varint.scanSigned input with rest := [] } := Varint.scan_signed_alone input
    refine ⟨ending, ?_, holds, ?_⟩
    · rw [Field.bytes_add, count]
      exact announced_of_negative negative
    · rw [Field.bytes_add, count, Field.add, said]
      rfl
  · exact absurd found (next_run_of_no_list negative header items)

end Lists

section Sizes

variable (payload : Payload State Step Item) (limit : Nat) (state : State) {input : Bytes}

theorem run_bytes_ne_nil (nonempty : input ≠ []) :
    bytes (payload.nextRun limit state input).1 ≠ [] := by
  obtain ⟨byte, rest, rfl⟩ := List.exists_cons_of_ne_nil nonempty
  intro none
  have covered := congrArg List.length (payload.next_run_append limit state (byte :: rest))
  have advanced := payload.length_next_run_rest limit state byte rest
  rw [none, List.nil_append, List.length_cons] at covered
  omega

/-- The count of a run takes a byte, and so does each payload of a list. -/
theorem run_and_items_le (advances : payload.Advances) (nonempty : input ≠ []) :
    1 + (payload.nextRun limit state input).1.items.length ≤
      (bytes (payload.nextRun limit state input).1).length := by
  by_cases negative : (Varint.scanSigned input).value < 0
  · have header := List.length_pos_iff.mpr (Varint.scan_signed_bytes_ne_nil nonempty)
    have items := length_take_up_to_le_spanned payload.literal advances
      (min (listHeader input).value.toNat limit) state (Varint.scanSigned input).rest
    rw [next_run_of_list negative]
    simp only [readList, Run.items, Spans.bytes, Field.add, listHeader,
      List.length_append] at items ⊢
    omega
  · rw [items_of_no_list negative]
    exact List.length_pos_iff.mpr (payload.run_bytes_ne_nil limit state nonempty)

/-- There are no more runs and payloads than bytes, whatever the counts announce. -/
theorem tally_le_length (advances : payload.Advances) (input : Bytes) :
    Run.tally (payload.decodeRuns limit state input) ≤ input.length := by
  induction state, input using (payload.walk limit).induct with
  | ended state => simp [decodeRuns, Run.tally]
  | onward state byte rest induction =>
      have first := payload.run_and_items_le limit state advances (List.cons_ne_nil byte rest)
      have covered := congrArg List.length (payload.next_run_append limit state (byte :: rest))
      rw [walk_step] at induction
      rw [List.length_append] at covered
      rw [decode_runs_cons, Run.tally_cons]
      omega

end Sizes

theorem uniform_advances {Value : Type} {reader : Reader (Field Value)}
    (takes : ∀ input, input ≠ [] → (reader input).1.bytes ≠ []) : (uniform reader).Advances :=
  fun _ input nonempty => takes input nonempty

/-- The payloads of every kind of column start with an integer. -/
theorem columns_advance :
    (uniform (Reader.unsigned (some "value"))).Advances ∧ (uniform stringReader).Advances ∧
      (uniform Meta.reader).Advances ∧ Delta.payload.Advances := by
  refine ⟨?_, ?_, ?_, ?_⟩
  · exact uniform_advances fun _ nonempty => Varint.scan_bytes_ne_nil nonempty
  · apply uniform_advances
    intro input nonempty
    exact List.append_ne_nil_of_left_ne_nil (Varint.scan_bytes_ne_nil nonempty) _
  · exact uniform_advances fun _ nonempty => Varint.scan_bytes_ne_nil nonempty
  · intro _ _ nonempty
    exact Varint.scan_signed_bytes_ne_nil nonempty

/-- How the walk over an input accounts for its bytes and for the payloads that lists announce. -/
structure Accounted (payload : Payload State Step Item) (limit : Nat) (state : State)
    (input : Bytes) (runs : List (Run Step Item)) : Prop where
  ends : ∃ count ≤ 2 * input.length, ∃ last,
    payload.Turns limit count (.runs [] state input) (.runs runs last []) ∧
      payload.turn limit (.runs runs last []) = none
  covers : spanned runs = input
  few : runs.length + (runs.flatMap Run.items).length ≤ input.length
  lists : ∀ before header items after, runs = before ++ .literal header items :: after →
    (∃! ending : ListEnding, ending.Fits limit header items (spanned after)) ∧
      (spanned after = [] → after = [])

/-- The walk ends after few turns and accounts for every payload that is announced. -/
theorem runs_accounted (payload : Payload State Step Item) (advances : payload.Advances)
    (limit : Nat) (state : State) (input : Bytes) :
    payload.Accounted limit state input (payload.decodeRuns limit state input) := by
  have few := payload.tally_le_length limit state advances input
  constructor
  case ends =>
    obtain ⟨count, bounded, last, turns⟩ := payload.decode_runs_turns limit [] state input
    exact ⟨count, by omega, last, turns, rfl⟩
  case covers => exact payload.spanned_decode_runs limit state input
  case few => exact few
  case lists =>
    intro before header items after found
    obtain ⟨place, rest, -, here, behind⟩ := (payload.walk limit).step_of_pieces found
    have left : spanned after = (payload.nextRun limit place rest).2.2 := by
      rw [← behind]
      exact payload.spanned_decode_runs limit _ _
    constructor
    · obtain ⟨ending, fits⟩ := ending_of_next_run here
      rw [left]
      refine ⟨ending, fits, ?_⟩
      intro other fit
      exact (ListEnding.eq_of_holds fit.holds).trans (ListEnding.eq_of_holds fits.holds).symm
    · intro ended
      have empty : (payload.nextRun limit place rest).2.2 = [] := left.symm.trans ended
      have stopped : payload.decodeRuns limit (payload.nextRun limit place rest).2.1
          (payload.nextRun limit place rest).2.2 = [] := by
        rw [empty]
        exact (payload.walk limit).pieces_nil _
      exact behind.symm.trans stopped

/-- Three lists under a limit of two: one is complete, one is stopped in front of the third, and the
third announces more than the input holds. -/
theorem runs_accounted_of_three_lists :
    ∃ body : Bytes, body = [0x7e, 5, 6, 0x7d, 1, 2, 0x7d, 9] ∧ Delta.payload.Advances ∧
      Delta.payload.Accounted 2 0 body (decodeDeltas 2 body) ∧
      (decodeDeltas 2 body).map (fun run => (run.items.length, run.diagnostics)) =
        [(2, []), (2, [.error (.tooManyValues 2)]), (1, [.error (.missingItems 2)])] :=
  ⟨_, rfl, columns_advance.2.2.2, Delta.payload.runs_accounted columns_advance.2.2.2 2 0 _,
    by decide +kernel⟩

end Payload

end Chunkscope
