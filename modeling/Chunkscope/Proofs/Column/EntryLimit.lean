import Mathlib.Data.List.ReduceOption
import Mathlib.Data.Nat.PSub
import Chunkscope.Proofs.Column.CleanValues
import Chunkscope.Proofs.Column.Limit

/-!
# Entries under a limit

A limit cuts a value-meta column twice: it stops a list of too many entries, and it keeps down the
number of entries that are remembered. Behind a list that was stopped the walk takes entries for
runs, but by then the list alone has given all the entries that the limit allows. So what a smaller
limit remembers is the front of what a larger one does.
-/

namespace Chunkscope

theorem Payload.items_of_stopped_run {State Step Item : Type} (payload : Payload State Step Item)
    (limit : Nat) (state : State) (body : Bytes) :
    ∀ run ∈ payload.decodeRuns limit state body, run.isStopped = true →
      ∃ header items, run = .literal header items ∧ items.length = limit :=
  (payload.walk limit).forall_pieces (fun _ _ => payload.items_of_stopped) state body

namespace Meta

/-- The entries that a run stands for; nulls stand for none. -/
def expansion : Run MetaEntry MetaEntry → List MetaEntry
  | .null _ => []
  | .repeated step => List.replicate step.value.count.toNat step.value.value
  | .literal _ items => items.map Field.value

/-- Takes the entries of a list after those in `done`, and tells whether one found no room. -/
def collectItems (limit : Nat) (done : List MetaEntry) :
    List (Field MetaEntry) → List MetaEntry × Bool
  | [] => (done, false)
  | item :: items =>
      if done.length = limit then (done, true)
      else collectItems limit (done ++ [item.value]) items

/-- Takes the entries of some runs after those in `done`, and tells whether one found no room. The
room for copies is a checked difference: there is no result when more entries are done than the
limit allows. -/
def collect (limit : Nat) (done : List MetaEntry) :
    List (Run MetaEntry MetaEntry) → Option (List MetaEntry × Bool)
  | [] => some (done, false)
  | .null _ :: runs => collect limit done runs
  | .repeated step :: runs =>
      (Nat.psub limit done.length).bind fun room =>
        if room < step.value.count.toNat then
          some (done ++ List.replicate room step.value.value, true)
        else collect limit (done ++ List.replicate step.value.count.toNat step.value.value) runs
  | .literal _ items :: runs =>
      let (more, full) := collectItems limit done items
      if full then some (more, true) else collect limit more runs

section Expansion

theorem spelled_copies_eq (run : Run MetaEntry MetaEntry) :
    Repeated.spelled (copies run) = expansion run := by
  cases run with
  | null nulls => rfl
  | repeated step => exact List.append_nil _
  | literal header items =>
      have single (item : Field MetaEntry) :
          List.replicate (1 : UInt64).toNat item.value = [item.value] := rfl
      simp only [copies, expansion, Repeated.spelled, List.flatMap_map, single]
      exact List.flatMap_pure_eq_map Field.value items

theorem spelled_runs_eq (runs : List (Run MetaEntry MetaEntry)) :
    Repeated.spelled (runs.flatMap copies) = runs.flatMap expansion := by
  unfold Repeated.spelled
  rw [List.flatMap_assoc]
  exact List.flatMap_congr fun run _ => spelled_copies_eq run

theorem entries_eq_take (limit : Nat) (runs : List (Run MetaEntry MetaEntry)) :
    entries limit runs = (runs.flatMap expansion).take limit := by
  rw [entries, Repeated.expand_eq_take, spelled_runs_eq]

theorem limit_problems_iff (limit : Nat) (runs : List (Run MetaEntry MetaEntry)) :
    (limitProblems limit runs).any Diagnostic.isTooMany = true ↔
      limit < (runs.flatMap expansion).length := by
  unfold limitProblems
  rw [Repeated.total_eq_length, spelled_runs_eq]
  by_cases beyond : limit < (runs.flatMap expansion).length
  · rw [if_pos beyond]
    exact iff_of_true rfl beyond
  · rw [if_neg beyond]
    exact iff_of_false Bool.false_ne_true beyond

/-- What a run stands for are its values without the nulls. -/
theorem expansion_eq_values (run : Run MetaEntry MetaEntry) :
    expansion run = (run.values (.plain MetaEntry)).reduceOption := by
  cases run with
  | null nulls => exact (List.reduceOption_replicate_none).symm
  | repeated step => simp [expansion, Run.values, PayloadValues.plain, List.reduceOption]
  | literal header items => simp [expansion, Run.values, PayloadValues.plain, List.reduceOption]

end Expansion

section Collecting

variable {limit : Nat} {done : List MetaEntry}

theorem collect_items_eq (room : done.length ≤ limit) (items : List (Field MetaEntry)) :
    collectItems limit done items =
      ((done ++ items.map Field.value).take limit,
        decide (limit < done.length + items.length)) := by
  induction items generalizing done with
  | nil => simp [collectItems, List.take_of_length_le room, room]
  | cons item items induction =>
      rw [collectItems]
      by_cases full : done.length = limit
      · have excess : limit < done.length + (item :: items).length := by simp [full]
        rw [if_pos full, decide_eq_true excess, List.take_left' full]
      · have more : (done ++ [item.value]).length ≤ limit := by
          rw [List.length_append, List.length_singleton]
          omega
        have size : (done ++ [item.value]).length + items.length =
            done.length + (item :: items).length := by
          simp only [List.length_append, List.length_cons, List.length_nil]
          omega
        rw [if_neg full, induction more, List.append_assoc, List.singleton_append, List.map_cons,
          size]

/-- The difference that is the room is always there, and what is collected are the first entries. -/
theorem collect_eq (room : done.length ≤ limit) (runs : List (Run MetaEntry MetaEntry)) :
    collect limit done runs =
      some ((done ++ runs.flatMap expansion).take limit,
        decide (limit < done.length + (runs.flatMap expansion).length)) := by
  induction runs generalizing done with
  | nil => simp [collect, List.take_of_length_le room, room]
  | cons run runs induction =>
      rw [List.flatMap_cons, List.length_append, ← Nat.add_assoc, ← List.append_assoc,
        ← List.length_append]
      cases run with
      | null nulls =>
          rw [collect, induction room, expansion, List.append_nil]
      | repeated step =>
          rw [collect, Nat.psub_eq_sub room, Option.bind_some, expansion]
          have size : (done ++ List.replicate step.value.count.toNat step.value.value).length =
              done.length + step.value.count.toNat := by
            rw [List.length_append, List.length_replicate]
          by_cases excess : limit - done.length < step.value.count.toNat
          · have part := Nat.min_eq_left (Nat.le_of_lt excess)
            rw [if_pos excess, List.take_append_of_le_length (by omega), List.take_append,
              List.take_of_length_le room, List.take_replicate, part, decide_eq_true (by omega)]
          · rw [if_neg excess, induction (by omega)]
      | literal header items =>
          rw [collect, collect_items_eq room, expansion]
          have size : (done ++ items.map Field.value).length = done.length + items.length := by
            rw [List.length_append, List.length_map]
          by_cases excess : limit < done.length + items.length
          · have cut : (done ++ items.map Field.value ++ runs.flatMap expansion).take limit =
                (done ++ items.map Field.value).take limit :=
              List.take_append_of_le_length (by omega)
            rw [cut, decide_eq_true excess, decide_eq_true (by omega)]
            rfl
          · rw [List.take_of_length_le (by omega), decide_eq_false excess]
            exact induction (by omega)

end Collecting

section Prefixes

variable {limit larger : Nat}

theorem expansion_prefix {few many : List (Run MetaEntry MetaEntry)}
    (values : few.flatMap (Run.values (.plain MetaEntry)) <+:
      many.flatMap (Run.values (.plain MetaEntry))) :
    few.flatMap expansion <+: many.flatMap expansion := by
  have without (runs : List (Run MetaEntry MetaEntry)) :
      (runs.flatMap (Run.values (.plain MetaEntry))).reduceOption = runs.flatMap expansion := by
    unfold List.reduceOption
    rw [List.filterMap_flatMap]
    exact List.flatMap_congr fun run _ => (expansion_eq_values run).symm
  rw [← without few, ← without many]
  exact values.filterMap id

theorem take_expansion (le : limit ≤ larger) (body : Bytes) :
    ((decode limit body).flatMap expansion).take limit =
      ((decode larger body).flatMap expansion).take limit := by
  have limited : Run.Limited (.plain MetaEntry) (decode limit body) (decode larger body) :=
    Payload.limited _ _ le () body
  by_cases whole : ∀ run ∈ decode limit body, ¬run.isStopped = true
  · rw [limited.eq_of_none_stopped whole]
  · -- The list that was stopped has all the entries that the limit allows.
    have stops : ∃ run ∈ decode limit body, run.isStopped = true := by
      simpa only [not_forall, not_not, exists_prop] using whole
    obtain ⟨last, through, stopped⟩ := Run.stopped_through_stop stops
    have among := (Run.through_stop_prefix (decode limit body)).subset through
    obtain ⟨header, items, rfl, count⟩ :=
      (Payload.uniform reader).items_of_stopped_run limit () body last among stopped
    have enough : limit ≤ ((Run.throughStop (decode limit body)).flatMap expansion).length := by
      have part := length_le_of_mem_flat_map expansion through
      rwa [expansion, List.length_map, count] at part
    obtain ⟨few, fewer⟩ := expansion_prefix
      (Run.values_prefix (.plain MetaEntry) (Run.through_stop_prefix (decode limit body)))
    obtain ⟨many, more⟩ := expansion_prefix limited.among_all
    rw [← fewer, ← more, List.take_append_of_le_length enough, List.take_append_of_le_length enough]

/-- A smaller limit remembers the front of what a larger one remembers. -/
theorem entries_of_smaller_limit (le : limit ≤ larger) (body : Bytes) :
    entries limit (decode limit body) = (entries larger (decode larger body)).take limit := by
  rw [entries_eq_take, entries_eq_take, take_expansion le, List.take_take, Nat.min_eq_left le]

end Prefixes

end Meta

namespace DecodedValues

/-- The bytes and the values of some fields, whatever is wrong with them. -/
def shown (fields : List (Field Value)) : List (Bytes × Value) :=
  fields.map fun field => (field.bytes, field.value)

/-- Fewer entries give the first of the values. -/
theorem shown_take (count : Nat) (entries : List MetaEntry) (input : Bytes) :
    shown (decode (entries.take count) input).values =
      (shown (decode entries input).values).take count := by
  induction entries generalizing count input with
  | nil => simp [decode, decodeOnto, shown]
  | cons entry later induction =>
      cases count with
      | zero => rw [List.take_zero, List.take_zero]; rfl
      | succ count =>
          rw [List.take_succ_cons]
          cases cutting : (window entry.length input).short with
          | none =>
              have rest := induction count (window entry.length input).rest
              rw [decode_cons_whole cutting, decode_cons_whole cutting]
              exact congrArg _ rest
          | some available =>
              rw [decode_cons_short cutting, decode_cons_short cutting]
              simp [shown, Field.add]

end DecodedValues

/-- What a limit leaves of the entries of a column, and what a larger one leaves. -/
structure Meta.EntriesLimited (limit : Nat) (runs : List (Run MetaEntry MetaEntry))
    (problems : List Diagnostic) (few many : List MetaEntry) : Prop where
  front : few = many.take limit
  bounded : few.length ≤ limit
  collected : collect limit [] runs =
    some (few, decide (limit < (runs.flatMap expansion).length))
  reported_iff : problems.any Diagnostic.isTooMany = true ↔
    limit < (runs.flatMap expansion).length
  values_front : ∀ input, DecodedValues.shown (DecodedValues.decode few input).values =
    (DecodedValues.shown (DecodedValues.decode many input).values).take limit

/-- A smaller limit remembers fewer entries of the same, and tells when the runs stand for more. -/
theorem limit_keeps_entries {few many : Context} (le : few.limit ≤ many.limit)
    (group : ColumnGroup) {column : Column} (type : column.type = .valueMeta)
    (plain : column.isDeflated = false) (body : Bytes) :
    ∃ runs first all, (column.decode few group body).1 = .valueMeta runs ∧
      (column.decode few group body).2.2.memory.find? group column.id = some first ∧
      (column.decode many group body).2.2.memory.find? group column.id = some all ∧
      Meta.EntriesLimited few.limit runs (column.decode few group body).2.1 first all := by
  have decoded (context : Context) : column.decode context group body =
      (.valueMeta (Meta.decode context.limit body),
        Meta.limitProblems context.limit (Meta.decode context.limit body),
        { context with
          memory := context.memory.remember group column.id
            (Meta.entries context.limit (Meta.decode context.limit body)) }) := by
    simp [Column.decode, plain, type]
  have front := Meta.entries_of_smaller_limit le body
  rw [decoded few, decoded many]
  refine ⟨_, _, _, rfl, MetaMemory.find_remember .., MetaMemory.find_remember .., ?_⟩
  constructor
  case front => exact front
  case bounded =>
    rw [front]
    exact List.length_take_le _ _
  case collected =>
    rw [Meta.entries_eq_take, Meta.collect_eq (Nat.zero_le _), List.nil_append, List.length_nil,
      Nat.zero_add]
  case reported_iff => exact Meta.limit_problems_iff _ _
  case values_front =>
    intro input
    rw [front]
    exact DecodedValues.shown_take _ _ input

/-- A list of three entries that is stopped after the first one. The other two become a run, which
is said to be too much and of which nothing is remembered. -/
theorem limit_keeps_entries_of_stopped_list :
    1 ≤ 3 ∧ (Column.mk 86 4).type = .valueMeta ∧ (Column.mk 86 4).isDeflated = false ∧
      (∃ runs first all,
        ((Column.mk 86 4).decode (.new 1) .operation [0x7d, 5, 1, 7]).1 = .valueMeta runs ∧
        ((Column.mk 86 4).decode (.new 1) .operation [0x7d, 5, 1, 7]).2.2.memory.find?
          .operation (Column.mk 86 4).id = some first ∧
        ((Column.mk 86 4).decode (.new 3) .operation [0x7d, 5, 1, 7]).2.2.memory.find?
          .operation (Column.mk 86 4).id = some all ∧
        Meta.EntriesLimited 1 runs
          ((Column.mk 86 4).decode (.new 1) .operation [0x7d, 5, 1, 7]).2.1 first all) ∧
      Meta.entries 1 (Meta.decode 1 [0x7d, 5, 1, 7]) = [⟨0, 5⟩] ∧
      ((Meta.decode 1 [0x7d, 5, 1, 7]).flatMap Meta.expansion).length = 2 :=
  ⟨by decide, by decide, by decide,
    @limit_keeps_entries (.new 1) (.new 3) (by decide) .operation (.mk 86 4) (by decide) (by decide)
      [0x7d, 5, 1, 7],
    by decide +kernel, by decide +kernel⟩

end Chunkscope
