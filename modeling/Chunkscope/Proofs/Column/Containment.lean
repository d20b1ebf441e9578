import Chunkscope.Proofs.Column.Lookup
import Chunkscope.Proofs.Column.Section

/-!
# Damage to one column

Bodies are cut by their declared lengths, whatever is in them. So two inputs that differ within the
body of one column only give the same for every other column. There is one way out of a body: the
entries of a value-meta column are remembered for the value columns with its id.
-/

namespace Chunkscope

/-- Two inputs of one length that are alike before a position and from another one on. -/
structure DifferWithin (start stop : Nat) (first second : Bytes) : Prop where
  length_eq : first.length = second.length
  outside : ∀ position, position < start ∨ stop ≤ position → first[position]? = second[position]?

section Windows

variable {start stop : Nat} {first second : Bytes} {declared : UInt64}

/-- An input that ends before the difference begins has none. -/
theorem DifferWithin.eq_of_ended (differ : DifferWithin start stop first second)
    (ended : first.length ≤ start) : first = second := by
  obtain ⟨size, outside⟩ := differ
  apply List.ext_getElem?
  intro position
  by_cases before : position < start
  · exact outside position (.inl before)
  · rw [List.getElem?_eq_none (by omega), List.getElem?_eq_none (by omega)]

/-- Windows in front of the difference are alike, and the rest still differs behind them. -/
theorem window_before_difference (differ : DifferWithin start stop first second)
    (clear : declared.toNat ≤ start) :
    (window declared first).bytes = (window declared second).bytes ∧
      (window declared first).short = (window declared second).short ∧
      DifferWithin (start - declared.toNat) (stop - declared.toNat) (window declared first).rest
        (window declared second).rest := by
  by_cases within : declared.toNat ≤ first.length
  · obtain ⟨size, outside⟩ := differ
    rw [window_within within, window_within (size ▸ within)]
    refine ⟨?_, rfl, by simp [size], ?_⟩
    · apply List.ext_getElem?
      intro position
      rw [List.getElem?_take, List.getElem?_take]
      split
      · next inside => exact outside position (.inl (by omega))
      · rfl
    · intro position apart
      rw [List.getElem?_drop, List.getElem?_drop]
      exact outside _ (by omega)
  · have short := Nat.not_le.mp within
    obtain rfl := differ.eq_of_ended (by omega)
    rw [window_beyond short]
    exact ⟨rfl, rfl, rfl, fun _ _ => rfl⟩

/-- Behind the window of the difference nothing of it is left. -/
theorem window_over_difference (differ : DifferWithin 0 declared.toNat first second) :
    (window declared first).short = (window declared second).short ∧
      (window declared first).rest = (window declared second).rest := by
  obtain ⟨size, outside⟩ := differ
  by_cases within : declared.toNat ≤ first.length
  · rw [window_within within, window_within (size ▸ within)]
    refine ⟨rfl, ?_⟩
    apply List.ext_getElem?
    intro position
    rw [List.getElem?_drop, List.getElem?_drop]
    exact outside _ (.inr (Nat.le_add_right _ _))
  · have short := Nat.not_le.mp within
    rw [window_beyond short, window_beyond (size ▸ short), size]
    exact ⟨rfl, rfl⟩

end Windows

/-- Whether the body of a column decides what is remembered under a key. -/
def Column.Governs (group : ColumnGroup) (column : Column) (key : ColumnGroup × UInt64) : Prop :=
  column.type = .valueMeta ∧ column.isDeflated = false ∧ key = (group, column.id)

/-- Two contexts with one limit that remember the same, but for some keys. -/
structure Context.AgreeBut (apart : ColumnGroup × UInt64 → Prop) (first second : Context) :
    Prop where
  limit_eq : first.limit = second.limit
  find_eq : ∀ group id, ¬apart (group, id) →
    first.memory.find? group id = second.memory.find? group id

/-- Two columns that are the same, but for the values of a column whose entries have a key apart. -/
def ColumnData.AlikeBut (apart : ColumnGroup × UInt64 → Prop) (first second : ColumnData) : Prop :=
  first = second ∨
    first.column.type = .value ∧ first.column.isDeflated = false ∧
      apart (first.group, first.column.id) ∧ { first with body := second.body } = second

section Steps

variable {apart : ColumnGroup × UInt64 → Prop} {first second : Context}

theorem Context.AgreeBut.refl (context : Context) : context.AgreeBut apart context :=
  ⟨rfl, fun _ _ _ => rfl⟩

theorem agree_after_decode (agree : first.AgreeBut apart second) (group : ColumnGroup)
    (part : CutColumn) :
    (part.column.decode first group part.found.bytes).2.2.AgreeBut apart
      (part.column.decode second group part.found.bytes).2.2 := by
  rw [context_after_decode, context_after_decode, agree.limit_eq]
  split
  · refine ⟨rfl, ?_⟩
    intro other otherId known
    rw [find_record, find_record, agree.find_eq other otherId known]
  · exact agree

/-- A column whose body is damaged is all that contexts disagree on. -/
theorem agree_after_damage (context : Context) (group : ColumnGroup) (column : Column)
    (one two : Window) :
    (column.decode context group one.bytes).2.2.AgreeBut (column.Governs group)
      (column.decode context group two.bytes).2.2 := by
  rw [context_after_decode context group ⟨column, one⟩,
    context_after_decode context group ⟨column, two⟩]
  split
  · next describes =>
      refine ⟨rfl, ?_⟩
      intro other otherId known
      rw [find_record, find_record]
      split
      · next same =>
          have compressed : column.isDeflated = true := by
            by_contra plain
            exact known ⟨describes, by simpa using plain, same⟩
          simp only [CutColumn.entries?, compressed, if_true]
      · rfl
  · exact .refl context

theorem decode_alike (agree : first.AgreeBut apart second) (group : ColumnGroup) (column : Column)
    (input : Bytes) :
    (column.decode first group input).2.1 = (column.decode second group input).2.1 ∧
      ((column.decode first group input).1 = (column.decode second group input).1 ∨
        column.type = .value ∧ column.isDeflated = false ∧ apart (group, column.id)) := by
  unfold Column.decode
  rw [agree.limit_eq]
  cases plain : column.isDeflated with
  | true => exact ⟨rfl, .inl rfl⟩
  | false =>
      cases type : column.type with
      | value =>
          refine ⟨rfl, ?_⟩
          by_cases known : apart (group, column.id)
          · exact .inr ⟨rfl, rfl, known⟩
          · exact .inl (congrArg (Column.valuesBody input) (agree.find_eq group column.id known))
      | _ => exact ⟨rfl, .inl rfl⟩

theorem decode_next_alike (agree : first.AgreeBut apart second) (group : ColumnGroup)
    (column : Column) (input : Bytes) :
    (Column.decodeNext group (input, first) column).1.AlikeBut apart
        (Column.decodeNext group (input, second) column).1 ∧
      (Column.decodeNext group (input, first) column).2.2.AgreeBut apart
        (Column.decodeNext group (input, second) column).2.2 := by
  obtain ⟨problems, bodies⟩ := decode_alike agree group column (window column.length input).bytes
  refine ⟨?_, agree_after_decode agree group ⟨column, window column.length input⟩⟩
  simp only [ColumnData.AlikeBut, Column.decodeNext, problems]
  rcases bodies with same | ⟨value, plain, known⟩
  · rw [same]
    exact .inl rfl
  · exact .inr ⟨value, plain, known, trivial⟩

end Steps

/-- Two results of decoding some columns that differ in the body of one of them. -/
structure Contained (group : ColumnGroup) (column : Column) (index : Nat)
    (one two : List ColumnData × Bytes × Context) : Prop where
  before : one.1.take index = two.1.take index
  behind : List.Forall₂ (ColumnData.AlikeBut (column.Governs group)) (one.1.drop (index + 1))
    (two.1.drop (index + 1))
  rest_eq : one.2.1 = two.2.1
  contexts : one.2.2.AgreeBut (column.Governs group) two.2.2

section Sections

variable {group : ColumnGroup}

theorem columns_alike {apart : ColumnGroup × UInt64 → Prop} {first second : Context}
    (agree : first.AgreeBut apart second) (columns : List Column) {input other : Bytes}
    (same : input = other) :
    let one := mapState (Column.decodeNext group) (input, first) columns
    let two := mapState (Column.decodeNext group) (other, second) columns
    List.Forall₂ (ColumnData.AlikeBut apart) one.1 two.1 ∧ one.2.1 = two.2.1 ∧
      one.2.2.AgreeBut apart two.2.2 := by
  subst same
  induction columns generalizing first second input with
  | nil => exact ⟨.nil, rfl, agree⟩
  | cons column columns induction =>
      obtain ⟨alike, still⟩ := decode_next_alike agree group column input
      obtain ⟨later, rest, contexts⟩ := induction still
      simp only [map_state_cons]
      exact ⟨.cons alike later, rest, contexts⟩

theorem columns_contained {columns : List Column} {index : Nat} {column : Column}
    (there : columns[index]? = some column) (context : Context) {first second : Bytes}
    (differ : DifferWithin (offset Column.length columns index)
      (offset Column.length columns (index + 1)) first second) :
    Contained group column index (mapState (Column.decodeNext group) (first, context) columns)
      (mapState (Column.decodeNext group) (second, context) columns) := by
  induction columns generalizing index context first second with
  | nil => simp at there
  | cons next columns induction =>
      rw [map_state_cons, map_state_cons]
      cases index with
      | zero =>
          obtain rfl : next = column := Option.some.inj there
          rw [offset_cons, offset_zero, offset_zero, Nat.add_zero] at differ
          obtain ⟨_, rest⟩ := window_over_difference differ
          have damaged := agree_after_damage context group next (window next.length first)
            (window next.length second)
          obtain ⟨behind, left, contexts⟩ := columns_alike damaged columns rest
          exact ⟨rfl, behind, left, contexts⟩
      | succ index =>
          rw [offset_cons, offset_cons] at differ
          obtain ⟨bytes, short, left⟩ := window_before_difference differ (Nat.le_add_right _ _)
          rw [Nat.add_sub_cancel_left, Nat.add_sub_cancel_left] at left
          have here : (Column.decodeNext group (first, context) next).1 =
              (Column.decodeNext group (second, context) next).1 := by
            simp only [Column.decodeNext, bytes, short]
          have still : (Column.decodeNext group (second, context) next).2 =
              ((window next.length second).rest,
                (Column.decodeNext group (first, context) next).2.2) := by
            simp only [Column.decodeNext, bytes]
          have later := induction there (Column.decodeNext group (first, context) next).2.2 left
          rw [still]
          constructor
          case before => exact congrArg₂ List.cons here later.before
          case behind => exact later.behind
          case rest_eq => exact later.rest_eq
          case contexts => exact later.contexts

/-- Damage within the body of one column changes no other column, but for values that its entries
describe, and nothing that is remembered but under its own key. -/
theorem damage_contained (context : Context) {descriptors : ColumnDescriptors} {index : Nat}
    {column : Column} (there : (descriptors.columns.map Field.value)[index]? = some column)
    {first second : Bytes}
    (differ : DifferWithin (offset Column.length (descriptors.columns.map Field.value) index)
      (offset Column.length (descriptors.columns.map Field.value) (index + 1)) first second) :
    Contained descriptors.group column index (decodeSection context descriptors first)
        (decodeSection context descriptors second) ∧
      (decodeSection context descriptors first).1.map ColumnData.column =
        descriptors.columns.map Field.value ∧
      (decodeSection context descriptors second).1.map ColumnData.column =
        descriptors.columns.map Field.value :=
  ⟨columns_contained there context differ, columns_of_section context descriptors first,
    columns_of_section context descriptors second⟩

/-- One byte of an entry is damaged. The column before it stays as it is; the value that the entry
describes, which is as long as before, is another one. -/
theorem damage_contained_of_entry :
    ∃ descriptors : ColumnDescriptors,
      descriptors.columns.map Field.value = [⟨34, 2⟩, ⟨86, 2⟩, ⟨87, 1⟩] ∧
      DifferWithin (offset Column.length (descriptors.columns.map Field.value) 1)
        (offset Column.length (descriptors.columns.map Field.value) 2)
        [1, 9, 0x7f, 0x13, 5] [1, 9, 0x7f, 0x14, 5] ∧
      (Contained descriptors.group ⟨86, 2⟩ 1
          (decodeSection (.new 5) descriptors [1, 9, 0x7f, 0x13, 5])
          (decodeSection (.new 5) descriptors [1, 9, 0x7f, 0x14, 5]) ∧
        (decodeSection (.new 5) descriptors [1, 9, 0x7f, 0x13, 5]).1.map ColumnData.column =
          descriptors.columns.map Field.value ∧
        (decodeSection (.new 5) descriptors [1, 9, 0x7f, 0x14, 5]).1.map ColumnData.column =
          descriptors.columns.map Field.value) ∧
      (decodeSection (.new 5) descriptors [1, 9, 0x7f, 0x13, 5]).1[2]? ≠
        (decodeSection (.new 5) descriptors [1, 9, 0x7f, 0x14, 5]).1[2]? := by
  have differ : DifferWithin 2 4 [1, 9, 0x7f, 0x13, 5] [1, 9, 0x7f, 0x14, 5] := by
    refine ⟨rfl, ?_⟩
    intro position apart
    match position with
    | 0 | 1 => rfl
    | 2 | 3 => omega
    | _ + 4 => rfl
  refine ⟨.written .operation [⟨34, [1, 9]⟩, ⟨86, [0x7f, 0x13]⟩, ⟨87, [5]⟩], by decide, differ, ?_,
    by decide +kernel⟩
  exact damage_contained (.new 5) (by decide) differ

end Sections

end Chunkscope
