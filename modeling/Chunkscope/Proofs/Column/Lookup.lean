import Chunkscope.Column.Body

/-!
# Value columns and the columns that describe them

Decoding goes through the columns of a body one by one and remembers entries on the way. What it
gives is told here without any memory: each column is decoded from its own bytes, and a value column
with the entries of the nearest value-meta column before it that has its id.
-/

namespace Chunkscope

/-- A column with the stretch of input that was cut off for its body. -/
structure CutColumn where
  column : Column
  found : Window

def Column.cutAll (columns : List Column) (input : Bytes) : List CutColumn × Bytes :=
  mapState
    (fun input column =>
      (⟨column, window column.length input⟩, (window column.length input).rest))
    input columns

theorem cut_all_cons (column : Column) (columns : List Column) (input : Bytes) :
    Column.cutAll (column :: columns) input =
      let found := window column.length input
      let later := Column.cutAll columns found.rest
      (⟨column, found⟩ :: later.1, later.2) :=
  map_state_cons ..

namespace CutColumn

variable (limit : Nat)

def describes (id : UInt64) (part : CutColumn) : Bool :=
  part.column.type = .valueMeta && part.column.id = id

/-- The entries that a value-meta column stands for; a compressed one stands for none. -/
def entries? (part : CutColumn) : Option (List MetaEntry) :=
  if part.column.isDeflated then none
  else some (Meta.entries limit (Meta.decode limit part.found.bytes))

/-- The entries for the value column with some id that comes after some columns: those of the last
column that describes it. -/
def entriesFor (id : UInt64) (before : List CutColumn) : Option (List MetaEntry) :=
  (before.reverse.find? (describes id)).bind (entries? limit)

/-- The body of a column. Only a value column depends on columns before it. -/
def bodyAfter (before : List CutColumn) (part : CutColumn) : ColumnBody :=
  if part.column.isDeflated then .compressed part.found.bytes
  else
    match part.column.type with
    | .group | .actor | .integer => .integers (decodeIntegers limit part.found.bytes)
    | .delta => .deltas (decodeDeltas limit part.found.bytes)
    | .boolean => .booleans (decodeBooleans part.found.bytes)
    | .string => .strings (decodeStrings limit part.found.bytes)
    | .valueMeta => .valueMeta (Meta.decode limit part.found.bytes)
    | .value =>
        Column.valuesBody part.found.bytes (entriesFor limit part.column.id before)

def entryProblems (part : CutColumn) : List Diagnostic :=
  if part.column.isDeflated then []
  else if part.column.type = .valueMeta then
    Meta.limitProblems limit (Meta.decode limit part.found.bytes)
  else []

def problems (part : CutColumn) : List Diagnostic :=
  let short := match part.found.short with
    | none => []
    | some available => [Diagnostic.error (.notEnoughBytes part.column.length available)]
  short ++ part.entryProblems limit

def dataAfter (group : ColumnGroup) (before : List CutColumn) (part : CutColumn) : ColumnData where
  group := group
  column := part.column
  bytes := part.found.bytes
  body := part.bodyAfter limit before
  diagnostics := part.problems limit

theorem entries_for_append (id : UInt64) (before : List CutColumn) (part : CutColumn) :
    entriesFor limit id (before ++ [part]) =
      if part.describes id then part.entries? limit else entriesFor limit id before := by
  unfold entriesFor
  rw [List.reverse_append, List.reverse_singleton, List.singleton_append, List.find?_cons]
  cases part.describes id <;> rfl

end CutColumn

namespace ColumnDescriptors

/-- The columns of a group, each decoded from its own bytes and those of the columns before it, and
the input after them. -/
def dataIn (limit : Nat) (descriptors : ColumnDescriptors) (input : Bytes) :
    List ColumnData × Bytes :=
  let parts := Column.cutAll (descriptors.columns.map Field.value) input
  (parts.1.mapIdx fun index part => part.dataAfter limit descriptors.group (parts.1.take index),
    parts.2)

end ColumnDescriptors

/-- What a value-meta column leaves in the memory; nothing is remembered of a compressed one. -/
def MetaMemory.record (memory : MetaMemory) (group : ColumnGroup) (id : UInt64) :
    Option (List MetaEntry) → MetaMemory
  | none => memory.forget group id
  | some entries => memory.remember group id entries

theorem find_record (memory : MetaMemory) (group other : ColumnGroup) (id otherId : UInt64)
    (entries : Option (List MetaEntry)) :
    (memory.record group id entries).find? other otherId =
      if (other, otherId) = (group, id) then entries else memory.find? other otherId := by
  split
  · next same =>
      cases same
      cases entries with
      | none => exact memory.find_forget group id
      | some entries => exact memory.find_remember group id entries
  · next different =>
      cases entries with
      | none => exact memory.find_forget_other different
      | some entries => exact memory.find_remember_other entries different

section Steps

variable {context : Context} {limit : Nat} {group other : ColumnGroup} {before : List CutColumn}

theorem context_after_decode (context : Context) (group : ColumnGroup) (part : CutColumn) :
    (part.column.decode context group part.found.bytes).2.2 =
      if part.column.type = .valueMeta then
        { context with
          memory := context.memory.record group part.column.id (part.entries? context.limit) }
      else context := by
  unfold Column.decode CutColumn.entries?
  cases part.column.isDeflated with
  | true => rfl
  | false => cases part.column.type <;> rfl

/-- The context has the limit, and remembers of a group what some columns of it say. -/
structure Context.Remembers (context : Context) (limit : Nat) (group : ColumnGroup)
    (before : List CutColumn) : Prop where
  limit_eq : context.limit = limit
  find_eq : ∀ id, context.memory.find? group id = CutColumn.entriesFor limit id before

theorem remembers_reset (context : Context) (group : ColumnGroup) :
    context.reset.Remembers context.limit group [] := by
  constructor
  · rfl
  · intro id
    rfl

theorem remembers_decode (remembered : context.Remembers limit group before)
    (part : CutColumn) :
    (part.column.decode context group part.found.bytes).2.2.Remembers limit group
      (before ++ [part]) := by
  obtain ⟨rfl, found⟩ := remembered
  rw [context_after_decode]
  constructor
  · split <;> rfl
  · intro id
    rw [CutColumn.entries_for_append, CutColumn.describes]
    by_cases described : part.column.type = .valueMeta
    · simp only [described, if_true, find_record, found]
      by_cases same : part.column.id = id
      · simp [same]
      · simp [same, Ne.symm same]
    · simp [described, found]

theorem remembers_decode_other (remembered : context.Remembers limit other before)
    (different : other ≠ group) (part : CutColumn) :
    (part.column.decode context group part.found.bytes).2.2.Remembers limit other before := by
  obtain ⟨rfl, found⟩ := remembered
  rw [context_after_decode]
  split
  · constructor
    · rfl
    · intro id
      rw [find_record, if_neg (by simp [different])]
      exact found id
  · exact ⟨rfl, found⟩

theorem decode_of_remembered (remembered : context.Remembers limit group before)
    (part : CutColumn) :
    (part.column.decode context group part.found.bytes).1 = part.bodyAfter limit before ∧
      (part.column.decode context group part.found.bytes).2.1 = part.entryProblems limit := by
  obtain ⟨rfl, found⟩ := remembered
  unfold Column.decode CutColumn.bodyAfter CutColumn.entryProblems
  rw [found]
  cases part.column.isDeflated with
  | true => exact ⟨rfl, rfl⟩
  | false => cases part.column.type <;> exact ⟨rfl, rfl⟩

theorem decode_next_of_remembered (remembered : context.Remembers limit group before)
    (column : Column) (input : Bytes) :
    (Column.decodeNext group (input, context) column).1 =
      CutColumn.dataAfter limit group before ⟨column, window column.length input⟩ := by
  obtain ⟨body, problems⟩ := decode_of_remembered remembered ⟨column, window column.length input⟩
  simp only [Column.decodeNext, CutColumn.dataAfter, body, problems]
  rfl

end Steps

section Sections

variable {context : Context} {limit : Nat} {group : ColumnGroup}

theorem decode_columns_of_remembered {before : List CutColumn}
    (remembered : context.Remembers limit group before) (columns : List Column) (input : Bytes) :
    (mapState (Column.decodeNext group) (input, context) columns).1 =
        ((Column.cutAll columns input).1.mapIdx fun index part =>
          part.dataAfter limit group (before ++ (Column.cutAll columns input).1.take index)) ∧
      (mapState (Column.decodeNext group) (input, context) columns).2.1 =
        (Column.cutAll columns input).2 := by
  -- What the context remembers of the columns before is what carries the induction.
  induction columns generalizing context before input with
  | nil => exact ⟨rfl, rfl⟩
  | cons column columns induction =>
      have first := decode_next_of_remembered remembered column input
      obtain ⟨later, rest⟩ := induction
        (remembers_decode remembered ⟨column, window column.length input⟩)
        (window column.length input).rest
      rw [map_state_cons, cut_all_cons, List.mapIdx_cons]
      constructor
      · simp only [List.append_assoc, List.singleton_append] at later
        simp only [List.take_zero, List.append_nil, List.take_succ_cons]
        exact List.cons_eq_cons.mpr ⟨first, later⟩
      · exact rest

theorem decode_section_of_remembered {descriptors : ColumnDescriptors}
    (remembered : context.Remembers limit descriptors.group []) (input : Bytes) :
    (decodeSection context descriptors input).1 = (descriptors.dataIn limit input).1 ∧
      (decodeSection context descriptors input).2.1 = (descriptors.dataIn limit input).2 :=
  decode_columns_of_remembered remembered _ input

theorem remembers_section_other {descriptors : ColumnDescriptors}
    (remembered : context.Remembers limit group []) (different : group ≠ descriptors.group)
    (input : Bytes) :
    (decodeSection context descriptors input).2.2.Remembers limit group [] := by
  have each : ∀ (state : Bytes × Context) (column : Column),
      state.2.Remembers limit group [] →
        (Column.decodeNext descriptors.group state column).2.2.Remembers limit group [] := by
    intro state column kept
    exact remembers_decode_other kept different ⟨column, window column.length state.1⟩
  exact keeps_map_state each remembered (descriptors.columns.map Field.value)

theorem decode_two_sections (context : Context) {first second : ColumnDescriptors}
    (different : second.group ≠ first.group) (input : Bytes) :
    let early := decodeSection context.reset first input
    let late := decodeSection early.2.2 second early.2.1
    let found := first.dataIn context.limit input
    early.1 = found.1 ∧ late.1 = (second.dataIn context.limit found.2).1 ∧
      late.2.1 = (second.dataIn context.limit found.2).2 := by
  intro early late found
  obtain ⟨data, rest⟩ := decode_section_of_remembered (remembers_reset context first.group) input
  -- The second group starts with what the first one left, which says nothing about its columns.
  have untouched := remembers_section_other (remembers_reset context second.group) different input
  have cut : late = decodeSection early.2.2 second found.2 :=
    congrArg (decodeSection early.2.2 second) rest
  rw [cut]
  exact ⟨data, decode_section_of_remembered untouched found.2⟩

end Sections

end Chunkscope
