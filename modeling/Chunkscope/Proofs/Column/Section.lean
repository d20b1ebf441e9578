import Chunkscope.Column.Body
import Chunkscope.Column.Encode
import Chunkscope.Proofs.Field.ReadBack

/-!
# Column groups as they were written

Descriptors of columns with specs that are not too large are read back without faults, and with them
the bodies of the group are cut where they were put together, whatever is in them.
-/

namespace Chunkscope

section Specs

variable {id low : UInt64}

theorem spec_of_id_value (small : id.toNat < 2 ^ 28) (few : low.toNat < 16) :
    (16 * id + low).toNat = 16 * id.toNat + low.toNat := by
  rw [UInt64.toNat_add, UInt64.toNat_mul]
  simp only [UInt64.reduceToNat]
  omega

theorem id_of_spec (small : id.toNat < 2 ^ 28) (few : low.toNat < 16) :
    (16 * id + low) >>> 4 = id := by
  have value := spec_of_id_value small few
  apply UInt64.toNat_inj.mp
  rw [UInt64.toNat_shiftRight, value]
  simp only [UInt64.reduceToNat, Nat.reduceMod, Nat.shiftRight_eq_div_pow]
  omega

theorem low_of_spec (small : id.toNat < 2 ^ 28) (few : low.toNat < 16) :
    (16 * id + low) &&& 15 = low := by
  have value := spec_of_id_value small few
  have masked := Nat.and_two_pow_sub_one_eq_mod (16 * id + low).toNat 4
  apply UInt64.toNat_inj.mp
  rw [UInt64.toNat_and]
  refine masked.trans ?_
  omega

theorem mask_of_spec (small : id.toNat < 2 ^ 28) (few : low.toNat < 16) {mask : UInt64}
    (within : 15 &&& mask = mask) : (16 * id + low) &&& mask = low &&& mask := by
  rw [← within, ← UInt64.and_assoc, low_of_spec small few, within]

/-- The four low bits of a spec say everything about a column but its id. -/
theorem column_of_spec (low : UInt64) (small : id.toNat < 2 ^ 28) (few : low.toNat < 16)
    (length : UInt64) :
    (Column.mk (16 * id + low) length).id = id ∧
      (Column.mk (16 * id + low) length).isDeflated = (low &&& 8 != 0) ∧
      (Column.mk (16 * id + low) length).type = .ofSpec low := by
  refine ⟨id_of_spec small few, ?_, ?_⟩
  · unfold Column.isDeflated
    rw [mask_of_spec small few (by decide)]
  · unfold Column.type ColumnType.ofSpec
    rw [mask_of_spec small few (by decide)]

theorem spec_le_largest (small : id.toNat < 2 ^ 28) (few : low.toNat < 16) :
    16 * id + low ≤ Column.largestSpec := by
  rw [UInt64.le_iff_toNat_le, spec_of_id_value small few]
  have largest : Column.largestSpec.toNat = 2 ^ 32 - 1 := rfl
  omega

end Specs

section Descriptors

/-- The descriptor that reading finds in place of a written column. -/
def EncodedColumn.announced (column : EncodedColumn) : Column :=
  ⟨column.spec, UInt64.ofNat column.body.length⟩

def EncodedColumn.described (column : EncodedColumn) : Field Column :=
  .clean column.descriptor column.announced

theorem descriptor_ne_nil (column : EncodedColumn) : column.descriptor ≠ [] :=
  List.append_ne_nil_of_left_ne_nil (Varint.encode_unsigned_ne_nil column.spec) _

theorem length_le_descriptors (columns : List EncodedColumn) :
    columns.length ≤ (encodeDescriptors columns).length := by
  have counted := length_le_length_flat_map fun column (_ : column ∈ columns) => descriptor_ne_nil column
  rw [encodeDescriptors, List.length_append]
  omega

theorem read_descriptor {column : EncodedColumn} (small : column.spec ≤ Column.largestSpec)
    (rest : Bytes) :
    Column.reader (column.descriptor ++ rest) = (column.described, rest) := by
  have allowed : ¬Column.largestSpec < column.spec := UInt64.not_lt.mpr small
  unfold EncodedColumn.descriptor
  rw [List.append_assoc]
  simp only [Column.reader, Varint.encodeLength, Varint.scan_unsigned_encode, allowed, and_false,
    if_false]
  rfl

namespace ColumnDescriptors

/-- The descriptors of a written group, with nothing wrong with them. -/
def written (group : ColumnGroup) (columns : List EncodedColumn) : ColumnDescriptors where
  group := group
  count := .clean (Varint.encodeUnsigned (UInt64.ofNat columns.length))
    (UInt64.ofNat columns.length)
  columns := columns.map EncodedColumn.described

theorem read_encoded (group : ColumnGroup) {columns : List EncodedColumn}
    (few : columns.length < 2 ^ 64) (small : ∀ column ∈ columns, column.spec ≤ Column.largestSpec)
    (rest : Bytes) :
    reader group (encodeDescriptors columns ++ rest) = (written group columns, rest) := by
  obtain ⟨each, complete⟩ := Column.reader.counted_written few
    (fun column _ => descriptor_ne_nil column)
    (fun column member => read_descriptor (small column member)) rest
  unfold encodeDescriptors
  rw [List.append_assoc]
  simp only [reader, unsigned_field_encode, Field.clean, each, complete]
  rfl

end ColumnDescriptors

end Descriptors

section Bodies

/-- What decoding makes of a written column, and the context after it. -/
def EncodedColumn.decoded (group : ColumnGroup) (context : Context) (column : EncodedColumn) :
    ColumnData × Context :=
  let found := column.announced.decode context group column.body
  (⟨group, column.announced, column.body, found.1, found.2.1⟩, found.2.2)

theorem decode_next_written (group : ColumnGroup) {column : EncodedColumn}
    (fits : column.body.length < 2 ^ 64) (context : Context) (rest : Bytes) :
    Column.decodeNext group (column.body ++ rest, context) column.announced =
      ((column.decoded group context).1, rest, (column.decoded group context).2) := by
  simp only [Column.decodeNext, EncodedColumn.announced, window_append_exact fits]
  rfl

theorem decode_bodies_written (group : ColumnGroup) {columns : List EncodedColumn}
    (fits : ∀ column ∈ columns, column.body.length < 2 ^ 64) (context : Context) (rest : Bytes) :
    mapState (Column.decodeNext group) (encodeBodies columns ++ rest, context)
        (columns.map EncodedColumn.announced) =
      ((mapState (EncodedColumn.decoded group) context columns).1, rest,
        (mapState (EncodedColumn.decoded group) context columns).2) := by
  unfold encodeBodies
  induction columns generalizing context with
  | nil => rfl
  | cons column columns induction =>
      have first := decode_next_written group (fits column List.mem_cons_self) context
        (columns.flatMap EncodedColumn.body ++ rest)
      have later := induction (fun other member => fits other (List.mem_cons_of_mem column member))
        (column.decoded group context).2
      rw [List.map_cons, List.flatMap_cons, List.append_assoc, map_state_cons, map_state_cons,
        first, later]

/-- The bodies of a group are told apart by their lengths, and what follows the group is left. -/
theorem decode_section_written (group : ColumnGroup) {columns : List EncodedColumn}
    (fits : ∀ column ∈ columns, column.body.length < 2 ^ 64) (context : Context) (rest : Bytes) :
    decodeSection context (.written group columns) (encodeBodies columns ++ rest) =
      ((mapState (EncodedColumn.decoded group) context columns).1, rest,
        (mapState (EncodedColumn.decoded group) context columns).2) := by
  unfold decodeSection ColumnDescriptors.written
  rw [List.map_map]
  exact decode_bodies_written group fits context rest

end Bodies

section Soundness

theorem fault_none_of_tolerated {part : Option String} {fault : Option Varint.Fault}
    (sound : ∀ diagnostic ∈ Diagnostic.ofFault part fault, diagnostic.problem = .specTooLarge) :
    fault = none := by
  cases fault with
  | none => rfl
  | some fault => cases sound _ List.mem_cons_self

def Column.descriptor (column : Column) : Bytes :=
  Varint.encodeUnsigned column.spec ++ Varint.encodeUnsigned column.length

/-- That a spec has too many bits is no fault in how it is written. -/
theorem descriptor_of_sound {input : Bytes}
    (sound : ∀ diagnostic ∈ (Column.reader input).1.diagnostics,
      diagnostic.problem = .specTooLarge) :
    (Column.reader input).1.bytes = (Column.reader input).1.value.descriptor := by
  simp only [Column.reader] at sound ⊢
  obtain ⟨specSound, lengthSound⟩ := List.forall_mem_append.mp sound
  have length := Varint.scan_unsigned_sound (fault_none_of_tolerated lengthSound)
  have spec : (Varint.scanUnsigned input).fault = none := by
    split at specSound
    · next allowed => exact Option.isNone_iff_eq_none.mp allowed.1
    · exact fault_none_of_tolerated specSound
  rw [Varint.scan_unsigned_sound spec, length]
  rfl

theorem ColumnDescriptors.bytes_of_sound {group : ColumnGroup} {input : Bytes}
    (count : (reader group input).1.count.diagnostics = [])
    (columns : ∀ column ∈ (reader group input).1.columns, ∀ diagnostic ∈ column.diagnostics,
      diagnostic.problem = .specTooLarge) :
    bytes (reader group input).1 =
      Varint.encodeUnsigned (UInt64.ofNat (reader group input).1.columns.length) ++
        ((reader group input).1.columns.map Field.value).flatMap Column.descriptor := by
  obtain ⟨faultless, complete⟩ : (Reader.unsigned none input).1.diagnostics = [] ∧
      Diagnostic.missing (Reader.unsigned none input).1.value
        (Column.reader.upTo (Reader.unsigned none input).1.value.toNat
          (Reader.unsigned none input).2).1.length = [] := List.append_eq_nil_iff.mp count
  have header := unsigned_field_sound faultless
  have number := congrArg Varint.encodeUnsigned (Column.reader.declared_of_counted complete)
  have each := Column.reader.spanned_counted (fun column => column.value.descriptor)
    (fun input sound => descriptor_of_sound sound) columns
  rw [List.flatMap_map]
  exact congrArg₂ (· ++ ·) (header.trans number.symm) each

namespace ColumnData

/-- The body has as many bytes as its descriptor declares. -/
def Whole (data : ColumnData) : Prop :=
  ∀ diagnostic ∈ data.diagnostics, ∀ needed available,
    diagnostic.problem ≠ .notEnoughBytes needed available

/-- The column with the bytes that it was decoded from. -/
def encoded (data : ColumnData) : EncodedColumn := ⟨data.column.spec, data.bytes⟩

end ColumnData

/-- Decoding a body says nothing about how long it should have been. -/
theorem Column.decode_never_short (context : Context) (group : ColumnGroup) (column : Column)
    (input : Bytes) : ∀ diagnostic ∈ (column.decode context group input).2.1,
      ∀ needed available, diagnostic.problem ≠ .notEnoughBytes needed available := by
  unfold Column.decode
  split
  · simp
  · split <;> simp [Meta.limitProblems, Diagnostic.error]

section Sections

variable (context : Context) (descriptors : ColumnDescriptors) (input : Bytes)

theorem columns_of_section :
    (decodeSection context descriptors input).1.map ColumnData.column =
      descriptors.columns.map Field.value := by
  apply map_map_state
  intro state column
  rfl

theorem length_of_whole_body :
    ∀ data ∈ (decodeSection context descriptors input).1, data.Whole →
      UInt64.ofNat data.bytes.length = data.column.length := by
  apply forall_map_state
  intro state column whole
  have long : (window column.length state.1).short = none := by
    cases short : (window column.length state.1).short with
    | none => rfl
    | some available =>
        refine absurd rfl (whole (.error (.notEnoughBytes column.length available)) ?_
          column.length available)
        apply List.mem_append_left
        rw [short]
        exact List.mem_cons_self
  have size := length_of_whole_window long
  simp only [Column.decodeNext, size, UInt64.ofNat_toNat]

variable {context descriptors input}

theorem encode_bodies_of_section :
    encodeBodies ((decodeSection context descriptors input).1.map ColumnData.encoded) =
      spanned (decodeSection context descriptors input).1 :=
  List.flatMap_map ..

/-- Columns with whole bodies are described as their descriptors were written. -/
theorem encode_descriptors_of_section
    (whole : ∀ data ∈ (decodeSection context descriptors input).1, data.Whole) :
    encodeDescriptors ((decodeSection context descriptors input).1.map ColumnData.encoded) =
      Varint.encodeUnsigned (UInt64.ofNat descriptors.columns.length) ++
        (descriptors.columns.map Field.value).flatMap Column.descriptor := by
  have columns := columns_of_section context descriptors input
  have lengths := length_of_whole_body context descriptors input
  have number : (decodeSection context descriptors input).1.length =
      descriptors.columns.length := by
    simpa only [List.length_map] using congrArg List.length columns
  have each : ∀ data ∈ (decodeSection context descriptors input).1,
      data.encoded.descriptor = data.column.descriptor := by
    intro data member
    rw [Column.descriptor, ← lengths data member (whole data member)]
    rfl
  rw [encodeDescriptors, List.length_map, number, ← columns, List.flatMap_map, List.flatMap_map]
  exact congrArg _ (List.flatMap_congr each)

end Sections

end Soundness

end Chunkscope
