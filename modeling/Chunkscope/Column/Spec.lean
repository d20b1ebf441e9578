import Chunkscope.Field

/-!
Columns and their descriptors. A descriptor is a spec, which packs the id of the column, a bit for
compression and the encoding of the body, followed by the length of the body. The descriptors of
one group stand together behind their number; the bodies follow later, in the same order.
-/

namespace Chunkscope

/-- The sets of columns a body can have. -/
inductive ColumnGroup where
  /-- One row for each change of a document. -/
  | change
  /-- One row for each operation. -/
  | operation
  deriving DecidableEq, Repr

namespace ColumnGroup

def name : ColumnGroup → String
  | .change => "change"
  | .operation => "operation"

def changeNames : List (Nat × String) :=
  [ (1, "actor"), (3, "sequence number"), (19, "maxOp"), (35, "time"), (53, "message"),
    (64, "dependencies group"), (67, "dependencies index"), (86, "extra metadata"),
    (87, "extra data") ]

def operationNames : List (Nat × String) :=
  [ (1, "object actor id"), (2, "object counter"), (17, "key actor id"), (19, "key counter"),
    (21, "key string"), (33, "actor id"), (35, "counter"), (52, "insert"), (66, "action"),
    (86, "value meta"), (87, "value"), (112, "predecessor group"), (113, "predecessor actor id"),
    (115, "predecessor counter"), (128, "successor group"), (129, "successor actor id"),
    (131, "successor counter") ]

/-- The name of a well-known column, by its whole spec. -/
def columnName? (group : ColumnGroup) (spec : UInt64) : Option String :=
  match group with
  | .change => changeNames.lookup spec.toNat
  | .operation => operationNames.lookup spec.toNat

end ColumnGroup

/-- How a column body is encoded. -/
inductive ColumnType where
  | group
  | actor
  | integer
  | delta
  | boolean
  | string
  | valueMeta
  | value
  deriving DecidableEq, Repr

namespace ColumnType

/-- The type that the three low bits of a spec name; each of their values names one. -/
def ofSpec (spec : UInt64) : ColumnType :=
  match (spec &&& 7).toNat with
  | 0 => .group
  | 1 => .actor
  | 2 => .integer
  | 3 => .delta
  | 4 => .boolean
  | 5 => .string
  | 6 => .valueMeta
  | _ => .value

def code : ColumnType → Nat
  | .group => 0
  | .actor => 1
  | .integer => 2
  | .delta => 3
  | .boolean => 4
  | .string => 5
  | .valueMeta => 6
  | .value => 7

end ColumnType

structure Column where
  spec : UInt64
  /-- The declared length of the body in bytes. -/
  length : UInt64
  deriving DecidableEq, Repr

namespace Column

def id (column : Column) : UInt64 := column.spec >>> 4

def type (column : Column) : ColumnType := ColumnType.ofSpec column.spec

/-- Whether the body is compressed. -/
def isDeflated (column : Column) : Bool := column.spec &&& 8 != 0

def title (column : Column) (group : ColumnGroup) : String :=
  match group.columnName? column.spec with
  | some name => name
  | none =>
      "Unknown (id=" ++ toString column.id.toNat ++ ", type=" ++ toString column.type.code ++ ")"

/-- A spec has at most 32 bits. -/
def largestSpec : UInt64 := 0xffffffff

def reader : Reader (Field Column) where
  read input :=
    let spec := Varint.scanUnsigned input
    let length := Varint.scanUnsigned spec.rest
    let specProblems :=
      if spec.fault.isNone ∧ largestSpec < spec.value then [Diagnostic.error .specTooLarge]
      else Diagnostic.ofFault (some "spec") spec.fault
    ({ bytes := spec.bytes ++ length.bytes
       value := ⟨spec.value, length.value⟩
       diagnostics := specProblems ++ Diagnostic.ofFault (some "length") length.fault },
      length.rest)
  covers input := by
    simp only [Field.bytes_eq, List.append_assoc, Varint.scan_unsigned_append]

end Column

/-- The descriptors of one group. -/
structure ColumnDescriptors where
  group : ColumnGroup
  count : Field UInt64
  columns : List (Field Column)
  deriving DecidableEq, Repr

namespace ColumnDescriptors

instance : Spans ColumnDescriptors :=
  ⟨fun descriptors => descriptors.count.bytes ++ spanned descriptors.columns⟩

/-- No columns and no bytes. -/
def empty (group : ColumnGroup) : ColumnDescriptors := ⟨group, .clean [] 0, []⟩

/-- Reads the number of columns and their descriptors, fewer when the input ends before. -/
def reader (group : ColumnGroup) : Reader ColumnDescriptors where
  read input :=
    let (count, afterCount) := Reader.unsigned none input
    let (columns, rest) := Column.reader.upTo count.value.toNat afterCount
    (⟨group, count.add (Diagnostic.missing count.value columns.length), columns⟩, rest)
  covers input := by
    have columns := Column.reader.spanned_up_to (Reader.unsigned none input).1.value.toNat
      (Reader.unsigned none input).2
    have count := (Reader.unsigned none).covers input
    simp only [Field.bytes_eq] at count
    simp only [Spans.bytes, Field.bytes_add, List.append_assoc]
    rw [columns, count]

end ColumnDescriptors

end Chunkscope
