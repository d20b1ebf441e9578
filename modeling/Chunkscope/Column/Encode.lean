import Chunkscope.Column.Booleans
import Chunkscope.Column.Value

/-!
Encoding columns: run-length bodies run by run, boolean and value columns from their values, and
groups from the bodies of their columns.
-/

namespace Chunkscope

/-- One run to be written. -/
inductive RunStep (Value : Type) where
  | null (count : UInt64)
  | repeated (value : Value) (count : Int64)
  | literals (values : List Value)
  deriving DecidableEq, Repr

namespace RunStep

variable {Value : Type}

/-- The bytes of one run, given those of a payload. -/
def encode (payload : Value → Bytes) : RunStep Value → Bytes
  | .null count => Varint.encodeSigned 0 ++ Varint.encodeUnsigned count
  | .repeated value count => Varint.encodeSigned count ++ payload value
  | .literals values =>
      Varint.encodeSigned (-Int64.ofNat values.length) ++ values.flatMap payload

end RunStep

/-- A column body, run by run. -/
def encodeRuns {Value : Type} (payload : Value → Bytes) (steps : List (RunStep Value)) : Bytes :=
  steps.flatMap (RunStep.encode payload)

/-- A string behind its length. -/
def encodeString (text : String) : Bytes :=
  Varint.encodeLength (Utf8.encode text) ++ Utf8.encode text

def MetaEntry.encode (entry : MetaEntry) : Bytes := Varint.encodeUnsigned entry.spec

namespace Booleans

/-- The lengths of alternating runs, when `count` values of the current run are already known. -/
def runLengths (current : Bool) (count : Nat) : List Bool → List Nat
  | [] => if 0 < count then [count] else []
  | value :: rest =>
      if value = current then runLengths current (count + 1) rest
      else count :: runLengths value 1 rest

end Booleans

/-- A boolean column; a first run without values tells that the column starts with true. -/
def encodeBooleans (values : List Bool) : Bytes :=
  (Booleans.runLengths false 0 values).flatMap fun count =>
    Varint.encodeUnsigned (UInt64.ofNat count)

namespace Meta

/-- The run of equal entries: a repeated one, or a list when there is only one entry. -/
def stepOf : List MetaEntry → RunStep MetaEntry
  | [] => .literals []
  | [entry] => .literals [entry]
  | entry :: rest => .repeated entry (Int64.ofNat (rest.length + 1))

/-- A value-meta column in which equal neighbours share a run. -/
def encode (entries : List MetaEntry) : Bytes :=
  encodeRuns MetaEntry.encode ((entries.splitBy (· == ·)).map stepOf)

end Meta

/-- The bodies of a value-meta column and of the value column it describes. Values without an
encoding are left out. -/
def encodeValues (values : List Value) : Bytes × Bytes :=
  let encoded := values.filterMap Value.encode?
  (Meta.encode (encoded.map Prod.fst), encoded.flatMap Prod.snd)

/-- A column as it is written: a spec and a body. -/
structure EncodedColumn where
  spec : UInt64
  body : Bytes
  deriving DecidableEq, Repr

namespace EncodedColumn

def descriptor (column : EncodedColumn) : Bytes :=
  Varint.encodeUnsigned column.spec ++ Varint.encodeLength column.body

end EncodedColumn

/-- The descriptors of a group, behind their number. -/
def encodeDescriptors (columns : List EncodedColumn) : Bytes :=
  Varint.encodeUnsigned (UInt64.ofNat columns.length) ++
    columns.flatMap EncodedColumn.descriptor

/-- The bodies of a group. -/
def encodeBodies (columns : List EncodedColumn) : Bytes := columns.flatMap EncodedColumn.body

end Chunkscope
