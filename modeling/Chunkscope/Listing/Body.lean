import Chunkscope.Body.Change
import Chunkscope.Body.Document
import Chunkscope.Hex
import Chunkscope.Listing.Line

/-!
The lines for the body of a chunk: one for each field, in the order of the bytes, with tables,
columns and lists of payloads one level deeper than the line that introduces them. Every
diagnostic of a field stands on the line of that field.
-/

namespace Chunkscope

namespace Line

def ofField {Value : Type} (depth : Nat) (comment : String) (field : Field Value) : Line :=
  annotated depth field.bytes comment field.diagnostics

@[simp] theorem bytes_of_field {Value : Type} (depth : Nat) (comment : String)
    (field : Field Value) : (ofField depth comment field).bytes = field.bytes := rfl

/-- The line of a number, behind what the number means. -/
def ofCount (depth : Nat) (label : String) (count : Field UInt64) : Line :=
  ofField depth (label ++ toString count.value.toNat) count

end Line

/-- A signed number that always shows its sign. -/
def signedText (value : Int64) : String :=
  if value < 0 then toString value.toInt else "+" ++ toString value.toInt

def Actor.lines (depth : Nat) (actor : Actor) : List Line :=
  [ .ofCount depth "id length = " actor.length,
    .ofField depth ("actor ID = " ++ Hex.encode actor.id.value) actor.id ]

def ActorTable.lines (depth : Nat) (table : ActorTable) : List Line :=
  .ofCount depth "number of actor ids = " table.count ::
    table.actors.flatMap (Actor.lines (depth + 1))

/-- What is said of a head; one that is not complete has no hash to show. -/
def headComment : Option ChangeHash → String
  | some hash => "head " ++ Hex.encode hash.bytes
  | none => "head"

def Heads.lines (depth : Nat) (heads : Heads) : List Line :=
  .ofCount depth "number of heads = " heads.count ::
    heads.hashes.map fun head => .ofField (depth + 1) (headComment head.value) head

def Column.comment (column : Column) : String :=
  "column (spec = " ++ toString column.spec.toNat ++ ", id = " ++ toString column.id.toNat ++
    ", type = " ++ toString column.type.code ++
    ", deflate = " ++ (if column.isDeflated then "true" else "false") ++
    ", length = " ++ toString column.length.toNat ++ ")"

def ColumnDescriptors.lines (depth : Nat) (descriptors : ColumnDescriptors) : List Line :=
  .ofCount depth ("number of " ++ descriptors.group.name ++ " columns = ") descriptors.count ::
    descriptors.columns.map fun column => .ofField (depth + 1) column.value.comment column

/-- How the runs of a column are worded. -/
structure RunWording (Step Item : Type) where
  /-- What the payloads of a list are called. -/
  noun : String
  repeated : Repeated Step → String
  item : Item → String

namespace RunWording

/-- The wording where a repeated payload and a single one are shown alike. -/
def values {Value : Type} (text : Value → String) : RunWording Value Value where
  noun := "values"
  repeated step := text step.value ++ " repeated " ++ toString step.count.toNat ++ " times"
  item := text

def deltas : RunWording DeltaStep DeltaValue where
  noun := "deltas"
  repeated step :=
    toString step.value.first.toInt ++ ",... " ++ toString step.value.last.toInt ++ " (" ++
      toString step.count.toNat ++ " steps of " ++ toString step.value.delta.toInt ++ ")"
  item value := signedText value.delta ++ " = " ++ toString value.value.toInt

end RunWording

def Run.lines {Step Item : Type} (wording : RunWording Step Item) (depth : Nat) :
    Run Step Item → List Line
  | .null nulls =>
      [.ofField depth ("null repeated " ++ toString nulls.value.toNat ++ " times") nulls]
  | .repeated step => [.ofField depth (wording.repeated step.value) step]
  | .literal header items =>
      .ofField depth (toString header.value.toNat ++ " literal " ++ wording.noun) header ::
        items.map fun item => .ofField (depth + 1) (wording.item item.value) item

def booleanComment (run : Repeated Bool) : String :=
  (if run.value then "true" else "false") ++ " repeated " ++ toString run.count.toNat ++ " times"

/-- The values of a column; bytes that no entry describes get a line of their own. -/
def DecodedValues.lines (depth : Nat) (decoded : DecodedValues) : List Line :=
  (decoded.values.map fun value => Line.ofField depth value.value.message value) ++
    if decoded.extra = [] then []
    else [⟨depth, decoded.extra, "extra bytes in value column", some .warning⟩]

def ColumnBody.lines (depth : Nat) : ColumnBody → List Line
  | .compressed input => [.plain depth input "compressed column"]
  | .integers runs =>
      runs.flatMap (Run.lines (.values fun value => toString value.toNat) depth)
  | .deltas runs => runs.flatMap (Run.lines .deltas depth)
  | .booleans runs => runs.map fun run => .ofField depth (booleanComment run.value) run
  | .strings runs => runs.flatMap (Run.lines (.values Text.quote) depth)
  | .valueMeta runs => runs.flatMap (Run.lines (.values MetaEntry.message) depth)
  | .values decoded => decoded.lines depth
  | .missingMeta field => [.ofField depth "value bytes" field]

/-- A column: its title, with what is wrong with it as a whole, and its body. -/
def ColumnData.lines (depth : Nat) (data : ColumnData) : List Line :=
  .annotated depth [] (data.title ++ " column") data.diagnostics :: data.body.lines (depth + 1)

def HeadIndexes.lines (depth : Nat) : HeadIndexes → List Line
  | .omitted => [.plain depth [] "head index omitted"]
  | .present indexes =>
      .plain depth [] "head index" ::
        indexes.map fun (hash, index) =>
          .ofField (depth + 1)
            (Hex.encode hash.bytes ++ " is change " ++ toString index.value.toNat) index

/-- The bytes after the last part of a body, if there are any. -/
def trailingLines (depth : Nat) (comment : String) (trailing : Field Unit) : List Line :=
  if trailing.bytes = [] then [] else [.ofField depth comment trailing]

def Document.lines (depth : Nat) (document : Document) : List Line :=
  if document.isEmpty then [.plain depth [] "empty document"]
  else
    document.actors.lines depth ++ document.heads.lines depth ++
      document.changeColumns.lines depth ++ document.operationColumns.lines depth ++
      document.changeData.flatMap (ColumnData.lines depth) ++
      document.operationData.flatMap (ColumnData.lines depth) ++
      document.headIndexes.lines depth ++
      trailingLines depth "remaining data in chunk" document.trailing

def ChangeHeader.lines (depth : Nat) (header : ChangeHeader) : List Line :=
  header.heads.lines depth ++ header.actor.lines depth ++
    [ .ofCount depth "sequence number = " header.sequenceNumber,
      .ofCount depth "start op = " header.startOperation,
      .ofField depth ("time = " ++ Timestamp.text header.time.value) header.time,
      .ofCount depth "message len = " header.messageLength ]

def ChangeTail.lines (depth : Nat) (tail : ChangeTail) : List Line :=
  tail.otherActors.lines depth ++ tail.operationColumns.lines depth ++
    tail.operationData.flatMap (ColumnData.lines depth) ++
    trailingLines depth "extra bytes" tail.extra

/-- A change; the text of a message that is cut short is not shown. -/
def Change.lines (depth : Nat) (change : Change) : List Line :=
  change.header.lines depth ++
    match change.tail with
    | none => [.ofField depth "commit message (truncated)" change.message]
    | some tail =>
        .ofField depth ("commit message = " ++ Text.quote change.message.value) change.message ::
          tail.lines depth

end Chunkscope
