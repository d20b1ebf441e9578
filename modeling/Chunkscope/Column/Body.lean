import Chunkscope.Column.Booleans
import Chunkscope.Column.Delta
import Chunkscope.Column.Meta

/-!
Column bodies. The type of a column says how its body is decoded; a value column also needs the
entries of the value-meta column with its id that came before it. Bodies are cut by their declared
lengths alone, so damage in one body never moves the next one.
-/

namespace Chunkscope

/-- A decoded column body. -/
inductive ColumnBody where
  /-- A compressed body is left as it is. -/
  | compressed (input : Bytes)
  | integers (runs : List (Run UInt64 UInt64))
  | deltas (runs : List (Run DeltaStep DeltaValue))
  | booleans (runs : List (Field (Repeated Bool)))
  | strings (runs : List (Run String String))
  | valueMeta (runs : List (Run MetaEntry MetaEntry))
  | values (decoded : DecodedValues)
  /-- A value column that no entries describe. -/
  | missingMeta (field : Field Unit)
  deriving DecidableEq, Repr

instance : Spans ColumnBody :=
  ⟨fun body => match body with
    | .compressed input => input
    | .integers runs => spanned runs
    | .deltas runs => spanned runs
    | .booleans runs => spanned runs
    | .strings runs => spanned runs
    | .valueMeta runs => spanned runs
    | .values decoded => bytes decoded
    | .missingMeta field => field.bytes⟩

/-- What the decoding of one body depends on besides its bytes: the largest number of values that
a column may be expanded to, and the entries seen so far. -/
structure Context where
  limit : Nat
  memory : MetaMemory
  deriving DecidableEq, Repr

namespace Context

/-- The number of values a column may be expanded to unless another one is set. -/
def defaultLimit : Nat := 1048576

def new (limit : Nat) : Context := ⟨limit, .empty⟩

def reset (context : Context) : Context := { context with memory := .empty }

end Context

/-- A column with its body. -/
structure ColumnData where
  group : ColumnGroup
  column : Column
  /-- The bytes of the body, fewer than declared when the input ran out. -/
  bytes : Bytes
  body : ColumnBody
  /-- What is wrong with the column as a whole. -/
  diagnostics : List Diagnostic
  deriving DecidableEq, Repr

namespace ColumnData

instance : Spans ColumnData := ⟨ColumnData.bytes⟩

def title (data : ColumnData) : String := data.column.title data.group

end ColumnData

namespace Column

/-- Decodes the values of a column, given the entries that describe them. -/
def valuesBody (input : Bytes) : Option (List MetaEntry) → ColumnBody
  | some entries => .values (DecodedValues.decode entries input)
  | none => .missingMeta ⟨input, (), [.error .missingValueMeta]⟩

/-- Decodes one body, with what is wrong with the column as a whole and the context for the bodies
that follow. -/
def decode (context : Context) (group : ColumnGroup) (column : Column) (input : Bytes) :
    ColumnBody × List Diagnostic × Context :=
  if column.isDeflated then
    (.compressed input, [],
      if column.type = .valueMeta then
        { context with memory := context.memory.forget group column.id }
      else context)
  else
    match column.type with
    | .group | .actor | .integer => (.integers (decodeIntegers context.limit input), [], context)
    | .delta => (.deltas (decodeDeltas context.limit input), [], context)
    | .boolean => (.booleans (decodeBooleans input), [], context)
    | .string => (.strings (decodeStrings context.limit input), [], context)
    | .valueMeta =>
        let runs := Meta.decode context.limit input
        (.valueMeta runs, Meta.limitProblems context.limit runs,
          { context with
            memory := context.memory.remember group column.id
              (Meta.entries context.limit runs) })
    | .value => (valuesBody input (context.memory.find? group column.id), [], context)

theorem bytes_decode (context : Context) (group : ColumnGroup) (column : Column) (input : Bytes) :
    bytes (column.decode context group input).1 = input := by
  simp only [decode]
  split
  · rfl
  · split
    · exact Payload.spanned_decode_runs _ _ _ _
    · exact Payload.spanned_decode_runs _ _ _ _
    · exact Payload.spanned_decode_runs _ _ _ _
    · exact Payload.spanned_decode_runs _ _ _ _
    · exact spanned_decode_booleans input
    · exact Payload.spanned_decode_runs _ _ _ _
    · exact Payload.spanned_decode_runs _ _ _ _
    · cases context.memory.find? group column.id with
      | none => rfl
      | some entries => exact DecodedValues.bytes_decode entries input

/-- Cuts off and decodes the body of one column; the state is the input that is left and the
context. -/
def decodeNext (group : ColumnGroup) (state : Bytes × Context) (column : Column) :
    ColumnData × Bytes × Context :=
  let found := window column.length state.1
  let short := match found.short with
    | none => []
    | some available => [Diagnostic.error (.notEnoughBytes column.length available)]
  let decoded := column.decode state.2 group found.bytes
  ({ group, column, bytes := found.bytes, body := decoded.1,
     diagnostics := short ++ decoded.2.1 },
    found.rest, decoded.2.2)

end Column

/-- The columns that some descriptors announce, the input after their bodies and the context. -/
def decodeSection (context : Context) (descriptors : ColumnDescriptors) (input : Bytes) :
    List ColumnData × Bytes × Context :=
  mapState (Column.decodeNext descriptors.group) (input, context)
    (descriptors.columns.map Field.value)

theorem spanned_decode_section (context : Context) (descriptors : ColumnDescriptors)
    (input : Bytes) :
    spanned (decodeSection context descriptors input).1 ++
      (decodeSection context descriptors input).2.1 = input := by
  simp only [decodeSection]
  induction descriptors.columns.map Field.value generalizing context input with
  | nil => simp
  | cons column columns ih =>
      rw [map_state_cons, spanned_cons, List.append_assoc]
      have cutting := window_append column.length input
      have later := ih (column.decode context descriptors.group
        (window column.length input).bytes).2.2 (window column.length input).rest
      simp only [Column.decodeNext] at later ⊢
      rw [later]
      exact cutting

end Chunkscope
