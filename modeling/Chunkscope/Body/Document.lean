import Chunkscope.Body.Tables
import Chunkscope.Chunk.Frame
import Chunkscope.Column.Body
import Chunkscope.Column.Encode

/-!
The body of a document: actors, heads, the descriptors of the change columns and of the operation
columns, the bodies of both in the same order, and the index of a change for each head. Indexes
may be left out; what follows them belongs to no part.
-/

namespace Chunkscope

inductive HeadIndexes where
  /-- No bytes were left for them. -/
  | omitted
  /-- An index for each complete head. -/
  | present (indexes : List (ChangeHash × Field UInt64))
  deriving DecidableEq, Repr

namespace HeadIndexes

instance : Spans HeadIndexes :=
  ⟨fun indexes => match indexes with
    | .omitted => []
    | .present indexes => spanned (indexes.map Prod.snd)⟩

/-- Reads one index and pairs it with its head. -/
def readNext (input : Bytes) (hash : ChangeHash) : (ChangeHash × Field UInt64) × Bytes :=
  let index := Reader.unsigned none input
  ((hash, index.1), index.2)

/-- The indexes for some heads, and the bytes after them. -/
def read (hashes : List ChangeHash) (input : Bytes) : HeadIndexes × Bytes :=
  if input = [] then (.omitted, [])
  else
    let indexes := mapState readNext input hashes
    (.present indexes.1, indexes.2)

theorem map_state_read_next_append (hashes : List ChangeHash) (input : Bytes) :
    spanned ((mapState readNext input hashes).1.map Prod.snd) ++
      (mapState readNext input hashes).2 = input := by
  induction hashes generalizing input with
  | nil => rfl
  | cons hash hashes ih =>
      rw [map_state_cons, List.map_cons, spanned_cons, List.append_assoc, ih]
      exact (Reader.unsigned none).covers input

theorem read_append (hashes : List ChangeHash) (input : Bytes) :
    bytes (read hashes input).1 ++ (read hashes input).2 = input := by
  rw [read]
  split
  · next ended => rw [ended]; rfl
  · exact map_state_read_next_append hashes input

end HeadIndexes

structure Document where
  actors : ActorTable
  heads : Heads
  changeColumns : ColumnDescriptors
  operationColumns : ColumnDescriptors
  changeData : List ColumnData
  operationData : List ColumnData
  headIndexes : HeadIndexes
  trailing : Field Unit
  deriving DecidableEq, Repr

namespace Document

instance : Spans Document :=
  ⟨fun document => bytes document.actors ++ bytes document.heads ++
    bytes document.changeColumns ++ bytes document.operationColumns ++
    spanned document.changeData ++ spanned document.operationData ++
    bytes document.headIndexes ++ document.trailing.bytes⟩

theorem bytes_eq (document : Document) :
    bytes document = bytes document.actors ++ bytes document.heads ++
      bytes document.changeColumns ++ bytes document.operationColumns ++
      spanned document.changeData ++ spanned document.operationData ++
      bytes document.headIndexes ++ document.trailing.bytes := rfl

/-- A document whose body has no bytes. -/
def empty : Document where
  actors := .empty
  heads := .empty
  changeColumns := .empty .change
  operationColumns := .empty .operation
  changeData := []
  operationData := []
  headIndexes := .omitted
  trailing := .clean [] ()

/-- Whether the body held nothing at all. -/
def isEmpty (document : Document) : Bool :=
  document.actors.count.bytes.isEmpty && document.heads.count.bytes.isEmpty &&
    document.changeColumns.count.bytes.isEmpty && document.operationColumns.count.bytes.isEmpty

/-- Decodes a body that is not empty. -/
def decodeParts (context : Context) (body : Bytes) : Document × Context :=
  let actors := ActorTable.reader body
  let heads := Heads.reader actors.2
  let changeColumns := ColumnDescriptors.reader .change heads.2
  let operationColumns := ColumnDescriptors.reader .operation changeColumns.2
  let changeData := decodeSection context changeColumns.1 operationColumns.2
  let operationData := decodeSection changeData.2.2 operationColumns.1 changeData.2.1
  let headIndexes := HeadIndexes.read heads.1.complete operationData.2.1
  ({ actors := actors.1
     heads := heads.1
     changeColumns := changeColumns.1
     operationColumns := operationColumns.1
     changeData := changeData.1
     operationData := operationData.1
     headIndexes := headIndexes.1
     trailing := trailingField headIndexes.2 },
    operationData.2.2)

/-- Decodes a body; what the context remembers of other bodies plays no part. -/
def decode (context : Context) (body : Bytes) : Document × Context :=
  if body = [] then (empty, context.reset) else decodeParts context.reset body

theorem bytes_decode_parts (context : Context) (body : Bytes) :
    bytes (decodeParts context body).1 = body := by
  rw [bytes_eq]
  simp only [decodeParts, trailingField, List.append_assoc, HeadIndexes.read_append,
    spanned_decode_section, Reader.covers]

/-- The parts of a decoded document cover its body. -/
theorem bytes_decode (context : Context) (body : Bytes) :
    bytes (decode context body).1 = body := by
  rw [decode]
  split
  · next ended => rw [ended]; rfl
  · exact bytes_decode_parts context.reset body

end Document

/-- The parts of a document that is to be written. -/
structure DocumentDraft where
  actors : List Bytes
  heads : List ChangeHash
  changeColumns : List EncodedColumn
  operationColumns : List EncodedColumn
  headIndexes : Option (List UInt64)
  trailing : Bytes
  deriving DecidableEq, Repr

namespace DocumentDraft

def body (draft : DocumentDraft) : Bytes :=
  ActorTable.encode draft.actors ++ Heads.encode draft.heads ++
    encodeDescriptors draft.changeColumns ++ encodeDescriptors draft.operationColumns ++
    encodeBodies draft.changeColumns ++ encodeBodies draft.operationColumns ++
    (draft.headIndexes.getD []).flatMap Varint.encodeUnsigned ++ draft.trailing

def chunk (suite : Suite) (draft : DocumentDraft) : Bytes :=
  Chunk.build suite .document draft.body

end DocumentDraft

end Chunkscope
