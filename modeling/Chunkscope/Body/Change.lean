import Chunkscope.Body.Tables
import Chunkscope.Chunk.Frame
import Chunkscope.Column.Body
import Chunkscope.Column.Encode

/-!
The body of a change: the hashes it depends on, its actor, its sequence number, its first
operation, its time, a message, the other actors and the operation columns. When the message is
longer than what is left of the body, nothing after it can be told apart.
-/

namespace Chunkscope

/-- What comes after the message. -/
structure ChangeTail where
  otherActors : ActorTable
  operationColumns : ColumnDescriptors
  operationData : List ColumnData
  extra : Field Unit
  deriving DecidableEq, Repr

namespace ChangeTail

instance : Spans ChangeTail :=
  ⟨fun tail => bytes tail.otherActors ++ bytes tail.operationColumns ++
    spanned tail.operationData ++ tail.extra.bytes⟩

theorem bytes_eq (tail : ChangeTail) :
    bytes tail = bytes tail.otherActors ++ bytes tail.operationColumns ++
      spanned tail.operationData ++ tail.extra.bytes := rfl

def decode (context : Context) (input : Bytes) : ChangeTail × Context :=
  let otherActors := ActorTable.reader input
  let operationColumns := ColumnDescriptors.reader .operation otherActors.2
  let operationData := decodeSection context operationColumns.1 operationColumns.2
  ({ otherActors := otherActors.1
     operationColumns := operationColumns.1
     operationData := operationData.1
     extra := trailingField operationData.2.1 },
    operationData.2.2)

theorem bytes_decode (context : Context) (input : Bytes) :
    bytes (decode context input).1 = input := by
  rw [bytes_eq]
  simp only [decode, trailingField, List.append_assoc, spanned_decode_section, Reader.covers]

end ChangeTail

/-- What comes before the message, its length included. -/
structure ChangeHeader where
  /-- The changes that this one depends on. -/
  heads : Heads
  actor : Actor
  sequenceNumber : Field UInt64
  startOperation : Field UInt64
  /-- Milliseconds from the start of 1970. -/
  time : Field Int64
  messageLength : Field UInt64
  deriving DecidableEq, Repr

namespace ChangeHeader

instance : Spans ChangeHeader :=
  ⟨fun header => bytes header.heads ++ bytes header.actor ++ header.sequenceNumber.bytes ++
    header.startOperation.bytes ++ header.time.bytes ++ header.messageLength.bytes⟩

theorem bytes_eq (header : ChangeHeader) :
    bytes header = bytes header.heads ++ bytes header.actor ++ header.sequenceNumber.bytes ++
      header.startOperation.bytes ++ header.time.bytes ++ header.messageLength.bytes := rfl

def reader : Reader ChangeHeader where
  read input :=
    let heads := Heads.reader input
    let actor := Actor.reader heads.2
    let sequenceNumber := Reader.unsigned none actor.2
    let startOperation := Reader.unsigned none sequenceNumber.2
    let time := Reader.signed none startOperation.2
    let messageLength := Reader.unsigned none time.2
    ({ heads := heads.1
       actor := actor.1
       sequenceNumber := sequenceNumber.1
       startOperation := startOperation.1
       time := time.1
       messageLength := messageLength.1 },
      messageLength.2)
  covers input := by
    rw [bytes_eq]
    simp only [← Field.bytes_eq, List.append_assoc, Reader.covers]

/-- The header with more to say about the length of the message. -/
def addToLength (header : ChangeHeader) (more : List Diagnostic) : ChangeHeader :=
  { header with messageLength := header.messageLength.add more }

@[simp] theorem bytes_add_to_length (header : ChangeHeader) (more : List Diagnostic) :
    bytes (header.addToLength more) = bytes header := rfl

end ChangeHeader

structure Change where
  header : ChangeHeader
  message : Field String
  /-- Nothing when the message ran out of bytes. -/
  tail : Option ChangeTail
  deriving DecidableEq, Repr

namespace Change

def tailBytes : Option ChangeTail → Bytes
  | none => []
  | some tail => bytes tail

instance : Spans Change :=
  ⟨fun change => bytes change.header ++ change.message.bytes ++ tailBytes change.tail⟩

theorem bytes_eq (change : Change) :
    bytes change = bytes change.header ++ change.message.bytes ++ tailBytes change.tail := rfl

def isTruncated (change : Change) : Bool := change.tail.isNone

/-- Puts a change together from its header and the stretch of input that its message takes. -/
def ofText (context : Context) (header : ChangeHeader) (text : Window) : Change × Context :=
  let message := Utf8.decodeLossy text.bytes
  match text.short with
  | some _ =>
      (⟨header.addToLength [.error .messageTooLong], .clean text.bytes message, none⟩, context)
  | none =>
      let tail := ChangeTail.decode context text.rest
      (⟨header, ⟨text.bytes, message, textProblems text.bytes⟩, some tail.1⟩, tail.2)

theorem bytes_of_text (context : Context) (header : ChangeHeader) (declared : UInt64)
    (input : Bytes) :
    bytes (ofText context header (window declared input)).1 = bytes header ++ input := by
  have cutting := window_append declared input
  rw [bytes_eq, ofText]
  split
  · next available short =>
      rw [rest_of_short short, List.append_nil] at cutting
      simp only [ChangeHeader.bytes_add_to_length, Field.clean, tailBytes, List.append_nil, cutting]
  · simp only [tailBytes, ChangeTail.bytes_decode, List.append_assoc, cutting]

/-- Decodes a body; what the context remembers of other bodies plays no part. -/
def decode (context : Context) (body : Bytes) : Change × Context :=
  let header := ChangeHeader.reader body
  ofText context.reset header.1 (window header.1.messageLength.value header.2)

theorem decode_eq (context : Context) (body : Bytes) :
    decode context body =
      ofText context.reset (ChangeHeader.reader body).1
        (window (ChangeHeader.reader body).1.messageLength.value (ChangeHeader.reader body).2) :=
  rfl

/-- The parts of a decoded change cover its body. -/
theorem bytes_decode (context : Context) (body : Bytes) :
    bytes (decode context body).1 = body := by
  rw [decode_eq, bytes_of_text, Reader.covers]

end Change

/-- The parts of a change that is to be written. -/
structure ChangeDraft where
  dependencies : List ChangeHash
  actor : Bytes
  sequenceNumber : UInt64
  startOperation : UInt64
  time : Int64
  message : Bytes
  otherActors : List Bytes
  operationColumns : List EncodedColumn
  extra : Bytes
  deriving DecidableEq, Repr

namespace ChangeDraft

def body (draft : ChangeDraft) : Bytes :=
  Heads.encode draft.dependencies ++ Actor.encode draft.actor ++
    Varint.encodeUnsigned draft.sequenceNumber ++ Varint.encodeUnsigned draft.startOperation ++
    Varint.encodeSigned draft.time ++ Varint.encodeLength draft.message ++ draft.message ++
    ActorTable.encode draft.otherActors ++ encodeDescriptors draft.operationColumns ++
    encodeBodies draft.operationColumns ++ draft.extra

def chunk (suite : Suite) (draft : ChangeDraft) : Bytes :=
  Chunk.build suite .change draft.body

end ChangeDraft

end Chunkscope
