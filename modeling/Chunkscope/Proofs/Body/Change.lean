import Chunkscope.Body.Change
import Chunkscope.Proofs.Body.Document
import Chunkscope.Proofs.Text.Utf8

/-!
# Changes as they were written

The parts before the message, the message behind its length and the parts after it are read back one
after another, each with whatever follows it. A message is any bytes: those that encode a text are
read as that text, and all others are kept and reported.
-/

namespace Chunkscope

namespace ChangeHeader

/-- The parts before the message of a draft, with nothing wrong with any of them. -/
def written (draft : ChangeDraft) : ChangeHeader where
  heads := .written draft.dependencies
  actor := .written draft.actor
  sequenceNumber := .clean (Varint.encodeUnsigned draft.sequenceNumber) draft.sequenceNumber
  startOperation := .clean (Varint.encodeUnsigned draft.startOperation) draft.startOperation
  time := .clean (Varint.encodeSigned draft.time) draft.time
  messageLength := .clean (Varint.encodeLength draft.message) (UInt64.ofNat draft.message.length)

theorem read_encoded {draft : ChangeDraft} (few : draft.dependencies.length < 2 ^ 64)
    (fits : draft.actor.length < 2 ^ 64) (rest : Bytes) :
    reader (Heads.encode draft.dependencies ++ (Actor.encode draft.actor ++
        (Varint.encodeUnsigned draft.sequenceNumber ++
        (Varint.encodeUnsigned draft.startOperation ++ (Varint.encodeSigned draft.time ++
        (Varint.encodeLength draft.message ++ rest)))))) =
      (written draft, rest) := by
  have heads := Heads.read_encoded few
  have actor := Actor.read_encoded fits
  simp only [reader, heads, actor, Varint.encodeLength, unsigned_field_encode, signed_field_encode]
  rfl

end ChangeHeader

section Messages

/-- A field shows a message when it spans its bytes and holds their text. Bytes that are the encoding
of no text are the only thing that can be wrong with it. -/
structure MessageReadAs (written : Bytes) (message : Field String) : Prop where
  span : message.bytes = written
  text : ∀ text, Utf8.encode text = written → message.value = text ∧ message.diagnostics = []
  noText : (∀ text, Utf8.encode text ≠ written) →
    message.diagnostics = [.errorIn "utf8" .invalidUtf8]

theorem message_read_as (written : Bytes) :
    MessageReadAs written ⟨written, Utf8.decodeLossy written, textProblems written⟩ where
  span := rfl
  text := by
    rintro text rfl
    exact ⟨Utf8.decode_lossy_encode text, if_pos (Utf8.is_valid_encode text)⟩
  noText := by
    intro noText
    have invalid : ¬Utf8.isValid written = true := by
      intro valid
      exact noText _ (Utf8.encode_decode_lossy valid)
    exact if_neg invalid

end Messages

namespace ChangeDraft

variable {draft : ChangeDraft}

/-- The parts behind the message of a draft. What is in a column may be wrong, but it is all there. -/
structure TailReadAs (draft : ChangeDraft) (tail : ChangeTail) : Prop where
  otherActors : tail.otherActors = .written draft.otherActors
  operationColumns : tail.operationColumns = .written .operation draft.operationColumns
  operationData :
    List.Forall₂ (EncodedColumn.ReadAs .operation) draft.operationColumns tail.operationData
  extra : tail.extra.bytes = draft.extra

/-- A decoded change holds all parts of a draft, none of them cut off, and nothing is wrong with any
part but its message, the insides of its columns and what stands behind them. -/
structure ReadAs (draft : ChangeDraft) (change : Change) : Prop where
  header : change.header = .written draft
  message : MessageReadAs draft.message change.message
  tail : ∃ tail, change.tail = some tail ∧ draft.TailReadAs tail

/-- All numbers and lengths that a draft is written with have 64 bits. -/
structure Counted (draft : ChangeDraft) : Prop where
  dependencies : draft.dependencies.length < 2 ^ 64
  actor : draft.actor.length < 2 ^ 64
  message : draft.message.length < 2 ^ 64
  otherActors : draft.otherActors.length < 2 ^ 64
  ids : ∀ id ∈ draft.otherActors, id.length < 2 ^ 64
  operationColumns : draft.operationColumns.length < 2 ^ 64
  operationBodies : ∀ column ∈ draft.operationColumns, column.body.length < 2 ^ 64

theorem counted_of_body (fits : draft.body.length < 2 ^ 64) : draft.Counted := by
  simp only [body, Actor.encode, List.length_append] at fits
  have fewHeads := Heads.length_le draft.dependencies
  obtain ⟨fewActors, shortActors⟩ := ActorTable.lengths_le draft.otherActors
  have fewColumns := length_le_descriptors draft.operationColumns
  refine ⟨by omega, by omega, by omega, by omega, ?_, by omega, ?_⟩
  · intro id member
    have part := shortActors id member
    omega
  · intro column member
    have part : column.body.length ≤ (encodeBodies _).length := length_le_of_mem_flat_map _ member
    omega

theorem body_eq (draft : ChangeDraft) :
    draft.body = Heads.encode draft.dependencies ++ (Actor.encode draft.actor ++
      (Varint.encodeUnsigned draft.sequenceNumber ++
      (Varint.encodeUnsigned draft.startOperation ++ (Varint.encodeSigned draft.time ++
      (Varint.encodeLength draft.message ++ (draft.message ++
      (ActorTable.encode draft.otherActors ++ (encodeDescriptors draft.operationColumns ++
        (encodeBodies draft.operationColumns ++ draft.extra))))))))) := by
  simp only [body, List.append_assoc]

theorem tail_read_as (context : Context) (counted : draft.Counted)
    (small : ∀ column ∈ draft.operationColumns, column.spec ≤ Column.largestSpec) :
    draft.TailReadAs (ChangeTail.decode context
      (ActorTable.encode draft.otherActors ++ (encodeDescriptors draft.operationColumns ++
        (encodeBodies draft.operationColumns ++ draft.extra)))).1 := by
  have otherActors := ActorTable.read_encoded counted.otherActors counted.ids
  have operationColumns :=
    ColumnDescriptors.read_encoded .operation counted.operationColumns small
  have operationData := decode_section_written .operation counted.operationBodies
  simp only [ChangeTail.decode, otherActors, operationColumns, operationData]
  exact {
    otherActors := rfl
    operationColumns := rfl
    operationData := EncodedColumn.columns_read_as .operation _ _
    extra := rfl }

/-- Decoding undoes writing, whatever the message and the columns hold. Specs have 32 bits, and no
body is too long to be counted. -/
theorem decode_change_body (context : Context) (fits : draft.body.length < 2 ^ 64)
    (small : ∀ column ∈ draft.operationColumns, column.spec ≤ Column.largestSpec) :
    draft.ReadAs (Change.decode context draft.body).1 := by
  have counted := counted_of_body fits
  have header := ChangeHeader.read_encoded counted.dependencies counted.actor
  have message := window_append_exact counted.message
  rw [Change.decode_eq, body_eq, header]
  simp only [ChangeHeader.written, Field.clean, message, Change.ofText]
  exact {
    header := rfl
    message := message_read_as draft.message
    tail := ⟨_, rfl, tail_read_as context.reset counted small⟩ }

/-- The earliest time there is, a message that is no text, a body that is no list of strings, and a
byte left over. -/
theorem decode_change_body_of_raw_message :
    let draft : ChangeDraft :=
      { dependencies := [⟨List.replicate 32 1, rfl⟩]
        actor := [0xaa, 0xbb]
        sequenceNumber := 0xffffffffffffffff
        startOperation := 300
        time := Int64.minValue
        message := [0x68, 0xff]
        otherActors := [[], [0xcc]]
        operationColumns := [⟨0xfffffff5, [0x7f, 9]⟩, ⟨1, []⟩]
        extra := [7] }
    draft.ReadAs (Change.decode (.new 0) draft.body).1 :=
  decode_change_body (.new 0) (by decide +kernel) (by decide)

end ChangeDraft

end Chunkscope
