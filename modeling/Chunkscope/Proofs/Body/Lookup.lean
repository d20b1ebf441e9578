import Chunkscope.Body.Change
import Chunkscope.Body.Document
import Chunkscope.Proofs.Column.Lookup

/-!
# Decoding a body depends on nothing but the body

What a decoded body says is told here from its bytes and the limit alone, group by group. Decoding
gives just that, whatever the context remembers of other bodies, and the change columns of a document
tell nothing about its operation columns.
-/

namespace Chunkscope

namespace Document

/-- The document in a body. -/
def ofBody (limit : Nat) (body : Bytes) : Document :=
  if body = [] then empty
  else
    let actors := ActorTable.reader body
    let heads := Heads.reader actors.2
    let changeColumns := ColumnDescriptors.reader .change heads.2
    let operationColumns := ColumnDescriptors.reader .operation changeColumns.2
    let changeData := changeColumns.1.dataIn limit operationColumns.2
    let operationData := operationColumns.1.dataIn limit changeData.2
    let headIndexes := HeadIndexes.read heads.1.complete operationData.2
    { actors := actors.1
      heads := heads.1
      changeColumns := changeColumns.1
      operationColumns := operationColumns.1
      changeData := changeData.1
      operationData := operationData.1
      headIndexes := headIndexes.1
      trailing := trailingField headIndexes.2 }

end Document

/-- The part of a change that comes after its message. -/
def ChangeTail.ofBytes (limit : Nat) (input : Bytes) : ChangeTail :=
  let otherActors := ActorTable.reader input
  let operationColumns := ColumnDescriptors.reader .operation otherActors.2
  let operationData := operationColumns.1.dataIn limit operationColumns.2
  { otherActors := otherActors.1
    operationColumns := operationColumns.1
    operationData := operationData.1
    extra := trailingField operationData.2 }

namespace Change

/-- The change with some header when its message takes some stretch of input. -/
def ofMessage (limit : Nat) (header : ChangeHeader) (text : Window) : Change :=
  let message := Utf8.decodeLossy text.bytes
  match text.short with
  | some _ => ⟨header.addToLength [.error .messageTooLong], .clean text.bytes message, none⟩
  | none =>
      ⟨header, ⟨text.bytes, message, textProblems text.bytes⟩,
        some (ChangeTail.ofBytes limit text.rest)⟩

/-- The change in a body. -/
def ofBody (limit : Nat) (body : Bytes) : Change :=
  let header := ChangeHeader.reader body
  ofMessage limit header.1 (window header.1.messageLength.value header.2)

end Change

section Bodies

variable (context : Context)

theorem different_groups (early late : Bytes) :
    (ColumnDescriptors.reader .operation late).1.group ≠
      (ColumnDescriptors.reader .change early).1.group :=
  ColumnGroup.noConfusion

theorem decode_document_alone (body : Bytes) :
    (Document.decode context body).1 = Document.ofBody context.limit body := by
  simp only [Document.decode, Document.ofBody, Document.decodeParts]
  generalize ActorTable.reader body = actors
  generalize Heads.reader actors.2 = heads
  have different := different_groups heads.2 (ColumnDescriptors.reader .change heads.2).2
  generalize ColumnDescriptors.reader .change heads.2 = changeColumns at different
  generalize ColumnDescriptors.reader .operation changeColumns.2 = operationColumns at different
  obtain ⟨changes, operations, rest⟩ :=
    decode_two_sections context different operationColumns.2
  split
  · rfl
  · simp only [changes, operations, rest]

theorem decode_tail_alone (input : Bytes) :
    (ChangeTail.decode context.reset input).1 = ChangeTail.ofBytes context.limit input := by
  simp only [ChangeTail.decode, ChangeTail.ofBytes]
  generalize ActorTable.reader input = actors
  generalize ColumnDescriptors.reader .operation actors.2 = columns
  obtain ⟨operations, rest⟩ :=
    decode_section_of_remembered (remembers_reset context columns.1.group) columns.2
  simp only [operations, rest]

theorem of_text_alone (header : ChangeHeader) (text : Window) :
    (Change.ofText context.reset header text).1 =
      Change.ofMessage context.limit header text := by
  unfold Change.ofText Change.ofMessage
  cases text.short with
  | none => simp only [decode_tail_alone]
  | some available => rfl

theorem decode_change_alone (body : Bytes) :
    (Change.decode context body).1 = Change.ofBody context.limit body := by
  rw [Change.decode_eq]
  apply of_text_alone

end Bodies

/-- Decoding gives what the body alone says, as it does with a context that is new. -/
theorem decode_without_memory (context : Context) (body : Bytes) :
    (Document.decode context body).1 = Document.ofBody context.limit body ∧
      (Change.decode context body).1 = Change.ofBody context.limit body ∧
      (Document.decode context body).1 = (Document.decode (.new context.limit) body).1 ∧
      (Change.decode context body).1 = (Change.decode (.new context.limit) body).1 := by
  have document := decode_document_alone context body
  have change := decode_change_alone context body
  refine ⟨document, change, ?_, ?_⟩
  · exact document.trans (decode_document_alone (.new context.limit) body).symm
  · exact change.trans (decode_change_alone (.new context.limit) body).symm

end Chunkscope
