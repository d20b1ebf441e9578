import Chunkscope.Body.Document
import Chunkscope.Proofs.Body.Tables
import Chunkscope.Proofs.Column.Section

/-!
# Documents as they were written

No part of a document says where it ends, so every part is read back with whatever follows it. Put
together, decoding the body of a draft finds all its parts and no fault outside the column bodies.
-/

namespace Chunkscope

namespace HeadIndexes

/-- Each head with its index, with nothing wrong with either. -/
def written (hashes : List ChangeHash) (indexes : List UInt64) : List (ChangeHash × Field UInt64) :=
  List.zipWith (fun hash index => (hash, .clean (Varint.encodeUnsigned index) index)) hashes indexes

theorem read_each_written {hashes : List ChangeHash} {indexes : List UInt64}
    (same : indexes.length = hashes.length) (rest : Bytes) :
    mapState readNext (indexes.flatMap Varint.encodeUnsigned ++ rest) hashes =
      (written hashes indexes, rest) := by
  induction hashes generalizing indexes with
  | nil =>
      obtain rfl := List.eq_nil_of_length_eq_zero same
      rfl
  | cons hash hashes induction =>
      cases indexes with
      | nil => cases same
      | cons index indexes =>
          have later := induction (Nat.succ_injective same)
          rw [List.flatMap_cons, List.append_assoc, map_state_cons]
          simp only [readNext, unsigned_field_encode, later]
          rfl

end HeadIndexes

namespace EncodedColumn

/-- Decoded data holds just the body of a written column. What is in the body may be wrong, but none
of it is missing. -/
structure ReadAs (group : ColumnGroup) (written : EncodedColumn) (data : ColumnData) : Prop where
  group : data.group = group
  column : data.column = written.announced
  bytes : data.bytes = written.body
  decoded : Spans.bytes data.body = written.body
  whole : ∀ diagnostic ∈ data.diagnostics, ∀ needed available,
    diagnostic.problem ≠ .notEnoughBytes needed available

theorem columns_read_as (group : ColumnGroup) (columns : List EncodedColumn) (context : Context) :
    List.Forall₂ (ReadAs group) columns (mapState (decoded group) context columns).1 := by
  induction columns generalizing context with
  | nil => exact .nil
  | cons column columns induction =>
      rw [map_state_cons]
      refine .cons ⟨rfl, rfl, rfl, ?_, ?_⟩ (induction _)
      · exact Column.bytes_decode context group column.announced column.body
      · exact Column.decode_never_short context group column.announced column.body

end EncodedColumn

namespace DocumentDraft

variable {draft : DocumentDraft}

def indexes (draft : DocumentDraft) : List UInt64 := draft.headIndexes.getD []

/-- What is written behind the columns. -/
def tail (draft : DocumentDraft) : Bytes :=
  draft.indexes.flatMap Varint.encodeUnsigned ++ draft.trailing

/-- Bytes behind the columns are taken for indexes of the heads as long as there are any. -/
def Indexed (draft : DocumentDraft) : Prop :=
  match draft.headIndexes with
  | some indexes => indexes.length = draft.heads.length
  | none => draft.trailing = [] ∨ draft.heads = []

theorem length_indexes (indexed : draft.Indexed) (more : draft.tail ≠ []) :
    draft.indexes.length = draft.heads.length := by
  unfold Indexed at indexed
  unfold tail at more
  unfold indexes at more ⊢
  cases given : draft.headIndexes with
  | some indexes =>
      rw [given] at indexed
      exact indexed
  | none =>
      rw [given] at indexed more
      obtain nothing | headless := indexed
      · exact absurd nothing more
      -- Without heads no index is read, so what trails behind is not taken for any.
      · rw [headless]
        rfl

theorem read_tail (indexed : draft.Indexed) :
    HeadIndexes.read draft.heads draft.tail =
      (if draft.tail = [] then .omitted
        else .present (HeadIndexes.written draft.heads draft.indexes),
        draft.trailing) := by
  unfold HeadIndexes.read
  by_cases ended : draft.tail = []
  · have nothing := (List.append_eq_nil_iff.mp ended).2
    rw [if_pos ended, if_pos ended, nothing]
  · have each := HeadIndexes.read_each_written (length_indexes indexed ended) draft.trailing
    rw [if_neg ended, if_neg ended]
    unfold tail
    rw [each]

/-- A decoded document holds all parts of a draft, and nothing is wrong with any part but the
insides of its columns and what trails behind. -/
structure ReadAs (draft : DocumentDraft) (document : Document) : Prop where
  actors : document.actors = .written draft.actors
  heads : document.heads = .written draft.heads
  changeColumns : document.changeColumns = .written .change draft.changeColumns
  operationColumns : document.operationColumns = .written .operation draft.operationColumns
  changeData : List.Forall₂ (EncodedColumn.ReadAs .change) draft.changeColumns document.changeData
  operationData :
    List.Forall₂ (EncodedColumn.ReadAs .operation) draft.operationColumns document.operationData
  headIndexes : document.headIndexes =
    if draft.tail = [] then .omitted
    else .present (HeadIndexes.written draft.heads draft.indexes)
  trailing : document.trailing.bytes = draft.trailing

/-- All numbers and lengths that a draft is written with have 64 bits. -/
structure Counted (draft : DocumentDraft) : Prop where
  actors : draft.actors.length < 2 ^ 64
  ids : ∀ id ∈ draft.actors, id.length < 2 ^ 64
  heads : draft.heads.length < 2 ^ 64
  changeColumns : draft.changeColumns.length < 2 ^ 64
  changeBodies : ∀ column ∈ draft.changeColumns, column.body.length < 2 ^ 64
  operationColumns : draft.operationColumns.length < 2 ^ 64
  operationBodies : ∀ column ∈ draft.operationColumns, column.body.length < 2 ^ 64

theorem counted_of_body (fits : draft.body.length < 2 ^ 64) : draft.Counted := by
  simp only [body, List.length_append] at fits
  obtain ⟨fewActors, shortActors⟩ := ActorTable.lengths_le draft.actors
  have fewHeads := Heads.length_le draft.heads
  have fewChange := length_le_descriptors draft.changeColumns
  have fewOperation := length_le_descriptors draft.operationColumns
  refine ⟨by omega, ?_, by omega, by omega, ?_, by omega, ?_⟩
  · intro id member
    have part := shortActors id member
    omega
  · intro column member
    have part : column.body.length ≤ (encodeBodies _).length := length_le_of_mem_flat_map _ member
    omega
  · intro column member
    have part : column.body.length ≤ (encodeBodies _).length := length_le_of_mem_flat_map _ member
    omega

theorem body_ne_nil (draft : DocumentDraft) : draft.body ≠ [] := by
  unfold body ActorTable.encode
  simp only [List.append_assoc]
  exact List.append_ne_nil_of_left_ne_nil (Varint.encode_unsigned_ne_nil _) _

theorem body_eq (draft : DocumentDraft) :
    draft.body = ActorTable.encode draft.actors ++ (Heads.encode draft.heads ++
      (encodeDescriptors draft.changeColumns ++ (encodeDescriptors draft.operationColumns ++
      (encodeBodies draft.changeColumns ++ (encodeBodies draft.operationColumns ++
        draft.tail))))) := by
  simp only [body, tail, indexes, List.append_assoc]

/-- Decoding undoes writing, whatever stands in the columns. Specs have 32 bits, and no body is too
long to be counted. -/
theorem decode_body (context : Context) (fits : draft.body.length < 2 ^ 64)
    (small : ∀ column ∈ draft.changeColumns ++ draft.operationColumns,
      column.spec ≤ Column.largestSpec)
    (indexed : draft.Indexed) : draft.ReadAs (Document.decode context draft.body).1 := by
  obtain ⟨smallChange, smallOperation⟩ := List.forall_mem_append.mp small
  have counted := counted_of_body fits
  have actors := ActorTable.read_encoded counted.actors counted.ids
  have heads := Heads.read_encoded counted.heads
  have changeColumns := ColumnDescriptors.read_encoded .change counted.changeColumns smallChange
  have operationColumns :=
    ColumnDescriptors.read_encoded .operation counted.operationColumns smallOperation
  have changeData := decode_section_written .change counted.changeBodies
  have operationData := decode_section_written .operation counted.operationBodies
  have tail := read_tail indexed
  unfold Document.decode
  rw [if_neg draft.body_ne_nil, draft.body_eq]
  simp only [Document.decodeParts, actors, heads, changeColumns, operationColumns, changeData,
    operationData, Heads.complete_written, tail]
  exact {
    actors := rfl
    heads := rfl
    changeColumns := rfl
    operationColumns := rfl
    changeData := EncodedColumn.columns_read_as .change _ _
    operationData := EncodedColumn.columns_read_as .operation _ _
    headIndexes := rfl
    trailing := rfl }

/-- Two heads with their indexes, a body that is no list of strings, and a byte left over. -/
theorem decode_body_of_two_heads :
    let draft : DocumentDraft :=
      { actors := [[0xaa], []]
        heads := [⟨List.replicate 32 1, rfl⟩, ⟨List.replicate 32 2, rfl⟩]
        changeColumns := [⟨3, [2, 1]⟩]
        operationColumns := [⟨0xfffffff5, [0x7f, 9]⟩, ⟨1, []⟩]
        headIndexes := some [300, 0]
        trailing := [7] }
    draft.ReadAs (Document.decode (.new 0) draft.body).1 :=
  decode_body (.new 0) (by decide +kernel) (by decide) rfl

end DocumentDraft

end Chunkscope
