import Chunkscope.Body.Change
import Chunkscope.Body.Document
import Chunkscope.Proofs.Body.Tables
import Chunkscope.Proofs.Column.Section
import Chunkscope.Proofs.Listing.Notes

/-!
# Clean bodies have one encoding

Decoding covers a body by its parts, so it is enough to look at each part alone: one without faults
spans the very bytes that its content is written as. What is in a column plays no role, for a column
is written again by its bytes.
-/

namespace Chunkscope

section Faultless

/-- No field of a piece has anything wrong with it. -/
def Faultless {Piece : Type} [Noted Piece] (piece : Piece) : Prop :=
  ∀ note ∈ notes piece, note.diagnostics = []

instance {Piece : Type} [Noted Piece] (piece : Piece) : Decidable (Faultless piece) :=
  inferInstanceAs (Decidable (∀ note ∈ notes piece, note.diagnostics = []))

theorem faultless_field {Value : Type} {field : Field Value} (faultless : Faultless field) :
    field.diagnostics = [] :=
  faultless _ List.mem_cons_self

theorem faultless_of_mem {Piece : Type} [Noted Piece] {piece : Piece} {pieces : List Piece}
    (faultless : ∀ note ∈ notesOf pieces, note.diagnostics = []) (member : piece ∈ pieces) :
    Faultless piece := by
  intro note found
  exact faultless note (List.mem_flatMap.mpr ⟨piece, member, found⟩)

theorem faultless_actor {actor : Actor} (faultless : Faultless actor) :
    actor.length.diagnostics = [] ∧ actor.id.diagnostics = [] := by
  obtain ⟨length, id⟩ := List.forall_mem_append.mp faultless
  exact ⟨faultless_field length, faultless_field id⟩

/-- Nothing is wrong with descriptors but that specs may have too many bits. -/
structure ColumnDescriptors.Clean (descriptors : ColumnDescriptors) : Prop where
  count : descriptors.count.diagnostics = []
  columns : ∀ column ∈ descriptors.columns, ∀ diagnostic ∈ column.diagnostics,
    diagnostic.problem = .specTooLarge

theorem whole_of_silent {columns : List ColumnData}
    (silent : ∀ data ∈ columns, data.diagnostics = []) : ∀ data ∈ columns, data.Whole := by
  intro data member diagnostic found
  rw [silent data member] at found
  cases found

end Faultless

section Parts

variable {input : Bytes}

theorem encode_of_faultless_actors (faultless : Faultless (ActorTable.reader input).1) :
    ActorTable.encode (ActorTable.reader input).1.ids = bytes (ActorTable.reader input).1 := by
  obtain ⟨count, actors⟩ := List.forall_mem_append.mp faultless
  symm
  apply ActorTable.encode_of_sound
  · exact faultless_field count
  · intro actor member
    exact faultless_actor (faultless_of_mem actors member)

theorem encode_of_faultless_heads (faultless : Faultless (Heads.reader input).1) :
    Heads.encode (Heads.reader input).1.complete = bytes (Heads.reader input).1 := by
  obtain ⟨count, hashes⟩ := List.forall_mem_append.mp faultless
  symm
  apply Heads.encode_of_sound
  · exact faultless_field count
  · intro head member
    exact faultless_field (faultless_of_mem hashes member)

theorem encode_of_clean_descriptors {group : ColumnGroup}
    (clean : (ColumnDescriptors.reader group input).1.Clean) {context : Context} {later : Bytes}
    (whole : ∀ data ∈ (decodeSection context (ColumnDescriptors.reader group input).1 later).1,
      data.Whole) :
    encodeDescriptors ((decodeSection context (ColumnDescriptors.reader group input).1
        later).1.map ColumnData.encoded) =
      bytes (ColumnDescriptors.reader group input).1 := by
  rw [encode_descriptors_of_section whole]
  exact (ColumnDescriptors.bytes_of_sound clean.count clean.columns).symm

namespace HeadIndexes

/-- The indexes to be written again, if there are any. -/
def numbers? : HeadIndexes → Option (List UInt64)
  | .omitted => none
  | .present indexes => some (indexes.map fun index => index.2.value)

theorem encode_of_faultless {hashes : List ChangeHash}
    (faultless : Faultless (read hashes input).1) :
    ((read hashes input).1.numbers?.getD []).flatMap Varint.encodeUnsigned =
      bytes (read hashes input).1 := by
  have each : ∀ index ∈ (mapState readNext input hashes).1, index.2.diagnostics = [] →
      index.2.bytes = Varint.encodeUnsigned index.2.value := by
    apply forall_map_state
    intro state hash sound
    exact unsigned_field_sound sound
  unfold read at faultless ⊢
  split
  · rfl
  · next more =>
      rw [if_neg more] at faultless
      simp only [numbers?, Option.getD_some, Spans.bytes, spanned, List.flatMap_map]
      apply List.flatMap_congr
      intro index member
      symm
      apply each index member
      exact faultless_field (faultless_of_mem faultless (List.mem_map_of_mem member))

end HeadIndexes

end Parts

namespace Document

/-- Nothing is wrong with a document but the insides of its columns, specs with too many bits, and
what trails behind. -/
structure Clean (document : Document) : Prop where
  actors : Faultless document.actors
  heads : Faultless document.heads
  changeColumns : document.changeColumns.Clean
  operationColumns : document.operationColumns.Clean
  changeData : ∀ data ∈ document.changeData, data.Whole
  operationData : ∀ data ∈ document.operationData, data.Whole
  headIndexes : Faultless document.headIndexes

/-- What writes a decoded document again. -/
def draft (document : Document) : DocumentDraft where
  actors := document.actors.ids
  heads := document.heads.complete
  changeColumns := document.changeData.map ColumnData.encoded
  operationColumns := document.operationData.map ColumnData.encoded
  headIndexes := document.headIndexes.numbers?
  trailing := document.trailing.bytes

theorem body_draft_parts {context : Context} {body : Bytes}
    (clean : (decodeParts context body).1.Clean) :
    (decodeParts context body).1.draft.body = bytes (decodeParts context body).1 := by
  obtain ⟨actors, heads, changeColumns, operationColumns, changeData, operationData, indexes⟩ :=
    clean
  rw [bytes_eq]
  unfold draft DocumentDraft.body
  simp only [decodeParts] at *
  rw [encode_of_faultless_actors actors, encode_of_faultless_heads heads,
    encode_of_clean_descriptors changeColumns changeData,
    encode_of_clean_descriptors operationColumns operationData,
    encode_bodies_of_section, encode_bodies_of_section, HeadIndexes.encode_of_faultless indexes]

theorem body_draft {context : Context} {body : Bytes} (nonempty : body ≠ [])
    (clean : (decode context body).1.Clean) : (decode context body).1.draft.body = body := by
  have covered := bytes_decode context body
  unfold decode at clean covered ⊢
  rw [if_neg nonempty] at clean covered ⊢
  rw [body_draft_parts clean, covered]

end Document

namespace Change

/-- Nothing is wrong with what comes after a message but the insides of the columns, specs with too
many bits, and what stands behind them. -/
structure CleanTail (tail : ChangeTail) : Prop where
  otherActors : Faultless tail.otherActors
  operationColumns : tail.operationColumns.Clean
  operationData : ∀ data ∈ tail.operationData, data.Whole

/-- What writes a decoded change again, given the part after its message. -/
def draft (change : Change) (tail : ChangeTail) : ChangeDraft where
  dependencies := change.header.heads.complete
  actor := change.header.actor.id.value
  sequenceNumber := change.header.sequenceNumber.value
  startOperation := change.header.startOperation.value
  time := change.header.time.value
  message := change.message.bytes
  otherActors := tail.otherActors.ids
  operationColumns := tail.operationData.map ColumnData.encoded
  extra := tail.extra.bytes

theorem encode_header {body : Bytes} (faultless : Faultless (ChangeHeader.reader body).1) :
    Heads.encode (ChangeHeader.reader body).1.heads.complete ++
        Actor.encode (ChangeHeader.reader body).1.actor.id.value ++
        Varint.encodeUnsigned (ChangeHeader.reader body).1.sequenceNumber.value ++
        Varint.encodeUnsigned (ChangeHeader.reader body).1.startOperation.value ++
        Varint.encodeSigned (ChangeHeader.reader body).1.time.value ++
        Varint.encodeUnsigned (ChangeHeader.reader body).1.messageLength.value =
      bytes (ChangeHeader.reader body).1 := by
  obtain ⟨earlier, messageLength⟩ := List.forall_mem_append.mp faultless
  obtain ⟨earlier, time⟩ := List.forall_mem_append.mp earlier
  obtain ⟨earlier, startOperation⟩ := List.forall_mem_append.mp earlier
  obtain ⟨earlier, sequenceNumber⟩ := List.forall_mem_append.mp earlier
  obtain ⟨heads, actor⟩ := List.forall_mem_append.mp earlier
  obtain ⟨actorLength, actorId⟩ := faultless_actor actor
  rw [ChangeHeader.bytes_eq]
  simp only [ChangeHeader.reader] at *
  rw [encode_of_faultless_heads heads, Actor.encode_of_sound actorLength actorId,
    unsigned_field_sound (faultless_field messageLength), signed_field_sound (faultless_field time),
    unsigned_field_sound (faultless_field startOperation),
    unsigned_field_sound (faultless_field sequenceNumber)]

theorem encode_tail {context : Context} {input : Bytes}
    (clean : CleanTail (ChangeTail.decode context input).1) :
    ActorTable.encode (ChangeTail.decode context input).1.otherActors.ids ++
        encodeDescriptors
          ((ChangeTail.decode context input).1.operationData.map ColumnData.encoded) ++
        encodeBodies ((ChangeTail.decode context input).1.operationData.map ColumnData.encoded) ++
        (ChangeTail.decode context input).1.extra.bytes =
      input := by
  obtain ⟨otherActors, operationColumns, operationData⟩ := clean
  have covered := ChangeTail.bytes_decode context input
  rw [ChangeTail.bytes_eq] at covered
  simp only [ChangeTail.decode] at *
  rw [encode_of_faultless_actors otherActors,
    encode_of_clean_descriptors operationColumns operationData, encode_bodies_of_section, covered]

theorem body_draft {context : Context} {body : Bytes} {tail : ChangeTail}
    (whole : (decode context body).1.tail = some tail)
    (header : Faultless (decode context body).1.header) (clean : CleanTail tail) :
    ((decode context body).1.draft tail).body = body := by
  rw [decode_eq] at whole header ⊢
  cases short : (window (ChangeHeader.reader body).1.messageLength.value
      (ChangeHeader.reader body).2).short with
  | some available =>
      simp only [ofText, short] at whole
      cases whole
  | none =>
      have size := length_of_whole_window short
      have cutting := window_append (ChangeHeader.reader body).1.messageLength.value
        (ChangeHeader.reader body).2
      have covered := ChangeHeader.reader.covers body
      simp only [ofText, short] at whole header ⊢
      obtain rfl := Option.some.inj whole
      have front := encode_header header
      have behind := encode_tail clean
      unfold draft ChangeDraft.body Varint.encodeLength
      simp only [size, UInt64.ofNat_toNat]
      rw [front]
      simp only [List.append_assoc] at behind ⊢
      rw [behind, cutting, covered]

end Change

/-- Every body that is clean outside its columns is what writing its parts again gives, so no other
body has the same parts. -/
theorem clean_bodies_rebuilt (context : Context) (body : Bytes) :
    (body ≠ [] → (Document.decode context body).1.Clean →
        (Document.decode context body).1.draft.body = body) ∧
      ∀ tail, (Change.decode context body).1.tail = some tail →
        Faultless (Change.decode context body).1.header → Change.CleanTail tail →
        ((Change.decode context body).1.draft tail).body = body :=
  ⟨Document.body_draft, fun _ => Change.body_draft⟩

/-- A spec of 33 bits, a delta that never ends, and bytes behind the last part. -/
theorem clean_bodies_rebuilt_of_wide_spec :
    let front : Bytes := [1, 1, 0xaa, 1] ++ List.replicate 32 1
    let columns : Bytes := [1, 0x83, 0x80, 0x80, 0x80, 0x10, 2]
    let document := front ++ columns ++ [0, 0x80, 0x80, 5, 7]
    let change := [0, 1, 0xaa, 1, 1, 0x7f, 1, 0xff, 0] ++ columns ++ [0x80, 0x80, 7]
    (document ≠ [] ∧ (Document.decode (.new 0) document).1.Clean ∧
        (Document.decode (.new 0) document).1.draft.body = document) ∧
      ∃ tail, (Change.decode (.new 0) change).1.tail = some tail ∧
        Faultless (Change.decode (.new 0) change).1.header ∧ Change.CleanTail tail ∧
        ((Change.decode (.new 0) change).1.draft tail).body = change := by
  intro front columns document change
  have nonempty : document ≠ [] := by decide
  have clean : (Document.decode (.new 0) document).1.Clean := {
    actors := by decide +kernel
    heads := by decide +kernel
    changeColumns := ⟨by decide +kernel, by decide +kernel⟩
    operationColumns := ⟨by decide +kernel, by decide +kernel⟩
    changeData := whole_of_silent (by decide +kernel)
    operationData := whole_of_silent (by decide +kernel)
    headIndexes := by decide +kernel }
  have whole : (Change.decode (.new 0) change).1.tail.isSome := by decide +kernel
  have header : Faultless (Change.decode (.new 0) change).1.header := by decide +kernel
  obtain ⟨tail, found⟩ := Option.isSome_iff_exists.mp whole
  have sound : ∀ tail ∈ (Change.decode (.new 0) change).1.tail, Faultless tail.otherActors ∧
      tail.operationColumns.count.diagnostics = [] ∧
      (∀ column ∈ tail.operationColumns.columns, ∀ diagnostic ∈ column.diagnostics,
        diagnostic.problem = .specTooLarge) ∧
      ∀ data ∈ tail.operationData, data.diagnostics = [] := by decide +kernel
  obtain ⟨actors, count, descriptors, data⟩ := sound tail found
  have cleanTail : Change.CleanTail tail := ⟨actors, ⟨count, descriptors⟩, whole_of_silent data⟩
  exact ⟨⟨nonempty, clean, (clean_bodies_rebuilt _ document).1 nonempty clean⟩,
    tail, found, header, cleanTail, (clean_bodies_rebuilt _ change).2 tail found header cleanTail⟩

end Chunkscope
