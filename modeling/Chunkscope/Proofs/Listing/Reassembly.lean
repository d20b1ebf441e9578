import Chunkscope.Listing.Annotate
import Chunkscope.Proofs.Chunk.Stream

/-!
# A listing reproduces its input

The lines of every part of a body span the bytes of that part, whatever is wrong with it. The parts
of a decoded body cover the body, the pieces of a stream cover the stream, and so the lines of a
stream, put together, are the stream.
-/

namespace Chunkscope

@[simp] theorem spanned_singleton {Piece : Type} [Spans Piece] (piece : Piece) :
    spanned [piece] = bytes piece := by
  rw [spanned_cons, spanned_nil, List.append_nil]

/-- Pieces whose lines span them have lines that together span them all. -/
theorem spanned_flat_map {Piece Other : Type} [Spans Piece] [Spans Other]
    {lines : Piece → List Other} {pieces : List Piece}
    (each : ∀ piece ∈ pieces, spanned (lines piece) = bytes piece) :
    spanned (pieces.flatMap lines) = spanned pieces := by
  induction pieces with
  | nil => rfl
  | cons piece pieces induction =>
      rw [List.flatMap_cons, spanned_append, spanned_cons, each piece List.mem_cons_self,
        induction fun other member => each other (List.mem_cons_of_mem piece member)]

namespace Line

@[simp] theorem bytes_of_count (depth : Nat) (label : String) (count : Field UInt64) :
    (ofCount depth label count).bytes = count.bytes := rfl

theorem spanned_fields {Value : Type} (depth : Nat) (comment : Field Value → String)
    (fields : List (Field Value)) :
    spanned (fields.map fun field => ofField depth (comment field) field) = spanned fields := by
  induction fields with
  | nil => rfl
  | cons field fields induction =>
      rw [List.map_cons, spanned_cons, spanned_cons, induction]
      rfl

end Line

section Parts

variable (depth : Nat)

theorem spanned_actor_lines (actor : Actor) : spanned (actor.lines depth) = bytes actor := by
  simp [Actor.lines, Spans.bytes]

theorem spanned_actor_table_lines (table : ActorTable) :
    spanned (table.lines depth) = bytes table := by
  have actors : spanned (table.actors.flatMap (Actor.lines (depth + 1))) = spanned table.actors := by
    apply spanned_flat_map
    intro actor _
    exact spanned_actor_lines (depth + 1) actor
  rw [ActorTable.lines, spanned_cons, actors]
  rfl

theorem spanned_heads_lines (heads : Heads) : spanned (heads.lines depth) = bytes heads := by
  rw [Heads.lines, spanned_cons, Line.spanned_fields]
  rfl

theorem spanned_descriptor_lines (descriptors : ColumnDescriptors) :
    spanned (descriptors.lines depth) = bytes descriptors := by
  rw [ColumnDescriptors.lines, spanned_cons, Line.spanned_fields]
  rfl

theorem spanned_run_lines {Step Item : Type} (wording : RunWording Step Item)
    (run : Run Step Item) : spanned (run.lines wording depth) = bytes run := by
  cases run with
  | null nulls => exact spanned_singleton _
  | repeated step => exact spanned_singleton _
  | literal header items =>
      rw [Run.lines, spanned_cons, Line.spanned_fields]
      rfl

theorem spanned_runs_lines {Step Item : Type} (wording : RunWording Step Item)
    (runs : List (Run Step Item)) :
    spanned (runs.flatMap (Run.lines wording depth)) = spanned runs := by
  apply spanned_flat_map
  intro run _
  exact spanned_run_lines depth wording run

theorem spanned_value_lines (decoded : DecodedValues) :
    spanned (decoded.lines depth) = bytes decoded := by
  rw [DecodedValues.lines, spanned_append, Line.spanned_fields]
  split
  · next none => simp [Spans.bytes, none]
  · rw [spanned_singleton]
    rfl

theorem spanned_column_body_lines (body : ColumnBody) :
    spanned (body.lines depth) = bytes body := by
  cases body with
  | compressed input => exact spanned_singleton _
  | integers runs => exact spanned_runs_lines depth _ runs
  | deltas runs => exact spanned_runs_lines depth _ runs
  | booleans runs => exact Line.spanned_fields depth _ runs
  | strings runs => exact spanned_runs_lines depth _ runs
  | valueMeta runs => exact spanned_runs_lines depth _ runs
  | values decoded => exact spanned_value_lines depth decoded
  | missingMeta field => exact spanned_singleton _

/-- The title of a column has no bytes; its body has those of the column's window. -/
theorem spanned_column_lines {data : ColumnData} (covered : bytes data.body = bytes data) :
    spanned (data.lines depth) = bytes data := by
  rw [ColumnData.lines, spanned_cons, spanned_column_body_lines, covered]
  rfl

theorem spanned_head_index_lines (indexes : HeadIndexes) :
    spanned (indexes.lines depth) = bytes indexes := by
  cases indexes with
  | omitted => rfl
  | present indexes =>
      rw [HeadIndexes.lines, spanned_cons]
      show spanned _ = spanned (indexes.map Prod.snd)
      induction indexes with
      | nil => rfl
      | cons entry indexes induction =>
          rw [List.map_cons, spanned_cons, List.map_cons, spanned_cons, induction]
          rfl

theorem spanned_trailing_lines (comment : String) (trailing : Field Unit) :
    spanned (trailingLines depth comment trailing) = trailing.bytes := by
  rw [trailingLines]
  split
  · next none => rw [none, spanned_nil]
  · exact spanned_singleton _

theorem spanned_header_lines (header : ChangeHeader) :
    spanned (header.lines depth) = bytes header := by
  simp [ChangeHeader.lines, ChangeHeader.bytes_eq, spanned_heads_lines, spanned_actor_lines]

end Parts

theorem body_covers_window (context : Context) (descriptors : ColumnDescriptors) (input : Bytes) :
    ∀ data ∈ (decodeSection context descriptors input).1, bytes data.body = bytes data := by
  apply forall_map_state
  intro state column
  exact Column.bytes_decode state.2 descriptors.group column _

theorem spanned_columns_lines (depth : Nat) {columns : List ColumnData}
    (covered : ∀ data ∈ columns, bytes data.body = bytes data) :
    spanned (columns.flatMap (ColumnData.lines depth)) = spanned columns := by
  apply spanned_flat_map
  intro data member
  exact spanned_column_lines depth (covered data member)

section Bodies

variable (depth : Nat) (context : Context)

/-- Only a body without bytes is shown as an empty document. -/
theorem is_empty_decode_parts {body : Bytes} (nonempty : body ≠ []) :
    (Document.decodeParts context body).1.isEmpty = false := by
  have counted : (Document.decodeParts context body).1.actors.count.bytes ≠ [] :=
    Varint.scan_bytes_ne_nil nonempty
  have shown : (Document.decodeParts context body).1.actors.count.bytes.isEmpty = false := by
    rw [Bool.eq_false_iff, Ne, List.isEmpty_iff]
    exact counted
  simp only [Document.isEmpty, shown, Bool.false_and]

theorem document_bodies_cover_windows (body : Bytes) :
    (∀ data ∈ (Document.decodeParts context body).1.changeData, bytes data.body = bytes data) ∧
      ∀ data ∈ (Document.decodeParts context body).1.operationData,
        bytes data.body = bytes data := by
  simp only [Document.decodeParts]
  exact ⟨body_covers_window _ _ _, body_covers_window _ _ _⟩

theorem spanned_document_lines (body : Bytes) :
    spanned ((Document.decode context body).1.lines depth) = body := by
  rw [Document.decode]
  split
  · next ended => rw [ended]; rfl
  · next nonempty =>
      have covers := Document.bytes_decode_parts context.reset body
      obtain ⟨changes, operations⟩ := document_bodies_cover_windows context.reset body
      rw [Document.bytes_eq] at covers
      rw [Document.lines, if_neg (by simp [is_empty_decode_parts context.reset nonempty])]
      simp only [spanned_append, spanned_actor_table_lines, spanned_heads_lines,
        spanned_descriptor_lines, spanned_columns_lines depth changes,
        spanned_columns_lines depth operations, spanned_head_index_lines, spanned_trailing_lines,
        covers]

theorem tail_bodies_cover_windows (input : Bytes) :
    ∀ data ∈ (ChangeTail.decode context input).1.operationData, bytes data.body = bytes data := by
  simp only [ChangeTail.decode]
  exact body_covers_window _ _ _

theorem spanned_tail_lines (input : Bytes) :
    spanned ((ChangeTail.decode context input).1.lines depth) = input := by
  have covers := ChangeTail.bytes_decode context input
  have operations := tail_bodies_cover_windows context input
  rw [ChangeTail.bytes_eq] at covers
  simp only [ChangeTail.lines, spanned_append, spanned_actor_table_lines,
    spanned_descriptor_lines, spanned_columns_lines depth operations, spanned_trailing_lines,
    covers]

/-- Whether the message is cut short or a tail follows it, every byte after the header has a
line. -/
theorem spanned_text_lines (header : ChangeHeader) (declared : UInt64) (input : Bytes) :
    spanned ((Change.ofText context header (window declared input)).1.lines depth) =
      bytes header ++ input := by
  have cutting := window_append declared input
  rw [Change.lines, spanned_append]
  cases short : (window declared input).short with
  | some available =>
      rw [rest_of_short short, List.append_nil] at cutting
      simp only [Change.ofText, short, spanned_header_lines, ChangeHeader.bytes_add_to_length,
        spanned_singleton, Line.bytes_eq, Line.bytes_of_field, Field.clean, cutting]
  | none =>
      simp only [Change.ofText, short, spanned_header_lines, spanned_cons, spanned_tail_lines,
        Line.bytes_eq, Line.bytes_of_field, cutting]

theorem spanned_change_lines (body : Bytes) :
    spanned ((Change.decode context body).1.lines depth) = body := by
  rw [Change.decode_eq, spanned_text_lines]
  exact ChangeHeader.reader.covers body

end Bodies

namespace Chunk

theorem spanned_body_lines (settings : Settings) (body : Bytes) (kind : Option ChunkKind) :
    spanned (bodyLines settings body kind) = body := by
  cases kind with
  | none => exact spanned_singleton _
  | some known =>
      cases known with
      | document =>
          rw [bodyLines]
          exact spanned_document_lines 1 _ body
      | change =>
          rw [bodyLines]
          exact spanned_change_lines 1 _ body
      | compressed => exact spanned_singleton _

theorem bytes_magic_line (magic : Field Bool) : (magicLine magic).bytes = magic.bytes := by
  rw [magicLine]
  split <;> rfl

theorem bytes_checksum_line (input : Bytes) (verdict : Verdict) :
    (checksumLine input verdict).bytes = input := by
  cases verdict <;> rfl

theorem depth_checksum_line (input : Bytes) (verdict : Verdict) :
    (checksumLine input verdict).depth = 0 := by
  cases verdict <;> rfl

theorem spanned_lines (suite : Suite) (settings : Settings) (chunk : Chunk) :
    spanned (chunk.lines suite settings) = bytes chunk := by
  rw [lines, spanned_append, spanned_body_lines]
  simp [Spans.bytes, bytes_magic_line, bytes_checksum_line, kindLine]

end Chunk

theorem annotate_of_parse (suite : Suite) (settings : Settings) {input rest : Bytes}
    {chunk : Chunk} (parsed : Chunk.parse suite input = .ok (chunk, rest)) :
    annotate suite settings input =
      chunk.lines suite settings ++ annotate suite settings rest := by
  rw [annotate, split_stream_chunk parsed, List.flatMap_cons]
  rfl

theorem spanned_piece_lines (suite : Suite) (settings : Settings) (piece : StreamPiece) :
    spanned (piece.lines suite settings) = bytes piece := by
  cases piece with
  | chunk found => exact Chunk.spanned_lines suite settings found
  | fragment input => exact spanned_singleton _

/-- Whatever the input holds and whatever the settings are, there is a listing, and its lines hold
every byte of the input once and in order. -/
theorem reassemble_annotate (suite : Suite) (settings : Settings) (input : Bytes) :
    (annotate suite settings input).reassemble = input := by
  rw [Listing.reassemble, annotate,
    spanned_flat_map fun piece _ => spanned_piece_lines suite settings piece,
    spanned_split_stream]

end Chunkscope
