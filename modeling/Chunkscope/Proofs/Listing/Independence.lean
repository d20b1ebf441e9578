import Chunkscope.Proofs.Body.Lookup
import Chunkscope.Proofs.Chunk.Locality
import Chunkscope.Proofs.Listing.Diagnostics

/-!
# Chunks that follow one another are listed independently

An annotator goes through a whole stream with one decoding context, which every body leaves to the
next one. What earlier bodies left in it changes no line, and a chunk is found from its own bytes, so
the listing of a stream is that of its first chunk alone and then that of the rest.
-/

namespace Chunkscope

section Limits

variable (context : Context)

theorem limit_after_decode (group : ColumnGroup) (column : Column) (input : Bytes) :
    (column.decode context group input).2.2.limit = context.limit := by
  have left := context_after_decode context group ⟨column, ⟨input, [], none⟩⟩
  rw [left]
  split <;> rfl

theorem limit_after_section (descriptors : ColumnDescriptors) (input : Bytes) :
    (decodeSection context descriptors input).2.2.limit = context.limit := by
  have each : ∀ (state : Bytes × Context) (column : Column),
      state.2.limit = context.limit →
        (Column.decodeNext descriptors.group state column).2.2.limit = context.limit := by
    intro state column kept
    exact (limit_after_decode state.2 descriptors.group column _).trans kept
  have start : context.limit = context.limit := rfl
  exact keeps_map_state each start (descriptors.columns.map Field.value)

theorem limit_after_document (body : Bytes) :
    (Document.decode context body).2.limit = context.limit := by
  unfold Document.decode
  split
  · rfl
  · simp only [Document.decodeParts, limit_after_section]
    rfl

theorem limit_after_change (body : Bytes) :
    (Change.decode context body).2.limit = context.limit := by
  rw [Change.decode_eq, Change.ofText]
  split
  · rfl
  · simp only [ChangeTail.decode, limit_after_section]
    rfl

end Limits

namespace Chunk

/-- The lines for a body that is decoded in some context, and the context after it. -/
def bodyLinesIn (context : Context) (body : Bytes) : Option ChunkKind → List Line × Context
  | some .document =>
      let decoded := Document.decode context body
      (decoded.1.lines 1, decoded.2)
  | some .change =>
      let decoded := Change.decode context body
      (decoded.1.lines 1, decoded.2)
  | some .compressed => ([.plain 1 body "DEFLATE stream"], context)
  | none => ([.plain 1 body "chunk data"], context)

/-- A body has the same lines in every context with the limit of the settings. -/
theorem body_lines_in_eq {context : Context} {settings : Settings}
    (limited : context.limit = settings.limit) (body : Bytes) (kind : Option ChunkKind) :
    (bodyLinesIn context body kind).1 = bodyLines settings body kind ∧
      (bodyLinesIn context body kind).2.limit = settings.limit := by
  cases kind with
  | none => exact ⟨rfl, limited⟩
  | some known =>
      cases known with
      | document =>
          have alone := decode_document_alone context body
          have fresh := decode_document_alone (.new settings.limit) body
          rw [limited] at alone
          simp only [bodyLinesIn, bodyLines, alone, fresh, limit_after_document, limited]
          exact ⟨rfl, trivial⟩
      | change =>
          have alone := decode_change_alone context body
          have fresh := decode_change_alone (.new settings.limit) body
          rw [limited] at alone
          simp only [bodyLinesIn, bodyLines, alone, fresh, limit_after_change, limited]
          exact ⟨rfl, trivial⟩
      | compressed => exact ⟨rfl, limited⟩

end Chunk

namespace Annotator

variable (suite : Suite) (settings : Settings)

/-- The lines for the piece at the front of a stream, with the context and the stream after it. -/
def step (context : Context) (input : Bytes) : List Line × Context × Bytes :=
  match Chunk.parse suite input with
  | .ok (found, rest) =>
      let body := Chunk.bodyLinesIn context found.body found.kind?
      (found.frameLines suite settings ++ body.1, body.2, rest)
  | .error _ => ([⟨0, input, tooShortComment, some .error⟩], context, [])

theorem rest_of_step (context : Context) (input : Bytes) :
    (step suite settings context input).2.2 = (StreamPiece.first suite input).2 := by
  unfold step StreamPiece.first
  cases Chunk.parse suite input <;> rfl

/-- The walk along a stream that hands the context on from chunk to chunk. -/
def walk : Walk Context (List Line) where
  step := step suite settings
  advances context byte rest := by
    rw [rest_of_step]
    exact (StreamPiece.walk suite).advances () byte rest

/-- The listing of a stream by an annotator that starts with some context. -/
def listing (context : Context) (input : Bytes) : Listing :=
  ((walk suite settings).pieces context input).flatten

end Annotator

variable (suite : Suite) (settings : Settings)

/-- Whatever the context remembers at the start, and whatever is left in it on the way, the lines
are the same. -/
theorem annotator_listing_eq {context : Context} (limited : context.limit = settings.limit)
    (input : Bytes) :
    Annotator.listing suite settings context input = annotate suite settings input := by
  unfold Annotator.listing
  induction input using stream_induction suite generalizing context with
  | nil => rw [Walk.pieces_nil, annotate, split_stream_nil, List.flatten_nil, List.flatMap_nil]
  | fragment input nonempty short =>
      have last : (Annotator.walk suite settings).step context input =
          ([⟨0, input, tooShortComment, some .error⟩], context, []) := by
        simp only [Annotator.walk, Annotator.step, Chunk.parse_short short]
      rw [Walk.pieces_of_nonempty _ context nonempty, last, Walk.pieces_nil, annotate,
        split_stream_fragment nonempty short]
      rfl
  | chunk input found rest parsed induction =>
      have nonempty : input ≠ [] := by
        rintro rfl
        cases parsed
      have stepped : (Annotator.walk suite settings).step context input =
          (found.frameLines suite settings ++
              (Chunk.bodyLinesIn context found.body found.kind?).1,
            (Chunk.bodyLinesIn context found.body found.kind?).2, rest) := by
        simp only [Annotator.walk, Annotator.step, parsed]
      obtain ⟨body, kept⟩ := Chunk.body_lines_in_eq limited found.body found.kind?
      rw [Walk.pieces_of_nonempty _ context nonempty, stepped, List.flatten_cons,
        induction kept, annotate_of_parse suite settings parsed, body, Chunk.lines_eq]

theorem annotate_alone {input rest : Bytes} {chunk : Chunk}
    (parsed : Chunk.parse suite input = .ok (chunk, rest)) :
    annotate suite settings (bytes chunk) = chunk.lines suite settings := by
  have alone := Chunk.parse_kept parsed (.inl rfl)
  rw [List.append_nil] at alone
  rw [annotate_of_parse suite settings alone, annotate, split_stream_nil, List.flatMap_nil,
    List.append_nil]

theorem annotate_first_and_rest {input rest : Bytes} {chunk : Chunk}
    (parsed : Chunk.parse suite input = .ok (chunk, rest)) :
    annotate suite settings input =
      annotate suite settings (bytes chunk) ++ annotate suite settings rest := by
  rw [annotate_of_parse suite settings parsed, annotate_alone suite settings parsed]

/-- Parts that are each one whole chunk with a faultless length are found again when they are put
together, so their listings are put together as well. -/
theorem annotate_flatten {parts : List Bytes}
    (whole : ∀ part ∈ parts, ∃ chunk, Chunk.parse suite part = .ok (chunk, []) ∧
      chunk.length.diagnostics = []) :
    annotate suite settings parts.flatten = parts.flatMap (annotate suite settings) := by
  induction parts with
  | nil => rw [List.flatten_nil, List.flatMap_nil, annotate, split_stream_nil, List.flatMap_nil]
  | cons part parts induction =>
      obtain ⟨chunk, parsed, clean⟩ := whole part List.mem_cons_self
      have span : bytes chunk = part := by
        rw [← Chunk.parse_append parsed, List.append_nil]
      have followed : Chunk.parse suite (bytes chunk ++ parts.flatten) =
          .ok (chunk, parts.flatten) := Chunk.parse_kept parsed (.inr clean)
      rw [span] at followed
      rw [List.flatten_cons, List.flatMap_cons, annotate_first_and_rest suite settings followed,
        span, induction fun other member => whole other (List.mem_cons_of_mem part member)]

/-- An input that starts with a chunk is that chunk's bytes and the rest, and its listing is that of
those bytes alone and then that of the rest. An annotator that carries one context through the whole
stream gives that listing whatever its context remembers. Whole chunks with faultless lengths can be
put together one after another, and so are their listings. -/
theorem back_to_back_listings :
    (∀ input chunk rest, Chunk.parse suite input = .ok (chunk, rest) →
      ∃ first, input = first ++ rest ∧
        annotate suite settings input =
          annotate suite settings first ++ annotate suite settings rest ∧
        ∀ context : Context, context.limit = settings.limit →
          Annotator.listing suite settings context input =
            Annotator.listing suite settings (.new settings.limit) first ++
              Annotator.listing suite settings (.new settings.limit) rest) ∧
    ∀ parts : List Bytes,
      (∀ part ∈ parts, ∃ chunk, Chunk.parse suite part = .ok (chunk, []) ∧
        chunk.length.diagnostics = []) →
      annotate suite settings parts.flatten = parts.flatMap (annotate suite settings) := by
  refine ⟨?_, fun parts whole => annotate_flatten suite settings whole⟩
  intro input chunk rest parsed
  have apart := annotate_first_and_rest suite settings parsed
  refine ⟨bytes chunk, (Chunk.parse_append parsed).symm, apart, ?_⟩
  intro context limited
  rw [annotator_listing_eq suite settings limited, annotator_listing_eq suite settings rfl,
    annotator_listing_eq suite settings rfl, apart]

/-- A change whose length is longer than it has to be, with a fragment behind it; and a document and
a compressed chunk with wrong checksums. -/
theorem back_to_back_listings_of_overlong_length :
    (∃ chunk, Chunk.parse .standard
        [0x85, 0x6f, 0x4a, 0x83, 0, 0, 0, 0, 1, 0x81, 0x00, 7, 0x85] = .ok (chunk, [0x85])) ∧
      (∃ first, [0x85, 0x6f, 0x4a, 0x83, 0, 0, 0, 0, 1, 0x81, 0x00, 7, 0x85] =
          first ++ [0x85] ∧
        annotate .standard .default
            [0x85, 0x6f, 0x4a, 0x83, 0, 0, 0, 0, 1, 0x81, 0x00, 7, 0x85] =
          annotate .standard .default first ++ annotate .standard .default [0x85]) ∧
      (∀ part ∈ [[0x85, 0x6f, 0x4a, 0x83, 0, 0, 0, 0, 0, 0],
          [0x85, 0x6f, 0x4a, 0x83, 0, 0, 0, 0, 2, 1, 7]],
        ∃ chunk, Chunk.parse .standard part = .ok (chunk, []) ∧
          chunk.length.diagnostics = []) ∧
      annotate .standard .default
          [0x85, 0x6f, 0x4a, 0x83, 0, 0, 0, 0, 0, 0,
            0x85, 0x6f, 0x4a, 0x83, 0, 0, 0, 0, 2, 1, 7] =
        annotate .standard .default [0x85, 0x6f, 0x4a, 0x83, 0, 0, 0, 0, 0, 0] ++
          annotate .standard .default [0x85, 0x6f, 0x4a, 0x83, 0, 0, 0, 0, 2, 1, 7] := by
  have parsed : ∃ chunk, Chunk.parse .standard
      [0x85, 0x6f, 0x4a, 0x83, 0, 0, 0, 0, 1, 0x81, 0x00, 7, 0x85] = .ok (chunk, [0x85]) :=
    ⟨_, rfl⟩
  have whole : ∀ part ∈ [[0x85, 0x6f, 0x4a, 0x83, 0, 0, 0, 0, 0, 0],
      [0x85, 0x6f, 0x4a, 0x83, 0, 0, 0, 0, 2, 1, 7]],
      ∃ chunk, Chunk.parse .standard part = .ok (chunk, []) ∧ chunk.length.diagnostics = [] := by
    intro part member
    obtain rfl | rfl := List.mem_pair.mp member
    · exact ⟨_, rfl, rfl⟩
    · exact ⟨_, rfl, rfl⟩
  have listings := back_to_back_listings .standard .default
  refine ⟨parsed, ?_, whole, ?_⟩
  · obtain ⟨chunk, found⟩ := parsed
    obtain ⟨first, span, apart, -⟩ := listings.1 _ chunk _ found
    exact ⟨first, span, apart⟩
  · have joined := listings.2 _ whole
    rw [List.flatMap_cons, List.flatMap_singleton] at joined
    exact joined

end Chunkscope
