import Chunkscope.Chunk.Splitter
import Chunkscope.Proofs.Chunk.Framing
import Chunkscope.Proofs.Chunk.Stream

/-!
# Splitting a stream and putting it together

Asking a splitter again and again gives the pieces of the stream one by one and then nothing more.
The pieces are chunks that lie one after another and perhaps a fragment behind them, so together
they are the stream; and a stream that was put together from built chunks is split into just those.
-/

namespace Chunkscope

variable {suite : Suite} {input rest : Bytes} {chunk : Chunk}

/-- The refusal of the bytes at the end of a stream, if there are any. -/
def refusal (fragment : Bytes) : List (Except Failure Chunk) :=
  if fragment = [] then [] else [.error (.tooShort fragment.length)]

namespace Splitter

/-- A splitter yields items when it gives them one for each request, and then nothing more. -/
def Yields (suite : Suite) (splitter : Splitter) (items : List (Except Failure Chunk)) : Prop :=
  ∀ earlier, splitter.answer suite earlier = items[earlier]?

@[simp] theorem next_nil (suite : Suite) : next suite ⟨[]⟩ = (none, ⟨[]⟩) := if_pos rfl

theorem next_of_parse (parsed : Chunk.parse suite input = .ok (chunk, rest)) :
    next suite ⟨input⟩ = (some (.ok chunk), ⟨rest⟩) := by
  have nonempty : input ≠ [] := by
    rintro rfl
    cases parsed
  simp only [next, if_neg nonempty, parsed]

theorem next_of_short (nonempty : input ≠ []) (short : input.length < 10) :
    next suite ⟨input⟩ = (some (.error (.tooShort input.length)), ⟨[]⟩) := by
  simp only [next, if_neg nonempty, Chunk.parse_short short]

/-- A request is refused exactly when the bytes that are left are too few for a chunk. -/
theorem refused_iff (suite : Suite) (splitter : Splitter) :
    (∃ failure, (splitter.next suite).1 = some (.error failure)) ↔
      splitter.remaining ≠ [] ∧ splitter.remaining.length < 10 := by
  obtain ⟨input⟩ := splitter
  by_cases empty : input = []
  · subst empty
    simp
  · by_cases short : input.length < 10
    · rw [next_of_short empty short]
      exact iff_of_true ⟨_, rfl⟩ ⟨empty, short⟩
    · obtain ⟨chunk, rest, parsed⟩ := Chunk.parse_long suite (Nat.le_of_not_lt short)
      rw [next_of_parse parsed]
      refine iff_of_false ?_ (fun few => short few.2)
      rintro ⟨failure, refused⟩
      cases refused

theorem yields_nothing (suite : Suite) : Yields suite ⟨[]⟩ [] := by
  intro earlier
  have ended : ∀ requests, after suite ⟨[]⟩ requests = ⟨[]⟩ := by
    intro requests
    induction requests with
    | zero => rfl
    | succ requests induction => rw [after, next_nil, induction]
  rw [answer, ended, next_nil, List.getElem?_nil]

/-- Once there was nothing to give, or a refusal, nothing comes any more. -/
theorem stays_ended {splitter : Splitter}
    (ended : (splitter.next suite).1 = none ∨
      ∃ failure, (splitter.next suite).1 = some (.error failure)) :
    Yields suite (splitter.next suite).2 [] := by
  obtain ⟨input⟩ := splitter
  by_cases empty : input = []
  · subst empty
    rw [next_nil]
    exact yields_nothing suite
  · cases parsed : Chunk.parse suite input with
    | error failure =>
        have given : next suite ⟨input⟩ = (some (.error failure), ⟨[]⟩) := by
          simp only [next, if_neg empty, parsed]
        rw [given]
        exact yields_nothing suite
    | ok parts =>
        rw [next_of_parse parsed] at ended
        rcases ended with nothing | ⟨failure, refused⟩
        · cases nothing
        · cases refused

namespace Yields

theorem cons {splitter later : Splitter} {item : Except Failure Chunk}
    {items : List (Except Failure Chunk)} (given : splitter.next suite = (some item, later))
    (yields : Yields suite later items) : Yields suite splitter (item :: items) := by
  intro earlier
  cases earlier with
  | zero => rw [answer, after, given, List.getElem?_cons_zero]
  | succ earlier =>
      have rest := yields earlier
      rw [answer] at rest
      rw [answer, after, given, rest, List.getElem?_cons_succ]

end Yields

/-- The requests give the pieces of the stream. -/
theorem yields_stream (suite : Suite) (input : Bytes) :
    Yields suite ⟨input⟩ ((splitStream suite input).map StreamPiece.item) := by
  induction input using stream_induction suite with
  | nil =>
      rw [split_stream_nil]
      exact yields_nothing suite
  | fragment input nonempty short =>
      rw [split_stream_fragment nonempty short]
      exact (yields_nothing suite).cons (next_of_short nonempty short)
  | chunk input found rest parsed induction =>
      rw [split_stream_chunk parsed]
      exact induction.cons (next_of_parse parsed)

end Splitter

/-- An input is parsed chunk by chunk, until what is left is too short for one more. -/
inductive Parses (suite : Suite) : Bytes → List Chunk → Bytes → Prop where
  | ended {input : Bytes} (short : input.length < 10) : Parses suite input [] input
  | chunk {input rest fragment : Bytes} {found : Chunk} {chunks : List Chunk}
      (parsed : Chunk.parse suite input = .ok (found, rest))
      (later : Parses suite rest chunks fragment) : Parses suite input (found :: chunks) fragment

namespace Parses

theorem exists_of_input (suite : Suite) (input : Bytes) :
    ∃ chunks fragment, Parses suite input chunks fragment := by
  induction input using stream_induction suite with
  | nil => exact ⟨[], [], .ended (by decide)⟩
  | fragment input _ short => exact ⟨[], input, .ended short⟩
  | chunk input found rest parsed induction =>
      obtain ⟨chunks, fragment, later⟩ := induction
      exact ⟨found :: chunks, fragment, .chunk parsed later⟩

section Parts

variable {chunks : List Chunk} {fragment : Bytes}

theorem short (parses : Parses suite input chunks fragment) : fragment.length < 10 := by
  induction parses with
  | ended short => exact short
  | chunk _ _ induction => exact induction

theorem covers (parses : Parses suite input chunks fragment) :
    spanned chunks ++ fragment = input := by
  induction parses with
  | ended _ => rfl
  | chunk parsed _ induction =>
      rw [spanned_cons, List.append_assoc, induction]
      exact Chunk.parse_append parsed

/-- The walk along a stream finds just these parts. -/
theorem items (parses : Parses suite input chunks fragment) :
    (splitStream suite input).map StreamPiece.item = chunks.map .ok ++ refusal fragment := by
  induction parses with
  | @ended input short =>
      by_cases empty : input = []
      · subst empty
        rw [split_stream_nil]
        rfl
      · rw [split_stream_fragment empty short, refusal, if_neg empty]
        rfl
  | chunk parsed _ induction =>
      rw [split_stream_chunk parsed, List.map_cons, induction]
      rfl

theorem left (parses : Parses suite input chunks fragment) :
    (Splitter.after suite ⟨input⟩ chunks.length).remaining = fragment := by
  induction parses with
  | ended _ => rfl
  | chunk parsed _ induction =>
      rw [List.length_cons, Splitter.after, Splitter.next_of_parse parsed]
      exact induction

end Parts

end Parses

namespace Chunk

/-- What parsing finds in a chunk as it is built. -/
def built (suite : Suite) (kind : ChunkKind) (body : Bytes) : Chunk :=
  framed suite kind (suite.digest (payload kind body)) body

theorem parse_build (suite : Suite) (kind : ChunkKind) {body : Bytes}
    (fits : body.length < 2 ^ 64) (rest : Bytes) :
    parse suite (build suite kind body ++ rest) = .ok (built suite kind body, rest) :=
  parse_frame suite kind _ fits rest

/-- A built chunk carries the right checksum, which only a compressed one cannot show. -/
theorem built_status (suite : Suite) (kind : ChunkKind) (body : Bytes) :
    (built suite kind body).checksum.value =
      if kind = .compressed then .notValidated else .valid := by
  split
  · next compressed =>
      subst compressed
      exact checksum_field_value _ _
  · next other => exact (framed_valid_iff suite kind _ body).mpr ⟨other, rfl⟩

theorem built_diagnostics (suite : Suite) (kind : ChunkKind) (body : Bytes) :
    (built suite kind body).diagnostics = [] := by
  by_cases compressed : kind = .compressed
  · subst compressed
    rfl
  · have valid := built_status suite kind body
    rw [if_neg compressed] at valid
    exact framed_diagnostics_of_valid valid

end Chunk

/-- Built chunks that are put together, with a fragment behind them, are split into themselves. -/
theorem split_stream_built (suite : Suite) {drafts : List (ChunkKind × Bytes)}
    (fits : ∀ draft ∈ drafts, draft.2.length < 2 ^ 64) {fragment : Bytes}
    (short : fragment.length < 10) :
    (splitStream suite
        (drafts.flatMap (fun draft => Chunk.build suite draft.1 draft.2) ++ fragment)).map
          StreamPiece.item =
      (drafts.map fun draft => Chunk.built suite draft.1 draft.2).map .ok ++ refusal fragment := by
  induction drafts with
  | nil =>
      rw [List.flatMap_nil, List.nil_append, List.map_nil, List.map_nil, List.nil_append, refusal]
      split
      · next empty => rw [empty, split_stream_nil, List.map_nil]
      · next nonempty =>
          rw [split_stream_fragment nonempty short]
          rfl
  | cons draft drafts induction =>
      have first := Chunk.parse_build suite draft.1 (fits draft List.mem_cons_self)
        (drafts.flatMap (fun draft => Chunk.build suite draft.1 draft.2) ++ fragment)
      rw [List.flatMap_cons, List.append_assoc, split_stream_chunk first, List.map_cons,
        induction fun other member => fits other (List.mem_cons_of_mem draft member)]
      rfl

/-- Splitting any stream ends. What it gives are chunks and then, exactly when too few bytes are
left, one refusal; after that nothing comes any more. The chunks and the bytes that were refused
are the stream. A stream of built chunks and a fragment is split into those chunks, each with its
kind and its body and nothing wrong in its frame. -/
theorem stream_split_and_joined (suite : Suite) :
    (∀ input, ∃ (chunks : List Chunk) (fragment : Bytes), fragment.length < 10 ∧
      (splitStream suite input).map StreamPiece.item = chunks.map .ok ++ refusal fragment ∧
      Splitter.Yields suite ⟨input⟩ (chunks.map .ok ++ refusal fragment) ∧
      (Splitter.after suite ⟨input⟩ chunks.length).remaining = fragment ∧
      chunks.flatMap (fun chunk => chunk.magic.bytes ++ chunk.checksum.bytes ++
        chunk.kindByte.bytes ++ chunk.length.bytes ++ chunk.body) ++ fragment = input ∧
      (∀ chunk ∈ chunks, (chunk.magic.bytes ++ chunk.checksum.bytes ++
        chunk.kindByte.bytes ++ chunk.length.bytes ++ chunk.body).length = chunk.encodedLength) ∧
      (chunks.map Chunk.encodedLength).sum + fragment.length = input.length) ∧
    (∀ splitter : Splitter, (∃ failure, (splitter.next suite).1 = some (.error failure)) ↔
      splitter.remaining ≠ [] ∧ splitter.remaining.length < 10) ∧
    (∀ splitter : Splitter,
      (splitter.next suite).1 = none ∨
          (∃ failure, (splitter.next suite).1 = some (.error failure)) →
        Splitter.Yields suite (splitter.next suite).2 []) ∧
    ∀ (drafts : List (ChunkKind × Bytes)) (fragment : Bytes),
      (∀ draft ∈ drafts, draft.2.length < 2 ^ 64) → fragment.length < 10 →
      ∃ chunks : List Chunk,
        Splitter.Yields suite
          ⟨drafts.flatMap (fun draft => Chunk.build suite draft.1 draft.2) ++ fragment⟩
          (chunks.map .ok ++ refusal fragment) ∧
        chunks.map (fun chunk => (chunk.kind?, chunk.body)) =
          drafts.map (fun draft => (some draft.1, draft.2)) ∧
        ∀ chunk ∈ chunks, chunk.diagnostics = [] ∧
          chunk.checksum.value =
            if chunk.kind? = some .compressed then .notValidated else .valid := by
  refine ⟨?_, Splitter.refused_iff suite, fun splitter => Splitter.stays_ended, ?_⟩
  · intro input
    obtain ⟨chunks, fragment, parses⟩ := Parses.exists_of_input suite input
    have yields := Splitter.yields_stream suite input
    rw [parses.items] at yields
    refine ⟨chunks, fragment, parses.short, parses.items, yields, parses.left, parses.covers,
      fun chunk _ => chunk.length_bytes, ?_⟩
    rw [← parses.covers, List.length_append, spanned, List.length_flatMap]
    simp only [Chunk.length_bytes]
  · intro drafts fragment fits short
    have yields := Splitter.yields_stream suite
      (drafts.flatMap (fun draft => Chunk.build suite draft.1 draft.2) ++ fragment)
    rw [split_stream_built suite fits short] at yields
    refine ⟨_, yields, ?_, ?_⟩
    · rw [List.map_map]
      apply List.map_congr_left
      intro draft _
      exact Prod.ext (Chunk.kind_of_framed suite draft.1 _ draft.2) rfl
    · intro chunk member
      obtain ⟨draft, -, rfl⟩ := List.mem_map.mp member
      refine ⟨Chunk.built_diagnostics suite draft.1 draft.2, ?_⟩
      rw [Chunk.built_status, Chunk.built, Chunk.kind_of_framed]
      simp only [Option.some.injEq]

/-- A document, a compressed chunk and a change, with two bytes behind them. -/
theorem stream_split_and_joined_of_three_chunks :
    (∀ draft ∈ [(ChunkKind.document, ([] : Bytes)), (.compressed, [1, 2]), (.change, [7])],
        draft.2.length < 2 ^ 64) ∧
      ([0x85, 0x6f] : Bytes).length < 10 ∧
      ∃ chunks : List Chunk,
        Splitter.Yields .standard
          ⟨[(ChunkKind.document, ([] : Bytes)), (.compressed, [1, 2]), (.change, [7])].flatMap
            (fun draft => Chunk.build .standard draft.1 draft.2) ++ [0x85, 0x6f]⟩
          (chunks.map .ok ++ [.error (.tooShort 2)]) ∧
        chunks.map (fun chunk => (chunk.kind?, chunk.body)) =
          [(some .document, []), (some .compressed, [1, 2]), (some .change, [7])] ∧
        ∀ chunk ∈ chunks, chunk.diagnostics = [] ∧
          chunk.checksum.value =
            if chunk.kind? = some .compressed then .notValidated else .valid :=
  ⟨by decide, by decide, (stream_split_and_joined .standard).2.2.2 _ _ (by decide) (by decide)⟩

end Chunkscope
