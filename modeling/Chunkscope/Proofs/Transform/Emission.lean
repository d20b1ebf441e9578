import Chunkscope.Proofs.Transform.Renewal
import Chunkscope.Transform.Pipeline

/-!
# What a run of transforms emits

A run frames its input or renews its checksum, and then packs or unpacks the result. The invariant
is which body a chunk stands for, under which checksum: the first stage sets both and the second
keeps them, so a run that asks for anything at all ends with a proper chunk or fails.
-/

namespace Chunkscope

namespace Chunk

/-- The body that a whole chunk stands for: what a compressed one inflates to. -/
def plainBody (suite : Suite) (input : Bytes) : Except Failure Bytes := do
  let body ← validate input none
  if framedKind? input = some .compressed then inflateBody suite body else .ok body

/-- The checksum of a chunk of some kind that stands for a body. A compressed chunk has that of the
change it was made from. -/
def rightChecksum (suite : Suite) : ChunkKind → Bytes → Checksum
  | .compressed, plain => suite.digest (payload .change plain)
  | kind, plain => suite.digest (payload kind plain)

/-- The bytes frame the given body, as it is or as something that inflates to it. -/
inductive StandsFor (suite : Suite) (plain : Bytes) (stored : Checksum) :
    ChunkKind → Bytes → Prop where
  | whole {kind : ChunkKind} (other : kind ≠ .compressed) :
      StandsFor suite plain stored kind (frame kind stored plain)
  | packed {deflated : Bytes} (inflates : suite.inflate deflated = .ok plain) :
      StandsFor suite plain stored .compressed (frame .compressed stored deflated)

section Stages

variable {suite : Suite} {plain other input out : Bytes} {stored sum : Checksum}
  {kind found : ChunkKind}

theorem StandsFor.as_frame (stands : StandsFor suite plain stored kind out) :
    ∃ body, out = frame kind stored body ∧ body.length < out.length ∧
      (if kind = .compressed then inflateBody suite body else .ok body) = .ok plain := by
  cases stands with
  | whole other => exact ⟨plain, rfl, body_length_lt_frame _ _ _, if_neg other⟩
  | @packed deflated inflates =>
      refine ⟨deflated, rfl, body_length_lt_frame _ _ _, ?_⟩
      rw [if_pos rfl]
      exact (inflate_body_eq_ok_iff _ _).mpr inflates

theorem StandsFor.kind_eq (stands : StandsFor suite plain stored kind out) :
    framedKind? out = some kind := by
  obtain ⟨body, rfl, -⟩ := stands.as_frame
  exact framed_kind_of_frame kind stored body

theorem StandsFor.unique (stands : StandsFor suite plain stored kind out)
    (again : StandsFor suite other sum found out) :
    kind = found ∧ stored = sum ∧ plain = other := by
  obtain ⟨body, rfl, -, same⟩ := stands.as_frame
  obtain ⟨written, whole, -, also⟩ := again.as_frame
  obtain ⟨rfl, rfl, rfl⟩ := frame_injective whole
  rw [same] at also
  exact ⟨rfl, rfl, Except.ok.inj also⟩

theorem StandsFor.plain_body {body : Bytes} (stands : StandsFor suite plain stored kind out)
    (valid : validate out none = .ok body) : plainBody suite out = .ok plain := by
  have known := stands.kind_eq
  obtain ⟨written, rfl, -, same⟩ := stands.as_frame
  obtain ⟨-, rfl⟩ := validated_frame valid
  rw [plainBody, valid, known]
  simp only [Option.some_inj]
  exact same

theorem StandsFor.valid (stands : StandsFor suite plain stored kind out)
    (sized : out.length < 2 ^ 64) : ∃ body, validate out none = .ok body := by
  obtain ⟨body, rfl, shorter, -⟩ := stands.as_frame
  exact ⟨body, validate_frame_of_suits stored (Nat.lt_trans shorter sized) (.inl rfl)⟩

theorem validate_any {body : Bytes} (valid : validate input (some kind) = .ok body) :
    validate input none = .ok body := by
  obtain ⟨framed, stored, -, fits, rfl⟩ := frame_of_validate valid
  exact validate_frame_of_suits stored fits (.inl rfl)

theorem stands_for_of_compress (lossless : suite.Lossless)
    (ran : compress suite input = .ok out) :
    ∃ plain stored, StandsFor suite plain stored .change input ∧
      StandsFor suite plain stored .compressed out := by
  obtain ⟨stored, body, -, rfl, rfl⟩ := frame_of_compress ran
  exact ⟨body, stored, .whole (by decide), .packed (lossless body)⟩

theorem stands_for_of_decompress (ran : decompress suite input = .ok out) :
    ∃ plain stored, StandsFor suite plain stored .compressed input ∧
      StandsFor suite plain stored .change out := by
  obtain ⟨stored, deflated, body, -, inflates, rfl, rfl⟩ := frame_of_decompress ran
  exact ⟨body, stored, .packed inflates, .whole (by decide)⟩

theorem stands_for_of_fix (lossless : suite.Lossless)
    (ran : fixChecksum suite input = .ok out) :
    ∃ kind plain stored, StandsFor suite plain stored kind input ∧
      StandsFor suite plain (rightChecksum suite kind plain) kind out := by
  rcases frame_of_fix ran with ⟨stored, body, -, rfl, rfl⟩ |
    ⟨stored, deflated, body, -, -, inflates, rfl, rfl⟩
  · exact ⟨.change, body, stored, .whole (by decide), .whole (by decide)⟩
  · exact ⟨.compressed, body, stored, .packed inflates, .packed (lossless body)⟩

theorem stored_checksum_of_framed (suite : Suite) (kind : ChunkKind) (stored : Checksum)
    (body : Bytes) : (framed suite kind stored body).storedChecksum = stored := by
  rw [storedChecksum, Chunk.framed]
  cases checksumStatus suite stored kind.byte (Varint.encodeLength body ++ body) <;> rfl

/-- Parsing a chunk and inflating its body confirm the right checksum, each for its kinds. -/
theorem StandsFor.checksum_confirmed
    (stands : StandsFor suite plain (rightChecksum suite kind plain) kind out)
    (sized : out.length < 2 ^ 64) :
    ∃ chunk, parse suite out = .ok (chunk, []) ∧ chunk.kind? = some kind ∧
      (kind ≠ .compressed → chunk.checksum.value = .valid) ∧
      (kind = .compressed → inflatedChecksum suite chunk.body = .ok chunk.storedChecksum) := by
  obtain ⟨body, rfl, shorter, same⟩ := stands.as_frame
  have parsed := parse_frame suite kind (rightChecksum suite kind plain)
    (Nat.lt_trans shorter sized) []
  rw [List.append_nil] at parsed
  refine ⟨_, parsed, kind_of_framed suite kind _ body, ?_, ?_⟩
  · intro other
    rw [if_neg other] at same
    obtain rfl := Except.ok.inj same
    apply (framed_valid_iff suite kind _ body).mpr
    refine ⟨other, ?_⟩
    cases kind with
    | document => rfl
    | change => rfl
    | compressed => exact absurd rfl other
  · rintro rfl
    rw [if_pos rfl] at same
    rw [stored_checksum_of_framed]
    show inflatedChecksum suite body = _
    rw [inflatedChecksum, same]
    rfl

end Stages

end Chunk

namespace Pipeline

open Chunk

variable {suite : Suite} {pipeline : Pipeline} {input framed out plain : Bytes}
  {stored : Checksum} {kind : ChunkKind}

/-- The kind and the body that a run has to do with: those it is told to frame, or else those of
the chunk it is given. -/
def StartsFrom (suite : Suite) (pipeline : Pipeline) (input : Bytes) (kind : ChunkKind)
    (plain : Bytes) : Prop :=
  match pipeline.heading with
  | some heading => kind = heading.kind ∧ plain = input
  | none => framedKind? input = some kind ∧ plainBody suite input = .ok plain

/-- The kind of chunk that comes out; compressing goes before decompressing. -/
def resultKind (pipeline : Pipeline) (kind : ChunkKind) : ChunkKind :=
  if pipeline.compress then .compressed else if pipeline.decompress then .change else kind

/-- Whether the first stage sets the checksum. -/
def SetsChecksum (pipeline : Pipeline) : Prop :=
  pipeline.heading ≠ none ∨ pipeline.fixChecksum = true

def Requested (pipeline : Pipeline) : Prop :=
  pipeline.SetsChecksum ∨ pipeline.compress = true ∨ pipeline.decompress = true

def repack (suite : Suite) (pipeline : Pipeline) (framed : Bytes) : Except Failure Bytes :=
  if pipeline.compress then Chunk.compress suite framed
  else if pipeline.decompress then Chunk.decompress suite framed
  else .ok framed

theorem run_eq_ok_iff :
    pipeline.run suite input = .ok out ↔ ∃ framed, pipeline.frame suite input = .ok framed ∧
      pipeline.repack suite framed = .ok out := by
  constructor
  · exact ok_of_bind
  · rintro ⟨framed, framing, packing⟩
    rw [run, framing]
    exact packing

theorem starts_from_of_stands (bare : pipeline.heading = none) {body : Bytes}
    (valid : validate input none = .ok body) (stands : StandsFor suite plain stored kind input) :
    pipeline.StartsFrom suite input kind plain := by
  rw [StartsFrom, bare]
  exact ⟨stands.kind_eq, stands.plain_body valid⟩

theorem frame_stands_for (lossless : suite.Lossless) (sets : pipeline.SetsChecksum)
    (ran : pipeline.frame suite input = .ok framed) :
    ∃ kind plain, pipeline.StartsFrom suite input kind plain ∧
      StandsFor suite plain (rightChecksum suite kind plain) kind framed := by
  unfold frame at ran
  split at ran
  · next heading given =>
      obtain rfl := Except.ok.inj ran
      refine ⟨heading.kind, input, ?_, ?_⟩
      · rw [StartsFrom, given]
        exact ⟨rfl, rfl⟩
      · cases heading <;> exact .whole (by decide)
  · next bare =>
      have fixing : pipeline.fixChecksum = true := by
        simpa [SetsChecksum, bare] using sets
      rw [if_pos fixing] at ran
      obtain ⟨kind, plain, stored, before, after⟩ := stands_for_of_fix lossless ran
      obtain ⟨body, valid, -⟩ := ok_of_bind ran
      exact ⟨kind, plain, starts_from_of_stands bare valid before, after⟩

/-- The second stage keeps what the chunk stands for. It compresses only what is a change and
decompresses only what is compressed, and the right checksum of both is the same. -/
theorem repack_stands_for (lossless : suite.Lossless)
    (stands : StandsFor suite plain stored kind framed)
    (ran : pipeline.repack suite framed = .ok out) :
    StandsFor suite plain stored (pipeline.resultKind kind) out ∧
      rightChecksum suite (pipeline.resultKind kind) plain = rightChecksum suite kind plain := by
  unfold repack at ran
  unfold resultKind
  by_cases compressing : pipeline.compress = true
  · rw [if_pos compressing] at ran ⊢
    obtain ⟨other, sum, before, after⟩ := stands_for_of_compress lossless ran
    obtain ⟨rfl, rfl, rfl⟩ := stands.unique before
    exact ⟨after, rfl⟩
  rw [if_neg compressing] at ran ⊢
  by_cases decompressing : pipeline.decompress = true
  · rw [if_pos decompressing] at ran ⊢
    obtain ⟨other, sum, before, after⟩ := stands_for_of_decompress ran
    obtain ⟨rfl, rfl, rfl⟩ := stands.unique before
    exact ⟨after, rfl⟩
  · rw [if_neg decompressing] at ran ⊢
    obtain rfl := Except.ok.inj ran
    exact ⟨stands, rfl⟩

/-- Where the first stage does nothing, the second one has to find a chunk that it works on. -/
theorem repack_finds (lossless : suite.Lossless)
    (packs : pipeline.compress = true ∨ pipeline.decompress = true)
    (ran : pipeline.repack suite input = .ok out) :
    ∃ kind plain stored body, validate input none = .ok body ∧
      StandsFor suite plain stored kind input := by
  unfold repack at ran
  by_cases compressing : pipeline.compress = true
  · rw [if_pos compressing] at ran
    obtain ⟨plain, stored, before, -⟩ := stands_for_of_compress lossless ran
    obtain ⟨body, valid, -⟩ := ok_of_bind ran
    exact ⟨.change, plain, stored, body, validate_any valid, before⟩
  · rw [if_neg compressing, if_pos (packs.resolve_left compressing)] at ran
    obtain ⟨plain, stored, before, -⟩ := stands_for_of_decompress ran
    obtain ⟨body, valid, -⟩ := ok_of_bind ran
    exact ⟨.compressed, plain, stored, body, validate_any valid, before⟩

theorem run_stands_for (lossless : suite.Lossless) (requested : pipeline.Requested)
    (ran : pipeline.run suite input = .ok out) :
    ∃ kind plain stored, pipeline.StartsFrom suite input kind plain ∧
      StandsFor suite plain stored (pipeline.resultKind kind) out ∧
      (pipeline.SetsChecksum →
        stored = rightChecksum suite (pipeline.resultKind kind) plain) := by
  obtain ⟨framed, framing, packing⟩ := run_eq_ok_iff.mp ran
  by_cases sets : pipeline.SetsChecksum
  · obtain ⟨kind, plain, starts, stands⟩ := frame_stands_for lossless sets framing
    obtain ⟨result, same⟩ := repack_stands_for lossless stands packing
    exact ⟨kind, plain, _, starts, result, fun _ => same.symm⟩
  · have bare : pipeline.heading = none := by
      by_contra given
      exact sets (.inl given)
    have kept : framed = input := by
      have plainly : ¬pipeline.fixChecksum = true := fun fixing => sets (.inr fixing)
      rw [frame, bare] at framing
      simp only [if_neg plainly] at framing
      exact (Except.ok.inj framing).symm
    subst kept
    obtain ⟨kind, plain, stored, body, valid, stands⟩ :=
      repack_finds lossless (requested.resolve_left sets) packing
    obtain ⟨result, -⟩ := repack_stands_for lossless stands packing
    exact ⟨kind, plain, stored, starts_from_of_stands bare valid stands, result,
      fun renewed => absurd renewed sets⟩

theorem run_with_heading {heading : Heading} (given : pipeline.heading = some heading)
    (renewed : Bool) :
    ({ pipeline with fixChecksum := renewed } : Pipeline).run suite input =
      pipeline.run suite input := by
  simp only [run, frame, given]

/-- What can be relied on when a run gives bytes. -/
structure Emits (suite : Suite) (pipeline : Pipeline) (input out : Bytes) : Prop where
  valid : ∃ body, validate out none = .ok body
  kind_and_body : ∃ kind plain, pipeline.StartsFrom suite input kind plain ∧
    framedKind? out = some (pipeline.resultKind kind) ∧ plainBody suite out = .ok plain
  checksum_right : pipeline.SetsChecksum → ∃ chunk, parse suite out = .ok (chunk, []) ∧
    (chunk.kind? ≠ some .compressed → chunk.checksum.value = .valid) ∧
    (chunk.kind? = some .compressed →
      inflatedChecksum suite chunk.body = .ok chunk.storedChecksum)
  heading_settles : pipeline.heading ≠ none → ∀ renewed,
    ({ pipeline with fixChecksum := renewed } : Pipeline).run suite input = .ok out

/-- Whatever a run emits is one proper chunk of the kind that was asked for, with the body that was
given, and it has the right checksum where the run was to set it. Of compression it is only asked
that inflating undoes it. Bytes in memory are fewer than 2 ^ 64. -/
theorem emitted_chunk_right (lossless : suite.Lossless) (requested : pipeline.Requested)
    (ran : pipeline.run suite input = .ok out) (sized : out.length < 2 ^ 64) :
    Emits suite pipeline input out := by
  obtain ⟨kind, plain, stored, starts, stands, right⟩ := run_stands_for lossless requested ran
  obtain ⟨body, valid⟩ := stands.valid sized
  refine ⟨⟨body, valid⟩, ⟨kind, plain, starts, stands.kind_eq, stands.plain_body valid⟩, ?_, ?_⟩
  · intro sets
    obtain rfl := right sets
    obtain ⟨chunk, parsed, known, whole, packed⟩ := stands.checksum_confirmed sized
    refine ⟨chunk, parsed, ?_, ?_⟩
    · intro other
      apply whole
      rintro compressed
      exact other (known.trans (congrArg some compressed))
    · intro compressed
      apply packed
      exact Option.some.inj (known.symm.trans compressed)
  · intro given renewed
    obtain ⟨heading, headed⟩ := Option.ne_none_iff_exists'.mp given
    rw [run_with_heading headed]
    exact ran

theorem emitted_chunk_right_of_stored_block :
    Suite.standard.Lossless ∧ Requested ⟨none, true, false, true⟩ ∧
      run .standard ⟨none, true, false, true⟩ storedBlockChunk =
        .ok [0x85, 0x6f, 0x4a, 0x83, 71, 239, 52, 69, 1, 3, 7, 7, 7] ∧
      Emits .standard ⟨none, true, false, true⟩ storedBlockChunk
        [0x85, 0x6f, 0x4a, 0x83, 71, 239, 52, 69, 1, 3, 7, 7, 7] := by
  have requested : Requested ⟨none, true, false, true⟩ := .inl (.inr rfl)
  have small : ([7, 7, 7] : Bytes).length < 2 ^ 63 := by decide
  have written :
      Chunk.frame .change (Suite.standard.digest (payload .change [7, 7, 7])) [7, 7, 7] =
        [0x85, 0x6f, 0x4a, 0x83, 71, 239, 52, 69, 1, 3, 7, 7, 7] := by decide +kernel
  have ran : run .standard ⟨none, true, false, true⟩ storedBlockChunk =
      .ok [0x85, 0x6f, 0x4a, 0x83, 71, 239, 52, 69, 1, 3, 7, 7, 7] := by
    have unpacked := decompress_compressed .standard
      (Suite.standard.digest (payload .change [7, 7, 7]))
      (Suite.standard_deflate_length_lt small) (Suite.standard_lossless _)
    rw [written] at unpacked
    exact run_eq_ok_iff.mpr ⟨_, fix_stored_block, unpacked⟩
  exact ⟨Suite.standard_lossless, requested, ran,
    emitted_chunk_right Suite.standard_lossless requested ran (by decide)⟩

end Pipeline

end Chunkscope
