import Chunkscope.Proofs.Chunk.Agreement
import Chunkscope.Proofs.Transform.History

/-!
# Renewing a checksum

Transforms take frames to frames, so whatever one of them accepted can be read off its result.
Renewing works on changes and on whatever inflates to one, no matter who compressed it, and leaves
the change as it would have been built. A second renewal finds nothing to do.
-/

namespace Chunkscope.Chunk

section Frames

variable {kind other : ChunkKind} {stored sum : Checksum} {body found : Bytes}

theorem written_body_injective
    (same : Varint.encodeLength body ++ body = Varint.encodeLength found ++ found) :
    body = found := by
  have reading := (Varint.read_unsigned_eq_ok_iff _ body (UInt64.ofNat body.length)).mpr rfl
  have again := (Varint.read_unsigned_eq_ok_iff _ found (UInt64.ofNat found.length)).mpr rfl
  unfold Varint.encodeLength at same
  rw [same, again] at reading
  simp only [Except.ok.injEq, Prod.mk.injEq] at reading
  exact reading.2.symm

theorem kind_byte_injective (same : kind.byte = other.byte) : kind = other := by
  have known := congrArg ChunkKind.ofByte? same
  rwa [ChunkKind.of_byte_byte, ChunkKind.of_byte_byte, Option.some_inj] at known

/-- A frame determines its parts, also where its length is too large for the field and wraps. -/
theorem frame_injective (same : frame kind stored body = frame other sum found) :
    kind = other ∧ stored = sum ∧ body = found := by
  obtain ⟨c0, c1, c2, c3⟩ := stored
  obtain ⟨d0, d1, d2, d3⟩ := sum
  simp only [frame, payload, magicBytes, Checksum.bytes_eq, List.cons_append, List.nil_append,
    List.cons.injEq, true_and] at same
  obtain ⟨first, second, third, fourth, kindByte, covered⟩ := same
  refine ⟨kind_byte_injective kindByte, ?_, written_body_injective covered⟩
  rw [first, second, third, fourth]

theorem validate_frame_of_suits {expected : Option ChunkKind} (stored : Checksum)
    (fits : body.length < 2 ^ 64) (suits : expected = none ∨ expected = some kind) :
    validate (frame kind stored body) expected = .ok body := by
  rw [validate_frame kind stored fits, check_kind_suits suits]
  rfl

theorem validated_frame {expected : Option ChunkKind}
    (valid : validate (frame kind stored body) expected = .ok found) :
    (expected = none ∨ expected = some kind) ∧ body = found := by
  obtain ⟨framed, sum, suits, -, same⟩ := frame_of_validate valid
  obtain ⟨rfl, -, rfl⟩ := frame_injective same
  exact ⟨suits, rfl⟩

end Frames

section Accepted

variable {suite : Suite} {input out : Bytes}

theorem ok_of_bind {Middle Result : Type} {first : Except Failure Middle}
    {next : Middle → Except Failure Result} {result : Result}
    (ran : (first >>= next) = .ok result) :
    ∃ middle, first = .ok middle ∧ next middle = .ok result := by
  cases first with
  | error failure => cases ran
  | ok middle => exact ⟨middle, rfl, ran⟩

theorem inflate_body_eq_ok_iff (body inflated : Bytes) :
    inflateBody suite body = .ok inflated ↔ suite.inflate body = .ok inflated := by
  unfold inflateBody
  cases suite.inflate body <;> simp

theorem frame_of_compress (ran : compress suite input = .ok out) :
    ∃ stored body, body.length < 2 ^ 64 ∧ input = frame .change stored body ∧
      out = frame .compressed stored (suite.deflate body) := by
  obtain ⟨body, valid, built⟩ := ok_of_bind ran
  obtain ⟨kind, stored, suits, fits, rfl⟩ := frame_of_validate valid
  obtain rfl : .change = kind := by simpa using suits
  exact ⟨stored, body, fits, rfl, (Except.ok.inj built).symm⟩

theorem frame_of_decompress (ran : decompress suite input = .ok out) :
    ∃ stored deflated body, deflated.length < 2 ^ 64 ∧ suite.inflate deflated = .ok body ∧
      input = frame .compressed stored deflated ∧ out = frame .change stored body := by
  obtain ⟨deflated, valid, inflating⟩ := ok_of_bind ran
  obtain ⟨body, inflated, built⟩ := ok_of_bind inflating
  obtain ⟨kind, stored, suits, fits, rfl⟩ := frame_of_validate valid
  obtain rfl : .compressed = kind := by simpa using suits
  exact ⟨stored, deflated, body, fits, (inflate_body_eq_ok_iff _ _).mp inflated, rfl,
    (Except.ok.inj built).symm⟩

theorem fix_document (stored : Checksum) {body : Bytes} (fits : body.length < 2 ^ 64) :
    fixChecksum suite (frame .document stored body) =
      .error (.unsupportedTransform documentRefusal) := by
  rw [fixChecksum, validate_frame_of_suits stored fits (.inl rfl)]
  rfl

/-- A renewal has found a change, or something compressed that inflates to one. -/
theorem frame_of_fix (ran : fixChecksum suite input = .ok out) :
    (∃ stored body, body.length < 2 ^ 64 ∧ input = frame .change stored body ∧
      out = build suite .change body) ∨
    ∃ stored deflated body, deflated.length < 2 ^ 64 ∧ body.length < 2 ^ 64 ∧
      suite.inflate deflated = .ok body ∧ input = frame .compressed stored deflated ∧
      out = frame .compressed (suite.digest (payload .change body)) (suite.deflate body) := by
  obtain ⟨found, valid, -⟩ := ok_of_bind ran
  obtain ⟨kind, stored, -, fits, rfl⟩ := frame_of_validate valid
  cases kind with
  | document => rw [fix_document stored fits] at ran; cases ran
  | change =>
      rw [fix_change suite stored fits] at ran
      exact .inl ⟨stored, found, fits, rfl, (Except.ok.inj ran).symm⟩
  | compressed =>
      rw [fix_compressed_eq suite stored fits] at ran
      obtain ⟨change, decompressed, compressed⟩ := ok_of_bind ran
      obtain ⟨sum, deflated, body, -, inflates, whole, rfl⟩ := frame_of_decompress decompressed
      obtain ⟨-, rfl, rfl⟩ := frame_injective whole
      rw [renew_frame] at compressed
      obtain ⟨renewed, packed, bodyFits, same, rfl⟩ := frame_of_compress compressed
      obtain ⟨-, rfl, rfl⟩ := frame_injective same
      exact .inr ⟨stored, found, body, fits, bodyFits, inflates, rfl, rfl⟩

end Accepted

/-- The kind that the byte behind a checksum stands for. -/
def framedKind? (input : Bytes) : Option ChunkKind := ChunkKind.ofByte? (input.getD 8 0)

theorem framed_kind_of_frame (kind : ChunkKind) (stored : Checksum) (body : Bytes) :
    framedKind? (frame kind stored body) = some kind := by
  rw [framedKind?, kind_byte_of_frame, ChunkKind.of_byte_byte]

/-- One proper chunk that is no document and that inflates if it is compressed, to bytes that a
64-bit length can count. -/
def Renewable (suite : Suite) (input : Bytes) : Prop :=
  ∃ body, validate input none = .ok body ∧ framedKind? input ≠ some .document ∧
    (framedKind? input = some .compressed →
      ∃ inflated, suite.inflate body = .ok inflated ∧ inflated.length < 2 ^ 64)

/-- How a chunk with a renewed checksum compares with the one before. -/
structure Renewed (suite : Suite) (input fixed : Bytes) : Prop where
  /-- A change is as it would have been built. -/
  change : ∀ body, validate input (some .change) = .ok body → fixed = build suite .change body
  /-- A compressed change stays one, and decompressing it first comes to the same. -/
  compressed : ∀ deflated, validate input (some .compressed) = .ok deflated →
    ∃ body packed, suite.inflate deflated = .ok body ∧
      validate fixed (some .compressed) = .ok packed ∧
      decompress suite fixed = .ok (build suite .change body) ∧
      (decompress suite input >>= fixChecksum suite) = .ok (build suite .change body)
  again : fixChecksum suite fixed = .ok fixed

section Renewals

variable {suite : Suite} {input fixed : Bytes}

theorem fix_succeeds_iff (suite : Suite) (input : Bytes) :
    (∃ fixed, fixChecksum suite input = .ok fixed) ↔ Renewable suite input := by
  constructor
  · rintro ⟨fixed, ran⟩
    rcases frame_of_fix ran with ⟨stored, body, fits, rfl, -⟩ |
      ⟨stored, deflated, body, fits, bodyFits, inflates, rfl, -⟩
    · refine ⟨body, validate_frame_of_suits stored fits (.inl rfl), ?_⟩
      simp [framed_kind_of_frame]
    · refine ⟨deflated, validate_frame_of_suits stored fits (.inl rfl), ?_, ?_⟩
      · simp [framed_kind_of_frame]
      · exact fun _ => ⟨body, inflates, bodyFits⟩
  · rintro ⟨found, valid, other, inflating⟩
    obtain ⟨kind, stored, -, fits, rfl⟩ := frame_of_validate valid
    rw [framed_kind_of_frame] at other inflating
    cases kind with
    | document => exact absurd rfl other
    | change => exact ⟨_, fix_change suite stored fits⟩
    | compressed =>
        obtain ⟨body, inflates, bodyFits⟩ := inflating rfl
        exact ⟨_, fix_compressed suite stored bodyFits fits inflates⟩

theorem renewed_change (stored : Checksum) {body : Bytes} (fits : body.length < 2 ^ 64) :
    Renewed suite (frame .change stored body) (build suite .change body) where
  change found valid := by
    rw [(validated_frame valid).2]
  compressed deflated valid := by
    have suits := (validated_frame valid).1
    simp at suits
  again := fix_change suite (suite.digest (payload .change body)) fits

theorem renewed_compressed (lossless : suite.Lossless) (stored : Checksum)
    {deflated body : Bytes} (fits : deflated.length < 2 ^ 64) (bodyFits : body.length < 2 ^ 64)
    (packedFits : (suite.deflate body).length < 2 ^ 64)
    (inflates : suite.inflate deflated = .ok body) :
    Renewed suite (frame .compressed stored deflated)
      (frame .compressed (suite.digest (payload .change body)) (suite.deflate body)) where
  change found valid := by
    have suits := (validated_frame valid).1
    simp at suits
  compressed found valid := by
    obtain ⟨-, rfl⟩ := validated_frame valid
    refine ⟨body, _, inflates, validate_frame_of_suits _ packedFits (.inr rfl), ?_, ?_⟩
    · exact decompress_compressed suite _ packedFits (lossless body)
    · rw [decompress_compressed suite stored fits inflates]
      exact fix_change suite stored bodyFits
  again := fix_compressed suite _ bodyFits packedFits (lossless body)

/-- Exactly the proper chunks are renewed that are no documents and that inflate where they are
compressed. A change becomes the chunk that is built of its body, and so does what a compressed one
decompresses to, before or after; a second renewal gives the same bytes again. Of compression it is
only asked that inflating undoes it. Bytes in memory are fewer than 2 ^ 64. -/
theorem checksum_renewed (lossless : suite.Lossless) (input : Bytes) :
    ((∃ fixed, fixChecksum suite input = .ok fixed) ↔ Renewable suite input) ∧
    ∀ fixed, fixChecksum suite input = .ok fixed → fixed.length < 2 ^ 64 →
      Renewed suite input fixed := by
  refine ⟨fix_succeeds_iff suite input, ?_⟩
  intro fixed ran sized
  rcases frame_of_fix ran with ⟨stored, body, fits, rfl, rfl⟩ |
    ⟨stored, deflated, body, fits, bodyFits, inflates, rfl, rfl⟩
  · exact renewed_change stored fits
  · have packedFits := Nat.lt_trans (body_length_lt_frame _ _ _) sized
    exact renewed_compressed lossless stored fits bodyFits packedFits inflates

end Renewals

theorem standard_frame_length_lt {body : Bytes} (small : body.length < 2 ^ 62)
    (stored : Checksum) :
    (frame .compressed stored (Suite.standard.deflate body)).length < 2 ^ 64 := by
  have bound := Deflate.deflate_length_le body
  apply Nat.lt_of_le_of_lt (frame_length_le _ _ _)
  simp only [Suite.standard]
  omega

/-- A chunk with three bytes in a stored block, as no compression of ours writes them, under a wrong
checksum. -/
def storedBlockChunk : Bytes :=
  [0x85, 0x6f, 0x4a, 0x83, 1, 2, 3, 4, 2, 8, 1, 3, 0, 252, 255, 7, 7, 7]

theorem fix_stored_block :
    fixChecksum .standard storedBlockChunk =
      .ok (frame .compressed (Suite.standard.digest (payload .change [7, 7, 7]))
        (Suite.standard.deflate [7, 7, 7])) := by
  have inflates : Suite.standard.inflate [1, 3, 0, 252, 255, 7, 7, 7] = .ok [7, 7, 7] := by
    decide +kernel
  have written : storedBlockChunk =
      frame .compressed ⟨1, 2, 3, 4⟩ [1, 3, 0, 252, 255, 7, 7, 7] := by decide +kernel
  rw [written]
  exact fix_compressed .standard _ (by decide) (by decide) inflates

theorem checksum_renewed_of_stored_block :
    Suite.standard.Lossless ∧
      ∃ fixed, fixChecksum .standard storedBlockChunk = .ok fixed ∧ fixed.length < 2 ^ 64 ∧
        Renewed .standard storedBlockChunk fixed := by
  have renewed := checksum_renewed Suite.standard_lossless storedBlockChunk
  have small : ([7, 7, 7] : Bytes).length < 2 ^ 62 := by decide
  have sized := standard_frame_length_lt small
  exact ⟨Suite.standard_lossless, _, fix_stored_block, sized _,
    renewed.2 _ fix_stored_block (sized _)⟩

end Chunkscope.Chunk
