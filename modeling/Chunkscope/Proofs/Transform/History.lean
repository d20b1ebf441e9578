import Chunkscope.Proofs.Chunk.Frame
import Chunkscope.Proofs.Deflate.Lossless
import Chunkscope.Transform

/-!
# Histories of transforms

A change that goes through any sequence of compressing, decompressing and renewing its checksum
stays that change. The invariant is that the bytes at hand frame either its body or what the body
compresses to, under a checksum that only a renewal replaces.
-/

namespace Chunkscope

open Chunk

inductive Transform where
  | compress
  | decompress
  | fixChecksum
  deriving DecidableEq, Repr

namespace Transform

def run (suite : Suite) : Transform → Bytes → Except Failure Bytes
  | .compress => Chunk.compress suite
  | .decompress => Chunk.decompress suite
  | .fixChecksum => Chunk.fixChecksum suite

/-- One step of a history; a step that fails leaves the bytes as they are. -/
def step (suite : Suite) (current : Bytes) (transform : Transform) : Bytes :=
  match transform.run suite current with
  | .ok result => result
  | .error _ => current

/-- The bytes after some steps. -/
def history (suite : Suite) (original : Bytes) (steps : List Transform) : Bytes :=
  steps.foldl (step suite) original

end Transform

namespace Chunk

section Frames

variable (suite : Suite) (stored : Checksum) {body : Bytes}

theorem compress_change (fits : body.length < 2 ^ 64) :
    compress suite (frame .change stored body) =
      .ok (frame .compressed stored (suite.deflate body)) := by
  rw [compress, validate_frame .change stored fits, check_kind_self]
  rfl

theorem compress_compressed (fits : body.length < 2 ^ 64) :
    compress suite (frame .compressed stored body) = .error .alreadyCompressed := by
  rw [compress, validate_frame .compressed stored fits]
  rfl

theorem decompress_change (fits : body.length < 2 ^ 64) :
    decompress suite (frame .change stored body) = .error .alreadyDecompressed := by
  rw [decompress, validate_frame .change stored fits]
  rfl

theorem decompress_compressed {deflated : Bytes} (fits : deflated.length < 2 ^ 64)
    (inflates : suite.inflate deflated = .ok body) :
    decompress suite (frame .compressed stored deflated) = .ok (frame .change stored body) := by
  rw [decompress, validate_frame .compressed stored fits, check_kind_self]
  dsimp only [bind, Except.bind]
  rw [inflateBody, inflates]
  rfl

/-- A renewed checksum replaces the stored one and nothing else. -/
theorem renew_frame (kind : ChunkKind) (body : Bytes) :
    renewChecksum suite (frame kind stored body) =
      frame kind (suite.digest (payload kind body)) body := rfl

theorem fix_change (fits : body.length < 2 ^ 64) :
    fixChecksum suite (frame .change stored body) =
      .ok (frame .change (suite.digest (payload .change body)) body) := by
  rw [fixChecksum, validate_frame .change stored fits, check_kind_none]
  rfl

/-- Something compressed is renewed as the change that it inflates to. -/
theorem fix_compressed_eq {deflated : Bytes} (fits : deflated.length < 2 ^ 64) :
    fixChecksum suite (frame .compressed stored deflated) = (do
      let change ← decompress suite (frame .compressed stored deflated)
      compress suite (renewChecksum suite change)) := by
  rw [fixChecksum, validate_frame .compressed stored fits, check_kind_none]
  rfl

theorem fix_compressed {deflated : Bytes} (fits : body.length < 2 ^ 64)
    (deflatedFits : deflated.length < 2 ^ 64) (inflates : suite.inflate deflated = .ok body) :
    fixChecksum suite (frame .compressed stored deflated) =
      .ok (frame .compressed (suite.digest (payload .change body)) (suite.deflate body)) := by
  rw [fix_compressed_eq suite stored deflatedFits,
    decompress_compressed suite stored deflatedFits inflates]
  dsimp only [bind, Except.bind]
  rw [renew_frame]
  exact compress_change suite _ fits

end Frames

end Chunk

namespace Transform

/-- The bytes frame the body, as it is or compressed, under the given checksum. -/
inductive Carries (suite : Suite) (body : Bytes) (stored : Checksum) : Bytes → Prop where
  | plain : Carries suite body stored (frame .change stored body)
  | packed : Carries suite body stored (frame .compressed stored (suite.deflate body))

/-- The checksum after a step. -/
def checksumAfter (suite : Suite) (body : Bytes) (stored : Checksum) : Transform → Checksum
  | .fixChecksum => suite.digest (payload .change body)
  | _ => stored

section Runs

variable {suite : Suite} {body : Bytes} {stored : Checksum} {current : Bytes}

theorem step_carries (lossless : suite.Lossless) (fits : body.length < 2 ^ 64)
    (sized : (suite.deflate body).length < 2 ^ 64) (transform : Transform)
    (carries : Carries suite body stored current) :
    Carries suite body (transform.checksumAfter suite body stored)
      (step suite current transform) := by
  cases carries with
  | plain =>
      cases transform with
      | compress =>
          simp only [step, run, compress_change suite stored fits]
          exact .packed
      | decompress =>
          simp only [step, run, decompress_change suite stored fits]
          exact .plain
      | fixChecksum =>
          simp only [step, run, fix_change suite stored fits]
          exact .plain
  | packed =>
      cases transform with
      | compress =>
          simp only [step, run, compress_compressed suite stored sized]
          exact .packed
      | decompress =>
          simp only [step, run, decompress_compressed suite stored sized (lossless body)]
          exact .plain
      | fixChecksum =>
          simp only [step, run, fix_compressed suite stored fits sized (lossless body)]
          exact .packed

/-- The checksum of a history: the first renewal settles it for good. -/
def historyChecksum (suite : Suite) (body : Bytes) (stored : Checksum)
    (steps : List Transform) : Checksum :=
  if .fixChecksum ∈ steps then suite.digest (payload .change body) else stored

theorem history_checksum_cons (suite : Suite) (body : Bytes) (stored : Checksum)
    (transform : Transform) (steps : List Transform) :
    historyChecksum suite body (transform.checksumAfter suite body stored) steps =
      historyChecksum suite body stored (transform :: steps) := by
  cases transform <;> simp [historyChecksum, checksumAfter]

theorem history_carries (lossless : suite.Lossless) (fits : body.length < 2 ^ 64)
    (sized : (suite.deflate body).length < 2 ^ 64) (steps : List Transform)
    (carries : Carries suite body stored current) :
    Carries suite body (historyChecksum suite body stored steps)
      (history suite current steps) := by
  induction steps generalizing stored current with
  | nil => exact carries
  | cons transform steps induction =>
      -- The invariant goes on with the checksum that the first step left.
      rw [← history_checksum_cons]
      exact induction (step_carries lossless fits sized transform carries)

end Runs

/-- What holds of the bytes at every point of a history of a change with the given body, whose
stored checksum is now `sum`. -/
structure KeepsChange (suite : Suite) (body sum current : Bytes) : Prop where
  valid : ∃ found, validate current none = .ok found
  /-- A change is framed byte for byte; a compressed one holds what inflates to the body. -/
  framed :
    current.getD 8 0 = 1 ∧ current = magicBytes ++ sum ++ [1] ++ Varint.encodeLength body ++ body ∨
    current.getD 8 0 = 2 ∧ ∃ packed, validate current none = .ok packed ∧
      suite.inflate packed = .ok body ∧
      current = magicBytes ++ sum ++ [2] ++ Varint.encodeLength packed ++ packed
  fix_succeeds : ∃ fixed, Chunk.fixChecksum suite current = .ok fixed
  compress_fails_iff : ∀ failure, Chunk.compress suite current = .error failure ↔
    current.getD 8 0 = 2 ∧ failure = .alreadyCompressed
  decompress_fails_iff : ∀ failure, Chunk.decompress suite current = .error failure ↔
    current.getD 8 0 = 1 ∧ failure = .alreadyDecompressed

theorem keeps_change_of_carries {suite : Suite} {body current : Bytes} {stored : Checksum}
    (lossless : suite.Lossless) (fits : body.length < 2 ^ 64)
    (sized : (suite.deflate body).length < 2 ^ 64) (carries : Carries suite body stored current) :
    KeepsChange suite body (bytes stored) current := by
  cases carries with
  | plain =>
      have valid : validate (frame .change stored body) none = .ok body := by
        rw [validate_frame .change stored fits, check_kind_none]
        rfl
      refine ⟨⟨body, valid⟩, Or.inl ⟨rfl, ?_⟩, ⟨_, fix_change suite stored fits⟩, ?_, ?_⟩
      · simp [frame, payload, ChunkKind.byte]
      · intro failure
        rw [compress_change suite stored fits, kind_byte_of_frame]
        simp [ChunkKind.byte]
      · intro failure
        rw [decompress_change suite stored fits, kind_byte_of_frame]
        simp [ChunkKind.byte, eq_comm]
  | packed =>
      have inflates := lossless body
      have valid : validate (frame .compressed stored (suite.deflate body)) none =
          .ok (suite.deflate body) := by
        rw [validate_frame .compressed stored sized, check_kind_none]
        rfl
      refine ⟨⟨_, valid⟩, Or.inr ⟨rfl, _, valid, inflates, ?_⟩,
        ⟨_, fix_compressed suite stored fits sized inflates⟩, ?_, ?_⟩
      · simp [frame, payload, ChunkKind.byte]
      · intro failure
        rw [compress_compressed suite stored sized, kind_byte_of_frame]
        simp [ChunkKind.byte, eq_comm]
      · intro failure
        rw [decompress_compressed suite stored sized inflates, kind_byte_of_frame]
        simp [ChunkKind.byte]

/-- However a change is compressed, decompressed and given new checksums, it stays the change that
it was: its checksum is the original one until the first renewal and the right one from then on,
and compressing is undone byte for byte, a wrong checksum included. Compression is only asked to be
undone by inflating and to return bytes that a 64-bit length can count. -/
theorem history_keeps_change {suite : Suite} {original body : Bytes} (lossless : suite.Lossless)
    (sized : (suite.deflate body).length < 2 ^ 64)
    (valid : validate original (some .change) = .ok body) (steps : List Transform) :
    KeepsChange suite body
      (if .fixChecksum ∈ steps then
        bytes (suite.digest ([1] ++ Varint.encodeLength body ++ body))
      else (original.drop 4).take 4)
      (history suite original steps) ∧
    (Chunk.compress suite original >>= Chunk.decompress suite) = .ok original := by
  obtain ⟨kind, stored, suits, fits, rfl⟩ := frame_of_validate valid
  obtain rfl : .change = kind := by simpa using suits
  constructor
  · have start : Carries suite body stored (frame .change stored body) := .plain
    have carried := history_carries lossless fits sized steps start
    have kept := keeps_change_of_carries lossless fits sized carried
    rwa [historyChecksum, apply_ite bytes] at kept
  · rw [compress_change suite stored fits]
    exact decompress_compressed suite stored sized (lossless body)

/-- A change of three bytes that carries a wrong checksum. -/
theorem history_keeps_change_of_wrong_checksum :
    validate [0x85, 0x6f, 0x4a, 0x83, 1, 2, 3, 4, 1, 3, 7, 7, 7] (some .change) = .ok [7, 7, 7] ∧
      KeepsChange .standard [7, 7, 7] (bytes (Suite.standard.digest [1, 3, 7, 7, 7]))
        (history .standard [0x85, 0x6f, 0x4a, 0x83, 1, 2, 3, 4, 1, 3, 7, 7, 7]
          [.compress, .fixChecksum, .compress, .decompress]) := by
  have valid : validate [0x85, 0x6f, 0x4a, 0x83, 1, 2, 3, 4, 1, 3, 7, 7, 7] (some .change) =
      .ok [7, 7, 7] := by decide +kernel
  have small : ([7, 7, 7] : Bytes).length < 2 ^ 63 := by decide
  have sized := Suite.standard_deflate_length_lt small
  have kept := history_keeps_change Suite.standard_lossless sized valid
    [.compress, .fixChecksum, .compress, .decompress]
  have size : Varint.encodeLength [7, 7, 7] = [3] := by decide +kernel
  rw [if_pos (by decide), size] at kept
  exact ⟨valid, kept.1⟩

end Transform

end Chunkscope
