import Chunkscope.Proofs.Listing.Independence
import Chunkscope.Proofs.Transform.Emission

/-!
# Verifying compressed chunks

A compressed chunk cannot show whether its checksum is right, but the change that it inflates to
can. Verifying it in place gives the verdict that parsing gives on the decompressed chunk, with a
warning where parsing finds an error. Where nothing can be inflated the verdict stays open.
-/

namespace Chunkscope

namespace Chunk

section Decompression

variable {suite : Suite} {settings : Settings} {body deflated : Bytes}

/-- What a line says of a checksum when a mismatch is worth no more than a warning. -/
def statusLine (stored : Bytes) : ChecksumStatus → Line
  | .valid => ⟨0, stored, "checksum (valid)", none⟩
  | .notValidated => ⟨0, stored, "checksum (not validated)", none⟩
  | .mismatch expected =>
      ⟨0, stored,
        "WARNING: checksum mis-match (should be " ++ decimalList (bytes expected) ++ ")",
        some .warning⟩

/-- A line calls a checksum valid only where it is. -/
theorem status_line_valid_iff (stored : Bytes) (status : ChecksumStatus) :
    (statusLine stored status).comment = "checksum (valid)" ↔ status = .valid := by
  cases status with
  | valid => exact iff_of_true rfl rfl
  | notValidated => exact iff_of_false (by simp [statusLine]) (by simp)
  | mismatch expected =>
      refine iff_of_false ?_ (by simp)
      intro same
      have letters := congrArg String.toList same
      simp only [statusLine, String.toList_append] at letters
      cases letters

theorem checksum_field_bytes (stored : Checksum) (status : ChecksumStatus) :
    (checksumField stored status).bytes = bytes stored := by
  cases status <;> rfl

/-- The second line of a frame is the one of its checksum. -/
theorem second_line_of_frame (suite : Suite) (settings : Settings) (kind : ChunkKind)
    (stored : Checksum) {body : Bytes} (fits : body.length < 2 ^ 64) :
    (annotate suite settings (frame kind stored body))[1]? =
      some (checksumLine (bytes stored)
        ((framed suite kind stored body).verdict suite settings)) := by
  have parsed := parse_frame suite kind stored fits []
  rw [List.append_nil] at parsed
  have span : (framed suite kind stored body).checksum.bytes = bytes stored :=
    checksum_field_bytes stored _
  rw [annotate_of_parse suite settings parsed, ← span]
  rfl

/-- A change tells by itself whether its checksum is right. -/
theorem status_of_change (suite : Suite) (stored : Checksum) (body : Bytes) :
    (framed suite .change stored body).checksum.value =
      if suite.digest (payload .change body) = stored then .valid
      else .mismatch (suite.digest (payload .change body)) := by
  have told : (framed suite .change stored body).checksum.value =
      checksumStatus suite stored ChunkKind.change.byte (Varint.encodeLength body ++ body) :=
    checksum_field_value _ _
  rw [told, checksumStatus, if_neg (by decide)]
  rfl

theorem verdict_of_compressed (verified : settings.verifyCompressed = true) (stored : Checksum)
    (deflated : Bytes) :
    (framed suite .compressed stored deflated).verdict suite settings =
      match inflatedChecksum suite deflated with
      | .error _ => .notValidated
      | .ok expected => if expected = stored then .valid else .mismatch .warning expected := by
  have told : (framed suite .compressed stored deflated).checksum.value = .notValidated :=
    checksum_field_value _ _
  rw [verdict, told, stored_checksum_of_framed]
  simp only [verified, if_true]
  rfl

/-- Verifying a chunk says of its checksum what the change that it inflates to says. -/
theorem verified_line_of_inflated (verified : settings.verifyCompressed = true) (stored : Checksum)
    (inflates : suite.inflate deflated = .ok body) :
    checksumLine (bytes stored)
        ((framed suite .compressed stored deflated).verdict suite settings) =
      statusLine (bytes stored) (framed suite .change stored body).checksum.value := by
  have expected : inflatedChecksum suite deflated = .ok (suite.digest (payload .change body)) := by
    rw [inflatedChecksum, (inflate_body_eq_ok_iff deflated body).mpr inflates]
    rfl
  rw [verdict_of_compressed verified, expected, status_of_change]
  by_cases right : suite.digest (payload .change body) = stored
  · simp only [if_pos right]
    rfl
  · simp only [if_neg right]
    rfl

/-- Verifying leaves the question open where nothing can be inflated. -/
theorem verified_line_of_uninflated (verified : settings.verifyCompressed = true)
    (stored : Checksum) {fault : Deflate.Fault} (fails : suite.inflate deflated = .error fault) :
    checksumLine (bytes stored)
        ((framed suite .compressed stored deflated).verdict suite settings) =
      statusLine (bytes stored) .notValidated := by
  have unknown : inflatedChecksum suite deflated =
      .error (.decompressionFailed fault.message) := by
    rw [inflatedChecksum, inflateBody, fails]
    rfl
  rw [verdict_of_compressed verified, unknown]
  rfl

/-- Verifying a compressed chunk in place agrees with decompressing it and parsing the change. Where
the change is valid, the line says so, and only there; where parsing it finds a mismatch, the line
warns of the same checksum; where it cannot be decompressed, the line leaves the question open.
Bytes in memory are fewer than 2 ^ 64. -/
theorem verified_as_decompressed (suite : Suite) (verified : settings.verifyCompressed = true)
    {input : Bytes} (valid : validate input (some .compressed) = .ok deflated) :
    ∃ line, (annotate suite settings input)[1]? = some line ∧
      (∀ change, decompress suite input = .ok change → change.length < 2 ^ 64 →
        ∃ found, parse suite change = .ok (found, []) ∧
          found.checksum.value ≠ .notValidated ∧
          line = statusLine (input.extract 4 8) found.checksum.value ∧
          (line.comment = "checksum (valid)" ↔ found.checksum.value = .valid)) ∧
      ∀ failure, decompress suite input = .error failure →
        line = statusLine (input.extract 4 8) .notValidated := by
  obtain ⟨kind, stored, suits, fits, rfl⟩ := frame_of_validate valid
  obtain rfl : .compressed = kind := by simpa using suits
  have place : (frame .compressed stored deflated).extract 4 8 = bytes stored := rfl
  rw [second_line_of_frame suite settings .compressed stored fits, place]
  refine ⟨_, rfl, ?_, ?_⟩
  · intro change ran sized
    obtain ⟨sum, packed, body, -, inflates, same, rfl⟩ := frame_of_decompress ran
    obtain ⟨-, rfl, rfl⟩ := frame_injective same
    have parsed := parse_frame suite .change stored
      (Nat.lt_trans (body_length_lt_frame .change stored body) sized) []
    rw [List.append_nil] at parsed
    have line := verified_line_of_inflated verified stored inflates
    refine ⟨_, parsed, ?_, line, ?_⟩
    · rw [status_of_change]
      split <;> simp
    · rw [line]
      exact status_line_valid_iff _ _
  · intro failure refused
    cases inflating : suite.inflate deflated with
    | ok body =>
        rw [decompress_compressed suite stored fits inflating] at refused
        cases refused
    | error fault => exact verified_line_of_uninflated verified stored inflating

/-- The change in a stored block has another checksum than the one that its chunk carries, so the
line warns of it. Nothing is inflated from a chunk without a body. -/
theorem verified_as_decompressed_of_stored_block :
    (⟨5, true⟩ : Settings).verifyCompressed = true ∧
      validate storedBlockChunk (some .compressed) = .ok [1, 3, 0, 252, 255, 7, 7, 7] ∧
      decompress .standard storedBlockChunk = .ok (frame .change ⟨1, 2, 3, 4⟩ [7, 7, 7]) ∧
      (frame .change ⟨1, 2, 3, 4⟩ [7, 7, 7]).length < 2 ^ 64 ∧
      (annotate .standard ⟨5, true⟩ storedBlockChunk)[1]? =
        some (statusLine [1, 2, 3, 4] (.mismatch ⟨71, 239, 52, 69⟩)) ∧
      validate (frame .compressed ⟨1, 2, 3, 4⟩ []) (some .compressed) = .ok [] ∧
      decompress .standard (frame .compressed ⟨1, 2, 3, 4⟩ []) =
        .error (.decompressionFailed Deflate.Fault.incomplete.message) ∧
      (annotate .standard ⟨5, true⟩ (frame .compressed ⟨1, 2, 3, 4⟩ []))[1]? =
        some (statusLine [1, 2, 3, 4] .notValidated) := by
  have whole : validate storedBlockChunk (some .compressed) =
      .ok [1, 3, 0, 252, 255, 7, 7, 7] := by decide +kernel
  have bare : validate (frame .compressed ⟨1, 2, 3, 4⟩ []) (some .compressed) = .ok [] := by
    decide +kernel
  have ran : decompress .standard storedBlockChunk =
      .ok (frame .change ⟨1, 2, 3, 4⟩ [7, 7, 7]) := by decide +kernel
  have refused : decompress .standard (frame .compressed ⟨1, 2, 3, 4⟩ []) =
      .error (.decompressionFailed Deflate.Fault.incomplete.message) := by decide +kernel
  have sized : (frame .change ⟨1, 2, 3, 4⟩ [7, 7, 7]).length < 2 ^ 64 := by decide +kernel
  have verified : (⟨5, true⟩ : Settings).verifyCompressed = true := rfl
  refine ⟨verified, whole, ran, sized, ?_, bare, refused, ?_⟩
  · obtain ⟨line, second, shows, -⟩ := verified_as_decompressed .standard verified whole
    obtain ⟨found, parsed, -, rfl, -⟩ := shows _ ran sized
    have told : (parse .standard (frame .change ⟨1, 2, 3, 4⟩ [7, 7, 7])).map
        (fun parts => parts.1.checksum.value) = .ok (.mismatch ⟨71, 239, 52, 69⟩) := by
      decide +kernel
    rw [parsed] at told
    have status : found.checksum.value = .mismatch ⟨71, 239, 52, 69⟩ := Except.ok.inj told
    rw [second, status]
    rfl
  · obtain ⟨line, second, -, unverified⟩ := verified_as_decompressed .standard verified bare
    rw [second, unverified _ refused]
    rfl

end Decompression

end Chunk

end Chunkscope
