import Chunkscope.Proofs.Chunk.Frame
import Chunkscope.Proofs.Field.ReadBack

/-!
# Framing is a bijection on clean chunks

Parsing a frame gives back its parts, whatever follows it, and a parse that finds nothing wrong with
the magic bytes, the kind and the length has found a frame. The checksum is all that is left: it is
valid exactly when it is the digest that building puts there.
-/

namespace Chunkscope.Chunk

variable {suite : Suite} {chunk : Chunk} {input rest : Bytes}

/-- The parts of a frame; only its checksum can be wrong. -/
def framed (suite : Suite) (kind : ChunkKind) (stored : Checksum) (body : Bytes) : Chunk where
  magic := .clean magicBytes true
  checksum := checksumField stored
    (checksumStatus suite stored kind.byte (Varint.encodeLength body ++ body))
  kindByte := .clean [kind.byte] kind.byte
  length := .clean (Varint.encodeLength body) (UInt64.ofNat body.length)
  body := body

theorem parse_parts (suite : Suite) (m0 m1 m2 m3 : UInt8) (stored : Checksum) (kindByte : UInt8)
    (nonempty : input ≠ []) :
    parse suite ([m0, m1, m2, m3] ++ bytes stored ++ kindByte :: input) =
      .ok (ofParts suite [m0, m1, m2, m3] stored kindByte input) := by
  obtain ⟨length, behind, rfl⟩ := List.exists_cons_of_ne_nil nonempty
  rfl

theorem of_parts_framed (suite : Suite) (kind : ChunkKind) (stored : Checksum) {body : Bytes}
    (fits : body.length < 2 ^ 64) (rest : Bytes) :
    ofParts suite magicBytes stored kind.byte (Varint.encodeLength body ++ (body ++ rest)) =
      (framed suite kind stored body, rest) := by
  have known : kindField kind.byte = .clean [kind.byte] kind.byte := by
    rw [kindField, ChunkKind.of_byte_byte]
  unfold ofParts Varint.encodeLength
  simp only [Varint.scan_unsigned_encode, window_append_exact fits, known]
  rfl

theorem parse_frame (suite : Suite) (kind : ChunkKind) (stored : Checksum) {body : Bytes}
    (fits : body.length < 2 ^ 64) (rest : Bytes) :
    parse suite (frame kind stored body ++ rest) = .ok (framed suite kind stored body, rest) := by
  have nonempty : Varint.encodeLength body ++ (body ++ rest) ≠ [] :=
    List.append_ne_nil_of_left_ne_nil (Varint.encode_unsigned_ne_nil _) _
  have parts : frame kind stored body ++ rest =
      magicBytes ++ bytes stored ++ kind.byte :: (Varint.encodeLength body ++ (body ++ rest)) := by
    simp only [frame, payload, List.append_assoc, List.cons_append]
  have found := parse_parts suite 0x85 0x6f 0x4a 0x83 stored kind.byte nonempty
  rw [parts, magicBytes, found]
  exact congrArg Except.ok (of_parts_framed suite kind stored fits rest)

theorem magic_field_clean {magic : Bytes} (clean : (magicField magic).diagnostics = []) :
    magic = magicBytes := by
  unfold magicField at clean
  split at clean
  · next same => exact same
  · cases clean

theorem kind_field_clean {kindByte : UInt8} (clean : (kindField kindByte).diagnostics = []) :
    ∃ kind : ChunkKind, kind.byte = kindByte := by
  unfold kindField at clean
  split at clean
  · next kind known => exact ⟨kind, ChunkKind.byte_of_kind known⟩
  · cases clean

/-- A length without a fault that declares no more than there is stands before exactly its body. -/
theorem length_clean {magic : Bytes} {stored : Checksum} {kindByte : UInt8}
    (clean : (ofParts suite magic stored kindByte input).1.length.diagnostics = []) :
    (ofParts suite magic stored kindByte input).1.body.length < 2 ^ 64 ∧
      input = Varint.encodeLength (ofParts suite magic stored kindByte input).1.body ++
        ((ofParts suite magic stored kindByte input).1.body ++
          (ofParts suite magic stored kindByte input).2) := by
  simp only [ofParts, Field.add, Field.ofScan, List.append_eq_nil_iff, of_fault_eq_nil_iff] at clean ⊢
  obtain ⟨sound, long⟩ := clean
  have whole : (window (Varint.scanUnsigned input).value (Varint.scanUnsigned input).rest).short =
      none := by
    split at long
    · assumption
    · cases long
  have size := length_of_whole_window whole
  have bounded := (Varint.scanUnsigned input).value.toNat_lt
  refine ⟨size ▸ bounded, ?_⟩
  rw [Varint.encodeLength, size, UInt64.ofNat_toNat, ← Varint.scan_unsigned_sound sound,
    window_append, Varint.scan_unsigned_append]

theorem frame_of_parse (parsed : parse suite input = .ok (chunk, rest))
    (magicClean : chunk.magic.diagnostics = []) (kindClean : chunk.kindByte.diagnostics = [])
    (lengthClean : chunk.length.diagnostics = []) :
    ∃ kind stored, chunk.body.length < 2 ^ 64 ∧ input = frame kind stored chunk.body ++ rest := by
  unfold parse at parsed
  split at parsed
  · next m0 m1 m2 m3 c0 c1 c2 c3 kindByte length more =>
      have parts := Except.ok.inj parsed
      have found : (ofParts suite [m0, m1, m2, m3] ⟨c0, c1, c2, c3⟩ kindByte (length :: more)).1 =
          chunk := congrArg Prod.fst parts
      have left : (ofParts suite [m0, m1, m2, m3] ⟨c0, c1, c2, c3⟩ kindByte (length :: more)).2 =
          rest := congrArg Prod.snd parts
      subst found left
      have magic : [m0, m1, m2, m3] = magicBytes := magic_field_clean magicClean
      obtain ⟨kind, rfl⟩ := kind_field_clean kindClean
      obtain ⟨fits, covered⟩ := length_clean lengthClean
      refine ⟨kind, ⟨c0, c1, c2, c3⟩, fits, ?_⟩
      calc m0 :: m1 :: m2 :: m3 :: c0 :: c1 :: c2 :: c3 :: kind.byte :: length :: more
          = [m0, m1, m2, m3] ++ bytes (⟨c0, c1, c2, c3⟩ : Checksum) ++
              kind.byte :: (length :: more) := rfl
        _ = _ := by
            rw [magic]
            conv_lhs => rw [covered]
            simp only [frame, payload, List.append_assoc, List.cons_append, magic]
  · cases parsed

theorem checksum_field_value (stored : Checksum) (status : ChecksumStatus) :
    (checksumField stored status).value = status := by
  cases status <;> rfl

/-- The checksum of a frame is valid when it is the one that building puts there. -/
theorem framed_valid_iff (suite : Suite) (kind : ChunkKind) (stored : Checksum) (body : Bytes) :
    (framed suite kind stored body).checksum.value = .valid ↔
      kind ≠ .compressed ∧ stored = suite.digest (payload kind body) := by
  have value : (framed suite kind stored body).checksum.value =
      checksumStatus suite stored kind.byte (Varint.encodeLength body ++ body) :=
    checksum_field_value _ _
  have covered : kind.byte :: (Varint.encodeLength body ++ body) = payload kind body := rfl
  have compressed : kind.byte = ChunkKind.compressed.byte ↔ kind = .compressed := by
    cases kind <;> decide
  rw [value, checksumStatus, covered]
  by_cases other : kind = .compressed
  · simp [other]
  · by_cases same : suite.digest (payload kind body) = stored
    · simp [compressed, other, same]
    · simp [compressed, other, same, Ne.symm same]

theorem build_eq_frame (suite : Suite) (kind : ChunkKind) (body : Bytes) :
    build suite kind body = frame kind (suite.digest (payload kind body)) body := rfl

theorem diagnostics_eq_nil_iff (chunk : Chunk) :
    chunk.diagnostics = [] ↔ chunk.magic.diagnostics = [] ∧ chunk.checksum.diagnostics = [] ∧
      chunk.kindByte.diagnostics = [] ∧ chunk.length.diagnostics = [] := by
  unfold diagnostics
  simp only [List.append_eq_nil_iff, and_assoc]

theorem framed_diagnostics_of_valid {kind : ChunkKind} {stored : Checksum} {body : Bytes}
    (valid : (framed suite kind stored body).checksum.value = .valid) :
    (framed suite kind stored body).diagnostics = [] := by
  have status : checksumStatus suite stored kind.byte (Varint.encodeLength body ++ body) = .valid :=
    (checksum_field_value _ _).symm.trans valid
  rw [diagnostics_eq_nil_iff]
  refine ⟨rfl, ?_, rfl, rfl⟩
  rw [framed, status]
  rfl

theorem kind_of_framed (suite : Suite) (kind : ChunkKind) (stored : Checksum) (body : Bytes) :
    (framed suite kind stored body).kind? = some kind :=
  ChunkKind.of_byte_byte kind

/-- Parsing finds a valid chunk with nothing wrong in its frame exactly when the input starts with a
document or a change as it is built, and then it finds that kind and that body. Bytes in memory are
fewer than 2 ^ 64. -/
theorem parse_clean_iff_built (suite : Suite) (input rest : Bytes) :
    ((∃ chunk, parse suite input = .ok (chunk, rest) ∧ chunk.diagnostics = [] ∧
        chunk.checksum.value = .valid) ↔
      ∃ kind body, (kind = .document ∨ kind = .change) ∧ body.length < 2 ^ 64 ∧
        input = build suite kind body ++ rest) ∧
    ∀ kind body chunk, body.length < 2 ^ 64 → input = build suite kind body ++ rest →
      parse suite input = .ok (chunk, rest) → chunk.kind? = some kind ∧ chunk.body = body := by
  refine ⟨⟨?_, ?_⟩, ?_⟩
  · rintro ⟨chunk, parsed, clean, valid⟩
    obtain ⟨magicClean, -, kindClean, lengthClean⟩ := (diagnostics_eq_nil_iff chunk).mp clean
    obtain ⟨kind, stored, fits, rfl⟩ := frame_of_parse parsed magicClean kindClean lengthClean
    have same : framed suite kind stored chunk.body = chunk := by
      rw [parse_frame suite kind stored fits] at parsed
      exact congrArg Prod.fst (Except.ok.inj parsed)
    rw [← same] at valid
    obtain ⟨other, rfl⟩ := (framed_valid_iff suite kind stored chunk.body).mp valid
    refine ⟨kind, chunk.body, ?_, fits, rfl⟩
    cases kind with
    | document => exact .inl rfl
    | change => exact .inr rfl
    | compressed => exact absurd rfl other
  · rintro ⟨kind, body, known, fits, rfl⟩
    have valid : (framed suite kind (suite.digest (payload kind body)) body).checksum.value =
        .valid := by
      rw [framed_valid_iff]
      refine ⟨?_, rfl⟩
      rcases known with rfl | rfl <;> decide
    exact ⟨_, parse_frame suite kind _ fits rest, framed_diagnostics_of_valid valid, valid⟩
  · rintro kind body chunk fits rfl parsed
    rw [build_eq_frame, parse_frame suite kind _ fits] at parsed
    cases Except.ok.inj parsed
    exact ⟨kind_of_framed suite kind _ body, rfl⟩

end Chunkscope.Chunk
