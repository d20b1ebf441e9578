import Chunkscope.Proofs.Chunk.Framing

/-!
# Validating and parsing agree

Validating gives up at the first thing that is wrong, parsing goes on and says so at the part
concerned. They agree on which inputs are one whole and proper chunk: what is validated is a frame,
and a parse that leaves nothing and finds no fault with the magic bytes, the kind and the length has
found one. The checksum does not count on either side.
-/

namespace Chunkscope.Chunk

variable {suite : Suite} {chunk : Chunk} {input rest : Bytes}

theorem magic_field_clean_iff (magic : Bytes) :
    (magicField magic).value = true ↔ (magicField magic).diagnostics = [] := by
  unfold magicField
  split
  · exact iff_of_true rfl rfl
  · exact iff_of_false Bool.false_ne_true (List.cons_ne_nil _ _)

theorem kind_field_clean_iff (kindByte : UInt8) :
    (∃ kind, ChunkKind.ofByte? (kindField kindByte).value = some kind) ↔
      (kindField kindByte).diagnostics = [] := by
  unfold kindField
  split
  · next kind known => exact iff_of_true ⟨kind, known⟩ rfl
  · next unknown =>
      refine iff_of_false ?_ (List.cons_ne_nil _ _)
      rintro ⟨kind, known⟩
      exact Option.some_ne_none kind (known.symm.trans unknown)

/-- A parse that is sure of the magic bytes and of the kind has nothing to say about them. -/
theorem clean_of_parse (parsed : parse suite input = .ok (chunk, rest))
    (magic : chunk.magic.value = true) {kind : ChunkKind} (known : chunk.kind? = some kind) :
    chunk.magic.diagnostics = [] ∧ chunk.kindByte.diagnostics = [] := by
  unfold parse at parsed
  split at parsed
  · cases Except.ok.inj parsed
    exact ⟨(magic_field_clean_iff _).mp magic, (kind_field_clean_iff _).mp ⟨kind, known⟩⟩
  · cases parsed

/-- A whole chunk of a known kind with a faultless length is a frame. -/
theorem framed_of_parse {kind : ChunkKind} (parsed : parse suite input = .ok (chunk, rest))
    (magic : chunk.magic.value = true) (known : chunk.kind? = some kind)
    (length : chunk.length.diagnostics = []) :
    ∃ stored, chunk.body.length < 2 ^ 64 ∧ input = frame kind stored chunk.body ++ rest := by
  obtain ⟨magicClean, kindClean⟩ := clean_of_parse parsed magic known
  obtain ⟨found, stored, fits, rfl⟩ := frame_of_parse parsed magicClean kindClean length
  have same : framed suite found stored chunk.body = chunk := by
    rw [parse_frame suite found stored fits] at parsed
    exact congrArg Prod.fst (Except.ok.inj parsed)
  rw [← same, kind_of_framed] at known
  cases known
  exact ⟨stored, fits, rfl⟩

theorem check_kind_suits {kind : ChunkKind} {expected : Option ChunkKind}
    (suits : expected = none ∨ expected = some kind) : checkKind kind.byte expected = .ok () := by
  rcases suits with rfl | rfl
  · exact check_kind_none kind
  · exact check_kind_self kind

/-- Validation accepts exactly the inputs that parse as one chunk to their end, with the magic bytes
in place, a known kind (the expected one, if there is one) and nothing wrong with the length; the
body is the same. Another checksum in the same input changes nothing about it. -/
theorem validate_iff_parsed (suite : Suite) (expected : Option ChunkKind) :
    (∀ input body, validate input expected = .ok body ↔
      ∃ chunk, parse suite input = .ok (chunk, []) ∧ chunk.magic.value = true ∧
        (∃ kind, chunk.kind? = some kind ∧ (expected = none ∨ expected = some kind)) ∧
        chunk.length.diagnostics = [] ∧ chunk.body = body) ∧
    ∀ (m0 m1 m2 m3 : UInt8) (stored other : Checksum) (covered : Bytes),
      validate ([m0, m1, m2, m3] ++ bytes other ++ covered) expected =
        validate ([m0, m1, m2, m3] ++ bytes stored ++ covered) expected := by
  refine ⟨fun input body => ⟨?_, ?_⟩, ?_⟩
  · intro valid
    obtain ⟨kind, stored, suits, fits, rfl⟩ := frame_of_validate valid
    have parsed := parse_frame suite kind stored fits []
    rw [List.append_nil] at parsed
    exact ⟨_, parsed, rfl, ⟨kind, kind_of_framed suite kind stored body, suits⟩, rfl, rfl⟩
  · rintro ⟨chunk, parsed, magic, ⟨kind, known, suits⟩, length, rfl⟩
    obtain ⟨stored, fits, rfl⟩ := framed_of_parse parsed magic known length
    rw [List.append_nil, validate_frame kind stored fits, check_kind_suits suits]
    rfl
  · intro m0 m1 m2 m3 stored other covered
    cases covered with
    | nil => rfl
    | cons kindByte covered => cases covered <;> rfl

end Chunkscope.Chunk
