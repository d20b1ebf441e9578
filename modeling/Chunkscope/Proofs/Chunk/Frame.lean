import Chunkscope.Chunk.Frame
import Chunkscope.Proofs.Varint.Canonical

/-!
# What strict validation accepts

Validation accepts exactly the frames: magic bytes, any checksum, a known kind and the shortest
encoding of the body's length, with the body to the end of the input.
-/

namespace Chunkscope

namespace Chunk

/-- The chunk of a body with a given checksum. -/
def frame (kind : ChunkKind) (stored : Checksum) (body : Bytes) : Bytes :=
  magicBytes ++ bytes stored ++ payload kind body

theorem kind_byte_of_frame (kind : ChunkKind) (stored : Checksum) (body : Bytes) :
    (frame kind stored body).getD 8 0 = kind.byte := rfl

theorem body_length_lt_frame (kind : ChunkKind) (stored : Checksum) (body : Bytes) :
    body.length < (frame kind stored body).length := by
  simp only [frame, payload, magicBytes, List.length_append, List.length_cons]
  omega

theorem frame_length_le (kind : ChunkKind) (stored : Checksum) (body : Bytes) :
    (frame kind stored body).length ≤ body.length + 19 := by
  have size := Varint.encode_unsigned_length_le (UInt64.ofNat body.length)
  simp only [frame, payload, Varint.encodeLength, magicBytes, Checksum.bytes_eq,
    List.length_append, List.length_cons, List.length_nil]
  omega

theorem exact_body_eq_ok_iff (input body : Bytes) :
    exactBody input = .ok body ↔
      body.length < 2 ^ 64 ∧ input = Varint.encodeLength body ++ body := by
  constructor
  · intro accepted
    rw [exactBody] at accepted
    cases reading : Varint.readUnsigned input with
    | error fault => simp [reading] at accepted
    | ok parts =>
        obtain ⟨declared, found⟩ := parts
        have consumed := (Varint.read_unsigned_eq_ok_iff input found declared).mp reading
        have bounded := declared.toNat_lt
        simp only [reading] at accepted
        split at accepted
        · cases accepted
        · split at accepted
          · cases accepted
          · cases accepted
            have size : declared.toNat = body.length := by omega
            refine ⟨size ▸ bounded, ?_⟩
            rw [Varint.encodeLength, ← size, UInt64.ofNat_toNat]
            exact consumed
  · rintro ⟨fits, rfl⟩
    have reading := (Varint.read_unsigned_eq_ok_iff (Varint.encodeLength body ++ body) body
      (UInt64.ofNat body.length)).mpr rfl
    have size : (UInt64.ofNat body.length).toNat = body.length :=
      UInt64.toNat_ofNat_of_lt' fits
    simp only [exactBody, reading, size, Nat.lt_irrefl, if_false]

/-- Validation looks at the magic bytes, the kind byte and what follows it. -/
theorem validate_frame_parts (stored : Checksum) (kindByte : UInt8) (expected : Option ChunkKind)
    {input : Bytes} (nonempty : input ≠ []) :
    validate (magicBytes ++ bytes stored ++ kindByte :: input) expected = (do
      checkKind kindByte expected
      exactBody input) := by
  obtain ⟨length, rest, rfl⟩ := List.exists_cons_of_ne_nil nonempty
  rfl

theorem length_and_body_ne_nil (body : Bytes) : Varint.encodeLength body ++ body ≠ [] :=
  List.append_ne_nil_of_left_ne_nil (Varint.encode_unsigned_ne_nil _) body

theorem validate_frame (kind : ChunkKind) (stored : Checksum) {body : Bytes}
    (fits : body.length < 2 ^ 64) (expected : Option ChunkKind) :
    validate (frame kind stored body) expected = (do
      checkKind kind.byte expected
      .ok body) := by
  have whole := (exact_body_eq_ok_iff (Varint.encodeLength body ++ body) body).mpr ⟨fits, rfl⟩
  rw [frame, payload, List.cons_append, validate_frame_parts _ _ _ (length_and_body_ne_nil body),
    whole]

theorem check_kind_none (kind : ChunkKind) : checkKind kind.byte none = .ok () := by
  cases kind <;> rfl

theorem check_kind_self (kind : ChunkKind) : checkKind kind.byte (some kind) = .ok () := by
  cases kind <;> rfl

theorem check_kind_eq_ok {kindByte : UInt8} {expected : Option ChunkKind}
    (accepted : checkKind kindByte expected = .ok ()) :
    ∃ kind : ChunkKind, kindByte = kind.byte ∧ (expected = none ∨ expected = some kind) := by
  cases expected with
  | none =>
      simp only [checkKind] at accepted
      split at accepted
      · next kind known => exact ⟨kind, (ChunkKind.byte_of_kind known).symm, Or.inl rfl⟩
      · cases accepted
  | some kind =>
      simp only [checkKind] at accepted
      split at accepted
      · next same => exact ⟨kind, same, Or.inr rfl⟩
      · split at accepted <;> cases accepted

/-- Whatever validation accepts is a frame of its body. -/
theorem frame_of_validate {input body : Bytes} {expected : Option ChunkKind}
    (valid : validate input expected = .ok body) :
    ∃ kind stored, (expected = none ∨ expected = some kind) ∧ body.length < 2 ^ 64 ∧
      input = frame kind stored body := by
  simp only [validate] at valid
  split at valid
  · next m0 m1 m2 m3 c0 c1 c2 c3 kindByte length rest =>
      split at valid
      · cases valid
      · next magic =>
          cases checked : checkKind kindByte expected with
          | error failure => simp [checked, bind, Except.bind] at valid
          | ok done =>
              simp only [checked, bind, Except.bind] at valid
              obtain ⟨kind, rfl, suits⟩ := check_kind_eq_ok checked
              obtain ⟨fits, whole⟩ := (exact_body_eq_ok_iff _ _).mp valid
              refine ⟨kind, ⟨c0, c1, c2, c3⟩, suits, fits, ?_⟩
              rw [frame, payload, List.cons_append, ← whole, ← not_not.mp magic]
              rfl
  · cases valid

end Chunk

end Chunkscope
