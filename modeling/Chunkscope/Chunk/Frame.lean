import Chunkscope.Chunk.Failure
import Chunkscope.Field

/-!
The frame of a chunk: four magic bytes, a checksum, the byte of its kind, the length of its body
and the body. The checksum covers everything after it. A compressed chunk carries the checksum of
the change that it was made from, which its own bytes cannot confirm.

Parsing cuts one chunk off the front of any input that can hold a frame and reports what is wrong
with it on the part concerned; validating accepts exactly one whole and proper chunk.
-/

namespace Chunkscope

/-- The outcome of comparing the checksum of a chunk with its bytes. -/
inductive ChecksumStatus where
  | valid
  | mismatch (expected : Checksum)
  | notValidated
  deriving DecidableEq, Repr

structure Chunk where
  /-- The value says whether the magic bytes are the right ones. -/
  magic : Field Bool
  checksum : Field ChecksumStatus
  kindByte : Field UInt8
  length : Field UInt64
  /-- As many bytes as the length declares, or fewer when the input ran out. -/
  body : Bytes
  deriving DecidableEq, Repr

namespace Chunk

instance : Spans Chunk :=
  ⟨fun chunk => chunk.magic.bytes ++ chunk.checksum.bytes ++ chunk.kindByte.bytes ++
    chunk.length.bytes ++ chunk.body⟩

def kind? (chunk : Chunk) : Option ChunkKind := ChunkKind.ofByte? chunk.kindByte.value

/-- The checksum that the frame holds. -/
def storedChecksum (chunk : Chunk) : Checksum := Checksum.ofBytes chunk.checksum.bytes

/-- What is wrong with the frame, from its first part to its last. -/
def diagnostics (chunk : Chunk) : List Diagnostic :=
  chunk.magic.diagnostics ++ chunk.checksum.diagnostics ++ chunk.kindByte.diagnostics ++
    chunk.length.diagnostics

/-- The part of a chunk that its checksum covers. -/
def payload (kind : ChunkKind) (body : Bytes) : Bytes :=
  kind.byte :: Varint.encodeLength body ++ body

/-- The chunk of a body, with the checksum it calls for. -/
def build (suite : Suite) (kind : ChunkKind) (body : Bytes) : Bytes :=
  magicBytes ++ bytes (suite.digest (payload kind body)) ++ payload kind body

def magicField (input : Bytes) : Field Bool :=
  if input = magicBytes then .clean input true
  else ⟨input, false, [.error .invalidMagic]⟩

def kindField (byte : UInt8) : Field UInt8 :=
  match ChunkKind.ofByte? byte with
  | some _ => .clean [byte] byte
  | none => ⟨[byte], byte, [.error (.invalidChunkType byte)]⟩

def checksumField (stored : Checksum) (status : ChecksumStatus) : Field ChecksumStatus :=
  match status with
  | .mismatch expected => ⟨bytes stored, status, [.error (.checksumMismatch expected)]⟩
  | _ => .clean (bytes stored) status

/-- What the covered bytes say about a stored checksum. -/
def checksumStatus (suite : Suite) (stored : Checksum) (kindByte : UInt8) (covered : Bytes) :
    ChecksumStatus :=
  if kindByte = ChunkKind.compressed.byte then .notValidated
  else if suite.digest (kindByte :: covered) = stored then .valid
  else .mismatch (suite.digest (kindByte :: covered))

/-- Puts a chunk together from the parts of its frame that stand at fixed places and the input
from its length on. -/
def ofParts (suite : Suite) (magic : Bytes) (stored : Checksum) (kindByte : UInt8)
    (input : Bytes) : Chunk × Bytes :=
  let scan := Varint.scanUnsigned input
  let body := window scan.value scan.rest
  let short := match body.short with
    | none => []
    | some available => [.error (.truncatedChunk scan.value available)]
  ({ magic := magicField magic
     checksum := checksumField stored
       (checksumStatus suite stored kindByte (scan.bytes ++ body.bytes))
     kindByte := kindField kindByte
     length := (Field.ofScan none scan).add short
     body := body.bytes },
    body.rest)

/-- Cuts one chunk off the front of an input of at least ten bytes. -/
def parse (suite : Suite) (input : Bytes) : Except Failure (Chunk × Bytes) :=
  match input with
  | m0 :: m1 :: m2 :: m3 :: c0 :: c1 :: c2 :: c3 :: kindByte :: length :: rest =>
      .ok (ofParts suite [m0, m1, m2, m3] ⟨c0, c1, c2, c3⟩ kindByte (length :: rest))
  | _ => .error (.tooShort input.length)

/-- Whether a kind byte suits an operation that expects the given kind, or any known one. -/
def checkKind (kindByte : UInt8) : Option ChunkKind → Except Failure Unit
  | none =>
      match ChunkKind.ofByte? kindByte with
      | some _ => .ok ()
      | none => .error (.unknownChunkType kindByte)
  | some expected =>
      if kindByte = expected.byte then .ok ()
      else
        match ChunkKind.ofByte? kindByte, expected with
        | some .change, .compressed => .error .alreadyDecompressed
        | some .compressed, .change => .error .alreadyCompressed
        | _, _ => .error (.invalidChunkType kindByte expected)

/-- The body after a length that declares exactly the bytes there are. -/
def exactBody (input : Bytes) : Except Failure Bytes :=
  match Varint.readUnsigned input with
  | .error fault => .error (.malformedVarint fault)
  | .ok (declared, body) =>
      if body.length < declared.toNat then .error (.truncatedChunk declared body.length)
      else if declared.toNat < body.length then .error (.trailingData declared body.length)
      else .ok body

/-- The body of an input that is one whole chunk of the expected kind, or of any known kind when
none is expected. The checksum is not looked at. -/
def validate (input : Bytes) (expected : Option ChunkKind) : Except Failure Bytes :=
  match input with
  | m0 :: m1 :: m2 :: m3 :: _ :: _ :: _ :: _ :: kindByte :: length :: rest => do
      if [m0, m1, m2, m3] ≠ magicBytes then .error .invalidMagic
      else
        checkKind kindByte expected
        exactBody (length :: rest)
  | _ => .error (.tooShort input.length)

theorem of_parts_append (suite : Suite) (magic : Bytes) (stored : Checksum) (kindByte : UInt8)
    (input : Bytes) :
    bytes (ofParts suite magic stored kindByte input).1 ++
        (ofParts suite magic stored kindByte input).2 =
      magic ++ bytes stored ++ kindByte :: input := by
  have magicSpan : (magicField magic).bytes = magic := by
    simp only [magicField]; split <;> rfl
  have kindSpan : (kindField kindByte).bytes = [kindByte] := by
    simp only [kindField]; split <;> rfl
  have checksumSpan : ∀ status, (checksumField stored status).bytes = bytes stored := by
    intro status; cases status <;> rfl
  simp only [ofParts, Spans.bytes, magicSpan, kindSpan, checksumSpan, Field.bytes_add,
    Field.bytes_of_scan, List.append_assoc, window_append, Varint.scan_unsigned_append]
  rfl

/-- Parsing loses no byte of the input. -/
theorem parse_append {suite : Suite} {input rest : Bytes} {chunk : Chunk}
    (parsed : parse suite input = .ok (chunk, rest)) : bytes chunk ++ rest = input := by
  simp only [parse] at parsed
  split at parsed
  · next m0 m1 m2 m3 c0 c1 c2 c3 kindByte length more =>
      have parts := of_parts_append suite [m0, m1, m2, m3] ⟨c0, c1, c2, c3⟩ kindByte
        (length :: more)
      rw [Except.ok.inj parsed] at parts
      exact parts
  · cases parsed

end Chunk

end Chunkscope
