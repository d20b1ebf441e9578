import Chunkscope.Checksum
import Chunkscope.Deflate.Compress
import Chunkscope.Digest.Sha256

/-!
What every chunk has in common: the bytes it starts with, the kinds there are, and the digest and
the compression that the format relies on.
-/

namespace Chunkscope

inductive ChunkKind where
  /-- A whole document. -/
  | document
  /-- A single change. -/
  | change
  /-- A change whose body is compressed. -/
  | compressed
  deriving DecidableEq, Repr

namespace ChunkKind

def ofByte? (byte : UInt8) : Option ChunkKind :=
  if byte = 0 then some .document
  else if byte = 1 then some .change
  else if byte = 2 then some .compressed
  else none

def byte : ChunkKind → UInt8
  | .document => 0
  | .change => 1
  | .compressed => 2

def name : ChunkKind → String
  | .document => "DOCUMENT"
  | .change => "CHANGE"
  | .compressed => "COMPRESSED"

@[simp] theorem of_byte_byte (kind : ChunkKind) : ofByte? kind.byte = some kind := by
  cases kind <;> rfl

theorem byte_of_kind {byte : UInt8} {kind : ChunkKind} (known : ofByte? byte = some kind) :
    kind.byte = byte := by
  simp only [ofByte?] at known
  split at known
  · next same => cases known; exact same.symm
  · split at known
    · next same => cases known; exact same.symm
    · split at known
      · next same => cases known; exact same.symm
      · cases known

end ChunkKind

/-- The bytes that every chunk starts with. -/
def magicBytes : Bytes := [0x85, 0x6f, 0x4a, 0x83]

/-- The functions on bytes that the chunk format relies on without depending on how they work. -/
structure Suite where
  digest : Bytes → Checksum
  deflate : Bytes → Bytes
  inflate : Bytes → Except Deflate.Fault Bytes

namespace Suite

/-- What is compressed can be decompressed again. -/
def Lossless (suite : Suite) : Prop :=
  ∀ input, suite.inflate (suite.deflate input) = .ok input

/-- The suite that chunks are made with. -/
def standard : Suite where
  digest input := Checksum.ofBytes (Sha256.digest input)
  deflate := Deflate.deflate
  inflate := Deflate.inflate

end Suite

end Chunkscope
