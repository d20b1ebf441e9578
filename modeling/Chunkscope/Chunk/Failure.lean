import Chunkscope.Chunk.Kind
import Chunkscope.Varint.Scan

/-!
The reasons why a chunk is refused by an operation that must not guess.
-/

namespace Chunkscope

inductive Failure where
  | malformedVarint (fault : Varint.Fault)
  | tooShort (size : Nat)
  | invalidMagic
  /-- The chunk is of another kind than the operation works on. -/
  | invalidChunkType (actual : UInt8) (expected : ChunkKind)
  | unknownChunkType (byte : UInt8)
  | alreadyCompressed
  | alreadyDecompressed
  | truncatedChunk (declared : UInt64) (available : Nat)
  | trailingData (declared : UInt64) (available : Nat)
  | compressionFailed (reason : String)
  | decompressionFailed (reason : String)
  | unsupportedTransform (reason : String)
  deriving DecidableEq, Repr

def Failure.message : Failure → String
  | .malformedVarint fault => "malformed varint: " ++ fault.message
  | .tooShort size => "not a valid chunk (too short: " ++ toString size ++ " bytes)"
  | .invalidMagic => "not a valid chunk (invalid magic bytes)"
  | .invalidChunkType actual expected =>
      "wrong chunk type (type = " ++ toString actual.toNat ++ ", expected = " ++
        toString expected.byte.toNat ++ ")"
  | .unknownChunkType byte =>
      "not a valid chunk (unknown type " ++ toString byte.toNat ++ ")"
  | .alreadyCompressed => "already compressed"
  | .alreadyDecompressed => "already decompressed"
  | .truncatedChunk declared available =>
      "not a valid chunk (declared length " ++ toString declared.toNat ++ " exceeds " ++
        toString available ++ " available bytes)"
  | .trailingData declared available =>
      "not a valid chunk (trailing data: declared length " ++ toString declared.toNat ++ ", " ++
        toString available ++ " bytes present)"
  | .compressionFailed reason => "failed to compress: " ++ reason
  | .decompressionFailed reason => "failed to decompress: " ++ reason
  | .unsupportedTransform reason => "unsupported transform: " ++ reason

end Chunkscope
