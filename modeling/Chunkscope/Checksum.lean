import Chunkscope.Bytes

/-!
The four bytes that protect a chunk: the first ones of a digest.
-/

namespace Chunkscope

structure Checksum where
  first : UInt8
  second : UInt8
  third : UInt8
  fourth : UInt8
  deriving DecidableEq, Repr

namespace Checksum

instance : Spans Checksum :=
  ⟨fun checksum => [checksum.first, checksum.second, checksum.third, checksum.fourth]⟩

/-- The first four bytes of a byte string; places that it does not reach are zero. -/
def ofBytes (input : Bytes) : Checksum :=
  ⟨input.getD 0 0, input.getD 1 0, input.getD 2 0, input.getD 3 0⟩

@[simp] theorem bytes_eq (checksum : Checksum) :
    bytes checksum = [checksum.first, checksum.second, checksum.third, checksum.fourth] := rfl

end Checksum

end Chunkscope
