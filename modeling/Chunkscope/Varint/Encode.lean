import Chunkscope.Bytes

/-!
The shortest encoding of an integer in groups of seven bits, the low group first.
-/

namespace Chunkscope.Varint

/-- The groups of a natural number. -/
def naturalGroups (value : Nat) : Bytes :=
  if value < 128 then [UInt8.ofNat value]
  else UInt8.ofNat (value % 128 + 128) :: naturalGroups (value / 128)

/-- The groups of an integer; the last one carries the sign in its bit 6. -/
def integerGroups (value : Int) : Bytes :=
  if -64 ≤ value ∧ value < 64 then [UInt8.ofNat (value % 128).toNat]
  else UInt8.ofNat (value % 128 + 128).toNat :: integerGroups (value / 128)
termination_by value.natAbs
decreasing_by omega

def encodeUnsigned (value : UInt64) : Bytes := naturalGroups value.toNat

def encodeSigned (value : Int64) : Bytes := integerGroups value.toInt

/-- The number of bytes of a string as it is written before the string. -/
def encodeLength (input : Bytes) : Bytes := encodeUnsigned (UInt64.ofNat input.length)

example : encodeUnsigned 300 = [0xac, 0x02] := by decide +kernel

/-- Bit 6 of the last byte is the sign, so 64 takes a second byte. -/
example : encodeSigned 64 = [0xc0, 0x00] ∧ encodeSigned (-64) = [0x40] := by decide +kernel

end Chunkscope.Varint
