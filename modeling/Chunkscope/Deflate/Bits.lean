import Chunkscope.Bytes

/-!
A compressed stream as a list of bits. Numbers and bytes have their low bit first; the codes of
symbols are read from their high bit on.
-/

namespace Chunkscope.Deflate

inductive Fault where
  /-- The stream ends before its last block does. -/
  | incomplete
  /-- The stream breaks a rule of the format. -/
  | corrupt
  deriving DecidableEq, Repr

def Fault.message : Fault → String
  | .incomplete => "incomplete deflate stream"
  | .corrupt => "corrupt deflate stream"

/-- The `count` low bits of a number, the lowest first. -/
def numberBits (count value : Nat) : List Bool := (List.range count).map value.testBit

/-- The `count` low bits of a code, the highest first. -/
def codeBits (count code : Nat) : List Bool := (numberBits count code).reverse

def toBits (input : Bytes) : List Bool := input.flatMap fun byte => numberBits 8 byte.toNat

def numberOf (bits : List Bool) : Nat := bits.foldr (fun bit above => bit.toNat + 2 * above) 0

/-- Packs bits into the bytes of `done`, which are kept last one first; the last byte is filled up
with zeros. -/
def packOnto (done : Bytes) : List Bool → Bytes
  | b0 :: b1 :: b2 :: b3 :: b4 :: b5 :: b6 :: b7 :: rest =>
      packOnto (UInt8.ofNat (numberOf [b0, b1, b2, b3, b4, b5, b6, b7]) :: done) rest
  | [] => done.reverse
  | short => (UInt8.ofNat (numberOf short) :: done).reverse

def ofBits (bits : List Bool) : Bytes := packOnto [] bits

def readNumber (count : Nat) (bits : List Bool) : Except Fault (Nat × List Bool) :=
  let taken := bits.take count
  if taken.length = count then .ok (numberOf taken, bits.drop count) else .error .incomplete

/-- Reads whole bytes after those in `done`, which are kept last one first. -/
def readBytesOnto (done : Array UInt8) : Nat → List Bool → Except Fault (Array UInt8 × List Bool)
  | 0, bits => .ok (done, bits)
  | count + 1, bits =>
      match readNumber 8 bits with
      | .error fault => .error fault
      | .ok (byte, rest) => readBytesOnto (done.push (UInt8.ofNat byte)) count rest

end Chunkscope.Deflate
