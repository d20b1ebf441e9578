import Chunkscope.Deflate.Code

/-!
Decompression. A stream is a sequence of blocks: stored bytes, or symbols under a fixed code or
under a code that the block itself describes. What follows the final block is ignored.
-/

namespace Chunkscope.Deflate

/-- The codes of a block of symbols. -/
structure Codes where
  literals : CodeTree
  distances : CodeTree

/-- Appends `count` bytes, each one that was written `distance` bytes before it. -/
def copyBack (distance : Nat) : Nat → Array UInt8 → Array UInt8
  | 0, output => output
  | count + 1, output =>
      copyBack distance count (output.push (output.getD (output.size - distance) 0))

/-- A number given by a symbol's smallest value and the extra bits after it. -/
def readExtended (symbols : List (Nat × Nat)) (symbol : Nat) (bits : List Bool) :
    Except Fault (Nat × List Bool) :=
  match symbols[symbol]? with
  | none => .error .corrupt
  | some (smallest, extraBits) =>
      match readNumber extraBits bits with
      | .error fault => .error fault
      | .ok (extra, rest) => .ok (smallest + extra, rest)

/-- The length and the distance of a copy whose length symbol has been read. -/
def readCopy (codes : Codes) (symbol : Nat) (bits : List Bool) :
    Except Fault ((Nat × Nat) × List Bool) := do
  let (length, bits) ← readExtended lengthSymbols (symbol - 257) bits
  let (distanceSymbol, bits) ← codes.distances.read bits
  let (distance, bits) ← readExtended distanceSymbols distanceSymbol bits
  .ok ((length, distance), bits)

/-- Reads symbols up to the end of a block; each takes at least one bit, so `steps` need not
exceed the number of bits by more than one. -/
def readSymbols (codes : Codes) :
    Nat → List Bool → Array UInt8 → Except Fault (Array UInt8 × List Bool)
  | 0, _, _ => .error .corrupt
  | steps + 1, bits, output =>
      match codes.literals.read bits with
      | .error fault => .error fault
      | .ok (symbol, rest) =>
          if symbol < 256 then readSymbols codes steps rest (output.push (UInt8.ofNat symbol))
          else if symbol = endOfBlock then .ok (output, rest)
          else
            match readCopy codes symbol rest with
            | .error fault => .error fault
            | .ok ((length, distance), later) =>
                if output.size < distance then .error .corrupt
                else readSymbols codes steps later (copyBack distance length output)

/-- The order in which a block lists the lengths of the code for its code lengths. -/
def codeLengthOrder : List Nat :=
  [16, 17, 18, 0, 8, 7, 9, 6, 10, 5, 11, 4, 12, 3, 13, 2, 14, 1, 15]

def readNumbers (width : Nat) : Nat → List Bool → Except Fault (List Nat × List Bool)
  | 0, bits => .ok ([], bits)
  | count + 1, bits => do
      let (value, bits) ← readNumber width bits
      let (values, bits) ← readNumbers width count bits
      .ok (value :: values, bits)

/-- Reads code lengths after those in `done`, which are kept last one first, until there are
`wanted`. A symbol below 16 is a length; the others repeat the last length or zero. -/
def readLengths (code : CodeTree) (wanted : Nat) :
    Nat → List Nat → List Bool → Except Fault (List Nat × List Bool)
  | 0, _, _ => .error .corrupt
  | steps + 1, done, bits =>
      if done.length = wanted then .ok (done.reverse, bits)
      else if wanted < done.length then .error .corrupt
      else do
        let (symbol, bits) ← code.read bits
        if symbol < 16 then readLengths code wanted steps (symbol :: done) bits
        else if symbol = 16 then
          let (extra, bits) ← readNumber 2 bits
          let some last := done.head? | .error .corrupt
          readLengths code wanted steps (List.replicate (3 + extra) last ++ done) bits
        else if symbol = 17 then
          let (extra, bits) ← readNumber 3 bits
          readLengths code wanted steps (List.replicate (3 + extra) 0 ++ done) bits
        else
          let (extra, bits) ← readNumber 7 bits
          readLengths code wanted steps (List.replicate (11 + extra) 0 ++ done) bits

/-- The codes that a block describes before its symbols. The symbol that ends the block must have
one. -/
def readCodes (bits : List Bool) : Except Fault (Codes × List Bool) := do
  let (literals, bits) ← readNumber 5 bits
  let (distances, bits) ← readNumber 5 bits
  let (listed, bits) ← readNumber 4 bits
  let literalCount := literals + 257
  let distanceCount := distances + 1
  if 286 < literalCount ∨ 30 < distanceCount then .error .corrupt
  else
    let (values, bits) ← readNumbers 3 (listed + 4) bits
    let listing := codeLengthOrder.zip values
    let code ← codeForLengths
      ((List.range 19).map fun symbol => (listing.lookup symbol).getD 0)
    let wanted := literalCount + distanceCount
    let (lengths, bits) ← readLengths code wanted (wanted + 1) [] bits
    if lengths.getD endOfBlock 0 = 0 then .error .corrupt
    else
      let literalCode ← codeOfLengths true (lengths.take literalCount)
      let distanceCode ← codeOfLengths true (lengths.drop literalCount)
      .ok (⟨literalCode, distanceCode⟩, bits)

def fixedCodes : Except Fault Codes := do
  .ok ⟨← codeOfLengths false fixedLiteralLengths, ← codeOfLengths false fixedDistanceLengths⟩

/-- A stored block starts at a whole byte with its length and the complement of its length. -/
def readStored (bits : List Bool) (output : Array UInt8) :
    Except Fault (Array UInt8 × List Bool) := do
  let aligned := bits.drop (bits.length % 8)
  let (length, bits) ← readNumber 16 aligned
  let (complement, bits) ← readNumber 16 bits
  if length + complement = 65535 then readBytesOnto output length bits else .error .corrupt

/-- Reads the body of one block of the given kind. -/
def readBlock (kind : Nat) (bits : List Bool) (output : Array UInt8) :
    Except Fault (Array UInt8 × List Bool) := do
  match kind with
  | 0 => readStored bits output
  | 1 => readSymbols (← fixedCodes) (bits.length + 1) bits output
  | 2 =>
      let (codes, bits) ← readCodes bits
      readSymbols codes (bits.length + 1) bits output
  | _ => .error .corrupt

/-- Reads blocks up to the final one; each takes at least three bits. -/
def readBlocks : Nat → List Bool → Array UInt8 → Except Fault (Array UInt8)
  | 0, _, _ => .error .incomplete
  | steps + 1, bits, output =>
      match readNumber 1 bits with
      | .error fault => .error fault
      | .ok (final, afterFinal) =>
          match readNumber 2 afterFinal with
          | .error fault => .error fault
          | .ok (kind, afterKind) =>
              match readBlock kind afterKind output with
              | .error fault => .error fault
              | .ok (output, rest) =>
                  if final = 1 then .ok output else readBlocks steps rest output

/-- The bytes that a stream was made from. -/
def inflate (input : Bytes) : Except Fault Bytes :=
  let bits := toBits input
  (readBlocks (bits.length + 1) bits #[]).map Array.toList

end Chunkscope.Deflate
