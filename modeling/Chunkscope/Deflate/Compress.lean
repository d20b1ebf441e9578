import Chunkscope.Deflate.Inflate

/-!
Compression. Repeated stretches become copies and everything is written in one block under the
fixed code; where that does not pay, or does not read back, the bytes are stored as they are.
-/

namespace Chunkscope.Deflate

/-- A byte, or a copy of earlier output. -/
inductive Token where
  | literal (byte : UInt8)
  | copy (length distance : Nat)

/-- Where a stretch of three bytes is remembered. -/
def bucketCount : Nat := 4096

def bucket (input : Array UInt8) (place : Nat) : Nat :=
  let first := (input.getD place 0).toNat
  let second := (input.getD (place + 1) 0).toNat
  let third := (input.getD (place + 2) 0).toNat
  ((first * 33 + second) * 33 + third) % bucketCount

/-- How many of at most `limit` bytes agree from two places on. -/
def agreement (input : Array UInt8) (earlier later : Nat) : Nat → Nat
  | 0 => 0
  | limit + 1 =>
      if later < input.size ∧ input.getD earlier 0 = input.getD later 0 then
        agreement input (earlier + 1) (later + 1) limit + 1
      else 0

/-- The token at a place, given the latest place with the same bucket, counted from one. -/
def tokenAt (input : Array UInt8) (place remembered : Nat) : Token :=
  let byte := input.getD place 0
  if remembered = 0 then .literal byte
  else
    let distance := place - (remembered - 1)
    let length := agreement input (remembered - 1) place 258
    if distance ≤ 32768 ∧ 3 ≤ length then .copy length distance else .literal byte

def Token.size : Token → Nat
  | .literal _ => 1
  | .copy length _ => length

/-- The tokens from a place on, after those in `done`; each covers at least one byte. -/
def tokensFrom (input : Array UInt8) : Nat → Nat → Array Nat → Array Token → Array Token
  | 0, _, _, done => done
  | steps + 1, place, latest, done =>
      if place < input.size then
        let slot := bucket input place
        let token := tokenAt input place (latest.getD slot 0)
        tokensFrom input steps (place + token.size) (latest.setIfInBounds slot (place + 1))
          (done.push token)
      else done

def tokens (input : Bytes) : Array Token :=
  tokensFrom input.toArray input.length 0 (Array.replicate bucketCount 0) #[]

/-- The last symbol whose smallest value does not exceed the given one, with what is left for the
extra bits. -/
def symbolFor (symbols : List (Nat × Nat)) (value : Nat) : Nat × List Bool :=
  let below := symbols.takeWhile fun entry => entry.1 ≤ value
  match below.getLast? with
  | none => (0, [])
  | some (smallest, extraBits) => (below.length - 1, numberBits extraBits (value - smallest))

def literalSymbolBits (symbol : Nat) : List Bool :=
  if symbol < 144 then codeBits 8 (48 + symbol)
  else if symbol < 256 then codeBits 9 (400 + (symbol - 144))
  else if symbol < 280 then codeBits 7 (symbol - 256)
  else codeBits 8 (192 + (symbol - 280))

def Token.bits : Token → List Bool
  | .literal byte => literalSymbolBits byte.toNat
  | .copy length distance =>
      let (lengthSymbol, lengthExtra) := symbolFor lengthSymbols length
      let (distanceSymbol, distanceExtra) := symbolFor distanceSymbols distance
      literalSymbolBits (257 + lengthSymbol) ++ lengthExtra ++ codeBits 5 distanceSymbol ++
        distanceExtra

/-- One final block under the fixed code. -/
def fixedBlock (input : Bytes) : Bytes :=
  ofBits (numberBits 3 3 ++ (tokens input).toList.flatMap Token.bits ++ literalSymbolBits endOfBlock)

/-- A stored block of up to 65535 bytes; the first bit of its first byte marks the final one. -/
def storedBlock (final : Bool) (input : Bytes) : Bytes :=
  let size := input.length
  [UInt8.ofNat final.toNat, UInt8.ofNat (size % 256), UInt8.ofNat (size / 256),
    UInt8.ofNat (255 - size % 256), UInt8.ofNat (255 - size / 256)] ++ input

/-- The bytes as stored blocks. -/
def stored (input : Bytes) : Bytes :=
  if input.length ≤ 65535 then storedBlock true input
  else storedBlock false (input.take 65535) ++ stored (input.drop 65535)
termination_by input.length
decreasing_by
  rw [List.length_drop]
  omega

/-- A stream that inflates to the given bytes. -/
def deflate (input : Bytes) : Bytes :=
  let compressed := fixedBlock input
  match inflate compressed with
  | .ok output =>
      if output == input && compressed.length ≤ input.length + 5 then compressed else stored input
  | .error _ => stored input

end Chunkscope.Deflate
