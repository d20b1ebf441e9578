import Chunkscope.Bytes

/-!
The 256-bit digest of a message: the message is padded to blocks of sixteen words, and each
block in turn is mixed into eight words of state in sixty-four rounds.
-/

namespace Chunkscope.Sha256

def roundConstants : List UInt32 :=
  [ 0x428a2f98, 0x71374491, 0xb5c0fbcf, 0xe9b5dba5, 0x3956c25b, 0x59f111f1, 0x923f82a4, 0xab1c5ed5,
    0xd807aa98, 0x12835b01, 0x243185be, 0x550c7dc3, 0x72be5d74, 0x80deb1fe, 0x9bdc06a7, 0xc19bf174,
    0xe49b69c1, 0xefbe4786, 0x0fc19dc6, 0x240ca1cc, 0x2de92c6f, 0x4a7484aa, 0x5cb0a9dc, 0x76f988da,
    0x983e5152, 0xa831c66d, 0xb00327c8, 0xbf597fc7, 0xc6e00bf3, 0xd5a79147, 0x06ca6351, 0x14292967,
    0x27b70a85, 0x2e1b2138, 0x4d2c6dfc, 0x53380d13, 0x650a7354, 0x766a0abb, 0x81c2c92e, 0x92722c85,
    0xa2bfe8a1, 0xa81a664b, 0xc24b8b70, 0xc76c51a3, 0xd192e819, 0xd6990624, 0xf40e3585, 0x106aa070,
    0x19a4c116, 0x1e376c08, 0x2748774c, 0x34b0bcb5, 0x391c0cb3, 0x4ed8aa4a, 0x5b9cca4f, 0x682e6ff3,
    0x748f82ee, 0x78a5636f, 0x84c87814, 0x8cc70208, 0x90befffa, 0xa4506ceb, 0xbef9a3f7, 0xc67178f2 ]

structure State where
  a : UInt32
  b : UInt32
  c : UInt32
  d : UInt32
  e : UInt32
  f : UInt32
  g : UInt32
  h : UInt32

def initial : State :=
  ⟨0x6a09e667, 0xbb67ae85, 0x3c6ef372, 0xa54ff53a, 0x510e527f, 0x9b05688c, 0x1f83d9ab, 0x5be0cd19⟩

def rotateRight (word : UInt32) (count : UInt32) : UInt32 :=
  word >>> count ||| word <<< (32 - count)

def sigma0 (word : UInt32) : UInt32 :=
  rotateRight word 7 ^^^ rotateRight word 18 ^^^ word >>> 3

def sigma1 (word : UInt32) : UInt32 :=
  rotateRight word 17 ^^^ rotateRight word 19 ^^^ word >>> 10

def mix (state : State) (round : UInt32 × UInt32) : State :=
  let rotatedE := rotateRight state.e 6 ^^^ rotateRight state.e 11 ^^^ rotateRight state.e 25
  let choice := (state.e &&& state.f) ^^^ (~~~state.e &&& state.g)
  let first := state.h + rotatedE + choice + round.1 + round.2
  let rotatedA := rotateRight state.a 2 ^^^ rotateRight state.a 13 ^^^ rotateRight state.a 22
  let majority := (state.a &&& state.b) ^^^ (state.a &&& state.c) ^^^ (state.b &&& state.c)
  ⟨first + (rotatedA + majority), state.a, state.b, state.c, state.d + first, state.e, state.f,
    state.g⟩

/-- The next `count` words of a schedule whose last sixteen words are given, oldest first. -/
def extend : Nat → List UInt32 → List UInt32
  | 0, _ => []
  | count + 1, window =>
      let word := window.getD 0 0 + sigma0 (window.getD 1 0) + window.getD 9 0 +
        sigma1 (window.getD 14 0)
      word :: extend count (window.drop 1 ++ [word])

/-- Mixes sixteen words of message into the state. -/
def compress (state : State) (block : List UInt32) : State :=
  let mixed := (roundConstants.zip (block ++ extend 48 block)).foldl mix state
  ⟨state.a + mixed.a, state.b + mixed.b, state.c + mixed.c, state.d + mixed.d,
    state.e + mixed.e, state.f + mixed.f, state.g + mixed.g, state.h + mixed.h⟩

def wordBytes (word : UInt32) : Bytes :=
  [(word >>> 24).toUInt8, (word >>> 16).toUInt8, (word >>> 8).toUInt8, word.toUInt8]

/-- A one bit, zeros up to eight bytes short of a whole block, and the length in bits. -/
def padding (length : Nat) : Bytes :=
  0x80 :: List.replicate ((119 - length % 64) % 64) 0 ++
    (List.range 8).map fun place => UInt8.ofNat (8 * length / Nat.pow 256 (7 - place))

/-- Bytes gathered for the word and the block that are not complete yet. -/
structure Progress where
  state : State
  word : UInt32
  wordSize : Nat
  block : List UInt32

/-- Takes in one byte; the sixteenth word completes a block. -/
def absorb (progress : Progress) (byte : UInt8) : Progress :=
  let word := progress.word <<< 8 ||| byte.toUInt32
  if progress.wordSize < 3 then { progress with word, wordSize := progress.wordSize + 1 }
  else
    let block := word :: progress.block
    if block.length < 16 then { progress with word := 0, wordSize := 0, block }
    else { state := compress progress.state block.reverse, word := 0, wordSize := 0, block := [] }

def digest (message : Bytes) : Bytes :=
  let final := ((message ++ padding message.length).foldl absorb ⟨initial, 0, 0, []⟩).state
  [final.a, final.b, final.c, final.d, final.e, final.f, final.g, final.h].flatMap wordBytes

end Chunkscope.Sha256
