import Chunkscope.Walk

/-!
UTF-8. Bytes are read character by character; bytes that begin no character are set aside, as
many at a time as could have begun one, so that each such stretch can be shown as one
replacement character.
-/

namespace Chunkscope.Utf8

def encode (text : String) : Bytes := text.toList.flatMap String.utf8EncodeChar

/-- What a first byte promises: how many bytes follow it, the bounds of the first of them, and
the bits of the code point that it holds itself. -/
structure Lead where
  following : Nat
  low : UInt8
  high : UInt8
  bits : Nat

/-- The bounds leave out overlong forms, surrogates and code points past the last one. -/
def Lead.of? (byte : UInt8) : Option Lead :=
  let value := byte.toNat
  if value < 0x80 then some ⟨0, 0x80, 0xbf, value⟩
  else if value < 0xc2 then none
  else if value < 0xe0 then some ⟨1, 0x80, 0xbf, value - 0xc0⟩
  else if value = 0xe0 then some ⟨2, 0xa0, 0xbf, value - 0xe0⟩
  else if value = 0xed then some ⟨2, 0x80, 0x9f, value - 0xe0⟩
  else if value < 0xf0 then some ⟨2, 0x80, 0xbf, value - 0xe0⟩
  else if value = 0xf0 then some ⟨3, 0x90, 0xbf, value - 0xf0⟩
  else if value < 0xf4 then some ⟨3, 0x80, 0xbf, value - 0xf0⟩
  else if value = 0xf4 then some ⟨3, 0x80, 0x8f, value - 0xf0⟩
  else none

/-- Adds the following bytes to the bits at hand, up to the first that does not fit. -/
def follow : Nat → UInt8 → UInt8 → Nat → Bytes → Option Char × Bytes
  | 0, _, _, bits, rest => (some (Char.ofNat bits), rest)
  | _ + 1, _, _, _, [] => (none, [])
  | count + 1, low, high, bits, byte :: rest =>
      if low ≤ byte ∧ byte ≤ high then
        follow count 0x80 0xbf (bits * 64 + (byte.toNat - 0x80)) rest
      else (none, byte :: rest)

theorem length_follow_rest (count : Nat) (low high : UInt8) (bits : Nat) (input : Bytes) :
    (follow count low high bits input).2.length ≤ input.length := by
  induction count generalizing low high bits input with
  | zero => simp [follow]
  | succ count ih =>
      cases input with
      | nil => simp [follow]
      | cons byte rest =>
          rw [follow]
          split
          · exact Nat.le_succ_of_le (ih _ _ _ _)
          · exact Nat.le_refl _

/-- One character, or nothing for a stretch of bytes that begins none. -/
def next : Bytes → Option Char × Bytes
  | [] => (none, [])
  | byte :: rest =>
      match Lead.of? byte with
      | none => (none, rest)
      | some lead => follow lead.following lead.low lead.high lead.bits rest

def walk : Walk Unit (Option Char) where
  step _ input := ((next input).1, (), (next input).2)
  advances _ byte rest := by
    simp only [next]
    split
    · exact Nat.le_refl _
    · exact length_follow_rest _ _ _ _ _

/-- The characters of the input, with nothing in place of each stretch that is none. -/
def characters (input : Bytes) : List (Option Char) := walk.pieces () input

def isValid (input : Bytes) : Bool := (characters input).all Option.isSome

/-- The text of the input, with a replacement character for each stretch that is none. -/
def decodeLossy (input : Bytes) : String :=
  String.ofList ((characters input).map fun c => c.getD (Char.ofNat 0xfffd))

/-- A character that breaks off is one stretch, and a byte that begins none is one of its own. -/
example : decodeLossy [0xf0, 0x9f, 0x98, 0x62, 0xff] = "\ufffdb\ufffd" := by decide +kernel

example : isValid [0xed, 0xa0, 0x80] = false := by decide +kernel

end Chunkscope.Utf8
