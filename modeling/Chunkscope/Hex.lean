import Chunkscope.Bytes

/-!
Hexadecimal digits: two lower-case digits a byte when written, either case when read. Reading
also skips blanks and line ends between the digits, and takes a digit pair whose first place is
a plus sign as the number that the second digit names.
-/

namespace Chunkscope.Hex

def digit (value : Nat) : Char :=
  if value < 10 then Char.ofNat (48 + value) else Char.ofNat (87 + value)

def encode (input : Bytes) : String :=
  String.ofList (input.flatMap fun byte => [digit (byte.toNat / 16), digit (byte.toNat % 16)])

def digitValue? (c : Char) : Option Nat :=
  if '0' ≤ c ∧ c ≤ '9' then some (c.toNat - 48)
  else if 'a' ≤ c ∧ c ≤ 'f' then some (c.toNat - 87)
  else if 'A' ≤ c ∧ c ≤ 'F' then some (c.toNat - 55)
  else none

/-- The byte that two digits name. -/
def pairValue? (high low : Char) : Option UInt8 := do
  let upper ← if high = '+' then some 0 else digitValue? high
  let lower ← digitValue? low
  some (UInt8.ofNat (16 * upper + lower))

/-- Reads digit pairs onto the bytes in `done`, which are kept last one first. -/
def decodeOnto (done : Bytes) : List Char → Option Bytes
  | [] => some done.reverse
  | [_] => none
  | high :: low :: rest => do
      let byte ← pairValue? high low
      decodeOnto (byte :: done) rest

def decode? (text : String) : Option Bytes :=
  decodeOnto [] (text.toList.filter fun c => c ≠ ' ' ∧ c ≠ '\n' ∧ c ≠ '\r')

end Chunkscope.Hex
