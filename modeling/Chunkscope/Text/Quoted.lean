import Chunkscope.Text.Unprintable

/-!
Quoted text: a string between double quotes, with a backslash before quotes and backslashes and
with escapes for everything that would not show.
-/

namespace Chunkscope.Text

/-- The escape that names a code point in hexadecimal digits. -/
def codePointEscape (c : Char) : List Char :=
  ['\\', 'u', '\x7b'] ++ Nat.toDigits 16 c.toNat ++ ['\x7d']

def escape (c : Char) : List Char :=
  if c = '"' ∨ c = '\\' then ['\\', c]
  else if c = Char.ofNat 0 then ['\\', '0']
  else if c = '\t' then ['\\', 't']
  else if c = '\n' then ['\\', 'n']
  else if c = '\r' then ['\\', 'r']
  else if isUnprintable c then codePointEscape c
  else [c]

def quote (text : String) : String :=
  String.ofList ('"' :: text.toList.flatMap escape ++ ['"'])

example : quote "a\"b" = "\"a\\\"b\"" := by decide +kernel

/-- A combining mark is written as its code point, in lower-case digits. -/
example : quote "e\u0301" = "\"e\\u\x7b301\x7d\"" := by decide +kernel

end Chunkscope.Text
