/-!
JSON documents made of numbers, strings, lists and objects, laid out with one item a line.
-/

namespace Chunkscope

inductive Json where
  | null
  | number (value : Nat)
  | text (value : String)
  | list (items : List Json)
  | object (members : List (String × Json))

namespace Json

/-- Controls have an escape, quotes and backslashes a backslash; all else stands for itself. -/
def escape (c : Char) : List Char :=
  if c = '"' ∨ c = '\\' then ['\\', c]
  else if c = Char.ofNat 8 then ['\\', 'b']
  else if c = Char.ofNat 12 then ['\\', 'f']
  else if c = '\n' then ['\\', 'n']
  else if c = '\r' then ['\\', 'r']
  else if c = '\t' then ['\\', 't']
  else if c.toNat < 32 then
    ['\\', 'u', '0', '0', Nat.digitChar (c.toNat / 16), Nat.digitChar (c.toNat % 16)]
  else [c]

def quote (text : String) : String :=
  String.ofList ('"' :: text.toList.flatMap escape ++ ['"'])

/-- A line break and two blanks for each level. -/
def lineBreak (level : Nat) : String := "\n" ++ "".pushn ' ' (2 * level)

/-- Items between two brackets, each on a line of its own; empty brackets stay on one line. -/
def enclose (level : Nat) (opening closing : String) (items : List String) : String :=
  if items.isEmpty then opening ++ closing
  else
    opening ++ lineBreak (level + 1) ++ (("," ++ lineBreak (level + 1)).intercalate items) ++
      lineBreak level ++ closing

def layout (level : Nat) : Json → String
  | .null => "null"
  | .number value => toString value
  | .text value => quote value
  | .list items => enclose level "[" "]" (items.map fun item => item.layout (level + 1))
  | .object members =>
      enclose level "\x7b" "\x7d"
        (members.map fun member => quote member.1 ++ ": " ++ member.2.layout (level + 1))
termination_by document => sizeOf document
decreasing_by
  · have smaller := List.sizeOf_lt_of_mem (by assumption)
    simp only [list.sizeOf_spec]
    omega
  · have smaller := List.sizeOf_lt_of_mem (by assumption)
    have inner : sizeOf member.2 < sizeOf member := by
      cases member
      simp only [Prod.mk.sizeOf_spec]
      omega
    simp only [object.sizeOf_spec]
    omega

/-- The whole document, its outermost bracket at the left margin. -/
def pretty (document : Json) : String := document.layout 0

end Json

end Chunkscope
