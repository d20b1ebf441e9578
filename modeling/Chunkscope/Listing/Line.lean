import Chunkscope.Diagnostic
import Chunkscope.Text.Json

/-!
Listings: every input byte once and in order, stretch by stretch, with a comment on each stretch.
The text form is a list of decimal bytes in braces, one stretch a line, which can be edited by
hand and read back: the comment of a line starts at its first double slash.
-/

namespace Chunkscope

structure Line where
  /-- The nesting level. -/
  depth : Nat
  /-- The bytes that the line is about, possibly none. -/
  bytes : Bytes
  comment : String
  /-- How serious the worst problem on this line is. -/
  severity : Option Severity
  deriving DecidableEq, Repr

namespace Line

instance : Spans Line := ⟨Line.bytes⟩

@[simp] theorem bytes_eq (line : Line) : Spans.bytes line = line.bytes := rfl

/-- A line without problems. -/
def plain (depth : Nat) (input : Bytes) (comment : String) : Line :=
  ⟨depth, input, comment, none⟩

/-- A line with problems: their messages follow the comment. -/
def annotated (depth : Nat) (input : Bytes) (comment : String)
    (diagnostics : List Diagnostic) : Line :=
  { depth
    bytes := input
    comment := comment ++ String.join (diagnostics.map fun diagnostic => " " ++ diagnostic.message)
    severity := Diagnostic.worst diagnostics }

/-- The line of the text form. Each level moves it `indent` blanks to the right. -/
def text (indent : Nat) (line : Line) : String :=
  "".pushn ' ' (line.depth * indent) ++
    String.join (line.bytes.map fun byte => toString byte.toNat ++ ", ") ++ "// " ++
    line.comment ++ "\n"

/-- The members of the JSON form; the severity is left out when there is none. -/
def json (line : Line) : Json :=
  .object
    ([ ("depth", .number line.depth),
       ("bytes", .list (line.bytes.map fun byte => .number byte.toNat)),
       ("comment", .text line.comment) ] ++
      match line.severity with
      | none => []
      | some severity => [("severity", .text severity.name)])

end Line

abbrev Listing := List Line

namespace Listing

/-- The bytes of all lines, one line after another. -/
def reassemble (listing : Listing) : Bytes := spanned listing

/-- The number of lines whose worst problem is of the given severity. -/
def count (severity : Severity) (listing : Listing) : Nat :=
  listing.countP fun line => line.severity = some severity

def hasErrors (listing : Listing) : Bool := listing.any fun line => line.severity = some .error

def text (indent : Nat) (listing : Listing) : String :=
  "[]byte\x7b\n" ++ String.join (listing.map (Line.text indent)) ++ "\x7d\n"

def json (listing : Listing) : String := (Json.list (listing.map Line.json)).pretty

end Listing

end Chunkscope
