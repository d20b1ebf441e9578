import Chunkscope.Diagnostic
import Chunkscope.Varint.Encode
import Chunkscope.Walk

/-!
Fields: a decoded value with exactly the bytes it was decoded from and what is wrong with them.
A reader takes a piece off the front of any input and leaves the rest; that the two together are
the input is part of what a reader is.
-/

namespace Chunkscope

structure Field (Value : Type) where
  bytes : Bytes
  value : Value
  diagnostics : List Diagnostic
  deriving DecidableEq, Repr

namespace Field

variable {Value Other : Type}

instance : Spans (Field Value) := ⟨Field.bytes⟩

/-- A field with nothing wrong with it. -/
def clean (input : Bytes) (value : Value) : Field Value := ⟨input, value, []⟩

/-- The field with more diagnostics after those it has. -/
def add (field : Field Value) (more : List Diagnostic) : Field Value :=
  { field with diagnostics := field.diagnostics ++ more }

def map (change : Value → Other) (field : Field Value) : Field Other :=
  { field with value := change field.value }

def isClean (field : Field Value) : Bool := field.diagnostics.isEmpty

/-- The messages of all diagnostics, with a blank between them. -/
def annotations (field : Field Value) : String :=
  " ".intercalate (field.diagnostics.map Diagnostic.message)

/-- The field of a scanned integer; a fault is reported on the named part. -/
def ofScan (part : Option String) (scan : Varint.Scan Value) : Field Value :=
  ⟨scan.bytes, scan.value, Diagnostic.ofFault part scan.fault⟩

@[simp] theorem bytes_eq (field : Field Value) : Spans.bytes field = field.bytes := rfl

@[simp] theorem bytes_add (field : Field Value) (more : List Diagnostic) :
    (field.add more).bytes = field.bytes := rfl

theorem add_nil (field : Field Value) : field.add [] = field := by
  rw [add, List.append_nil]

@[simp] theorem bytes_map (change : Value → Other) (field : Field Value) :
    (field.map change).bytes = field.bytes := rfl

@[simp] theorem bytes_of_scan (part : Option String) (scan : Varint.Scan Value) :
    (ofScan part scan).bytes = scan.bytes := rfl

end Field

/-- Takes a piece off the front of any input, losing none of it. -/
structure Reader (Piece : Type) [Spans Piece] where
  read : Bytes → Piece × Bytes
  covers : ∀ input, bytes (read input).1 ++ (read input).2 = input

namespace Reader

variable {Piece Value Other : Type}

instance [Spans Piece] : CoeFun (Reader Piece) fun _ => Bytes → Piece × Bytes := ⟨Reader.read⟩

def unsigned (part : Option String) : Reader (Field UInt64) where
  read input :=
    let scan := Varint.scanUnsigned input
    (Field.ofScan part scan, scan.rest)
  covers input := Varint.scan_unsigned_append input

def signed (part : Option String) : Reader (Field Int64) where
  read input :=
    let scan := Varint.scanSigned input
    (Field.ofScan part scan, scan.rest)
  covers input := Varint.scan_signed_append input

def map (change : Value → Other) (reader : Reader (Field Value)) : Reader (Field Other) where
  read input := ((reader input).1.map change, (reader input).2)
  covers input := reader.covers input

/-- Up to `count` pieces, fewer when the input ends before. -/
def upTo [Spans Piece] (reader : Reader Piece) (count : Nat) (input : Bytes) :
    List Piece × Bytes :=
  let (pieces, _, rest) := takeUpTo
    (fun (_ : Unit) input => ((reader input).1, (), (reader input).2)) count () input
  (pieces, rest)

theorem spanned_up_to [Spans Piece] (reader : Reader Piece) (count : Nat) (input : Bytes) :
    spanned (reader.upTo count input).1 ++ (reader.upTo count input).2 = input :=
  spanned_take_up_to _ (fun _ input => reader.covers input) count () input

end Reader

end Chunkscope
