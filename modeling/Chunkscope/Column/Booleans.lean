import Chunkscope.Column.Runs

/-!
Boolean columns: the lengths of alternating runs of one value, starting with false.
-/

namespace Chunkscope

namespace Booleans

/-- Reads the length of a run of the current value; the next run is of the other one. -/
def nextRun (current : Bool) (input : Bytes) : Field (Repeated Bool) × Bool × Bytes :=
  let (field, rest) := Reader.unsigned (some "length") input
  (field.map fun count => ⟨count, current⟩, !current, rest)

def walk : Walk Bool (Field (Repeated Bool)) where
  step := nextRun
  advances _ byte rest := Varint.length_scan_unsigned_rest byte rest

end Booleans

def decodeBooleans (input : Bytes) : List (Field (Repeated Bool)) :=
  Booleans.walk.pieces false input

theorem spanned_decode_booleans (input : Bytes) : spanned (decodeBooleans input) = input :=
  Booleans.walk.spanned_pieces
    (fun _ input => (Reader.unsigned (some "length")).covers input) false input

/-- The values of a boolean column, at most `limit` of them. Allocation is idealised: no list is
too long here, while the program fails on one of more than 2 ^ 63 - 1 bytes. -/
def expandBooleans (limit : Nat) (runs : List (Field (Repeated Bool))) : List Bool :=
  Repeated.expand limit (runs.map Field.value)

end Chunkscope
