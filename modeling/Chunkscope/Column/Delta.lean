import Chunkscope.Column.Runs

/-!
Delta columns: each payload is a signed difference, and the values of the column are the running
sums. Sums are kept in 64 bits. A sum that does not fit is reported and goes on wrapped around; a
negative one is worth a warning.
-/

namespace Chunkscope

/-- A repeated difference with the running values after its first and its last step. -/
structure DeltaStep where
  delta : Int64
  first : Int64
  last : Int64
  deriving DecidableEq, Repr

/-- A single difference with the running value after it. -/
structure DeltaValue where
  delta : Int64
  value : Int64
  deriving DecidableEq, Repr

namespace Delta

/-- The signed word of an integer, if it fits in one. -/
def word? (value : Int) : Option Int64 :=
  if Int64.minValue.toInt ≤ value ∧ value ≤ Int64.maxValue.toInt then some (Int64.ofInt value)
  else none

/-- The running value after a sum, with what is wrong with it. -/
def settle (sum : Option Int64) (wrapped : Int64) : Int64 × List Diagnostic :=
  match sum with
  | some value =>
      (value, if value < 0 then [.warningIn "rle" .negativeRunningValue] else [])
  | none => (wrapped, [.errorIn "rle" .runningValueOverflow])

/-- The running value after `count` steps; both the whole distance and the sum have to fit. -/
def advance? (running delta : Int64) (count : UInt64) : Option Int64 := do
  let steps ← word? count.toNat
  let distance ← word? (delta.toInt * steps.toInt)
  word? (running.toInt + distance.toInt)

def repeated (running : Int64) (count : UInt64) (input : Bytes) :
    Field DeltaStep × Int64 × Bytes :=
  let found := Reader.signed (some "delta") input
  let delta := found.1.value
  let last := settle (advance? running delta count) (running + delta * count.toInt64)
  ((found.1.map fun _ => ⟨delta, running + delta, last.1⟩).add last.2, last.1, found.2)

def literal (running : Int64) (input : Bytes) : Field DeltaValue × Int64 × Bytes :=
  let found := Reader.signed (some "value") input
  let delta := found.1.value
  let value := settle (word? (running.toInt + delta.toInt)) (running + delta)
  ((found.1.map fun _ => ⟨delta, value.1⟩).add value.2, value.1, found.2)

theorem repeated_append (running : Int64) (count : UInt64) (input : Bytes) :
    (repeated running count input).1.bytes ++ (repeated running count input).2.2 = input := by
  simp only [repeated, Field.bytes_add, Field.bytes_map]
  exact (Reader.signed (some "delta")).covers input

theorem literal_append (running : Int64) (input : Bytes) :
    (literal running input).1.bytes ++ (literal running input).2.2 = input := by
  simp only [literal, Field.bytes_add, Field.bytes_map]
  exact (Reader.signed (some "value")).covers input

/-- The running value is the state that decoding carries along. -/
def payload : Payload Int64 DeltaStep DeltaValue where
  repeated := repeated
  literal := literal
  repeated_covers := repeated_append
  literal_covers := literal_append

end Delta

def decodeDeltas (limit : Nat) (input : Bytes) : List (Run DeltaStep DeltaValue) :=
  Delta.payload.decodeRuns limit 0 input

end Chunkscope
