import Chunkscope.Walk

/-!
Repeated values, and writing them out one by one. Counts come from the input and may be enormous,
so a limit cuts them down before any value is written out.
-/

namespace Chunkscope

/-- A value and how often it occurs in a row. -/
structure Repeated (Value : Type) where
  count : UInt64
  value : Value
  deriving DecidableEq, Repr

namespace Repeated

variable {Value : Type}

/-- How often each value occurs among the first `limit` of all. -/
def clip (limit : Nat) (runs : List (Repeated Value)) : List (Nat × Value) :=
  (mapState
    (fun room run =>
      let count := min room run.count.toNat
      ((count, run.value), room - count))
    limit runs).1

/-- The values of some runs one by one, at most `limit` of them. -/
def expand (limit : Nat) (runs : List (Repeated Value)) : List Value :=
  (clip limit runs).flatMap fun run => List.replicate run.1 run.2

/-- How many values some runs hold. -/
def total (runs : List (Repeated Value)) : Nat :=
  runs.foldr (fun run rest => run.count.toNat + rest) 0

end Repeated

end Chunkscope
