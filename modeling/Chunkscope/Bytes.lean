/-!
Byte strings. Every decoded piece of a chunk remembers the bytes it was decoded from, so a type
of decoded pieces says which bytes a piece spans, and cutting bytes off an input never loses one.
-/

namespace Chunkscope

abbrev Bytes := List UInt8

/-- A type whose values each stand for a stretch of input bytes. -/
class Spans (Piece : Type) where
  bytes : Piece → Bytes

export Spans (bytes)

instance : Spans Bytes := ⟨id⟩

/-- Pieces that follow one another span their bytes one after another. -/
def spanned {Piece : Type} [Spans Piece] (pieces : List Piece) : Bytes :=
  pieces.flatMap bytes

@[simp] theorem spanned_nil {Piece : Type} [Spans Piece] :
    spanned ([] : List Piece) = [] := rfl

@[simp] theorem spanned_cons {Piece : Type} [Spans Piece] (piece : Piece) (pieces : List Piece) :
    spanned (piece :: pieces) = bytes piece ++ spanned pieces := rfl

@[simp] theorem spanned_append {Piece : Type} [Spans Piece] (first second : List Piece) :
    spanned (first ++ second) = spanned first ++ spanned second := by
  simp [spanned]

/-- The first `count` bytes and the rest, or nothing when the input is shorter than that. -/
def cut (count : Nat) (input : Bytes) : Option (Bytes × Bytes) :=
  let (taken, rest) := input.splitAt count
  if taken.length = count then some (taken, rest) else none

theorem cut_eq (count : Nat) (input : Bytes) :
    cut count input =
      if count ≤ input.length then some (input.take count, input.drop count) else none := by
  simp only [cut, List.splitAt_eq, List.length_take]
  by_cases fits : count ≤ input.length
  · rw [if_pos (by omega), if_pos fits]
  · rw [if_neg (by omega), if_neg fits]

theorem cut_append {count : Nat} {input taken rest : Bytes}
    (found : cut count input = some (taken, rest)) : taken ++ rest = input := by
  rw [cut_eq] at found
  split at found
  · cases found
    exact List.take_append_drop count input
  · cases found

/-- A stretch of declared length: its bytes, the rest of the input and, when the input is shorter
than declared, how many bytes there were. -/
structure Window where
  bytes : Bytes
  rest : Bytes
  short : Option Nat
  deriving DecidableEq, Repr

/-- As many bytes as declared, or all that are left when those are fewer. -/
def window (declared : UInt64) (input : Bytes) : Window :=
  match cut declared.toNat input with
  | some (taken, rest) => ⟨taken, rest, none⟩
  | none => ⟨input, [], some input.length⟩

theorem window_append (declared : UInt64) (input : Bytes) :
    (window declared input).bytes ++ (window declared input).rest = input := by
  simp only [window]
  split
  · next found => exact cut_append found
  · simp

theorem rest_of_short {declared : UInt64} {input : Bytes} {available : Nat}
    (short : (window declared input).short = some available) :
    (window declared input).rest = [] := by
  simp only [window] at short ⊢
  split at short
  · cases short
  · rfl

/-- The bytes as a decimal list, such as `[1, 2, 3]`. -/
def decimalList (input : Bytes) : String :=
  "[" ++ ", ".intercalate (input.map fun byte => toString byte.toNat) ++ "]"

end Chunkscope
