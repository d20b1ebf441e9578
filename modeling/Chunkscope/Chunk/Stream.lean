import Chunkscope.Chunk.Frame

/-!
A stream of chunks that follow one another directly. Whatever the stream holds, cutting it up
gives pieces that lie one after another and cover it; only the last can be too short for a chunk.
-/

namespace Chunkscope

/-- A chunk of a stream, or the bytes at its end that are too few to be one. -/
inductive StreamPiece where
  | chunk (found : Chunk)
  | fragment (input : Bytes)
  deriving DecidableEq, Repr

namespace StreamPiece

instance : Spans StreamPiece :=
  ⟨fun piece => match piece with
    | .chunk found => bytes found
    | .fragment input => input⟩

/-- The piece at the front of a stream and the stream after it. -/
def first (suite : Suite) (input : Bytes) : StreamPiece × Bytes :=
  match Chunk.parse suite input with
  | .ok (found, rest) => (.chunk found, rest)
  | .error _ => (.fragment input, [])

theorem first_append (suite : Suite) (input : Bytes) :
    bytes (first suite input).1 ++ (first suite input).2 = input := by
  simp only [first]
  split
  · next parsed => exact Chunk.parse_append parsed
  · exact List.append_nil input

theorem bytes_ne_nil (suite : Suite) (byte : UInt8) (rest : Bytes) :
    bytes (first suite (byte :: rest)).1 ≠ [] := by
  simp only [first]
  split
  · next chunk remaining parsed =>
      simp only [Chunk.parse] at parsed
      split at parsed
      · cases parsed
        simp only [Spans.bytes, Chunk.magicField]
        split <;> simp [Field.clean]
      · cases parsed
  · simp [Spans.bytes]

/-- The walk along a stream, piece by piece. -/
def walk (suite : Suite) : Walk Unit StreamPiece where
  step _ input := ((first suite input).1, (), (first suite input).2)
  advances _ byte rest := by
    have covered := congrArg List.length (first_append suite (byte :: rest))
    have positive := List.length_pos_iff.mpr (bytes_ne_nil suite byte rest)
    rw [List.length_append, List.length_cons] at covered
    show (first suite (byte :: rest)).2.length ≤ rest.length
    omega

end StreamPiece

/-- The chunks of a stream in order, with the fragment at its end if there is one. -/
def splitStream (suite : Suite) (input : Bytes) : List StreamPiece :=
  (StreamPiece.walk suite).pieces () input

theorem spanned_split_stream (suite : Suite) (input : Bytes) :
    spanned (splitStream suite input) = input :=
  (StreamPiece.walk suite).spanned_pieces (fun _ input => StreamPiece.first_append suite input) _ _

end Chunkscope
