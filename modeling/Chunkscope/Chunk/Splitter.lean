import Chunkscope.Chunk.Stream

/-!
Splitting a stream on demand. Each request gives the next chunk and goes on behind it. Bytes that
are too few to be a chunk are refused once; after that, as at the end of the stream, there is
nothing more to give.
-/

namespace Chunkscope

/-- The number of input bytes that a chunk takes up. -/
def Chunk.encodedLength (chunk : Chunk) : Nat :=
  chunk.magic.bytes.length + chunk.checksum.bytes.length + chunk.kindByte.bytes.length +
    chunk.length.bytes.length + chunk.body.length

theorem Chunk.length_bytes (chunk : Chunk) : (bytes chunk).length = chunk.encodedLength := by
  simp only [Spans.bytes, List.length_append, encodedLength]

/-- What a piece of a stream is when it is asked for: a chunk, or the reason why it is none. -/
def StreamPiece.item : StreamPiece → Except Failure Chunk
  | .chunk found => .ok found
  | .fragment input => .error (.tooShort input.length)

structure Splitter where
  /-- The bytes that have not been split yet. -/
  remaining : Bytes
  deriving DecidableEq, Repr

namespace Splitter

variable (suite : Suite)

/-- What a request gives, and the splitter after it. -/
def next (splitter : Splitter) : Option (Except Failure Chunk) × Splitter :=
  if splitter.remaining = [] then (none, splitter)
  else
    match Chunk.parse suite splitter.remaining with
    | .ok (chunk, rest) => (some (.ok chunk), ⟨rest⟩)
    | .error failure => (some (.error failure), ⟨[]⟩)

/-- The splitter after a number of requests. -/
def after (splitter : Splitter) : Nat → Splitter
  | 0 => splitter
  | requests + 1 => (splitter.next suite).2.after requests

/-- What a request gives that comes after `earlier` others. -/
def answer (splitter : Splitter) (earlier : Nat) : Option (Except Failure Chunk) :=
  ((splitter.after suite earlier).next suite).1

end Splitter

end Chunkscope
