import Chunkscope.Transform

/-!
The transforms of one run, in their order: a new frame or a new checksum first, then compression
or decompression.
-/

namespace Chunkscope

/-- The kinds of chunk that a bare body can be framed as. -/
inductive Heading where
  | document
  | change
  deriving DecidableEq, Repr

def Heading.kind : Heading → ChunkKind
  | .document => .document
  | .change => .change

structure Pipeline where
  /-- Frames the input as a chunk of this kind; its checksum is then right already. -/
  heading : Option Heading
  fixChecksum : Bool
  compress : Bool
  decompress : Bool
  deriving DecidableEq, Repr

namespace Pipeline

/-- The framing step. -/
def frame (suite : Suite) (pipeline : Pipeline) (input : Bytes) : Except Failure Bytes :=
  match pipeline.heading with
  | some heading => .ok (Chunk.build suite heading.kind input)
  | none => if pipeline.fixChecksum then Chunk.fixChecksum suite input else .ok input

def run (suite : Suite) (pipeline : Pipeline) (input : Bytes) : Except Failure Bytes := do
  let framed ← pipeline.frame suite input
  if pipeline.compress then Chunk.compress suite framed
  else if pipeline.decompress then Chunk.decompress suite framed
  else .ok framed

end Pipeline

end Chunkscope
