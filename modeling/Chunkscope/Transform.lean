import Chunkscope.Chunk.Frame

/-!
Transforms of one chunk: compressing a change, decompressing it again and renewing its checksum.
They refuse anything but a proper chunk. Compression leaves the checksum as it is, for it goes on
protecting the change.
-/

namespace Chunkscope.Chunk

/-- The frame of another chunk, magic bytes and checksum, around a new kind and body. -/
def reframe (framed : Bytes) (kind : ChunkKind) (body : Bytes) : Bytes :=
  framed.take 8 ++ payload kind body

def inflateBody (suite : Suite) (body : Bytes) : Except Failure Bytes :=
  match suite.inflate body with
  | .ok inflated => .ok inflated
  | .error fault => .error (.decompressionFailed fault.message)

def compress (suite : Suite) (input : Bytes) : Except Failure Bytes := do
  let body ← validate input (some .change)
  .ok (reframe input .compressed (suite.deflate body))

def decompress (suite : Suite) (input : Bytes) : Except Failure Bytes := do
  let body ← validate input (some .compressed)
  let inflated ← inflateBody suite body
  .ok (reframe input .change inflated)

/-- The checksum that belongs to a compressed body: that of the change it was made from. -/
def inflatedChecksum (suite : Suite) (body : Bytes) : Except Failure Checksum := do
  let inflated ← inflateBody suite body
  .ok (suite.digest (payload .change inflated))

/-- The chunk with the checksum that the bytes after it call for. -/
def renewChecksum (suite : Suite) (input : Bytes) : Bytes :=
  input.take 4 ++ bytes (suite.digest (input.drop 8)) ++ input.drop 8

def documentRefusal : String :=
  "refusing to fix checksum of document chunk - your change hashes are probably wrong too"

/-- Renews the checksum of a change, also of a compressed one. A document is refused: it holds
hashes of its own, which a new checksum would only hide. -/
def fixChecksum (suite : Suite) (input : Bytes) : Except Failure Bytes := do
  let _ ← validate input none
  match ChunkKind.ofByte? (input.getD 8 0) with
  | some .compressed =>
      let change ← decompress suite input
      compress suite (renewChecksum suite change)
  | some .document => .error (.unsupportedTransform documentRefusal)
  | _ => .ok (renewChecksum suite input)

end Chunkscope.Chunk
