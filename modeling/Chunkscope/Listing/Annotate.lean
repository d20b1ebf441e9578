import Chunkscope.Chunk.Stream
import Chunkscope.Listing.Body
import Chunkscope.Transform

/-!
The listing of a stream of chunks. Nothing in the input stops it: whatever is wrong is said next
to the bytes concerned, and every input byte stands on exactly one line.
-/

namespace Chunkscope

structure Settings where
  /-- The largest number of values that a column may be expanded to. -/
  limit : Nat
  /-- Whether compressed bodies are inflated to check their checksums. -/
  verifyCompressed : Bool
  deriving DecidableEq, Repr

def Settings.default : Settings := ⟨Context.defaultLimit, false⟩

namespace Chunk

def magicLine (magic : Field Bool) : Line :=
  if magic.value then .plain 0 magic.bytes "magic bytes (valid)"
  else ⟨0, magic.bytes, "ERROR: invalid magic bytes", some .error⟩

/-- What a mismatch is worth, and the checksum that should be there. -/
inductive Verdict where
  | valid
  | notValidated
  | mismatch (severity : Severity) (expected : Checksum)
  deriving DecidableEq, Repr

/-- The verdict on a checksum. A compressed chunk may legitimately carry another one over, so a
mismatch there is only a warning; a body that cannot be inflated leaves the question open. -/
def verdict (suite : Suite) (settings : Settings) (chunk : Chunk) : Verdict :=
  match chunk.checksum.value with
  | .valid => .valid
  | .mismatch expected => .mismatch .error expected
  | .notValidated =>
      if settings.verifyCompressed then
        match inflatedChecksum suite chunk.body with
        | .error _ => .notValidated
        | .ok expected =>
            if expected = chunk.storedChecksum then .valid else .mismatch .warning expected
      else .notValidated

def verdictLabel : Severity → String
  | .error => "ERROR"
  | .warning => "WARNING"

def checksumLine (input : Bytes) : Verdict → Line
  | .valid => .plain 0 input "checksum (valid)"
  | .notValidated => .plain 0 input "checksum (not validated)"
  | .mismatch severity expected =>
      ⟨0, input,
        verdictLabel severity ++ ": " ++ (Problem.checksumMismatch expected).message,
        some severity⟩

def kindComment : Option ChunkKind → String
  | some kind => "type = " ++ kind.name ++ " CHUNK"
  | none => "type = INVALID (should be 0, 1 or 2)"

def kindLine (kindByte : Field UInt8) : Line :=
  ⟨0, kindByte.bytes, kindComment (ChunkKind.ofByte? kindByte.value),
    Diagnostic.worst kindByte.diagnostics⟩

/-- The lines for a body of the given kind. -/
def bodyLines (settings : Settings) (body : Bytes) : Option ChunkKind → List Line
  | some .document => (Document.decode (.new settings.limit) body).1.lines 1
  | some .change => (Change.decode (.new settings.limit) body).1.lines 1
  | some .compressed => [.plain 1 body "DEFLATE stream"]
  | none => [.plain 1 body "chunk data"]

def lines (suite : Suite) (settings : Settings) (chunk : Chunk) : List Line :=
  [ magicLine chunk.magic,
    checksumLine chunk.checksum.bytes (chunk.verdict suite settings),
    kindLine chunk.kindByte,
    .ofCount 0 "length = " chunk.length ] ++
  bodyLines settings chunk.body chunk.kind?

end Chunk

def tooShortComment : String :=
  "ERROR: too short (expected magic bytes, checksum, type and length)"

def StreamPiece.lines (suite : Suite) (settings : Settings) : StreamPiece → List Line
  | .chunk found => found.lines suite settings
  | .fragment input => [⟨0, input, tooShortComment, some .error⟩]

/-- The listing of a stream. -/
def annotate (suite : Suite) (settings : Settings) (input : Bytes) : Listing :=
  (splitStream suite input).flatMap (StreamPiece.lines suite settings)

end Chunkscope
