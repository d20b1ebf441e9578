import Chunkscope.Column.Runs
import Chunkscope.Text.Utf8

/-!
String columns: each payload is a length followed by so many bytes of text.
-/

namespace Chunkscope

/-- What is wrong with bytes that should be text. -/
def textProblems (input : Bytes) : List Diagnostic :=
  if Utf8.isValid input then [] else [.errorIn "utf8" .invalidUtf8]

/-- Reads a string behind its length, from fewer bytes when the input ends before. -/
def stringReader : Reader (Field String) where
  read input :=
    let length := Varint.scanUnsigned input
    let text := window length.value length.rest
    let short := match text.short with
      | none => []
      | some available => [.errorIn "string" (.notEnoughBytes length.value available)]
    ({ bytes := length.bytes ++ text.bytes
       value := Utf8.decodeLossy text.bytes
       diagnostics :=
         Diagnostic.ofFault (some "value") length.fault ++ short ++ textProblems text.bytes },
      text.rest)
  covers input := by
    simp only [Field.bytes_eq, List.append_assoc, window_append, Varint.scan_unsigned_append]

def decodeStrings (limit : Nat) (input : Bytes) : List (Run String String) :=
  (Payload.uniform stringReader).decodeRuns limit () input

end Chunkscope
