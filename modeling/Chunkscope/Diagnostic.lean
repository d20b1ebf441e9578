import Chunkscope.Checksum
import Chunkscope.Varint.Scan

/-!
Diagnostics: what a decoder found wrong with the bytes of one field, and how serious that is.
Decoding goes on after every one of them.
-/

namespace Chunkscope

inductive Severity where
  | warning
  | error
  deriving DecidableEq, Repr

namespace Severity

def name : Severity → String
  | .warning => "warning"
  | .error => "error"

/-- The more serious of two severities. -/
def max : Severity → Severity → Severity
  | .warning, other => other
  | .error, _ => .error

/-- The most serious of some severities, if there is any. -/
def worst : List Severity → Option Severity
  | [] => none
  | severity :: rest =>
      match worst rest with
      | none => some severity
      | some other => some (severity.max other)

end Severity

/-- What can be wrong with a field. Sizes of bytes at hand are natural numbers; numbers that the
input declares have 64 bits. -/
inductive Problem where
  | malformedVarint (fault : Varint.Fault)
  | invalidMagic
  /-- The stored checksum is not the one the bytes call for. -/
  | checksumMismatch (expected : Checksum)
  | invalidChunkType (byte : UInt8)
  | truncatedChunk (declared : UInt64) (available : Nat)
  | notEnoughBytes (needed : UInt64) (available : Nat)
  | valueLengthMismatch (decoded : Nat) (declared : UInt64)
  | invalidUtf8
  | missingValueMeta
  | unknownValueType (code : UInt8)
  | negativeRunningValue
  | runningValueOverflow
  | specTooLarge
  | lengthTooLarge
  | missingHead
  | incompleteHead
  | actorIdTooLong
  | messageTooLong
  /-- The input ended before the declared number of items. -/
  | missingItems (remaining : UInt64)
  | trailingData (extra : Nat)
  | tooManyValues (limit : Nat)
  deriving DecidableEq, Repr

def Problem.message : Problem → String
  | .malformedVarint fault => fault.message
  | .invalidMagic => "invalid magic bytes"
  | .checksumMismatch expected =>
      "checksum mis-match (should be " ++ decimalList (bytes expected) ++ ")"
  | .invalidChunkType byte =>
      "invalid chunk type " ++ toString byte.toNat ++ " (should be 0, 1 or 2)"
  | .truncatedChunk _ available => "longer than remaining data: " ++ toString available
  | .notEnoughBytes needed available =>
      "not enough bytes: need " ++ toString needed.toNat ++ ", have " ++ toString available
  | .valueLengthMismatch decoded declared =>
      "value length " ++ toString decoded ++ " != " ++ toString declared.toNat ++
        " from metadata"
  | .invalidUtf8 => "invalid utf-8"
  | .missingValueMeta => "value column with no metadata"
  | .unknownValueType code => "unknown value type = " ++ toString code.toNat
  | .negativeRunningValue => "i < 0"
  | .runningValueOverflow => "running value overflows 64 bits"
  | .specTooLarge => "spec is too large"
  | .lengthTooLarge => "length is too long"
  | .missingHead => "missing head"
  | .incompleteHead => "incomplete head"
  | .actorIdTooLong => "actor id length greater than remains in document"
  | .messageTooLong => "too long"
  | .missingItems remaining =>
      toString remaining.toNat ++ " more items declared but no bytes remain"
  | .trailingData extra => toString extra ++ " bytes after the last section"
  | .tooManyValues limit => "more than " ++ toString limit ++ " values"

/-- A problem, how serious it is and, where one field has several parts, the part it concerns. -/
structure Diagnostic where
  problem : Problem
  severity : Severity
  part : Option String
  deriving DecidableEq, Repr

namespace Diagnostic

def error (problem : Problem) : Diagnostic := ⟨problem, .error, none⟩

def errorIn (part : String) (problem : Problem) : Diagnostic := ⟨problem, .error, some part⟩

def warning (problem : Problem) : Diagnostic := ⟨problem, .warning, none⟩

def warningIn (part : String) (problem : Problem) : Diagnostic := ⟨problem, .warning, some part⟩

def isError (diagnostic : Diagnostic) : Bool := diagnostic.severity = .error

def message (diagnostic : Diagnostic) : String :=
  match diagnostic.part with
  | some part =>
      "(" ++ part ++ " " ++ diagnostic.severity.name ++ ": " ++ diagnostic.problem.message ++ ")"
  | none => "(" ++ diagnostic.severity.name ++ ": " ++ diagnostic.problem.message ++ ")"

/-- The most serious severity among some diagnostics. -/
def worst (diagnostics : List Diagnostic) : Option Severity :=
  Severity.worst (diagnostics.map severity)

/-- A scan's fault as a diagnostic on the named part, if there is one. -/
def ofFault (part : Option String) : Option Varint.Fault → List Diagnostic
  | none => []
  | some fault => [⟨.malformedVarint fault, .error, part⟩]

/-- What to say about the items that a count declares beyond those that were found. -/
def missing (declared : UInt64) (found : Nat) : List Diagnostic :=
  if found < declared.toNat then [error (.missingItems (declared - UInt64.ofNat found))] else []

end Diagnostic

end Chunkscope
