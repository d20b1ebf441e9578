import Chunkscope.CommandLine.Run

/-!
The program: it reads its input, runs, prints and exits.
-/

namespace Chunkscope.CommandLine

/-- The system's number of a fault, which some calls report negated. -/
def faultNumber (code : UInt32) : Nat := min code.toNat (0 - code).toNat

/-- The reason for which the system refused a file. -/
def fileError : IO.Error → FileError
  | .noFileOrDirectory .. => .notFound
  | .permissionDenied .. => .permissionDenied
  | refusal@(.inappropriateType _ code _) | refusal@(.invalidArgument _ code _) =>
      match faultNumber code with
      | 20 => .notDirectory
      | 21 => .isDirectory
      | 36 => .nameTooLong
      | _ => .other (toString refusal)
  | refusal => .other (toString refusal)

/-- The bytes of a file, or of standard input when no file is named. -/
def readInput : Option String → IO (Except FileError Bytes)
  | none => do return .ok (← (← IO.getStdin).readBinToEnd).toList
  | some path => do
      try return .ok (← IO.FS.readBinFile path).toList
      catch refusal => return .error (fileError refusal)

/-- Prints what a run produced and gives its exit code. -/
def report (outcome : Outcome) : IO UInt32 := do
  let output ← IO.getStdout
  match outcome.output with
  | .text text => output.putStr text
  | .raw result => output.write (ByteArray.mk result.toArray)
  output.flush
  if let some complaint := outcome.complaint then IO.eprintln complaint
  return UInt32.ofNat outcome.exitCode

end Chunkscope.CommandLine

open Chunkscope CommandLine

def main (arguments : List String) : IO UInt32 := do
  match Options.read arguments with
  | .error failure => report (.failed 2 failure.message)
  | .ok options => report (options.run Suite.standard (← readInput options.file))
