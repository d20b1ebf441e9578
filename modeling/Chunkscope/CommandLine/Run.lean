import Chunkscope.CommandLine.Files
import Chunkscope.CommandLine.Options
import Chunkscope.Listing.Annotate

/-!
One run of the program, from arguments and what it can read to what is printed. The exit code is 0 when
all went well, 1 when the input could not be had or a transform failed, and 2 for arguments that
make no sense or for a checked listing with errors.
-/

namespace Chunkscope.CommandLine

inductive Output where
  | text (text : String)
  | raw (output : Bytes)
  deriving DecidableEq, Repr

structure Outcome where
  exitCode : Nat
  output : Output
  /-- What is said about a failure. -/
  complaint : Option String
  deriving DecidableEq, Repr

namespace Outcome

def failed (exitCode : Nat) (reason : String) : Outcome :=
  ⟨exitCode, .text "", some ("error: " ++ reason)⟩

end Outcome

namespace Options

def defaultIndent : Nat := 4

def settings (options : Options) : Settings where
  limit := options.maxValues.getD Context.defaultLimit
  verifyCompressed := options.has .verifyCompressed

/-- The listing in the format asked for; the JSON form ends with a line break as well. -/
def render (options : Options) (listing : Listing) : String :=
  match options.format with
  | some .json => listing.json ++ "\n"
  | _ => listing.text (options.indent.getD defaultIndent)

def listing (suite : Suite) (options : Options) (input : Bytes) : Outcome :=
  let lines := annotate suite options.settings input
  { exitCode := if options.has .check ∧ Listing.hasErrors lines then 2 else 0
    output := .text (options.render lines)
    complaint := none }

/-- Transforms the input, and prints the result as it is or as a listing. -/
def run (suite : Suite) (options : Options) (input : Except FileError Bytes) : Outcome :=
  match input with
  | .error failure => .failed 1 failure.message
  | .ok input =>
      match options.pipeline.run suite input with
      | .error failure => .failed 1 failure.message
      | .ok result =>
          if options.has .raw then ⟨0, .raw result, none⟩ else options.listing suite result

end Options

/-- A run with the given arguments, on a file if they name one and else on standard input. -/
def run (suite : Suite) (arguments : List String) (files : Files)
    (standardInput : Bytes) : Outcome :=
  match Options.read arguments with
  | .error failure => .failed 2 failure.message
  | .ok options =>
      options.run suite <|
        match options.file with
        | some file => files.read file
        | none => .ok standardInput

end Chunkscope.CommandLine
