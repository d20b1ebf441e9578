import Chunkscope.Transform.Pipeline

/-!
The options of one run and how they are read from arguments. Reading stops at the first argument
that does not fit; a flag may be given once.
-/

namespace Chunkscope.CommandLine

inductive Format where
  | text
  | json
  deriving DecidableEq, Repr

/-- The flags that stand alone. -/
inductive Switch where
  | raw
  | compress
  | decompress
  | fixChecksum
  | check
  | verifyCompressed
  | verbose
  deriving DecidableEq, Repr

/-- The flags that a value belongs to. -/
inductive Setting where
  | heading (heading : Heading)
  | format (format : Format)
  | indent (width : Nat)
  | maxValues (limit : Nat)
  deriving DecidableEq, Repr

inductive UsageError where
  | unknownFlag (flag : String)
  | repeatedFlag (flag : String)
  | missingValue (flag : String)
  /-- A value for a flag that stands alone. -/
  | unexpectedValue (flag : String)
  | invalidValue (flag value : String)
  | secondFile (file : String)
  | emptyFile
  /-- Compression and decompression in one run. -/
  | conflict
  deriving DecidableEq, Repr

def UsageError.message : UsageError → String
  | .unknownFlag flag => "unexpected argument " ++ flag
  | .repeatedFlag flag => "the argument " ++ flag ++ " cannot be used multiple times"
  | .missingValue flag => "a value is required for " ++ flag
  | .unexpectedValue flag => "unexpected value for " ++ flag
  | .invalidValue flag value => "invalid value " ++ value ++ " for " ++ flag
  | .secondFile file => "unexpected argument " ++ file
  | .emptyFile => "a value is required for the input file"
  | .conflict => "--compress cannot be used with --decompress"

structure Options where
  /-- The input file; standard input when there is none. -/
  file : Option String
  switches : List Switch
  heading : Option Heading
  format : Option Format
  indent : Option Nat
  maxValues : Option Nat
  deriving DecidableEq, Repr

namespace Options

def initial : Options := ⟨none, [], none, none, none, none⟩

def has (options : Options) (switch : Switch) : Bool := options.switches.contains switch

def switch? (name : String) : Option Switch :=
  [ ("raw", Switch.raw), ("compress", .compress), ("decompress", .decompress),
    ("fix-checksum", .fixChecksum), ("check", .check),
    ("verify-compressed", .verifyCompressed), ("verbose", .verbose) ].lookup name

def headingNames : List (String × Heading) :=
  [("doc", .document), ("document", .document), ("change", .change), ("ch", .change)]

def formatNames : List (String × Format) := [("text", .text), ("json", .json)]

/-- A natural number below 2 ^ 64 in decimal digits, which a plus sign may precede. -/
def number? (text : String) : Option Nat :=
  let digits := match text.toList with
    | '+' :: rest => rest
    | characters => characters
  if digits.isEmpty ∨ digits.any (fun c => !c.isDigit) then none
  else
    let value := digits.foldl (fun value c => 10 * value + (c.toNat - 48)) 0
    if value < Nat.pow 2 64 then some value else none

/-- Reads the value of a flag; the outer result tells whether the flag takes one. -/
def setting? (name : String) : Option (String → Option Setting) :=
  match name with
  | "prefix" => some fun value => (headingNames.lookup value).map .heading
  | "format" => some fun value => (formatNames.lookup value).map .format
  | "indent" => some fun value => (number? value).map .indent
  | "max-values" => some fun value => (number? value).map .maxValues
  | _ => none

def addSwitch (options : Options) (flag : String) (switch : Switch) :
    Except UsageError Options :=
  if options.has switch then .error (.repeatedFlag flag)
  else .ok { options with switches := switch :: options.switches }

def addSetting (options : Options) (flag : String) : Setting → Except UsageError Options
  | .heading heading =>
      if options.heading.isSome then .error (.repeatedFlag flag)
      else .ok { options with heading := some heading }
  | .format format =>
      if options.format.isSome then .error (.repeatedFlag flag)
      else .ok { options with format := some format }
  | .indent width =>
      if options.indent.isSome then .error (.repeatedFlag flag)
      else .ok { options with indent := some width }
  | .maxValues limit =>
      if options.maxValues.isSome then .error (.repeatedFlag flag)
      else .ok { options with maxValues := some limit }

def addValue (options : Options) (flag : String) (read : String → Option Setting)
    (value : String) : Except UsageError Options :=
  match read value with
  | some setting => options.addSetting flag setting
  | none => .error (.invalidValue flag value)

def addFile (options : Options) (file : String) : Except UsageError Options :=
  if file = "" then .error .emptyFile
  else if options.file.isSome then .error (.secondFile file)
  else .ok { options with file := some file }

/-- One-letter flags that share a dash. -/
def addLetters (options : Options) : List Char → Except UsageError Options
  | [] => .ok options
  | 'v' :: rest => do (← options.addSwitch "-v" .verbose).addLetters rest
  | letter :: _ => .error (.unknownFlag (String.ofList ['-', letter]))

/-- Whether an argument reads as a flag; a lone dash does not. -/
def isFlag (argument : String) : Bool :=
  match argument.toList with
  | '-' :: _ :: _ => true
  | _ => false

/-- Reads arguments into options that already hold those before them. After two dashes every
argument is a file. -/
def readFrom (options : Options) (filesOnly : Bool) : List String → Except UsageError Options
  | [] => .ok options
  | argument :: rest =>
      if filesOnly then do (← options.addFile argument).readFrom true rest
      else if argument = "--" then options.readFrom true rest
      else
        match argument.toList with
        | '-' :: '-' :: body =>
            let name := String.ofList (body.takeWhile (· ≠ '='))
            let value := match body.dropWhile (· ≠ '=') with
              | [] => none
              | _ :: characters => some (String.ofList characters)
            match switch? name, setting? name, value with
            | some switch, _, none => do
                (← options.addSwitch argument switch).readFrom false rest
            | some _, _, some _ => .error (.unexpectedValue argument)
            | none, some read, some value => do
                (← options.addValue argument read value).readFrom false rest
            | none, some read, none =>
                match rest with
                | [] => .error (.missingValue argument)
                | value :: later =>
                    if isFlag value then .error (.missingValue argument)
                    else do (← options.addValue argument read value).readFrom false later
            | none, none, _ => .error (.unknownFlag argument)
        | '-' :: letter :: letters => do
            (← options.addLetters (letter :: letters)).readFrom false rest
        | _ => do (← options.addFile argument).readFrom false rest

/-- The options that some arguments ask for. -/
def read (arguments : List String) : Except UsageError Options := do
  let options ← Options.initial.readFrom false arguments
  if options.has .compress ∧ options.has .decompress then .error .conflict else .ok options

def pipeline (options : Options) : Pipeline where
  heading := options.heading
  fixChecksum := options.has .fixChecksum
  compress := options.has .compress
  decompress := options.has .decompress

end Options

end Chunkscope.CommandLine
