import Chunkscope.Column.Strings
import Chunkscope.Decimal.Binary64
import Chunkscope.Text.Quoted
import Chunkscope.Timestamp
import Chunkscope.Varint.Encode

/-!
Values and the entries that describe them. An entry packs the length in bytes of one value above
the four bits of its type; a value column holds the bytes of its values one after another, with
nothing between them, so only the entries tell where each one ends.
-/

namespace Chunkscope

/-- The types of values that have a code. -/
inductive ValueKind where
  | null
  | booleanFalse
  | booleanTrue
  | unsigned
  | signed
  | float
  | string
  | bytes
  | counter
  | timestamp
  deriving DecidableEq, Repr

namespace ValueKind

def ofCode? (code : UInt8) : Option ValueKind :=
  match code.toNat with
  | 0 => some .null
  | 1 => some .booleanFalse
  | 2 => some .booleanTrue
  | 3 => some .unsigned
  | 4 => some .signed
  | 5 => some .float
  | 6 => some .string
  | 7 => some .bytes
  | 8 => some .counter
  | 9 => some .timestamp
  | _ => none

def code : ValueKind → UInt8
  | .null => 0
  | .booleanFalse => 1
  | .booleanTrue => 2
  | .unsigned => 3
  | .signed => 4
  | .float => 5
  | .string => 6
  | .bytes => 7
  | .counter => 8
  | .timestamp => 9

@[simp] theorem of_code_code (kind : ValueKind) : ofCode? kind.code = some kind := by
  cases kind <;> rfl

end ValueKind

/-- What is known of a value before its bytes are read. -/
structure MetaEntry where
  /-- The length of the value in bytes. -/
  length : UInt64
  code : UInt8
  deriving DecidableEq, Repr

namespace MetaEntry

def ofSpec (spec : UInt64) : MetaEntry := ⟨spec >>> 4, (spec &&& 0x0f).toUInt8⟩

def ofKind (kind : ValueKind) (length : UInt64) : MetaEntry := ⟨length, kind.code⟩

def kind? (entry : MetaEntry) : Option ValueKind := ValueKind.ofCode? entry.code

/-- The entry packed again; a length of more than 60 bits loses its high ones. -/
def spec (entry : MetaEntry) : UInt64 := entry.length <<< 4 ||| (entry.code &&& 0x0f).toUInt64

def message (entry : MetaEntry) : String :=
  toString entry.spec.toNat ++ " (length = " ++ toString entry.length.toNat ++ ", type = " ++
    toString entry.code.toNat ++ ")"

end MetaEntry

inductive Value where
  | null
  | boolean (value : Bool)
  | unsigned (value : UInt64)
  | signed (value : Int64)
  /-- A double-precision number, as its 64 bits. -/
  | float (bits : UInt64)
  | string (value : String)
  | bytes (value : Bytes)
  | counter (value : Int64)
  /-- Milliseconds from the start of 1970. -/
  | timestamp (milliseconds : Int64)
  /-- A value whose type has no meaning. -/
  | unknown (code : UInt8)
  /-- A value with too few bytes to be decoded at all. -/
  | truncated (kind : ValueKind)
  deriving DecidableEq, Repr

namespace Value

/-- The eight bytes of a word, the low one first. -/
def wordBytes (word : UInt64) : Bytes :=
  [ word.toUInt8, (word >>> 8).toUInt8, (word >>> 16).toUInt8, (word >>> 24).toUInt8,
    (word >>> 32).toUInt8, (word >>> 40).toUInt8, (word >>> 48).toUInt8, (word >>> 56).toUInt8 ]

def wordOf (input : Bytes) : UInt64 :=
  input.foldr (fun byte above => byte.toUInt64 ||| above <<< 8) 0

/-- The kind and the bytes of a value, if it has an encoding. -/
def encoding? : Value → Option (ValueKind × Bytes)
  | .null => some (.null, [])
  | .boolean false => some (.booleanFalse, [])
  | .boolean true => some (.booleanTrue, [])
  | .unsigned value => some (.unsigned, Varint.encodeUnsigned value)
  | .signed value => some (.signed, Varint.encodeSigned value)
  | .float bits => some (.float, wordBytes bits)
  | .string value => some (.string, Utf8.encode value)
  | .bytes value => some (.bytes, value)
  | .counter value => some (.counter, Varint.encodeSigned value)
  | .timestamp milliseconds => some (.timestamp, Varint.encodeSigned milliseconds)
  | .unknown _ => none
  | .truncated _ => none

/-- The entry that describes a value, and its bytes. -/
def encode? (value : Value) : Option (MetaEntry × Bytes) :=
  value.encoding?.map fun (kind, encoded) =>
    (MetaEntry.ofKind kind (UInt64.ofNat encoded.length), encoded)

def message : Value → String
  | .null => "null"
  | .boolean value => if value then "true" else "false"
  | .unsigned value => "uint " ++ toString value.toNat
  | .signed value => "int " ++ toString value.toInt
  | .float bits => "float " ++ Binary64.text bits
  | .string value => "string " ++ Text.quote value
  | .bytes value => "bytes " ++ decimalList value
  | .counter value => "counter " ++ toString value.toInt
  | .timestamp milliseconds => "time = " ++ Timestamp.text milliseconds
  | .unknown code => "unknown value type " ++ toString code.toNat
  | .truncated kind => "truncated value (type = " ++ toString kind.code.toNat ++ ")"

/-- What is wrong when a value accounts for another number of bytes than its entry declares. -/
def lengthProblems (accounted : Nat) (entry : MetaEntry) : List Diagnostic :=
  if accounted = entry.length.toNat then []
  else [.error (.valueLengthMismatch accounted entry.length)]

def ofUnsigned (input : Bytes) (entry : MetaEntry) : Value × List Diagnostic :=
  let scan := Varint.scanUnsigned input
  (.unsigned scan.value,
    Diagnostic.ofFault (some "uleb") scan.fault ++ lengthProblems scan.bytes.length entry)

def ofSigned (build : Int64 → Value) (input : Bytes) (entry : MetaEntry) :
    Value × List Diagnostic :=
  let scan := Varint.scanSigned input
  (build scan.value,
    Diagnostic.ofFault (some "sleb") scan.fault ++ lengthProblems scan.bytes.length entry)

/-- The first eight bytes count, whatever length the entry declares. -/
def ofFloat (input : Bytes) (entry : MetaEntry) : Value × List Diagnostic :=
  (match cut 8 input with
    | some (word, _) => .float (wordOf word)
    | none => .truncated .float,
    lengthProblems 8 entry)

/-- Decodes the bytes that an entry describes, which can be fewer than it declares. -/
def decode (input : Bytes) (entry : MetaEntry) : Value × List Diagnostic :=
  match entry.kind? with
  | none => (.unknown entry.code, [.error (.unknownValueType entry.code)])
  | some .null => (.null, lengthProblems 0 entry)
  | some .booleanFalse => (.boolean false, lengthProblems 0 entry)
  | some .booleanTrue => (.boolean true, lengthProblems 0 entry)
  | some .unsigned => ofUnsigned input entry
  | some .signed => ofSigned .signed input entry
  | some .counter => ofSigned .counter input entry
  | some .timestamp => ofSigned .timestamp input entry
  | some .float => ofFloat input entry
  | some .string => (.string (Utf8.decodeLossy input), textProblems input)
  | some .bytes => (.bytes input, [])

end Value

/-- The values of a column, and the bytes that no entry describes. -/
structure DecodedValues where
  values : List (Field Value)
  extra : Bytes
  deriving DecidableEq, Repr

namespace DecodedValues

instance : Spans DecodedValues :=
  ⟨fun decoded => spanned decoded.values ++ decoded.extra⟩

/-- The field of one value, given the stretch of bytes its entry declares. -/
def field (entry : MetaEntry) (found : Window) : Field Value :=
  let short := match found.short with
    | none => []
    | some available => [Diagnostic.error (.notEnoughBytes entry.length available)]
  let decoded := Value.decode found.bytes entry
  ⟨found.bytes, decoded.1, short ++ decoded.2⟩

/-- Decodes values after those in `done`, which are kept last one first. A value that the input is
too short for ends the walk. -/
def decodeOnto (done : List (Field Value)) : List MetaEntry → Bytes → DecodedValues
  | [], input => ⟨done.reverse, input⟩
  | entry :: later, input =>
      let found := window entry.length input
      match found.short with
      | none => decodeOnto (field entry found :: done) later found.rest
      | some _ =>
          let last := (field entry found).add
            (Diagnostic.missing (UInt64.ofNat later.length) 0)
          ⟨(last :: done).reverse, found.rest⟩

/-- Decodes a value column against the entries that describe it. -/
def decode (entries : List MetaEntry) (input : Bytes) : DecodedValues :=
  decodeOnto [] entries input

theorem decode_onto_eq (done : List (Field Value)) (entries : List MetaEntry) (input : Bytes) :
    decodeOnto done entries input =
      ⟨done.reverse ++ (decode entries input).values, (decode entries input).extra⟩ := by
  suffices general : ∀ more, decodeOnto (more ++ done) entries input =
      ⟨done.reverse ++ (decodeOnto more entries input).values,
        (decodeOnto more entries input).extra⟩ from general []
  intro more
  induction entries generalizing more input with
  | nil => simp [decodeOnto]
  | cons entry later ih =>
      simp only [decodeOnto]
      split
      · exact ih _ (_ :: more)
      · simp

theorem bytes_decode (entries : List MetaEntry) (input : Bytes) :
    bytes (decode entries input) = input := by
  induction entries generalizing input with
  | nil => rfl
  | cons entry later ih =>
      have cutting := window_append entry.length input
      simp only [decode, decodeOnto]
      split
      · rw [decode_onto_eq]
        have inner := ih (window entry.length input).rest
        simp only [Spans.bytes, spanned_append] at inner ⊢
        rw [List.append_assoc, inner]
        simpa [field] using cutting
      · simpa [Spans.bytes, field] using cutting

end DecodedValues

end Chunkscope
