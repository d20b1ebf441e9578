import Chunkscope.Bytes

/-!
Variable-length integers in groups of seven bits, the low group first. Every byte but the last
one has its top bit set; a signed integer is extended by bit 6 of its last byte.

Scanning never fails: it always says how many bytes the integer spans, and beside the value it
names what is wrong with the sequence. Reading is the strict form of it.
-/

namespace Chunkscope.Varint

/-- The ways a sequence of groups can be malformed. -/
inductive Fault where
  /-- The input ends before a byte without the continuation bit. -/
  | truncated
  /-- The last group could have been left out. -/
  | overlong
  /-- The integer does not fit in 64 bits. -/
  | overflow
  deriving DecidableEq, Repr

def Fault.message : Fault → String
  | .truncated => "failed to find end of LEB"
  | .overlong => "overly long LEB"
  | .overflow => "LEB > 64-bit"

/-- What a scan found: the value, the bytes it spans, the input after them, and any fault. -/
structure Scan (Value : Type) where
  value : Value
  bytes : Bytes
  rest : Bytes
  fault : Option Fault
  deriving DecidableEq, Repr

instance {Value : Type} : Spans (Scan Value) := ⟨Scan.bytes⟩

/-- The strict form of a scan: a value and the rest of the input, or the fault. -/
def Scan.result {Value : Type} (scan : Scan Value) : Except Fault (Value × Bytes) :=
  match scan.fault with
  | some fault => .error fault
  | none => .ok (scan.value, scan.rest)

def continues (byte : UInt8) : Bool := byte &&& 0x80 != 0

def hasSign (byte : UInt8) : Bool := byte &&& 0x40 != 0

/-- The bytes with a continuation bit, the byte that ends them and the rest; nothing when no byte
ends them. -/
def split (input : Bytes) : Option (Bytes × UInt8 × Bytes) :=
  match input.dropWhile continues with
  | [] => none
  | last :: rest => some (input.takeWhile continues, last, rest)

theorem split_append {input leading rest : Bytes} {last : UInt8}
    (found : split input = some (leading, last, rest)) : leading ++ last :: rest = input := by
  simp only [split] at found
  split at found
  · cases found
  · next remaining =>
      cases found
      rw [← remaining]
      exact List.takeWhile_append_dropWhile

/-- The groups of seven bits put together above `high`, keeping the low 64 bits. -/
def join (high : UInt64) (groups : Bytes) : UInt64 :=
  groups.foldr (fun byte above => (byte &&& 0x7f).toUInt64 ||| above <<< 7) high

def scanWith {Value : Type} (zero : Value) (value : Bytes → UInt8 → Value)
    (fault : Bytes → UInt8 → Option Fault) (input : Bytes) : Scan Value :=
  match split input with
  | none => { value := zero, bytes := input, rest := [], fault := some .truncated }
  | some (leading, last, rest) =>
      { value := value leading last, bytes := leading ++ [last], rest,
        fault := fault leading last }

theorem scan_with_append {Value : Type} (zero : Value) (value : Bytes → UInt8 → Value)
    (fault : Bytes → UInt8 → Option Fault) (input : Bytes) :
    (scanWith zero value fault input).bytes ++ (scanWith zero value fault input).rest = input := by
  simp only [scanWith]
  split
  · simp
  · next found => simpa using split_append found

theorem length_scan_with_rest {Value : Type} (zero : Value) (value : Bytes → UInt8 → Value)
    (fault : Bytes → UInt8 → Option Fault) (byte : UInt8) (input : Bytes) :
    (scanWith zero value fault (byte :: input)).rest.length ≤ input.length := by
  simp only [scanWith]
  split
  · simp
  · next leading last rest found =>
      have size := congrArg List.length (split_append found)
      simp only [List.length_append, List.length_cons] at size ⊢
      omega

/-- Ten groups hold 64 bits, the tenth only one of them; a final zero group adds nothing. -/
def unsignedFault (leading : Bytes) (last : UInt8) : Option Fault :=
  if last = 0 ∧ leading ≠ [] then some .overlong
  else if 9 < leading.length ∨ (leading.length = 9 ∧ last &&& 0x7e ≠ 0) then some .overflow
  else none

/-- The tenth group must repeat the sign in all its bits; a final group that only repeats the
sign of the group before it adds nothing. -/
def signedFault (leading : Bytes) (last : UInt8) : Option Fault :=
  let repeatsSign := match leading.getLast? with
    | none => false
    | some previous => if hasSign previous then last = 0x7f else last = 0
  if repeatsSign then some .overlong
  else if 9 < leading.length ∨
      (leading.length = 9 ∧ last &&& 0x7f ≠ 0 ∧ last &&& 0x7f ≠ 0x7f) then some .overflow
  else none

def scanUnsigned (input : Bytes) : Scan UInt64 :=
  scanWith 0 (fun leading last => join 0 (leading ++ [last])) unsignedFault input

def scanSigned (input : Bytes) : Scan Int64 :=
  scanWith 0
    (fun leading last =>
      (join (if hasSign last then 0xffffffffffffffff else 0) (leading ++ [last])).toInt64)
    signedFault input

def readUnsigned (input : Bytes) : Except Fault (UInt64 × Bytes) := (scanUnsigned input).result

def readSigned (input : Bytes) : Except Fault (Int64 × Bytes) := (scanSigned input).result

theorem scan_unsigned_append (input : Bytes) :
    (scanUnsigned input).bytes ++ (scanUnsigned input).rest = input :=
  scan_with_append _ _ _ input

theorem scan_signed_append (input : Bytes) :
    (scanSigned input).bytes ++ (scanSigned input).rest = input :=
  scan_with_append _ _ _ input

theorem length_scan_unsigned_rest (byte : UInt8) (input : Bytes) :
    (scanUnsigned (byte :: input)).rest.length ≤ input.length :=
  length_scan_with_rest _ _ _ byte input

theorem length_scan_signed_rest (byte : UInt8) (input : Bytes) :
    (scanSigned (byte :: input)).rest.length ≤ input.length :=
  length_scan_with_rest _ _ _ byte input

/-- Scanning an input that is not empty takes at least one byte off it. -/
theorem scan_with_bytes_ne_nil {Value : Type} (zero : Value) (value : Bytes → UInt8 → Value)
    (fault : Bytes → UInt8 → Option Fault) {input : Bytes} (nonempty : input ≠ []) :
    (scanWith zero value fault input).bytes ≠ [] := by
  obtain ⟨byte, rest, rfl⟩ := List.exists_cons_of_ne_nil nonempty
  intro none
  have covered := congrArg List.length (scan_with_append zero value fault (byte :: rest))
  have advanced := length_scan_with_rest zero value fault byte rest
  simp only [none, List.nil_append, List.length_cons] at covered
  omega

theorem scan_bytes_ne_nil {input : Bytes} (nonempty : input ≠ []) :
    (scanUnsigned input).bytes ≠ [] :=
  scan_with_bytes_ne_nil _ _ _ nonempty

theorem scan_signed_bytes_ne_nil {input : Bytes} (nonempty : input ≠ []) :
    (scanSigned input).bytes ≠ [] :=
  scan_with_bytes_ne_nil _ _ _ nonempty

end Chunkscope.Varint
