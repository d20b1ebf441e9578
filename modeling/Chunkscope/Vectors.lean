import Chunkscope.Text.Json

/-!
Test vectors for readers and writers of the format: encoded bytes with what they decode to, or
with the error that they must lead to.
-/

namespace Chunkscope

structure TestVector where
  id : String
  description : String
  /-- The encoded bytes in hexadecimal digits. -/
  input : String
  expected : String
  expectedError : Option String
  deriving DecidableEq, Repr

namespace TestVector

def decodes (id description input expected : String) : TestVector :=
  ⟨id, description, input, expected, none⟩

def fails (id description input error : String) : TestVector :=
  ⟨id, description, input, "", some error⟩

def unsigned : List TestVector :=
  [ decodes "uleb_0" "zero" "00" "0",
    decodes "uleb_127" "largest 1-byte" "7f" "127",
    decodes "uleb_128" "smallest 2-byte" "8001" "128",
    decodes "uleb_300" "300" "ac02" "300",
    decodes "uleb_max" "u64::MAX" "ffffffffffffffffff01" "18446744073709551615",
    fails "uleb_truncated" "continuation at end" "80" "failed to find end of LEB",
    fails "uleb_overlong" "trailing zero group" "8000" "overly long LEB",
    fails "uleb_overflow" "tenth group above 1" "ffffffffffffffffff02" "LEB > 64-bit" ]

def signed : List TestVector :=
  [ decodes "sleb_neg1" "minus one" "7f" "-1",
    decodes "sleb_63" "largest positive 1-byte" "3f" "63",
    decodes "sleb_64" "smallest positive 2-byte" "c000" "64",
    decodes "sleb_neg64" "smallest negative 1-byte" "40" "-64",
    decodes "sleb_neg65" "largest negative 2-byte" "bf7f" "-65",
    fails "sleb_overlong" "redundant sign group" "ff7f" "overly long LEB",
    fails "sleb_truncated" "continuation at end" "ff" "failed to find end of LEB" ]

/-- Whole chunks; what they decode to is the outcome of comparing their checksum. -/
def chunks : List TestVector :=
  [ decodes "chunk_empty_document" "document with no body" "856f4a8396a296d20000" "valid",
    decodes "chunk_bare_document" "document with zero counts" "856f4a83b81a9544000400000000"
      "valid",
    decodes "chunk_minimal_change" "change with no ops" "856f4a83bf4a61e601090001aa010100000000"
      "valid",
    decodes "chunk_bad_checksum" "zeroed checksum" "856f4a83000000000000" "mismatch 96a296d2",
    decodes "chunk_compressed" "compressed checksums are not validated"
      "856f4a830000000002020300" "not validated",
    fails "chunk_invalid_magic" "magic bytes zeroed" "0000000096a296d20000"
      "not a valid chunk (invalid magic bytes)",
    fails "chunk_truncated" "declared length beyond input" "856f4a8396a296d2000500"
      "not a valid chunk (declared length 5 exceeds 1 available bytes)",
    fails "chunk_unknown_type" "type byte 7" "856f4a8396a296d20700"
      "not a valid chunk (unknown type 7)" ]

/-- Run-length columns; what they decode to is the list of their values. -/
def runs : List TestVector :=
  [ decodes "uint_repeat" "one repeat run" "0305" "5,5,5",
    decodes "uint_literals" "two literals" "7e0102" "1,2",
    decodes "uint_nulls" "null run" "0002" "null,null",
    decodes "uint_mixed" "repeat, null, literal" "02070001 7f09" "7,7,null,9",
    decodes "delta_literals" "two literal deltas" "7e0502" "5,7",
    decodes "delta_repeat" "repeated step" "0302" "2,4,6",
    decodes "delta_negative" "decreasing run" "7e0a7d" "10,7",
    decodes "bool_runs" "false then true" "0302" "false,false,false,true,true",
    decodes "bool_leading_true" "empty false run" "0002" "true,true" ]

def json (vector : TestVector) : Json :=
  .object
    [ ("id", .text vector.id),
      ("description", .text vector.description),
      ("input_hex", .text vector.input),
      ("expected", .text vector.expected),
      ("expected_error",
        match vector.expectedError with
        | none => .null
        | some error => .text error) ]

/-- All vectors, for use with other readers and writers. -/
def document : Json :=
  .object
    [ ("uleb", .list (unsigned.map json)),
      ("sleb", .list (signed.map json)),
      ("chunk", .list (chunks.map json)),
      ("rle", .list (runs.map json)) ]

end TestVector

end Chunkscope
