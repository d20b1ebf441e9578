import Chunkscope.Listing.Annotate

/-!
Contracts that hold for arbitrary bytes, as tests on one input each: no listing loses a byte,
whatever scans without a fault is the shortest encoding of its value, the pieces of a stream tile
it, decoded bodies cover their bytes, and compression can be undone.
-/

namespace Chunkscope.Contract

/-- The listing accounts for every byte. -/
def listing (suite : Suite) (limit : Nat) (input : Bytes) : Bool :=
  (annotate suite ⟨limit, false⟩ input).reassemble == input

/-- An integer without a fault is encoded by the bytes it was scanned from. -/
def varints (input : Bytes) : Bool :=
  let unsigned := Varint.scanUnsigned input
  let signed := Varint.scanSigned input
  (unsigned.fault.isSome || Varint.encodeUnsigned unsigned.value == unsigned.bytes) &&
    (signed.fault.isSome || Varint.encodeSigned signed.value == signed.bytes)

/-- The pieces of the stream are as long together as the stream. -/
def stream (suite : Suite) (input : Bytes) : Bool :=
  (spanned (splitStream suite input)).length == input.length

/-- Decoded as a document and as a change, the bytes are covered. -/
def bodies (input : Bytes) : Bool :=
  bytes (Document.decode (.new Context.defaultLimit) input).1 == input &&
    bytes (Change.decode (.new Context.defaultLimit) input).1 == input

/-- A chunk that can be compressed comes back from it unchanged. -/
def compression (suite : Suite) (input : Bytes) : Bool :=
  match Chunk.compress suite input with
  | .error _ => true
  | .ok compressed =>
      match Chunk.decompress suite compressed with
      | .error _ => false
      | .ok restored => restored == input

end Chunkscope.Contract
