import Chunkscope.Field

/-!
The tables at the front of a body: ids of actors behind their lengths, and hashes of changes.
-/

namespace Chunkscope

/-- The id of an actor behind its length; everything that is left when that is less than
declared. -/
structure Actor where
  length : Field UInt64
  id : Field Bytes
  deriving DecidableEq, Repr

namespace Actor

instance : Spans Actor := ⟨fun actor => actor.length.bytes ++ actor.id.bytes⟩

def reader : Reader Actor where
  read input :=
    let length := Reader.unsigned none input
    let id := window length.1.value length.2
    let problems := match id.short with
      | none => []
      | some _ => [Diagnostic.error .actorIdTooLong]
    (⟨length.1, ⟨id.bytes, id.bytes, problems⟩⟩, id.rest)
  covers input := by
    have whole := (Reader.unsigned none).covers input
    simp only [Spans.bytes, List.append_assoc, window_append]
    exact whole

def encode (id : Bytes) : Bytes := Varint.encodeLength id ++ id

end Actor

structure ActorTable where
  count : Field UInt64
  actors : List Actor
  deriving DecidableEq, Repr

namespace ActorTable

instance : Spans ActorTable := ⟨fun table => table.count.bytes ++ spanned table.actors⟩

/-- No actors and no bytes. -/
def empty : ActorTable := ⟨.clean [] 0, []⟩

/-- Reads the number of actors and their ids, fewer when the input ends before. -/
def reader : Reader ActorTable where
  read input :=
    let count := Reader.unsigned none input
    let actors := Actor.reader.upTo count.1.value.toNat count.2
    (⟨count.1.add (Diagnostic.missing count.1.value actors.1.length), actors.1⟩, actors.2)
  covers input := by
    have whole := (Reader.unsigned none).covers input
    have actors := Actor.reader.spanned_up_to (Reader.unsigned none input).1.value.toNat
      (Reader.unsigned none input).2
    simp only [Spans.bytes, Field.bytes_add, List.append_assoc]
    rw [actors]
    exact whole

def encode (ids : List Bytes) : Bytes :=
  Varint.encodeUnsigned (UInt64.ofNat ids.length) ++ ids.flatMap Actor.encode

end ActorTable

/-- The hash of a change. -/
structure ChangeHash where
  bytes : Bytes
  length_eq : bytes.length = 32
  deriving DecidableEq, Repr

/-- The number of bytes in a hash. -/
def ChangeHash.size : Nat := 32

/-- Hashes behind their number. The list ends with a head that has no hash when the input does not
hold them all: one without bytes, or one with the bytes that are too few. -/
structure Heads where
  count : Field UInt64
  hashes : List (Field (Option ChangeHash))
  deriving DecidableEq, Repr

namespace Heads

instance : Spans Heads := ⟨fun heads => heads.count.bytes ++ spanned heads.hashes⟩

/-- No heads and no bytes. -/
def empty : Heads := ⟨.clean [] 0, []⟩

/-- Reads hashes after those in `done`, which are kept last one first. -/
def readOnto (done : List (Field (Option ChangeHash))) :
    Nat → Bytes → List (Field (Option ChangeHash)) × Bytes
  | 0, input => (done.reverse, input)
  | count + 1, input =>
      if input = [] then ((⟨[], none, [.error .missingHead]⟩ :: done).reverse, [])
      else if complete : (input.take ChangeHash.size).length = ChangeHash.size then
        readOnto
          (.clean (input.take ChangeHash.size) (some ⟨input.take ChangeHash.size, complete⟩) :: done)
          count (input.drop ChangeHash.size)
      else ((⟨input, none, [.error .incompleteHead]⟩ :: done).reverse, [])

theorem read_onto_append (done : List (Field (Option ChangeHash))) (count : Nat) (input : Bytes) :
    spanned (readOnto done count input).1 ++ (readOnto done count input).2 =
      spanned done.reverse ++ input := by
  fun_induction readOnto done count input with
  | case1 done input => rfl
  | case2 done count => simp
  | case3 done count input nonempty complete ih =>
      rw [ih]
      simp only [List.reverse_cons, spanned_append, spanned_cons, spanned_nil, List.append_nil,
        Field.bytes_eq, Field.clean, List.append_assoc, List.take_append_drop]
  | case4 done count input nonempty incomplete => simp

def reader : Reader Heads where
  read input :=
    let count := Reader.unsigned none input
    let hashes := readOnto [] count.1.value.toNat count.2
    (⟨count.1, hashes.1⟩, hashes.2)
  covers input := by
    have whole := (Reader.unsigned none).covers input
    have hashes := read_onto_append [] (Reader.unsigned none input).1.value.toNat
      (Reader.unsigned none input).2
    simp only [Spans.bytes, List.append_assoc]
    rw [hashes]
    exact whole

/-- The hashes that are complete, in order. -/
def complete (heads : Heads) : List ChangeHash := heads.hashes.filterMap Field.value

def encode (hashes : List ChangeHash) : Bytes :=
  Varint.encodeUnsigned (UInt64.ofNat hashes.length) ++ hashes.flatMap ChangeHash.bytes

end Heads

/-- The bytes after the last part of a body. They are only worth a warning, for the parts before
them could be decoded. -/
def trailingField (input : Bytes) : Field Unit :=
  ⟨input, (), if input = [] then [] else [.warning (.trailingData input.length)]⟩

end Chunkscope
