import Chunkscope.Body.Tables
import Chunkscope.Proofs.Field.ReadBack

/-!
# Tables as they were written

Actors are read back behind their lengths, and hashes of heads by their size alone. Both tables know
how many entries they have, so what follows them is left.
-/

namespace Chunkscope

namespace Actor

def written (id : Bytes) : Actor where
  length := .clean (Varint.encodeLength id) (UInt64.ofNat id.length)
  id := .clean id id

theorem encode_ne_nil (id : Bytes) : encode id ≠ [] :=
  List.append_ne_nil_of_left_ne_nil (Varint.encode_unsigned_ne_nil _) _

theorem read_encoded {id : Bytes} (fits : id.length < 2 ^ 64) (rest : Bytes) :
    reader (encode id ++ rest) = (written id, rest) := by
  unfold encode
  rw [List.append_assoc]
  simp only [reader, Varint.encodeLength, unsigned_field_encode, Field.clean,
    window_append_exact fits]
  rfl

/-- An actor without faults spans what its id is written as. -/
theorem encode_of_sound {input : Bytes} (length : (reader input).1.length.diagnostics = [])
    (id : (reader input).1.id.diagnostics = []) :
    bytes (reader input).1 = encode (reader input).1.id.value := by
  have header := unsigned_field_sound length
  have whole : (window (Reader.unsigned none input).1.value
      (Reader.unsigned none input).2).short = none := by
    simp only [reader] at id
    split at id
    · assumption
    · cases id
  have size := length_of_whole_window whole
  simp only [Spans.bytes, reader, encode, Varint.encodeLength, size, UInt64.ofNat_toNat, header]

end Actor

namespace ActorTable

def written (ids : List Bytes) : ActorTable where
  count := .clean (Varint.encodeUnsigned (UInt64.ofNat ids.length)) (UInt64.ofNat ids.length)
  actors := ids.map Actor.written

theorem read_encoded {ids : List Bytes} (few : ids.length < 2 ^ 64)
    (fits : ∀ id ∈ ids, id.length < 2 ^ 64) (rest : Bytes) :
    reader (encode ids ++ rest) = (written ids, rest) := by
  obtain ⟨each, complete⟩ := Actor.reader.counted_written few
    (fun id _ => Actor.encode_ne_nil id) (fun id member => Actor.read_encoded (fits id member)) rest
  unfold encode
  rw [List.append_assoc]
  simp only [reader, unsigned_field_encode, Field.clean, each, complete]
  rfl

/-- The ids of the actors that were found. -/
def ids (table : ActorTable) : List Bytes := table.actors.map fun actor => actor.id.value

theorem encode_of_sound {input : Bytes} (count : (reader input).1.count.diagnostics = [])
    (actors : ∀ actor ∈ (reader input).1.actors,
      actor.length.diagnostics = [] ∧ actor.id.diagnostics = []) :
    bytes (reader input).1 = encode (reader input).1.ids := by
  obtain ⟨faultless, complete⟩ := List.append_eq_nil_iff.mp count
  have header := unsigned_field_sound faultless
  have number := Actor.reader.declared_of_counted complete
  have each := Actor.reader.spanned_counted (fun actor => Actor.encode actor.id.value)
    (fun input sound => Actor.encode_of_sound sound.1 sound.2) actors
  simp only [Spans.bytes, reader, encode, ids, Field.bytes_add, List.length_map, List.flatMap_map]
  rw [number, header, each]

theorem lengths_le (ids : List Bytes) :
    ids.length ≤ (encode ids).length ∧ ∀ id ∈ ids, id.length ≤ (encode ids).length := by
  have whole : (ids.flatMap Actor.encode).length ≤ (encode ids).length := by
    rw [encode, List.length_append]
    omega
  refine ⟨Nat.le_trans (length_le_length_flat_map fun id _ => Actor.encode_ne_nil id) whole, ?_⟩
  intro id member
  have part := length_le_of_mem_flat_map Actor.encode member
  have inner : id.length ≤ (Actor.encode id).length := by
    rw [Actor.encode, List.length_append]
    omega
  omega

end ActorTable

namespace Heads

def written (hashes : List ChangeHash) : Heads where
  count := .clean (Varint.encodeUnsigned (UInt64.ofNat hashes.length)) (UInt64.ofNat hashes.length)
  hashes := hashes.map fun hash => .clean hash.bytes (some hash)

theorem bytes_ne_nil (hash : ChangeHash) : hash.bytes ≠ [] := by
  intro empty
  have size := hash.length_eq
  rw [empty] at size
  cases size

theorem read_onto_written (done : List (Field (Option ChangeHash))) (hashes : List ChangeHash)
    (rest : Bytes) :
    readOnto done hashes.length (hashes.flatMap ChangeHash.bytes ++ rest) =
      (done.reverse ++ (written hashes).hashes, rest) := by
  induction hashes generalizing done with
  | nil => exact Prod.ext (List.append_nil _).symm rfl
  | cons hash hashes induction =>
      have nonempty : hash.bytes ++ (hashes.flatMap ChangeHash.bytes ++ rest) ≠ [] :=
        List.append_ne_nil_of_left_ne_nil (bytes_ne_nil hash) _
      have front : (hash.bytes ++ (hashes.flatMap ChangeHash.bytes ++ rest)).take ChangeHash.size =
          hash.bytes := List.take_left' hash.length_eq
      have behind : (hash.bytes ++ (hashes.flatMap ChangeHash.bytes ++ rest)).drop ChangeHash.size =
          hashes.flatMap ChangeHash.bytes ++ rest := List.drop_left' hash.length_eq
      have complete : ((hash.bytes ++ (hashes.flatMap ChangeHash.bytes ++ rest)).take
          ChangeHash.size).length = ChangeHash.size := by
        rw [front]
        exact hash.length_eq
      rw [List.length_cons, List.flatMap_cons, List.append_assoc, readOnto, if_neg nonempty,
        dif_pos complete, behind, induction, List.reverse_cons, List.append_assoc]
      simp only [front]
      rfl

theorem read_encoded {hashes : List ChangeHash} (few : hashes.length < 2 ^ 64) (rest : Bytes) :
    reader (encode hashes ++ rest) = (written hashes, rest) := by
  have counted : (UInt64.ofNat hashes.length).toNat = hashes.length :=
    UInt64.toNat_ofNat_of_lt' few
  have each := read_onto_written [] hashes rest
  unfold encode
  rw [List.append_assoc]
  simp only [reader, unsigned_field_encode, Field.clean, counted, each]
  rfl

theorem complete_written (hashes : List ChangeHash) : (written hashes).complete = hashes := by
  unfold complete written
  rw [List.filterMap_map]
  exact List.filterMap_some

theorem spanned_written (hashes : List ChangeHash) :
    spanned (written hashes).hashes = hashes.flatMap ChangeHash.bytes :=
  List.flatMap_map ..

/-- A head without a hash, which tells that bytes for one were missing. -/
inductive Marks : Field (Option ChangeHash) → Prop where
  | missing : Marks ⟨[], none, [.error .missingHead]⟩
  | incomplete {left : Bytes} (nonempty : left ≠ []) (short : left.length < ChangeHash.size) :
      Marks ⟨left, none, [.error .incompleteHead]⟩

/-- Hashes are read until there are as many as asked for, or up to a marker at the end of the
input. -/
theorem read_onto_cases (done : List (Field (Option ChangeHash))) (count : Nat) (input : Bytes) :
    ∃ hashes : List ChangeHash,
      (hashes.length = count ∧
        (readOnto done count input).1 = done.reverse ++ (written hashes).hashes) ∨
      (hashes.length < count ∧ (readOnto done count input).2 = [] ∧ ∃ last, Marks last ∧
        (readOnto done count input).1 = done.reverse ++ ((written hashes).hashes ++ [last])) := by
  fun_induction readOnto done count input with
  | case1 done input => exact ⟨[], .inl ⟨rfl, (List.append_nil _).symm⟩⟩
  | case2 done count =>
      exact ⟨[], .inr ⟨Nat.zero_lt_succ count, rfl, _, .missing, List.reverse_cons⟩⟩
  | case3 done count input nonempty complete induction =>
      obtain ⟨hashes, ⟨number, found⟩ | ⟨fewer, ended, last, marks, found⟩⟩ := induction
      · refine ⟨⟨_, complete⟩ :: hashes, .inl ⟨congrArg Nat.succ number, ?_⟩⟩
        rw [found, List.reverse_cons, List.append_assoc]
        rfl
      · refine ⟨⟨_, complete⟩ :: hashes, .inr ⟨Nat.succ_lt_succ fewer, ended, last, marks, ?_⟩⟩
        rw [found, List.reverse_cons, List.append_assoc]
        rfl
  | case4 done count input nonempty incomplete =>
      have short : input.length < ChangeHash.size := by
        rw [List.length_take] at incomplete
        omega
      exact ⟨[], .inr ⟨Nat.zero_lt_succ count, rfl, _, .incomplete nonempty short,
        List.reverse_cons⟩⟩

/-- Hashes without faults are as many as were asked for, and all complete. -/
theorem read_onto_sound {done : List (Field (Option ChangeHash))} {count : Nat} {input : Bytes}
    (sound : ∀ head ∈ (readOnto done count input).1, head.diagnostics = []) :
    ∃ hashes : List ChangeHash, hashes.length = count ∧
      (readOnto done count input).1 = done.reverse ++ (written hashes).hashes := by
  obtain ⟨hashes, ⟨number, found⟩ | ⟨-, -, last, marks, found⟩⟩ := read_onto_cases done count input
  · exact ⟨hashes, number, found⟩
  · have clean : last.diagnostics = [] := by
      apply sound
      rw [found]
      simp
    cases marks with
    | missing => cases clean
    | incomplete => cases clean

theorem encode_of_sound {input : Bytes} (count : (reader input).1.count.diagnostics = [])
    (hashes : ∀ head ∈ (reader input).1.hashes, head.diagnostics = []) :
    bytes (reader input).1 = encode (reader input).1.complete := by
  have header := unsigned_field_sound count
  obtain ⟨found, number, read⟩ := read_onto_sound hashes
  have same : (reader input).1.hashes = (written found).hashes := read
  have complete : (reader input).1.complete = found := by
    rw [Heads.complete, same]
    exact complete_written found
  have declared : UInt64.ofNat found.length = (Reader.unsigned none input).1.value := by
    rw [number, UInt64.ofNat_toNat]
  rw [complete, encode, declared, ← header, ← spanned_written, ← same]
  rfl

theorem length_le (hashes : List ChangeHash) : hashes.length ≤ (encode hashes).length := by
  have counted := length_le_length_flat_map fun hash (_ : hash ∈ hashes) => bytes_ne_nil hash
  rw [encode, List.length_append]
  omega

end Heads

end Chunkscope
