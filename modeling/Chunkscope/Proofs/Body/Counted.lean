import Chunkscope.Column.Spec
import Chunkscope.Proofs.Body.Tables

/-!
# Tables never go on past the input

Descriptors, actors and hashes stand behind a number that nobody vouches for. Each table has as many
entries as are declared, unless the input ends before; then it is told once how many are missing, or
a single head without a hash stands for what was left. In no case are there more entries than bytes.
-/

namespace Chunkscope

section Counted

variable {Piece : Type} [Spans Piece]

/-- A number, the pieces behind it and the rest of the input. There are as many pieces as the number
says, or the input has ended and the field of the number tells how many are missing. -/
structure CountedTable (count : Field UInt64) (pieces : List Piece) (input rest : Bytes) :
    Prop where
  covers : count.bytes ++ spanned pieces ++ rest = input
  few : pieces.length ≤ input.length
  tallied :
    (pieces.length = count.value.toNat ∧ count = (Reader.unsigned none input).1) ∨
      (pieces.length < count.value.toNat ∧ rest = [] ∧
        count = (Reader.unsigned none input).1.add
          [.error (.missingItems (UInt64.ofNat (count.value.toNat - pieces.length)))])

theorem Reader.counted_table (reader : Reader Piece)
    (advances : ∀ input, input ≠ [] → bytes (reader input).1 ≠ []) (input : Bytes) :
    let count := Reader.unsigned none input
    let pieces := reader.upTo count.1.value.toNat count.2
    CountedTable (count.1.add (Diagnostic.missing count.1.value pieces.1.length)) pieces.1 input
      pieces.2 := by
  intro count pieces
  have whole : count.1.bytes ++ spanned pieces.1 ++ pieces.2 = input := by
    rw [List.append_assoc, reader.spanned_up_to]
    exact (Reader.unsigned none).covers input
  have few : pieces.1.length ≤ (spanned pieces.1).length :=
    length_take_up_to_le_spanned _ (fun _ input => advances input) _ () _
  constructor
  case covers => exact whole
  case few =>
    rw [← whole, List.length_append, List.length_append]
    omega
  case tallied =>
    -- Reading stops before the declared number only where nothing is left.
    by_cases fewer : pieces.1.length < count.1.value.toNat
    · have ended : pieces.2 = [] := by
        by_contra left
        exact Nat.ne_of_lt fewer (length_take_up_to_of_left _ () count.2 left)
      rw [missing_of_fewer fewer]
      exact .inr ⟨fewer, ended, rfl⟩
    · have all : pieces.1.length = count.1.value.toNat := by
        have bounded : pieces.1.length ≤ count.1.value.toNat := length_take_up_to_le _ _ () _
        omega
      have none_missing : Diagnostic.missing count.1.value pieces.1.length = [] := by
        rw [all, missing_of_all]
      rw [none_missing, Field.add_nil]
      exact .inl ⟨all, rfl⟩

end Counted

theorem column_bytes_ne_nil {input : Bytes} (nonempty : input ≠ []) :
    bytes (Column.reader input).1 ≠ [] :=
  List.append_ne_nil_of_left_ne_nil (Varint.scan_bytes_ne_nil nonempty) _

theorem actor_bytes_ne_nil {input : Bytes} (nonempty : input ≠ []) :
    bytes (Actor.reader input).1 ≠ [] :=
  List.append_ne_nil_of_left_ne_nil (Varint.scan_bytes_ne_nil nonempty) _

namespace Heads

/-- A number of heads, the heads and the rest of the input. There are as many hashes as the number
says, or the input has ended and a marker stands behind those that are complete. -/
structure Tallied (heads : Heads) (input rest : Bytes) : Prop where
  declared : heads.count = (Reader.unsigned none input).1
  covers : heads.count.bytes ++ spanned heads.hashes ++ rest = input
  few : heads.hashes.length ≤ input.length
  tallied :
    (heads.complete.length = heads.count.value.toNat ∧
        heads.hashes = heads.complete.map fun hash => .clean hash.bytes (some hash)) ∨
      (heads.complete.length < heads.count.value.toNat ∧ rest = [] ∧ ∃ last, Marks last ∧
        heads.hashes = (heads.complete.map fun hash => .clean hash.bytes (some hash)) ++ [last])

section Reading

variable (hashes : List ChangeHash)

theorem length_le_spanned : hashes.length ≤ (spanned (written hashes).hashes).length := by
  rw [spanned_written]
  exact length_le_length_flat_map fun hash _ => bytes_ne_nil hash

theorem complete_marked (count : Field UInt64) {last : Field (Option ChangeHash)}
    (marks : Marks last) :
    (Heads.mk count ((written hashes).hashes ++ [last])).complete = hashes := by
  have none : List.filterMap Field.value [last] = [] := by
    cases marks with
    | missing => rfl
    | incomplete => rfl
  have found : (written hashes).hashes.filterMap Field.value = hashes := complete_written hashes
  rw [complete, List.filterMap_append, found, none, List.append_nil]

end Reading

theorem reader_tallied (input : Bytes) : (reader input).1.Tallied input (reader input).2 := by
  have whole : (reader input).1.count.bytes ++ spanned (reader input).1.hashes ++
      (reader input).2 = input := reader.covers input
  have size := congrArg List.length whole
  rw [List.length_append, List.length_append] at size
  obtain ⟨hashes, ⟨number, found⟩ | ⟨fewer, ended, last, marks, found⟩⟩ :=
    read_onto_cases [] (Reader.unsigned none input).1.value.toNat (Reader.unsigned none input).2
  · have same : (reader input).1.hashes = (written hashes).hashes := found
    have complete : (reader input).1.complete = hashes := by
      rw [Heads.complete, same]
      exact complete_written hashes
    have few := length_le_spanned hashes
    refine ⟨rfl, whole, ?_, .inl ⟨?_, ?_⟩⟩
    · rw [same] at size ⊢
      rw [written, List.length_map]
      omega
    · rw [complete]
      exact number
    · rw [complete]
      exact same
  · have same : (reader input).1.hashes = (written hashes).hashes ++ [last] := found
    have complete : (reader input).1.complete = hashes := by
      rw [Heads.complete, same]
      exact complete_marked hashes (reader input).1.count marks
    have few := length_le_spanned hashes
    -- A marker may have no bytes, but there is a count in front of it.
    have nonempty : input ≠ [] := by
      rintro rfl
      exact Nat.not_lt_zero _ fewer
    have counted : 0 < (reader input).1.count.bytes.length :=
      List.length_pos_iff.mpr (Varint.scan_bytes_ne_nil nonempty)
    refine ⟨rfl, whole, ?_, .inr ⟨?_, ended, last, marks, ?_⟩⟩
    · rw [same, spanned_append, List.length_append] at size
      rw [same, List.length_append, List.length_singleton, written, List.length_map]
      omega
    · rw [complete]
      exact fewer
    · rw [complete]
      exact same

end Heads

/-- Descriptors, actors and heads are as many as declared, or the input ends with them. -/
theorem tables_counted (input : Bytes) :
    (∀ group,
      let found := ColumnDescriptors.reader group input
      CountedTable found.1.count found.1.columns input found.2) ∧
      (let found := ActorTable.reader input
       CountedTable found.1.count found.1.actors input found.2) ∧
      (Heads.reader input).1.Tallied input (Heads.reader input).2 := by
  refine ⟨?_, ?_, Heads.reader_tallied input⟩
  · intro _
    exact Column.reader.counted_table (fun _ nonempty => column_bytes_ne_nil nonempty) input
  · exact Actor.reader.counted_table (fun _ nonempty => actor_bytes_ne_nil nonempty) input

/-- Three bytes declare two hundred descriptors and hold one, declare one actor and hold it, and
declare two hundred heads and hold none that is whole. -/
theorem tables_counted_of_three_bytes :
    (let found := ColumnDescriptors.reader .operation [200, 1, 4]
     CountedTable found.1.count found.1.columns [200, 1, 4] found.2 ∧ found.1.columns.length = 1 ∧
       found.1.count.diagnostics = [.error (.missingItems 199)] ∧ found.2 = []) ∧
      (let found := ActorTable.reader [1, 1, 4]
       CountedTable found.1.count found.1.actors [1, 1, 4] found.2 ∧ found.1.actors.length = 1 ∧
         found.1.count.diagnostics = [] ∧ found.2 = []) ∧
      (let found := Heads.reader [200, 1, 4]
       found.1.Tallied [200, 1, 4] found.2 ∧ found.1.complete = [] ∧ found.2 = [] ∧
         found.1.hashes = [⟨[4], none, [.error .incompleteHead]⟩]) := by
  obtain ⟨descriptors, -, heads⟩ := tables_counted [200, 1, 4]
  obtain ⟨-, actors, -⟩ := tables_counted [1, 1, 4]
  exact ⟨⟨descriptors .operation, by decide +kernel, by decide +kernel, by decide +kernel⟩,
    ⟨actors, by decide +kernel, by decide +kernel, by decide +kernel⟩,
    heads, by decide +kernel, by decide +kernel, by decide +kernel⟩

end Chunkscope
