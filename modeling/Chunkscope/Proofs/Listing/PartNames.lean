import Chunkscope.Proofs.Field.ReadBack
import Chunkscope.Proofs.Listing.Notes

/-!
# The parts that diagnostics name

A diagnostic is about a whole field or about a part of it that has a name. Whatever a decoder is
given, the names it uses are its own, never text of the input: there are eleven of them.
-/

namespace Chunkscope

def Diagnostic.partNames : List String :=
  ["length", "null", "value", "delta", "rle", "string", "utf8", "uleb", "sleb", "meta", "spec"]

/-- Each diagnostic that is about a part names one of those there are. -/
def KnownParts (diagnostics : List Diagnostic) : Prop :=
  ∀ diagnostic ∈ diagnostics, ∀ part ∈ diagnostic.part, part ∈ Diagnostic.partNames

namespace KnownParts

@[simp] theorem nil : KnownParts [] := by
  intro diagnostic member
  cases member

@[simp] theorem append_iff {first second : List Diagnostic} :
    KnownParts (first ++ second) ↔ KnownParts first ∧ KnownParts second :=
  List.forall_mem_append

@[simp] theorem error (problem : Problem) : KnownParts [.error problem] := by
  simp [KnownParts, Diagnostic.error]

@[simp] theorem warning (problem : Problem) : KnownParts [.warning problem] := by
  simp [KnownParts, Diagnostic.warning]

@[simp] theorem error_in {part : String} (known : part ∈ Diagnostic.partNames)
    (problem : Problem) : KnownParts [.errorIn part problem] := by
  simpa [KnownParts, Diagnostic.errorIn] using known

@[simp] theorem warning_in {part : String} (known : part ∈ Diagnostic.partNames)
    (problem : Problem) : KnownParts [.warningIn part problem] := by
  simpa [KnownParts, Diagnostic.warningIn] using known

theorem of_fault {part : Option String} (known : ∀ name ∈ part, name ∈ Diagnostic.partNames)
    (fault : Option Varint.Fault) : KnownParts (Diagnostic.ofFault part fault) := by
  cases fault with
  | none => exact nil
  | some fault => simpa [KnownParts, Diagnostic.ofFault] using known

@[simp] theorem whole_fault (fault : Option Varint.Fault) :
    KnownParts (Diagnostic.ofFault none fault) :=
  of_fault (by simp) fault

@[simp] theorem missing (declared : UInt64) (found : Nat) :
    KnownParts (Diagnostic.missing declared found) := by
  rw [Diagnostic.missing]
  split
  · exact error _
  · exact nil

end KnownParts

/-- All diagnostics of some notes name known parts. -/
def KnownNotes (noted : List Note) : Prop := ∀ note ∈ noted, KnownParts note.diagnostics

namespace KnownNotes

@[simp] theorem append_iff {first second : List Note} :
    KnownNotes (first ++ second) ↔ KnownNotes first ∧ KnownNotes second :=
  List.forall_mem_append

@[simp] theorem field_iff {Value : Type} {field : Field Value} :
    KnownNotes (notes field) ↔ KnownParts field.diagnostics := by
  simp [KnownNotes, notes]

theorem flat_map_iff {Piece : Type} [Noted Piece] {pieces : List Piece} :
    KnownNotes (notesOf pieces) ↔ ∀ piece ∈ pieces, KnownNotes (notes piece) :=
  List.forall_mem_flatMap

theorem fields {Value : Type} {found : List (Field Value)}
    (each : ∀ field ∈ found, KnownParts field.diagnostics) : KnownNotes (notesOf found) :=
  flat_map_iff.mpr fun field member => field_iff.mpr (each field member)

end KnownNotes

section Tables

theorem known_parts_unsigned (part : Option String)
    (known : ∀ name ∈ part, name ∈ Diagnostic.partNames) (input : Bytes) :
    KnownParts (Reader.unsigned part input).1.diagnostics :=
  KnownParts.of_fault known _

theorem known_parts_signed (part : Option String)
    (known : ∀ name ∈ part, name ∈ Diagnostic.partNames) (input : Bytes) :
    KnownParts (Reader.signed part input).1.diagnostics :=
  KnownParts.of_fault known _

theorem known_up_to {Piece : Type} [Spans Piece] [Noted Piece] {reader : Reader Piece}
    (each : ∀ input, KnownNotes (notes (reader input).1)) (count : Nat) (input : Bytes) :
    KnownNotes (notesOf (reader.upTo count input).1) :=
  KnownNotes.flat_map_iff.mpr (forall_take_up_to _ (fun _ input _ => each input) count () input)

theorem known_actor (input : Bytes) : KnownNotes (notes (Actor.reader input).1) := by
  have length : KnownNotes (notes (Reader.unsigned none input).1) := by
    rw [KnownNotes.field_iff]
    exact known_parts_unsigned none (by simp) input
  refine KnownNotes.append_iff.mpr ⟨length, KnownNotes.field_iff.mpr ?_⟩
  simp only [Actor.reader]
  split
  · exact .nil
  · exact .error _

theorem known_counted {Piece : Type} [Noted Piece] {count : Field UInt64} {pieces : List Piece}
    (counted : KnownParts count.diagnostics) (each : KnownNotes (notesOf pieces)) :
    KnownNotes (notes (count.add (Diagnostic.missing count.value pieces.length)) ++
      notesOf pieces) := by
  rw [KnownNotes.append_iff, KnownNotes.field_iff, Field.add, KnownParts.append_iff]
  exact ⟨⟨counted, .missing _ _⟩, each⟩

theorem known_actor_table (input : Bytes) : KnownNotes (notes (ActorTable.reader input).1) :=
  known_counted (known_parts_unsigned none (by simp) input) (known_up_to known_actor _ _)

/-- Reading on keeps what is known of the heads read so far. -/
theorem known_heads_onto (done : List (Field (Option ChangeHash))) (count : Nat) (input : Bytes)
    (before : ∀ head ∈ done, KnownParts head.diagnostics) :
    ∀ head ∈ (Heads.readOnto done count input).1, KnownParts head.diagnostics := by
  fun_induction Heads.readOnto done count input with
  | case1 done input => simpa using before
  | case2 done count => simpa [or_imp, forall_and] using before
  | case3 done count input nonempty complete induction =>
      exact induction (List.forall_mem_cons.mpr ⟨.nil, before⟩)
  | case4 done count input nonempty incomplete => simpa [or_imp, forall_and] using before

theorem known_heads (input : Bytes) : KnownNotes (notes (Heads.reader input).1) := by
  have count := known_parts_unsigned none (by simp) input
  have hashes := known_heads_onto [] (Reader.unsigned none input).1.value.toNat
    (Reader.unsigned none input).2 (by simp)
  exact KnownNotes.append_iff.mpr ⟨KnownNotes.field_iff.mpr count, .fields hashes⟩

theorem known_column (input : Bytes) : KnownNotes (notes (Column.reader input).1) := by
  rw [KnownNotes.field_iff]
  simp only [Column.reader, KnownParts.append_iff]
  constructor
  · split
    · exact .error _
    · exact .of_fault (by decide) _
  · exact .of_fault (by decide) _

theorem known_descriptors (group : ColumnGroup) (input : Bytes) :
    KnownNotes (notes (ColumnDescriptors.reader group input).1) :=
  known_counted (known_parts_unsigned none (by simp) input) (known_up_to known_column _ _)

end Tables

section Columns

theorem known_shortfall (declared : UInt64) (limit found : Nat) (rest : Bytes) :
    KnownParts (Payload.shortfall declared limit found rest) := by
  rw [Payload.shortfall]
  split
  · exact .missing _ _
  · split
    · exact .error _
    · exact .nil

section Runs

variable {State Step Item : Type} {payload : Payload State Step Item}

theorem known_next_run
    (repeated : ∀ state count input,
      KnownParts (payload.repeated state count input).1.diagnostics)
    (literal : ∀ state input, KnownParts (payload.literal state input).1.diagnostics)
    (limit : Nat) (state : State) (input : Bytes) :
    KnownNotes (notes (payload.nextRun limit state input).1) := by
  have count : KnownParts
      (Diagnostic.ofFault (some "length") (Varint.scanSigned input).fault) :=
    .of_fault (by decide) _
  simp only [Payload.nextRun]
  split
  · exact KnownNotes.field_iff.mpr
      (KnownParts.append_iff.mpr ⟨count, .of_fault (by decide) _⟩)
  · split
    · exact KnownNotes.field_iff.mpr (KnownParts.append_iff.mpr ⟨count, repeated _ _ _⟩)
    · refine KnownNotes.append_iff.mpr ⟨KnownNotes.field_iff.mpr ?_,
        .fields (forall_take_up_to payload.literal (fun state input _ => literal state input) _ _ _)⟩
      exact KnownParts.append_iff.mpr ⟨count, known_shortfall _ _ _ _⟩

theorem known_runs
    (repeated : ∀ state count input,
      KnownParts (payload.repeated state count input).1.diagnostics)
    (literal : ∀ state input, KnownParts (payload.literal state input).1.diagnostics)
    (limit : Nat) (state : State) (input : Bytes) :
    KnownNotes (notesOf (payload.decodeRuns limit state input)) :=
  KnownNotes.flat_map_iff.mpr
    ((payload.walk limit).forall_pieces (known_next_run repeated literal limit) state input)

theorem known_uniform_runs {Value : Type} {reader : Reader (Field Value)}
    (each : ∀ input, KnownParts (reader input).1.diagnostics) (limit : Nat) (input : Bytes) :
    KnownNotes (notesOf ((Payload.uniform reader).decodeRuns limit () input)) :=
  known_runs (fun _ _ => each) (fun _ => each) limit () input

end Runs

theorem known_integers (limit : Nat) (input : Bytes) :
    KnownNotes (notesOf (decodeIntegers limit input)) :=
  known_uniform_runs (known_parts_unsigned (some "value") (by decide)) limit input

theorem known_text_problems (input : Bytes) : KnownParts (textProblems input) := by
  rw [textProblems]
  split
  · exact .nil
  · exact .error_in (by decide) _

theorem known_strings (limit : Nat) (input : Bytes) :
    KnownNotes (notesOf (decodeStrings limit input)) := by
  refine known_uniform_runs ?_ limit input
  intro input
  simp only [stringReader, KnownParts.append_iff]
  refine ⟨⟨.of_fault (by decide) _, ?_⟩, known_text_problems _⟩
  split
  · exact .nil
  · exact .error_in (by decide) _

theorem known_value_meta (limit : Nat) (input : Bytes) :
    KnownNotes (notesOf (Meta.decode limit input)) := by
  have entry : ∀ input, KnownParts (Meta.reader input).1.diagnostics :=
    known_parts_unsigned (some "meta") (by decide)
  exact known_uniform_runs entry limit input

theorem known_booleans (input : Bytes) : KnownNotes (notesOf (decodeBooleans input)) :=
  .fields (Booleans.walk.forall_pieces
    (fun _ input => known_parts_unsigned (some "length") (by decide) input) false input)

theorem known_settle (sum : Option Int64) (wrapped : Int64) :
    KnownParts (Delta.settle sum wrapped).2 := by
  cases sum with
  | none => exact .error_in (by decide) _
  | some value =>
      simp only [Delta.settle]
      split
      · exact .warning_in (by decide) _
      · exact .nil

theorem known_deltas (limit : Nat) (input : Bytes) :
    KnownNotes (notesOf (decodeDeltas limit input)) := by
  apply known_runs
  · intro state count input
    exact KnownParts.append_iff.mpr
      ⟨known_parts_signed (some "delta") (by decide) input, known_settle _ _⟩
  · intro state input
    exact KnownParts.append_iff.mpr
      ⟨known_parts_signed (some "value") (by decide) input, known_settle _ _⟩

theorem known_length_problems (accounted : Nat) (entry : MetaEntry) :
    KnownParts (Value.lengthProblems accounted entry) := by
  rw [Value.lengthProblems]
  split
  · exact .nil
  · exact .error _

theorem known_value (input : Bytes) (entry : MetaEntry) :
    KnownParts (Value.decode input entry).2 := by
  have unsigned : KnownParts (Value.ofUnsigned input entry).2 :=
    KnownParts.append_iff.mpr ⟨.of_fault (by decide) _, known_length_problems _ entry⟩
  have signed : ∀ build, KnownParts (Value.ofSigned build input entry).2 := fun build =>
    KnownParts.append_iff.mpr ⟨.of_fault (by decide) _, known_length_problems _ entry⟩
  rw [Value.decode]
  cases entry.kind? with
  | none => exact .error _
  | some kind =>
      cases kind with
      | null => exact known_length_problems 0 entry
      | booleanFalse => exact known_length_problems 0 entry
      | booleanTrue => exact known_length_problems 0 entry
      | unsigned => exact unsigned
      | signed => exact signed _
      | counter => exact signed _
      | timestamp => exact signed _
      | float => exact known_length_problems 8 entry
      | string => exact known_text_problems input
      | bytes => exact .nil

theorem known_value_field (entry : MetaEntry) (found : Window) :
    KnownParts (DecodedValues.field entry found).diagnostics := by
  refine KnownParts.append_iff.mpr ⟨?_, known_value _ _⟩
  split
  · exact .nil
  · exact .error _

theorem known_values_onto (done : List (Field Value)) (entries : List MetaEntry) (input : Bytes)
    (before : ∀ value ∈ done, KnownParts value.diagnostics) :
    ∀ value ∈ (DecodedValues.decodeOnto done entries input).values,
      KnownParts value.diagnostics := by
  induction entries generalizing done input with
  | nil => simpa [DecodedValues.decodeOnto] using before
  | cons entry later induction =>
      have here := known_value_field entry (window entry.length input)
      simp only [DecodedValues.decodeOnto]
      split
      · exact induction _ _ (List.forall_mem_cons.mpr ⟨here, before⟩)
      · intro value member
        rcases List.mem_cons.mp (List.mem_reverse.mp member) with rfl | earlier
        · exact KnownParts.append_iff.mpr ⟨here, .missing _ _⟩
        · exact before value earlier

theorem known_column_body (context : Context) (group : ColumnGroup) (column : Column)
    (input : Bytes) :
    KnownNotes (notes (column.decode context group input).1) ∧
      KnownParts (column.decode context group input).2.1 := by
  simp only [Column.decode]
  split
  · exact ⟨by simp [KnownNotes, notes], .nil⟩
  · split
    · exact ⟨known_integers _ _, .nil⟩
    · exact ⟨known_integers _ _, .nil⟩
    · exact ⟨known_integers _ _, .nil⟩
    · exact ⟨known_deltas _ _, .nil⟩
    · exact ⟨known_booleans _, .nil⟩
    · exact ⟨known_strings _ _, .nil⟩
    · refine ⟨known_value_meta _ _, ?_⟩
      rw [Meta.limitProblems]
      split
      · exact .error _
      · exact .nil
    · refine ⟨?_, .nil⟩
      cases context.memory.find? group column.id with
      | none => exact KnownNotes.field_iff.mpr (.error _)
      | some entries => exact .fields (known_values_onto [] entries input (by simp))

theorem known_section (context : Context) (descriptors : ColumnDescriptors) (input : Bytes) :
    KnownNotes (notesOf (decodeSection context descriptors input).1) := by
  apply KnownNotes.flat_map_iff.mpr
  apply forall_map_state
  intro state column
  have decoded := known_column_body state.2 descriptors.group column
    (window column.length state.1).bytes
  refine List.forall_mem_cons.mpr ⟨KnownParts.append_iff.mpr ⟨?_, decoded.2⟩, decoded.1⟩
  split
  · exact .nil
  · exact .error _

end Columns

section Bodies

theorem known_trailing (input : Bytes) : KnownNotes (notes (trailingField input)) := by
  rw [KnownNotes.field_iff, trailingField]
  split
  · exact .nil
  · exact .warning _

theorem known_head_indexes (hashes : List ChangeHash) (input : Bytes) :
    KnownNotes (notes (HeadIndexes.read hashes input).1) := by
  rw [HeadIndexes.read]
  split
  · simp [KnownNotes, notes]
  · apply KnownNotes.fields
    rw [List.forall_mem_map]
    apply forall_map_state
    intro input hash
    exact known_parts_unsigned none (by simp) input

theorem known_empty_document : KnownNotes (notes Document.empty) := by
  intro note member
  have clean : note.diagnostics = [] := by
    revert note
    decide
  rw [clean]
  exact .nil

theorem notes_document (document : Document) :
    notes document = notes document.actors ++ notes document.heads ++
      notes document.changeColumns ++ notes document.operationColumns ++
      notesOf document.changeData ++ notesOf document.operationData ++
      notes document.headIndexes ++ notes document.trailing := rfl

theorem known_document (context : Context) (body : Bytes) :
    KnownNotes (notes (Document.decode context body).1) := by
  rw [Document.decode]
  split
  · exact known_empty_document
  · simp only [notes_document, Document.decodeParts, KnownNotes.append_iff, and_assoc]
    exact ⟨known_actor_table _, known_heads _, known_descriptors _ _, known_descriptors _ _,
      known_section _ _ _, known_section _ _ _, known_head_indexes _ _, known_trailing _⟩

theorem notes_header (header : ChangeHeader) :
    notes header = notes header.heads ++ notes header.actor ++ notes header.sequenceNumber ++
      notes header.startOperation ++ notes header.time ++ notes header.messageLength := rfl

theorem known_header (input : Bytes) : KnownNotes (notes (ChangeHeader.reader input).1) := by
  have number : ∀ input, KnownParts (Reader.unsigned none input).1.diagnostics :=
    known_parts_unsigned none (by simp)
  rw [notes_header]
  simp only [KnownNotes.append_iff, KnownNotes.field_iff, and_assoc]
  exact ⟨known_heads _, known_actor _, number _, number _, known_parts_signed none (by simp) _,
    number _⟩

theorem known_add_to_length {header : ChangeHeader} (known : KnownNotes (notes header))
    (problem : Problem) : KnownNotes (notes (header.addToLength [.error problem])) := by
  rw [notes_header, KnownNotes.append_iff, KnownNotes.field_iff] at known ⊢
  exact ⟨known.1, KnownParts.append_iff.mpr ⟨known.2, .error problem⟩⟩

theorem notes_tail (tail : ChangeTail) :
    notes tail = notes tail.otherActors ++ notes tail.operationColumns ++
      notesOf tail.operationData ++ notes tail.extra := rfl

theorem known_tail (context : Context) (input : Bytes) :
    KnownNotes (notes (ChangeTail.decode context input).1) := by
  simp only [notes_tail, ChangeTail.decode, KnownNotes.append_iff, and_assoc]
  exact ⟨known_actor_table _, known_descriptors _ _, known_section _ _ _, known_trailing _⟩

theorem notes_change (change : Change) :
    notes change = notes change.header ++ notes change.message ++ notesOf change.tail.toList := rfl

theorem known_change (context : Context) (body : Bytes) :
    KnownNotes (notes (Change.decode context body).1) := by
  have header := known_header body
  rw [Change.decode_eq, Change.ofText]
  split
  · have short := known_add_to_length header .messageTooLong
    simp only [notes_change, KnownNotes.append_iff, KnownNotes.field_iff]
    exact ⟨⟨short, .nil⟩, KnownNotes.flat_map_iff.mpr (by simp)⟩
  · have tail : KnownNotes (notesOf [(ChangeTail.decode context.reset
        (window (ChangeHeader.reader body).1.messageLength.value
          (ChangeHeader.reader body).2).rest).1]) :=
      KnownNotes.flat_map_iff.mpr (by simpa using known_tail _ _)
    simp only [notes_change, KnownNotes.append_iff, KnownNotes.field_iff]
    exact ⟨⟨header, known_text_problems _⟩, tail⟩

end Bodies

end Chunkscope
