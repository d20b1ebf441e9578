import Mathlib.Data.List.Forall2
import Chunkscope.Listing.Body

/-!
# What decoders note and what listings show

A note is a stretch of bytes with what is wrong with it. Every field of a decoded body is a note,
and so is a column as a whole, which has no bytes of its own but a title. A listing renders notes
when each one has its own line, in order, and no other line of it claims an error.
-/

namespace Chunkscope

structure Note where
  /-- The title that the line of the note starts with, if it has one. -/
  title : String
  bytes : Bytes
  diagnostics : List Diagnostic
  deriving DecidableEq, Repr

/-- Decoded parts whose fields have been checked while they were decoded. -/
class Noted (Piece : Type) where
  notes : Piece → List Note

export Noted (notes)

def notesOf {Piece : Type} [Noted Piece] (pieces : List Piece) : List Note := pieces.flatMap notes

section Parts

instance {Value : Type} : Noted (Field Value) :=
  ⟨fun field => [⟨"", field.bytes, field.diagnostics⟩]⟩

instance : Noted Actor := ⟨fun actor => notes actor.length ++ notes actor.id⟩

instance : Noted ActorTable := ⟨fun table => notes table.count ++ notesOf table.actors⟩

instance : Noted Heads := ⟨fun heads => notes heads.count ++ notesOf heads.hashes⟩

instance : Noted ColumnDescriptors :=
  ⟨fun descriptors => notes descriptors.count ++ notesOf descriptors.columns⟩

instance {Step Item : Type} : Noted (Run Step Item) :=
  ⟨fun run => match run with
    | .null nulls => notes nulls
    | .repeated step => notes step
    | .literal header items => notes header ++ notesOf items⟩

/-- A compressed body and the bytes behind the last value are not decoded at all. -/
instance : Noted ColumnBody :=
  ⟨fun body => match body with
    | .compressed _ => []
    | .integers runs => notesOf runs
    | .deltas runs => notesOf runs
    | .booleans runs => notesOf runs
    | .strings runs => notesOf runs
    | .valueMeta runs => notesOf runs
    | .values decoded => notesOf decoded.values
    | .missingMeta field => notes field⟩

instance : Noted ColumnData := ⟨fun data => ⟨data.title, [], data.diagnostics⟩ :: notes data.body⟩

instance : Noted HeadIndexes :=
  ⟨fun indexes => match indexes with
    | .omitted => []
    | .present indexes => notesOf (indexes.map Prod.snd)⟩

instance : Noted Document :=
  ⟨fun document => notes document.actors ++ notes document.heads ++
    notes document.changeColumns ++ notes document.operationColumns ++
    notesOf document.changeData ++ notesOf document.operationData ++
    notes document.headIndexes ++ notes document.trailing⟩

instance : Noted ChangeHeader :=
  ⟨fun header => notes header.heads ++ notes header.actor ++ notes header.sequenceNumber ++
    notes header.startOperation ++ notes header.time ++ notes header.messageLength⟩

instance : Noted ChangeTail :=
  ⟨fun tail => notes tail.otherActors ++ notes tail.operationColumns ++
    notesOf tail.operationData ++ notes tail.extra⟩

instance : Noted Change :=
  ⟨fun change => notes change.header ++ notes change.message ++ notesOf change.tail.toList⟩

end Parts

/-- The severity of the most serious diagnostic: one of them has it, and it is an error as soon as
one of them is. -/
def Severity.GreatestOf (severity : Severity) (diagnostics : List Diagnostic) : Prop :=
  (∃ diagnostic ∈ diagnostics, diagnostic.severity = severity) ∧
    ∀ diagnostic ∈ diagnostics, diagnostic.severity = .error → severity = .error

theorem worst_cons (diagnostic : Diagnostic) (diagnostics : List Diagnostic) :
    Diagnostic.worst (diagnostic :: diagnostics) =
      match Diagnostic.worst diagnostics with
      | none => some diagnostic.severity
      | some other => some (diagnostic.severity.max other) := rfl

theorem worst_eq_none_iff (diagnostics : List Diagnostic) :
    Diagnostic.worst diagnostics = none ↔ diagnostics = [] := by
  cases diagnostics with
  | nil => exact iff_of_true rfl rfl
  | cons diagnostic diagnostics =>
      rw [worst_cons]
      cases Diagnostic.worst diagnostics <;> simp

theorem worst_eq_error_iff (diagnostics : List Diagnostic) :
    Diagnostic.worst diagnostics = some .error ↔
      diagnostics.any Diagnostic.isError = true := by
  induction diagnostics with
  | nil => simp [Diagnostic.worst, Severity.worst]
  | cons diagnostic diagnostics induction =>
      rw [worst_cons, List.any_cons, Bool.or_eq_true, ← induction, Diagnostic.isError,
        decide_eq_true_eq]
      cases Diagnostic.worst diagnostics with
      | none => simp
      | some other => cases diagnostic.severity <;> cases other <;> simp [Severity.max]

theorem worst_eq_some_iff (diagnostics : List Diagnostic) (severity : Severity) :
    Diagnostic.worst diagnostics = some severity ↔ severity.GreatestOf diagnostics := by
  have error : Diagnostic.worst diagnostics = some .error ↔
      ∃ diagnostic ∈ diagnostics, diagnostic.severity = .error := by
    rw [worst_eq_error_iff, List.any_eq_true]
    simp only [Diagnostic.isError, decide_eq_true_eq]
  cases severity with
  | error =>
      rw [error]
      exact ⟨fun found => ⟨found, fun _ _ _ => rfl⟩, fun greatest => greatest.1⟩
  | warning =>
      constructor
      · intro warned
        have noError : ∀ diagnostic ∈ diagnostics, diagnostic.severity ≠ .error := by
          intro diagnostic member isError
          rw [error.mpr ⟨diagnostic, member, isError⟩] at warned
          cases warned
        have nonempty : diagnostics ≠ [] := by
          rintro rfl
          cases warned
        obtain ⟨diagnostic, more, rfl⟩ := List.exists_cons_of_ne_nil nonempty
        refine ⟨⟨diagnostic, List.mem_cons_self, ?_⟩, fun other member isError =>
          absurd isError (noError other member)⟩
        cases found : diagnostic.severity with
        | warning => rfl
        | error => exact absurd found (noError diagnostic List.mem_cons_self)
      · rintro ⟨⟨diagnostic, member, -⟩, dominates⟩
        cases worst : Diagnostic.worst diagnostics with
        | none =>
            rw [(worst_eq_none_iff diagnostics).mp worst] at member
            cases member
        | some found =>
            cases found with
            | warning => rfl
            | error =>
                obtain ⟨other, found, isError⟩ := error.mp worst
                cases dominates other found isError

/-- A line is about a note when it has the note's title and bytes, its comment holds the message of
each diagnostic and its severity is that of the most serious one. -/
structure Note.ShownBy (note : Note) (line : Line) : Prop where
  title : ∃ after : String, line.comment = note.title ++ after
  bytes : line.bytes = note.bytes
  messages : ∀ diagnostic ∈ note.diagnostics, ∃ before after : String,
    line.comment = before ++ diagnostic.message ++ after
  severity : ∀ severity, line.severity = some severity ↔ severity.GreatestOf note.diagnostics

theorem message_in_annotations {diagnostics : List Diagnostic} {diagnostic : Diagnostic}
    (member : diagnostic ∈ diagnostics) (comment : String) :
    ∃ before after : String,
      comment ++ String.join (diagnostics.map fun other => " " ++ other.message) =
        before ++ diagnostic.message ++ after := by
  obtain ⟨earlier, later, rfl⟩ := List.append_of_mem member
  refine ⟨comment ++ String.join (earlier.map fun other => " " ++ other.message) ++ " ",
    String.join (later.map fun other => " " ++ other.message), ?_⟩
  rw [List.map_append, List.map_cons, String.join_append, String.join_cons]
  simp only [String.append_assoc]

theorem shown_by_annotated (depth : Nat) (title : String) (input : Bytes) (comment : String)
    (diagnostics : List Diagnostic) :
    (⟨title, input, diagnostics⟩ : Note).ShownBy
      (Line.annotated depth input (title ++ comment) diagnostics) where
  title := ⟨_, String.append_assoc⟩
  bytes := rfl
  messages _ member := message_in_annotations member (title ++ comment)
  severity := worst_eq_some_iff diagnostics

theorem Note.ShownBy.severity_error_iff {note : Note} {line : Line} (shows : note.ShownBy line) :
    line.severity = some .error ↔ note.diagnostics.any Diagnostic.isError = true := by
  rw [shows.severity, ← worst_eq_some_iff, worst_eq_error_iff]

theorem has_errors_cons (line : Line) (lines : List Line) :
    Listing.hasErrors (line :: lines) = true ↔
      line.severity = some .error ∨ Listing.hasErrors lines = true := by
  simp only [Listing.hasErrors, List.any_cons, Bool.or_eq_true, decide_eq_true_eq]

theorem has_errors_append (front back : List Line) :
    Listing.hasErrors (front ++ back) = true ↔
      Listing.hasErrors front = true ∨ Listing.hasErrors back = true := by
  simp only [Listing.hasErrors, List.any_append, Bool.or_eq_true]

/-- A note without bytes that has nothing to say needs no line. -/
def Note.isSilent (note : Note) : Bool := note.bytes.isEmpty && note.diagnostics.isEmpty

/-- Every note that is not silent has a line of its own, and the lines come in the order of the
notes. -/
def AllShown (noted : List Note) (lines : List Line) : Prop :=
  ∃ shown : List Line, shown.Sublist lines ∧
    List.Forall₂ Note.ShownBy (noted.filter fun note => !note.isSilent) shown

namespace AllShown

theorem nil (lines : List Line) : AllShown [] lines := ⟨[], List.nil_sublist lines, .nil⟩

theorem append {first second : List Note} {front back : List Line} (left : AllShown first front)
    (right : AllShown second back) : AllShown (first ++ second) (front ++ back) := by
  obtain ⟨earlier, within, shows⟩ := left
  obtain ⟨later, behind, others⟩ := right
  refine ⟨earlier ++ later, within.append behind, ?_⟩
  rw [List.filter_append]
  exact List.rel_append shows others

theorem cons {note : Note} {line : Line} {noted : List Note} {lines : List Line}
    (shows : note.ShownBy line) (rest : AllShown noted lines) :
    AllShown (note :: noted) (line :: lines) := by
  obtain ⟨shown, within, others⟩ := rest
  cases silent : note.isSilent with
  | true =>
      refine ⟨shown, within.cons line, ?_⟩
      rw [List.filter_cons_of_neg (by simp [silent])]
      exact others
  | false =>
      refine ⟨line :: shown, within.cons_cons line, ?_⟩
      rw [List.filter_cons_of_pos (by simp [silent])]
      exact .cons shows others

end AllShown

/-- Lines render notes when every note that is not silent has its line, in order, and every other
line is free of errors. -/
inductive Rendered : List Note → List Line → Prop where
  | nil : Rendered [] []
  | shown {note : Note} {line : Line} {notes : List Note} {lines : List Line}
      (shows : note.ShownBy line) (rest : Rendered notes lines) :
      Rendered (note :: notes) (line :: lines)
  | other {line : Line} {notes : List Note} {lines : List Line}
      (harmless : line.severity ≠ some .error) (rest : Rendered notes lines) :
      Rendered notes (line :: lines)
  | silent {note : Note} {notes : List Note} {lines : List Line} (absent : note.bytes = [])
      (clean : note.diagnostics = []) (rest : Rendered notes lines) :
      Rendered (note :: notes) lines

namespace Rendered

theorem append {first second : List Note} {front back : List Line} (left : Rendered first front)
    (right : Rendered second back) : Rendered (first ++ second) (front ++ back) := by
  induction left with
  | nil => exact right
  | shown shows _ induction => exact .shown shows induction
  | other harmless _ induction => exact .other harmless induction
  | silent absent clean _ induction => exact .silent absent clean induction

theorem single {note : Note} {line : Line} (shows : note.ShownBy line) :
    Rendered [note] [line] :=
  .shown shows .nil

theorem flat_map {Piece : Type} [Noted Piece] {lines : Piece → List Line} {pieces : List Piece}
    (each : ∀ piece ∈ pieces, Rendered (notes piece) (lines piece)) :
    Rendered (notesOf pieces) (pieces.flatMap lines) := by
  induction pieces with
  | nil => exact .nil
  | cons piece pieces induction =>
      exact (each piece List.mem_cons_self).append
        (induction fun other member => each other (List.mem_cons_of_mem piece member))

theorem field {Value : Type} (depth : Nat) (comment : String) (field : Field Value) :
    Rendered (notes field) [Line.ofField depth comment field] := by
  have shows := shown_by_annotated depth "" field.bytes comment field.diagnostics
  rw [String.empty_append] at shows
  exact single shows

theorem field_cons {Value : Type} {noted : List Note} {lines : List Line} (depth : Nat)
    (comment : String) (first : Field Value) (rest : Rendered noted lines) :
    Rendered (notes first ++ noted) (Line.ofField depth comment first :: lines) :=
  (field depth comment first).append rest

theorem fields {Value : Type} (depth : Nat) (comment : Field Value → String)
    (fields : List (Field Value)) :
    Rendered (notesOf fields) (fields.map fun field => Line.ofField depth (comment field) field) := by
  induction fields with
  | nil => exact .nil
  | cons first fields induction => exact induction.field_cons depth (comment first) first

/-- Lines that render notes claim an error exactly when a note holds one. -/
theorem has_errors_iff {noted : List Note} {lines : List Line} (rendered : Rendered noted lines) :
    Listing.hasErrors lines = true ↔
      ∃ note ∈ noted, note.diagnostics.any Diagnostic.isError = true := by
  induction rendered with
  | nil => simp [Listing.hasErrors]
  | shown shows _ induction =>
      rw [has_errors_cons, induction, shows.severity_error_iff]
      simp only [List.mem_cons, exists_eq_or_imp]
  | other harmless _ induction =>
      rw [has_errors_cons, induction]
      exact or_iff_right harmless
  | silent absent clean _ induction =>
      rw [induction]
      simp [clean]

theorem all_shown {noted : List Note} {lines : List Line} (rendered : Rendered noted lines) :
    AllShown noted lines := by
  induction rendered with
  | nil => exact .nil []
  | shown shows _ induction => exact induction.cons shows
  | @other line _ _ _ _ induction => exact (AllShown.nil [line]).append induction
  | silent absent clean _ induction =>
      obtain ⟨shown, within, others⟩ := induction
      refine ⟨shown, within, ?_⟩
      rw [List.filter_cons_of_neg (by simp [Note.isSilent, absent, clean])]
      exact others

end Rendered

end Chunkscope
