import Chunkscope.Listing.Annotate
import Chunkscope.Proofs.Chunk.Stream
import Chunkscope.Proofs.Listing.PartNames
import Chunkscope.Proofs.Text.Printable

/-!
# Every comment is printable

A comment is made of fixed words, of numbers and names that are printable themselves, of quoted
text and of the messages of diagnostics, which name known parts only. So no input can bring a
control character or a line break into a comment.
-/

namespace Chunkscope

open Text

section Messages

theorem printable_fault (fault : Varint.Fault) : Printable fault.message := by
  cases fault <;> decide

/-- A number between two fixed texts. -/
theorem printable_between {before after : String} (value : Nat) (left : Printable before)
    (right : Printable after) : Printable (before ++ toString value ++ after) :=
  (left.append (printable_nat value)).append right

theorem printable_problem (problem : Problem) : Printable problem.message := by
  cases problem with
  | malformedVarint fault => exact printable_fault fault
  | checksumMismatch expected =>
      exact (Printable.append (by decide) (printable_decimal_list _)).append (by decide)
  | invalidChunkType byte => exact printable_between _ (by decide) (by decide)
  | truncatedChunk declared available => exact .append (by decide) (printable_nat _)
  | notEnoughBytes needed available =>
      exact (printable_between _ (by decide) (by decide)).append (printable_nat _)
  | valueLengthMismatch decoded declared =>
      exact printable_between _ (printable_between _ (by decide) (by decide)) (by decide)
  | unknownValueType code => exact .append (by decide) (printable_nat _)
  | missingItems remaining => exact .append (printable_nat _) (by decide)
  | trailingData extra => exact .append (printable_nat _) (by decide)
  | tooManyValues limit => exact printable_between _ (by decide) (by decide)
  | _ => decide

theorem printable_severity (severity : Severity) : Printable severity.name := by
  cases severity <;> decide

theorem printable_part : ∀ part ∈ Diagnostic.partNames, Printable part := by decide

theorem printable_message {diagnostic : Diagnostic}
    (known : ∀ part ∈ diagnostic.part, part ∈ Diagnostic.partNames) :
    Printable diagnostic.message := by
  have severity := printable_severity diagnostic.severity
  have problem := printable_problem diagnostic.problem
  rw [Diagnostic.message]
  split
  · next part named =>
    have name := printable_part part (known part named)
    simp +decide [name, severity, problem]
  · simp +decide [severity, problem]

end Messages

/-- The comments of some lines need no escapes. -/
def PrintableLines (lines : List Line) : Prop := ∀ line ∈ lines, Printable line.comment

namespace PrintableLines

@[simp] theorem nil : PrintableLines [] := by
  intro line member
  cases member

@[simp] theorem append_iff {front back : List Line} :
    PrintableLines (front ++ back) ↔ PrintableLines front ∧ PrintableLines back :=
  List.forall_mem_append

@[simp] theorem cons_iff {line : Line} {lines : List Line} :
    PrintableLines (line :: lines) ↔ Printable line.comment ∧ PrintableLines lines :=
  List.forall_mem_cons

theorem single {line : Line} (printable : Printable line.comment) : PrintableLines [line] :=
  cons_iff.mpr ⟨printable, nil⟩

theorem plain {comment : String} (depth : Nat) (input : Bytes) (printable : Printable comment) :
    PrintableLines [.plain depth input comment] :=
  single printable

theorem flat_map {Piece : Type} {lines : Piece → List Line} {pieces : List Piece}
    (each : ∀ piece ∈ pieces, PrintableLines (lines piece)) :
    PrintableLines (pieces.flatMap lines) := by
  intro line member
  obtain ⟨piece, found, within⟩ := List.mem_flatMap.mp member
  exact each piece found line within

end PrintableLines

theorem printable_annotated (depth : Nat) (input : Bytes) {comment : String}
    {diagnostics : List Diagnostic} (printable : Printable comment)
    (known : KnownParts diagnostics) :
    Printable (Line.annotated depth input comment diagnostics).comment := by
  apply printable.append
  apply Printable.join
  rw [List.forall_mem_map]
  intro diagnostic member
  exact Printable.append (by decide) (printable_message (known diagnostic member))

section Fields

variable {Value : Type} (depth : Nat)

theorem printable_field {comment : String} {field : Field Value}
    (printable : Printable comment) (known : KnownNotes (notes field)) :
    Printable (Line.ofField depth comment field).comment :=
  printable_annotated depth field.bytes printable (KnownNotes.field_iff.mp known)

theorem printable_count {label : String} {count : Field UInt64}
    (printable : Printable label) (known : KnownNotes (notes count)) :
    Printable (Line.ofCount depth label count).comment :=
  printable_field depth (printable.append (printable_nat _)) known

theorem printable_fields {comment : Field Value → String}
    {fields : List (Field Value)} (printable : ∀ field, Printable (comment field))
    (known : KnownNotes (notesOf fields)) :
    PrintableLines (fields.map fun field => Line.ofField depth (comment field) field) := by
  intro line member
  obtain ⟨field, found, rfl⟩ := List.mem_map.mp member
  exact printable_field depth (printable field) (KnownNotes.flat_map_iff.mp known field found)

end Fields

section Parts

variable (depth : Nat)

theorem printable_actor {actor : Actor} (known : KnownNotes (notes actor)) :
    PrintableLines (actor.lines depth) := by
  obtain ⟨length, id⟩ := KnownNotes.append_iff.mp known
  have comment : Printable ("actor ID = " ++ Hex.encode actor.id.value) :=
    .append (by decide) (printable_hex _)
  simp only [Actor.lines, PrintableLines.cons_iff]
  exact ⟨printable_count depth (by decide) length, printable_field depth comment id, .nil⟩

theorem printable_actor_table {table : ActorTable} (known : KnownNotes (notes table)) :
    PrintableLines (table.lines depth) := by
  obtain ⟨count, actors⟩ := KnownNotes.append_iff.mp known
  refine PrintableLines.cons_iff.mpr ⟨printable_count depth (by decide) count, .flat_map ?_⟩
  intro actor member
  exact printable_actor (depth + 1) (KnownNotes.flat_map_iff.mp actors actor member)

theorem printable_head_comment (head : Option ChangeHash) : Printable (headComment head) := by
  cases head with
  | none => decide
  | some hash => exact .append (by decide) (printable_hex _)

theorem printable_heads {heads : Heads} (known : KnownNotes (notes heads)) :
    PrintableLines (heads.lines depth) := by
  obtain ⟨count, hashes⟩ := KnownNotes.append_iff.mp known
  exact PrintableLines.cons_iff.mpr ⟨printable_count depth (by decide) count,
    printable_fields (depth + 1) (fun head => printable_head_comment head.value) hashes⟩

theorem printable_column_comment (column : Column) : Printable column.comment := by
  have deflate : Printable (if column.isDeflated then "true" else "false") := by
    split <;> decide
  delta Column.comment
  simp only [Printable.append_iff, Nat.toString_eq_repr, printable_nat, deflate, and_true]
  decide

theorem printable_descriptors {descriptors : ColumnDescriptors}
    (known : KnownNotes (notes descriptors)) : PrintableLines (descriptors.lines depth) := by
  obtain ⟨count, columns⟩ := KnownNotes.append_iff.mp known
  have label : Printable ("number of " ++ descriptors.group.name ++ " columns = ") := by
    cases descriptors.group <;> decide
  exact PrintableLines.cons_iff.mpr ⟨printable_count depth label count,
    printable_fields (depth + 1) (fun column => printable_column_comment column.value) columns⟩

/-- A wording that words every payload printably. -/
structure RunWording.IsPrintable {Step Item : Type} (wording : RunWording Step Item) : Prop where
  noun : Printable wording.noun
  repeated : ∀ step, Printable (wording.repeated step)
  item : ∀ item, Printable (wording.item item)

theorem printable_run {Step Item : Type} {wording : RunWording Step Item}
    (printable : wording.IsPrintable) {run : Run Step Item} (known : KnownNotes (notes run)) :
    PrintableLines (run.lines wording depth) := by
  cases run with
  | null nulls =>
      have comment : Printable ("null repeated " ++ toString nulls.value.toNat ++ " times") :=
        printable_between _ (by decide) (by decide)
      exact .single (printable_field depth comment known)
  | repeated step => exact .single (printable_field depth (printable.repeated step.value) known)
  | literal header items =>
      obtain ⟨count, payloads⟩ := KnownNotes.append_iff.mp known
      have comment : Printable (toString header.value.toNat ++ " literal " ++ wording.noun) :=
        ((printable_nat _).append (by decide)).append printable.noun
      exact PrintableLines.cons_iff.mpr ⟨printable_field depth comment count,
        printable_fields (depth + 1) (fun item => printable.item item.value) payloads⟩

theorem printable_runs {Step Item : Type} {wording : RunWording Step Item}
    (printable : wording.IsPrintable) {runs : List (Run Step Item)}
    (known : KnownNotes (notesOf runs)) :
    PrintableLines (runs.flatMap (Run.lines wording depth)) := by
  apply PrintableLines.flat_map
  intro run member
  exact printable_run depth printable (KnownNotes.flat_map_iff.mp known run member)

theorem printable_values_wording {Value : Type} {text : Value → String}
    (printable : ∀ value, Printable (text value)) : (RunWording.values text).IsPrintable where
  noun := by
    have noun : Printable "values" := by decide
    exact noun
  repeated step := by
    simp only [RunWording.values, Printable.append_iff, printable, Nat.toString_eq_repr,
      printable_nat]
    decide
  item := printable

theorem printable_signed (value : Int64) : Printable (signedText value) := by
  rw [signedText]
  split
  · exact printable_int _
  · exact .append (by decide) (printable_int _)

theorem printable_deltas_wording : RunWording.deltas.IsPrintable where
  noun := by decide
  repeated step := by
    simp only [RunWording.deltas, Printable.append_iff, Int.toString_eq_repr, printable_int,
      Nat.toString_eq_repr, printable_nat]
    decide
  item value := ((printable_signed value.delta).append (by decide)).append (printable_int _)

theorem printable_meta_entry (entry : MetaEntry) : Printable entry.message := by
  simp only [MetaEntry.message, Printable.append_iff, Nat.toString_eq_repr, printable_nat]
  decide

theorem printable_boolean (run : Repeated Bool) : Printable (booleanComment run) := by
  have value : Printable (if run.value then "true" else "false") := by
    split <;> decide
  simp only [booleanComment, Printable.append_iff, value, Nat.toString_eq_repr, printable_nat]
  decide

/-- Texts are quoted and bytes are written as numbers, so no value brings its own characters. -/
theorem printable_value (value : Value) : Printable value.message := by
  cases value with
  | null => decide
  | boolean value => cases value <;> decide
  | unsigned value => exact .append (by decide) (printable_nat _)
  | signed value => exact .append (by decide) (printable_int _)
  | float bits => exact .append (by decide) (printable_binary64 bits)
  | string value => exact .append (by decide) (printable_quote value)
  | bytes value => exact .append (by decide) (printable_decimal_list value)
  | counter value => exact .append (by decide) (printable_int _)
  | timestamp milliseconds => exact .append (by decide) (printable_time milliseconds)
  | unknown code => exact .append (by decide) (printable_nat _)
  | truncated kind => cases kind <;> decide

theorem printable_decoded_values {decoded : DecodedValues}
    (known : KnownNotes (notesOf decoded.values)) : PrintableLines (decoded.lines depth) := by
  refine PrintableLines.append_iff.mpr
    ⟨printable_fields depth (fun value => printable_value value.value) known, ?_⟩
  split
  · exact .nil
  · have comment : Printable "extra bytes in value column" := by decide
    exact .single comment

theorem printable_column_body {body : ColumnBody} (known : KnownNotes (notes body)) :
    PrintableLines (body.lines depth) := by
  cases body with
  | compressed input => exact .plain depth input (by decide)
  | integers runs =>
      exact printable_runs depth (printable_values_wording fun _ => printable_nat _) known
  | deltas runs => exact printable_runs depth printable_deltas_wording known
  | booleans runs => exact printable_fields depth (fun run => printable_boolean run.value) known
  | strings runs => exact printable_runs depth (printable_values_wording printable_quote) known
  | valueMeta runs =>
      exact printable_runs depth (printable_values_wording printable_meta_entry) known
  | values decoded => exact printable_decoded_values depth known
  | missingMeta field =>
      exact .single (printable_field depth (by decide) known)

theorem printable_column_name {group : ColumnGroup} {spec : UInt64} {name : String}
    (known : group.columnName? spec = some name) : Printable name := by
  have names : ∀ entry ∈ ColumnGroup.changeNames ++ ColumnGroup.operationNames,
      Printable entry.2 := by decide
  rw [List.forall_mem_append] at names
  cases group with
  | change =>
      obtain ⟨before, after, table, -⟩ := List.lookup_eq_some_iff.mp known
      exact names.1 (spec.toNat, name) (by simp [table])
  | operation =>
      obtain ⟨before, after, table, -⟩ := List.lookup_eq_some_iff.mp known
      exact names.2 (spec.toNat, name) (by simp [table])

theorem printable_title (data : ColumnData) : Printable data.title := by
  rw [ColumnData.title, Column.title]
  split
  · next name known => exact printable_column_name known
  · simp only [Printable.append_iff, Nat.toString_eq_repr, printable_nat]
    decide

theorem printable_column {data : ColumnData} (known : KnownNotes (notes data)) :
    PrintableLines (data.lines depth) := by
  obtain ⟨whole, body⟩ := List.forall_mem_cons.mp known
  exact PrintableLines.cons_iff.mpr
    ⟨printable_annotated depth [] ((printable_title data).append (by decide)) whole,
      printable_column_body (depth + 1) body⟩

theorem printable_columns {columns : List ColumnData} (known : KnownNotes (notesOf columns)) :
    PrintableLines (columns.flatMap (ColumnData.lines depth)) := by
  apply PrintableLines.flat_map
  intro data member
  exact printable_column depth (KnownNotes.flat_map_iff.mp known data member)

theorem printable_head_indexes {indexes : HeadIndexes} (known : KnownNotes (notes indexes)) :
    PrintableLines (indexes.lines depth) := by
  cases indexes with
  | omitted => exact .plain depth [] (by decide)
  | present indexes =>
      have title : PrintableLines [.plain depth [] "head index"] := .plain depth [] (by decide)
      refine PrintableLines.append_iff.mpr ⟨title, ?_⟩
      intro line member
      obtain ⟨⟨hash, index⟩, found, rfl⟩ := List.mem_map.mp member
      have comment : Printable (Hex.encode hash.bytes ++ " is change " ++
          toString index.value.toNat) :=
        ((printable_hex _).append (by decide)).append (printable_nat _)
      exact printable_field (depth + 1) comment
        (KnownNotes.flat_map_iff.mp known index (List.mem_map_of_mem found))

theorem printable_trailing {comment : String} (printable : Printable comment)
    {trailing : Field Unit} (known : KnownNotes (notes trailing)) :
    PrintableLines (trailingLines depth comment trailing) := by
  rw [trailingLines]
  split
  · exact .nil
  · exact .single (printable_field depth printable known)

theorem printable_header {header : ChangeHeader} (known : KnownNotes (notes header)) :
    PrintableLines (header.lines depth) := by
  simp only [notes_header, KnownNotes.append_iff, and_assoc] at known
  obtain ⟨heads, actor, sequenceNumber, startOperation, time, messageLength⟩ := known
  have moment : Printable ("time = " ++ Timestamp.text header.time.value) :=
    .append (by decide) (printable_time _)
  simp only [ChangeHeader.lines, PrintableLines.append_iff, PrintableLines.cons_iff, and_assoc]
  exact ⟨printable_heads depth heads, printable_actor depth actor,
    printable_count depth (by decide) sequenceNumber,
    printable_count depth (by decide) startOperation, printable_field depth moment time,
    printable_count depth (by decide) messageLength, .nil⟩

end Parts

section Bodies

variable (depth : Nat)

theorem printable_document {document : Document} (known : KnownNotes (notes document)) :
    PrintableLines (document.lines depth) := by
  simp only [notes_document, KnownNotes.append_iff, and_assoc] at known
  obtain ⟨actors, heads, changeColumns, operationColumns, changeData, operationData, headIndexes,
    trailing⟩ := known
  rw [Document.lines]
  split
  · exact .plain depth [] (by decide)
  · simp only [PrintableLines.append_iff, and_assoc]
    exact ⟨printable_actor_table depth actors, printable_heads depth heads,
      printable_descriptors depth changeColumns, printable_descriptors depth operationColumns,
      printable_columns depth changeData, printable_columns depth operationData,
      printable_head_indexes depth headIndexes, printable_trailing depth (by decide) trailing⟩

theorem printable_tail {tail : ChangeTail} (known : KnownNotes (notes tail)) :
    PrintableLines (tail.lines depth) := by
  simp only [notes_tail, KnownNotes.append_iff, and_assoc] at known
  obtain ⟨otherActors, operationColumns, operationData, extra⟩ := known
  simp only [ChangeTail.lines, PrintableLines.append_iff, and_assoc]
  exact ⟨printable_actor_table depth otherActors, printable_descriptors depth operationColumns,
    printable_columns depth operationData, printable_trailing depth (by decide) extra⟩

/-- The message of a change is text of the input, and it is quoted. -/
theorem printable_change {change : Change} (known : KnownNotes (notes change)) :
    PrintableLines (change.lines depth) := by
  simp only [notes_change, KnownNotes.append_iff, and_assoc] at known
  obtain ⟨header, message, tail⟩ := known
  refine PrintableLines.append_iff.mpr ⟨printable_header depth header, ?_⟩
  have quoted : Printable ("commit message = " ++ Text.quote change.message.value) :=
    .append (by decide) (printable_quote _)
  cases later : change.tail with
  | none => exact .single (printable_field depth (by decide) message)
  | some decoded =>
      have known : KnownNotes (notes decoded) := by
        rw [later] at tail
        exact KnownNotes.flat_map_iff.mp tail decoded List.mem_cons_self
      exact PrintableLines.cons_iff.mpr
        ⟨printable_field depth quoted message, printable_tail depth known⟩

end Bodies

namespace Chunk

variable {suite : Suite} {settings : Settings} {chunk : Chunk}

theorem printable_body (body : Bytes) (kind : Option ChunkKind) :
    PrintableLines (bodyLines settings body kind) := by
  cases kind with
  | none => exact .plain 1 body (by decide)
  | some kind =>
      cases kind with
      | document =>
          rw [bodyLines]
          exact printable_document 1 (known_document _ body)
      | change =>
          rw [bodyLines]
          exact printable_change 1 (known_change _ body)
      | compressed => exact .plain 1 body (by decide)

theorem printable_magic_line (magic : Field Bool) : Printable (magicLine magic).comment := by
  have valid : Printable "magic bytes (valid)" := by decide
  have invalid : Printable "ERROR: invalid magic bytes" := by decide
  rw [magicLine]
  split
  · exact valid
  · exact invalid

theorem printable_checksum_line (input : Bytes) (verdict : Verdict) :
    Printable (checksumLine input verdict).comment := by
  cases verdict with
  | valid =>
      have comment : Printable "checksum (valid)" := by decide
      exact comment
  | notValidated =>
      have comment : Printable "checksum (not validated)" := by decide
      exact comment
  | mismatch severity expected =>
      have label : Printable (verdictLabel severity) := by
        cases severity <;> decide
      exact (label.append (by decide)).append (printable_problem _)

theorem printable_kind_line (kindByte : Field UInt8) : Printable (kindLine kindByte).comment := by
  show Printable (kindComment (ChunkKind.ofByte? kindByte.value))
  cases ChunkKind.ofByte? kindByte.value with
  | none => decide
  | some kind => cases kind <;> decide

theorem known_length {input rest : Bytes} (parsed : parse suite input = .ok (chunk, rest)) :
    KnownNotes (notes chunk.length) := by
  obtain ⟨m0, m1, m2, m3, stored, kindByte, covered, -, parts⟩ := parse_eq_ok parsed
  rw [← congrArg (fun found => found.1.length) parts, KnownNotes.field_iff]
  refine KnownParts.append_iff.mpr ⟨.whole_fault _, ?_⟩
  split
  · exact .nil
  · exact .error _

theorem printable_lines {input rest : Bytes} (settings : Settings)
    (parsed : parse suite input = .ok (chunk, rest)) :
    PrintableLines (chunk.lines suite settings) := by
  simp only [lines, PrintableLines.append_iff, PrintableLines.cons_iff]
  exact ⟨⟨printable_magic_line _, printable_checksum_line _ _, printable_kind_line _,
    printable_count 0 (by decide) (known_length parsed), .nil⟩, printable_body _ _⟩

end Chunk

/-- Whatever the input holds, no comment of its listing needs an escape. -/
theorem printable_annotate (suite : Suite) (settings : Settings) (input : Bytes) :
    PrintableLines (annotate suite settings input) := by
  rw [annotate]
  induction input using stream_induction suite with
  | nil =>
      rw [split_stream_nil]
      exact .nil
  | fragment input nonempty short =>
      have comment : Printable tooShortComment := by decide
      rw [split_stream_fragment nonempty short]
      exact .single comment
  | chunk input found rest parsed induction =>
      rw [split_stream_chunk parsed]
      exact PrintableLines.append_iff.mpr
        ⟨Chunk.printable_lines settings parsed, induction⟩

end Chunkscope
