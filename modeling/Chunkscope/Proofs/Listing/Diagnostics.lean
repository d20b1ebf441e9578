import Chunkscope.Proofs.Chunk.Splitting
import Chunkscope.Proofs.Listing.Notes
import Chunkscope.Proofs.Listing.Reassembly

/-!
# A listing hides no diagnostic

The lines of every part of a body render the notes of that part, so the lines of a body claim an
error exactly when a field of it holds one. The four lines before a body claim one exactly when the
frame holds one, and only a fragment is an error in itself.
-/

namespace Chunkscope

section Parts

variable (depth : Nat)

theorem rendered_actor_lines (actor : Actor) : Rendered (notes actor) (actor.lines depth) :=
  (Rendered.field depth _ actor.length).append (Rendered.field depth _ actor.id)

theorem rendered_actor_table_lines (table : ActorTable) :
    Rendered (notes table) (table.lines depth) := by
  have actors : Rendered (notesOf table.actors)
      (table.actors.flatMap (Actor.lines (depth + 1))) := by
    apply Rendered.flat_map
    intro actor _
    exact rendered_actor_lines (depth + 1) actor
  exact actors.field_cons depth _ table.count

theorem rendered_heads_lines (heads : Heads) : Rendered (notes heads) (heads.lines depth) := by
  have hashes := Rendered.fields (depth + 1) (fun head => headComment head.value) heads.hashes
  exact hashes.field_cons depth _ heads.count

theorem rendered_descriptor_lines (descriptors : ColumnDescriptors) :
    Rendered (notes descriptors) (descriptors.lines depth) := by
  have columns := Rendered.fields (depth + 1) (fun column => column.value.comment)
    descriptors.columns
  exact columns.field_cons depth _ descriptors.count

theorem rendered_run_lines {Step Item : Type} (wording : RunWording Step Item)
    (run : Run Step Item) : Rendered (notes run) (run.lines wording depth) := by
  cases run with
  | null nulls => exact Rendered.field depth _ nulls
  | repeated step => exact Rendered.field depth _ step
  | literal header items =>
      have payloads := Rendered.fields (depth + 1) (fun item => wording.item item.value) items
      exact payloads.field_cons depth _ header

theorem rendered_runs_lines {Step Item : Type} (wording : RunWording Step Item)
    (runs : List (Run Step Item)) :
    Rendered (notesOf runs) (runs.flatMap (Run.lines wording depth)) := by
  apply Rendered.flat_map
  intro run _
  exact rendered_run_lines depth wording run

/-- The bytes behind the last value have a line of their own, which only warns of them. -/
theorem rendered_value_lines (decoded : DecodedValues) :
    Rendered (notesOf decoded.values) (decoded.lines depth) := by
  have values := Rendered.fields depth (fun value => value.value.message) decoded.values
  have extra : Rendered [] (if decoded.extra = [] then [] else
      [(⟨depth, decoded.extra, "extra bytes in value column", some .warning⟩ : Line)]) := by
    split
    · exact .nil
    · exact .other (by simp) .nil
  have both := values.append extra
  rw [List.append_nil] at both
  exact both

theorem rendered_column_body_lines (body : ColumnBody) :
    Rendered (notes body) (body.lines depth) := by
  cases body with
  | compressed input => exact .other (by simp [Line.plain]) .nil
  | integers runs => exact rendered_runs_lines depth _ runs
  | deltas runs => exact rendered_runs_lines depth _ runs
  | booleans runs => exact Rendered.fields depth (fun run => booleanComment run.value) runs
  | strings runs => exact rendered_runs_lines depth _ runs
  | valueMeta runs => exact rendered_runs_lines depth _ runs
  | values decoded => exact rendered_value_lines depth decoded
  | missingMeta field => exact Rendered.field depth _ field

/-- What is wrong with a column as a whole stands on the line of its title. -/
theorem rendered_column_lines (data : ColumnData) :
    Rendered (notes data) (data.lines depth) :=
  .shown (shown_by_annotated depth data.title [] " column" data.diagnostics)
    (rendered_column_body_lines (depth + 1) data.body)

theorem rendered_columns_lines (columns : List ColumnData) :
    Rendered (notesOf columns) (columns.flatMap (ColumnData.lines depth)) := by
  apply Rendered.flat_map
  intro data _
  exact rendered_column_lines depth data

theorem rendered_head_index_lines (indexes : HeadIndexes) :
    Rendered (notes indexes) (indexes.lines depth) := by
  cases indexes with
  | omitted => exact .other (by simp [Line.plain]) .nil
  | present indexes =>
      refine .other (by simp [Line.plain]) ?_
      show Rendered (notesOf (indexes.map Prod.snd)) _
      induction indexes with
      | nil => exact .nil
      | cons entry indexes induction =>
          exact (Rendered.field (depth + 1) _ entry.2).append induction

theorem rendered_trailing_lines (comment : String) (input : Bytes) :
    Rendered (notes (trailingField input)) (trailingLines depth comment (trailingField input)) := by
  rw [trailingLines]
  split
  · next none =>
      have clean : (trailingField input).diagnostics = [] := if_pos none
      exact .silent none clean .nil
  · exact Rendered.field depth comment (trailingField input)

theorem rendered_header_lines (header : ChangeHeader) :
    Rendered (notes header) (header.lines depth) := by
  have numbers := (((Rendered.field depth ("message len = " ++
    toString header.messageLength.value.toNat) header.messageLength).field_cons depth
    ("time = " ++ Timestamp.text header.time.value) header.time).field_cons depth
    ("start op = " ++ toString header.startOperation.value.toNat)
    header.startOperation).field_cons depth
    ("sequence number = " ++ toString header.sequenceNumber.value.toNat) header.sequenceNumber
  have whole := ((rendered_heads_lines depth header.heads).append
    (rendered_actor_lines depth header.actor)).append numbers
  simp only [← List.append_assoc] at whole
  exact whole

end Parts

section Bodies

variable (depth : Nat) (context : Context)

theorem rendered_empty_document_lines :
    Rendered (notes Document.empty) (Document.empty.lines depth) := by
  have nothing : Rendered (notes Document.empty) [] :=
    .silent rfl rfl (.silent rfl rfl (.silent rfl rfl (.silent rfl rfl (.silent rfl rfl .nil))))
  exact .other (by simp [Line.plain]) nothing

theorem rendered_document_lines (body : Bytes) :
    Rendered (notes (Document.decode context body).1)
      ((Document.decode context body).1.lines depth) := by
  rw [Document.decode]
  split
  · exact rendered_empty_document_lines depth
  · next nonempty =>
      rw [Document.lines, if_neg (by simp [is_empty_decode_parts context.reset nonempty])]
      apply Rendered.append
      · apply Rendered.append
        · apply Rendered.append
          · apply Rendered.append
            · apply Rendered.append
              · apply Rendered.append
                · exact (rendered_actor_table_lines depth _).append (rendered_heads_lines depth _)
                · exact rendered_descriptor_lines depth _
              · exact rendered_descriptor_lines depth _
            · exact rendered_columns_lines depth _
          · exact rendered_columns_lines depth _
        · exact rendered_head_index_lines depth _
      · exact rendered_trailing_lines depth _ _

theorem rendered_tail_lines (input : Bytes) :
    Rendered (notes (ChangeTail.decode context input).1)
      ((ChangeTail.decode context input).1.lines depth) := by
  apply Rendered.append
  · apply Rendered.append
    · exact (rendered_actor_table_lines depth _).append (rendered_descriptor_lines depth _)
    · exact rendered_columns_lines depth _
  · exact rendered_trailing_lines depth _ _

theorem rendered_change_of_tail {change : Change}
    (rendered : ∀ tail ∈ change.tail, Rendered (notes tail) (tail.lines depth)) :
    Rendered (notes change) (change.lines depth) := by
  show Rendered (notes change.header ++ notes change.message ++ notesOf change.tail.toList) _
  rw [Change.lines, List.append_assoc]
  apply (rendered_header_lines depth change.header).append
  cases decoded : change.tail with
  | none => exact Rendered.field depth _ change.message
  | some tail =>
      have later : Rendered (notesOf [tail]) (tail.lines depth) := by
        rw [notesOf, List.flatMap_singleton]
        exact rendered tail decoded
      exact later.field_cons depth _ change.message

theorem tail_of_decode {body : Bytes} {tail : ChangeTail}
    (decoded : (Change.decode context body).1.tail = some tail) :
    ∃ input, (ChangeTail.decode context.reset input).1 = tail := by
  rw [Change.decode_eq, Change.ofText] at decoded
  split at decoded
  · cases decoded
  · exact ⟨_, Option.some.inj decoded⟩

theorem rendered_change_lines (body : Bytes) :
    Rendered (notes (Change.decode context body).1)
      ((Change.decode context body).1.lines depth) := by
  apply rendered_change_of_tail
  intro tail decoded
  obtain ⟨input, rfl⟩ := tail_of_decode context decoded
  exact rendered_tail_lines depth context.reset input

end Bodies

namespace Chunk

/-- The notes of the body, which only documents and changes have. -/
def bodyNotes (settings : Settings) (chunk : Chunk) : List Note :=
  match chunk.kind? with
  | some .document => notes (Document.decode (.new settings.limit) chunk.body).1
  | some .change => notes (Change.decode (.new settings.limit) chunk.body).1
  | _ => []

theorem rendered_body_lines (settings : Settings) (chunk : Chunk) :
    Rendered (chunk.bodyNotes settings) (bodyLines settings chunk.body chunk.kind?) := by
  rw [bodyNotes]
  cases chunk.kind? with
  | none => exact .other (by simp [Line.plain]) .nil
  | some kind =>
      cases kind with
      | document => exact rendered_document_lines 1 _ chunk.body
      | change => exact rendered_change_lines 1 _ chunk.body
      | compressed => exact .other (by simp [Line.plain]) .nil

def frameLines (suite : Suite) (settings : Settings) (chunk : Chunk) : List Line :=
  [ magicLine chunk.magic,
    checksumLine chunk.checksum.bytes (chunk.verdict suite settings),
    kindLine chunk.kindByte,
    .ofCount 0 "length = " chunk.length ]

theorem lines_eq (suite : Suite) (settings : Settings) (chunk : Chunk) :
    chunk.lines suite settings =
      chunk.frameLines suite settings ++ bodyLines settings chunk.body chunk.kind? := rfl

theorem magic_line_severity (input : Bytes) :
    (magicLine (magicField input)).severity = some .error ↔
      (magicField input).diagnostics.any Diagnostic.isError = true := by
  rw [magicField]
  split
  · exact iff_of_false (by simp [magicLine, Field.clean, Line.plain]) (by simp [Field.clean])
  · exact iff_of_true rfl rfl

/-- A checksum that only the inflated body can confirm is never an error. -/
theorem unvalidated_line_severity (suite : Suite) (settings : Settings) (chunk : Chunk)
    (unvalidated : chunk.checksum.value = .notValidated) :
    (checksumLine chunk.checksum.bytes (chunk.verdict suite settings)).severity ≠
      some .error := by
  rw [verdict, unvalidated]
  by_cases verified : settings.verifyCompressed = true
  · simp only [verified, if_true]
    cases inflatedChecksum suite chunk.body with
    | error failure => simp [checksumLine, Line.plain]
    | ok expected =>
        by_cases same : expected = chunk.storedChecksum
        · simp [same, checksumLine, Line.plain]
        · simp [same, checksumLine]
  · simp [verified, checksumLine, Line.plain]

theorem checksum_line_severity (suite : Suite) (settings : Settings) {chunk : Chunk}
    {stored : Checksum} {status : ChecksumStatus}
    (found : chunk.checksum = checksumField stored status) :
    (checksumLine chunk.checksum.bytes (chunk.verdict suite settings)).severity = some .error ↔
      chunk.checksum.diagnostics.any Diagnostic.isError = true := by
  have told : chunk.checksum.value = status := by
    rw [found]
    cases status <;> rfl
  cases status with
  | valid =>
      rw [verdict, told, found]
      exact iff_of_false (by simp [checksumLine, Line.plain]) (by simp [checksumField, Field.clean])
  | mismatch expected =>
      rw [verdict, told, found]
      exact iff_of_true rfl rfl
  | notValidated =>
      have harmless := unvalidated_line_severity suite settings chunk told
      rw [found] at harmless ⊢
      exact iff_of_false harmless (by simp [checksumField, Field.clean])

theorem frame_lines_have_errors_iff {suite : Suite} {input rest : Bytes} {chunk : Chunk}
    (settings : Settings) (parsed : parse suite input = .ok (chunk, rest)) :
    Listing.hasErrors (chunk.frameLines suite settings) = true ↔
      chunk.diagnostics.any Diagnostic.isError = true := by
  obtain ⟨m0, m1, m2, m3, stored, kindByte, covered, -, parts⟩ := parse_eq_ok parsed
  have magicSaid : magicField [m0, m1, m2, m3] = chunk.magic :=
    congrArg (fun found => found.1.magic) parts
  have checksumSaid := congrArg (fun found => found.1.checksum) parts
  have magicLine := magic_line_severity [m0, m1, m2, m3]
  have checksumLine := checksum_line_severity suite settings checksumSaid.symm
  have kindLine : (kindLine chunk.kindByte).severity = some .error ↔
      chunk.kindByte.diagnostics.any Diagnostic.isError = true := worst_eq_error_iff _
  have lengthLine : (Line.ofCount 0 "length = " chunk.length).severity = some .error ↔
      chunk.length.diagnostics.any Diagnostic.isError = true := worst_eq_error_iff _
  rw [magicSaid] at magicLine
  simp only [frameLines, has_errors_cons, magicLine, checksumLine, kindLine, lengthLine,
    diagnostics, List.any_append, Bool.or_eq_true, or_assoc]
  simp [Listing.hasErrors]

theorem lines_have_errors_iff {suite : Suite} {input rest : Bytes} {chunk : Chunk}
    (settings : Settings) (parsed : parse suite input = .ok (chunk, rest)) :
    Listing.hasErrors (chunk.lines suite settings) = true ↔
      chunk.diagnostics.any Diagnostic.isError = true ∨
        ∃ note ∈ chunk.bodyNotes settings, note.diagnostics.any Diagnostic.isError = true := by
  rw [lines_eq, has_errors_append, frame_lines_have_errors_iff settings parsed,
    (rendered_body_lines settings chunk).has_errors_iff]

theorem body_notes_shown (suite : Suite) (settings : Settings) (chunk : Chunk) :
    AllShown (chunk.bodyNotes settings) (chunk.lines suite settings) :=
  (AllShown.nil (chunk.frameLines suite settings)).append
    (rendered_body_lines settings chunk).all_shown

end Chunk

section Streams

variable {suite : Suite} {input fragment : Bytes} {chunks : List Chunk}

theorem annotate_short_has_errors_iff (suite : Suite) (settings : Settings)
    (short : input.length < 10) :
    (annotate suite settings input).hasErrors = true ↔ input ≠ [] := by
  rw [annotate]
  by_cases empty : input = []
  · subst empty
    rw [split_stream_nil]
    exact iff_of_false (by simp [Listing.hasErrors]) (by simp)
  · rw [split_stream_fragment empty short]
    exact iff_of_true rfl empty

theorem annotate_has_errors_iff (settings : Settings)
    (parses : Parses suite input chunks fragment) :
    (annotate suite settings input).hasErrors = true ↔
      fragment ≠ [] ∨
      (∃ chunk ∈ chunks, chunk.diagnostics.any Diagnostic.isError = true) ∨
      ∃ chunk ∈ chunks, ∃ note ∈ chunk.bodyNotes settings,
        note.diagnostics.any Diagnostic.isError = true := by
  induction parses with
  | ended short =>
      rw [annotate_short_has_errors_iff suite settings short]
      simp
  | chunk parsed _ induction =>
      rw [annotate_of_parse suite settings parsed, has_errors_append, induction,
        Chunk.lines_have_errors_iff settings parsed]
      simp only [List.exists_mem_cons_iff]
      -- What the first chunk adds goes to the frames and to the bodies; the fragment is the same.
      rw [or_left_comm, or_or_or_comm]

theorem annotate_shows_body_notes (settings : Settings)
    (parses : Parses suite input chunks fragment) :
    AllShown (chunks.flatMap (Chunk.bodyNotes settings)) (annotate suite settings input) := by
  induction parses with
  | ended _ => exact .nil _
  | @chunk _ _ _ found _ parsed _ induction =>
      rw [annotate_of_parse suite settings parsed, List.flatMap_cons]
      exact (Chunk.body_notes_shown suite settings found).append induction

end Streams

/-- Every input is chunks, parsed one behind another, and a fragment too short for one. Its listing
claims an error exactly when the fragment has a byte or something in a frame or a body is one.
Whatever a body has to say, error or warning, stands on the line of the part concerned, and that
line is as serious as the most serious thing said on it. -/
theorem listing_hides_no_diagnostic (suite : Suite) (settings : Settings) (input : Bytes) :
    (∃ chunks fragment, Parses suite input chunks fragment) ∧
      ∀ chunks fragment, Parses suite input chunks fragment →
        spanned chunks ++ fragment = input ∧
        ((annotate suite settings input).hasErrors = true ↔
          (fragment ≠ [] ∧ fragment.length < 10) ∨
          (∃ chunk ∈ chunks, chunk.diagnostics.any Diagnostic.isError = true) ∨
          ∃ chunk ∈ chunks, ∃ note ∈ chunk.bodyNotes settings,
            note.diagnostics.any Diagnostic.isError = true) ∧
        AllShown (chunks.flatMap (Chunk.bodyNotes settings)) (annotate suite settings input) := by
  refine ⟨Parses.exists_of_input suite input, ?_⟩
  intro chunks fragment parses
  refine ⟨parses.covers, ?_, annotate_shows_body_notes settings parses⟩
  rw [annotate_has_errors_iff settings parses, and_iff_left parses.short]

/-- A document whose checksum is wrong, with two bytes behind it. Its only column announces two
differences, of which one is there and takes the running value below zero. -/
theorem listing_hides_no_diagnostic_of_damaged_document :
    ∃ (input : Bytes) (found : Chunk),
      input =
        [0x85, 0x6f, 0x4a, 0x83, 0, 0, 0, 0, 0, 8, 0, 0, 1, 35, 2, 0, 0x7e, 0x7f, 0x85, 0x6f] ∧
      Parses .standard input [found] [0x85, 0x6f] ∧
      found.diagnostics = [.error (.checksumMismatch ⟨115, 150, 248, 4⟩)] ∧
      (found.bodyNotes ⟨5, false⟩).filter (fun note => note.diagnostics ≠ []) =
        [⟨"", [0x7e], [.error (.missingItems 1)]⟩,
          ⟨"", [0x7f], [.warningIn "rle" .negativeRunningValue]⟩] ∧
      (annotate .standard ⟨5, false⟩ input).filterMap Line.severity =
        [.error, .error, .warning, .error] ∧
      (annotate .standard ⟨5, false⟩ input).hasErrors = true ∧
      AllShown (found.bodyNotes ⟨5, false⟩) (annotate .standard ⟨5, false⟩ input) := by
  have parses : Parses .standard
      [0x85, 0x6f, 0x4a, 0x83, 0, 0, 0, 0, 0, 8, 0, 0, 1, 35, 2, 0, 0x7e, 0x7f, 0x85, 0x6f]
      [⟨.clean magicBytes true, Chunk.checksumField ⟨0, 0, 0, 0⟩ (.mismatch ⟨115, 150, 248, 4⟩),
        .clean [0] 0, .clean [8] 8, [0, 0, 1, 35, 2, 0, 0x7e, 0x7f]⟩] [0x85, 0x6f] :=
    .chunk (by decide +kernel) (.ended (by decide))
  obtain ⟨-, errors, shown⟩ := (listing_hides_no_diagnostic .standard ⟨5, false⟩ _).2 _ _ parses
  rw [List.flatMap_singleton] at shown
  have reported := errors.mpr (.inl ⟨by decide, by decide⟩)
  exact ⟨_, _, rfl, parses, rfl, by decide +kernel, by decide +kernel, reported, shown⟩

end Chunkscope
