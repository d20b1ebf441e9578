import Chunkscope.Proofs.Listing.Comments
import Chunkscope.Proofs.Listing.Reassembly

/-!
# The text form reads back

Each line of the text form writes its bytes before its first double slash, and no comment holds a
line break, in the widest sense of the word. So a reader that cuts the text into lines, drops what
stands behind a double slash and reads the numbers before it gets the input back.
-/

namespace Chunkscope

namespace Line

/-- What stands before the first double slash, all of it when there is none. -/
def beforeComment : List Char → List Char
  | [] => []
  | c :: rest => if c = '/' ∧ rest.head? = some '/' then [] else c :: beforeComment rest

/-- The byte that a decimal number names; blanks may stand before it. -/
def byte? (part : List Char) : Option UInt8 :=
  let digits := part.dropWhile fun c => c = ' '
  let value := Nat.ofDigitChars 10 digits 0
  if digits ≠ [] ∧ digits.all Char.isDigit ∧ value < 256 then some (UInt8.ofNat value) else none

/-- Every number has a comma behind it, so only blanks may stand in the last part. -/
def bytesOfParts? : List (List Char) → Option Bytes
  | [] => none
  | [last] => if last.all fun c => c = ' ' then some [] else none
  | part :: parts => do
      let byte ← byte? part
      let later ← bytesOfParts? parts
      some (byte :: later)

/-- Reads the bytes of a line of the text form. -/
def bytes? (line : List Char) : Option Bytes := bytesOfParts? ((beforeComment line).splitOn ',')

/-- What a line of the text form writes for its bytes. -/
def numbers (input : Bytes) : List Char :=
  input.flatMap fun byte => Nat.toDigits 10 byte.toNat ++ [',', ' ']

/-- The characters of a line of the text form, without the line break at its end. -/
def written (indent : Nat) (line : Line) : List Char :=
  List.replicate (line.depth * indent) ' ' ++ numbers line.bytes ++
    '/' :: '/' :: ' ' :: line.comment.toList

theorem to_list_blanks (count : Nat) : ("".pushn ' ' count).toList = List.replicate count ' ' := by
  rw [String.pushn_eq_repeat_push]
  induction count with
  | zero => rfl
  | succ count induction =>
      rw [Nat.repeat, String.toList_push, induction, List.replicate_succ']

theorem to_list_text (indent : Nat) (line : Line) :
    (line.text indent).toList = written indent line ++ ['\n'] := by
  have numbered : (String.join (line.bytes.map fun byte => toString byte.toNat ++ ", ")).toList =
      numbers line.bytes := by
    rw [String.toList_join, List.flatMap_map, numbers]
    apply List.flatMap_congr
    intro byte _
    rw [String.toList_append]
    congr 1
    exact Nat.toList_repr
  simp only [text, written, String.toList_append, to_list_blanks, numbered, List.append_assoc]
  rfl

theorem before_comment_append {front : List Char} (rest : List Char) (free : '/' ∉ front) :
    beforeComment (front ++ '/' :: '/' :: rest) = front := by
  induction front with
  | nil => rfl
  | cons c front induction =>
      rw [List.mem_cons, not_or] at free
      have other : ¬ (c = '/' ∧ (front ++ '/' :: '/' :: rest).head? = some '/') := fun slashes =>
        free.1 slashes.1.symm
      rw [List.cons_append, beforeComment, if_neg other, induction free.2]

theorem not_mem_digits {c : Char} (other : c.isDigit = false) (value : Nat) :
    c ∉ Nat.toDigits 10 value := by
  intro member
  rw [Nat.isDigit_of_mem_toDigits (by decide) (by decide) member] at other
  cases other

theorem not_mem_replicate_blank {c : Char} (other : c ≠ ' ') (count : Nat) :
    c ∉ List.replicate count ' ' :=
  fun member => other (List.eq_of_mem_replicate member)

/-- A number behind blanks, as a line writes each of its bytes. -/
theorem byte_written (blanks : Nat) (byte : UInt8) :
    byte? (List.replicate blanks ' ' ++ Nat.toDigits 10 byte.toNat) = some byte := by
  have nonempty : Nat.toDigits 10 byte.toNat ≠ [] := Nat.toDigits_ne_nil
  have skipped : (List.replicate blanks ' ' ++ Nat.toDigits 10 byte.toNat).dropWhile
      (fun c => c = ' ') = Nat.toDigits 10 byte.toNat := by
    rw [List.dropWhile_append_of_pos (by simp)]
    have free := not_mem_digits (c := ' ') rfl byte.toNat
    obtain ⟨first, rest, digits⟩ := List.exists_cons_of_ne_nil nonempty
    rw [digits, List.mem_cons, not_or] at free
    rw [digits, List.dropWhile_cons_of_neg (by simpa using Ne.symm free.1)]
  have digits : (Nat.toDigits 10 byte.toNat).all Char.isDigit = true :=
    List.all_eq_true.mpr fun c => Nat.isDigit_of_mem_toDigits (by decide) (by decide)
  simp only [byte?, skipped, Nat.ofDigitChars_ten_toDigits]
  rw [if_pos ⟨nonempty, digits, byte.toNat_lt⟩, UInt8.ofNat_toNat]

theorem bytes_of_parts_cons (part : List Char) {parts : List (List Char)} (more : parts ≠ []) :
    bytesOfParts? (part :: parts) =
      (byte? part).bind fun byte => (bytesOfParts? parts).bind fun later => some (byte :: later) := by
  cases parts with
  | nil => exact absurd rfl more
  | cons other parts => rfl

/-- Each number is a part of its own, and the last comma leaves a part of blanks. -/
theorem bytes_of_numbers (blanks : Nat) (input : Bytes) :
    bytesOfParts? ((List.replicate blanks ' ' ++ numbers input).splitOn ',') = some input := by
  induction input generalizing blanks with
  | nil =>
      have free := not_mem_replicate_blank (c := ',') (by decide) blanks
      rw [numbers, List.flatMap_nil, List.append_nil, List.splitOn_eq_singleton free]
      simp [bytesOfParts?]
  | cons byte input induction =>
      have free : ∀ c ∈ List.replicate blanks ' ' ++ Nat.toDigits 10 byte.toNat,
          (c == ',') = false := by
        intro c member
        rw [beq_eq_false_iff_ne]
        rintro rfl
        rcases List.mem_append.mp member with blank | digit
        · exact not_mem_replicate_blank (by decide) blanks blank
        · exact not_mem_digits rfl byte.toNat digit
      have shape : List.replicate blanks ' ' ++ numbers (byte :: input) =
          (List.replicate blanks ' ' ++ Nat.toDigits 10 byte.toNat) ++
            ',' :: (List.replicate 1 ' ' ++ numbers input) := by
        simp [numbers]
      have later := induction 1
      rw [List.splitOn] at later ⊢
      rw [shape, List.splitOnP_append_cons_of_forall_mem free ',' rfl,
        bytes_of_parts_cons _ (List.splitOnP_ne_nil _ _), byte_written, later]
      rfl

theorem slash_not_mem_numbers (input : Bytes) : '/' ∉ numbers input := by
  intro member
  obtain ⟨byte, -, written⟩ := List.mem_flatMap.mp member
  rcases List.mem_append.mp written with digit | separator
  · exact not_mem_digits rfl byte.toNat digit
  · exact absurd separator (by decide)

/-- Whatever the comment of a line says, its bytes are read back. -/
theorem bytes_written (indent : Nat) (line : Line) :
    bytes? (written indent line) = some line.bytes := by
  have free : '/' ∉ List.replicate (line.depth * indent) ' ' ++ numbers line.bytes := by
    rw [List.mem_append, not_or]
    exact ⟨not_mem_replicate_blank (by decide) _, slash_not_mem_numbers line.bytes⟩
  rw [bytes?, written, before_comment_append _ free, bytes_of_numbers]

theorem printable_numbers (input : Bytes) : Text.AllPrintable (numbers input) := by
  apply Text.all_printable_flat_map
  intro byte _
  exact Text.all_printable_append.mpr
    ⟨Text.printable_digits (by decide) (by decide) byte.toNat, by decide⟩

/-- A line with a printable comment is printable as a whole. -/
theorem printable_written (indent : Nat) {line : Line} (printable : Text.Printable line.comment) :
    Text.AllPrintable (written indent line) := by
  have blanks := Text.all_printable_replicate (c := ' ') (by decide) (line.depth * indent)
  simp only [written, Text.all_printable_append, Text.all_printable_cons]
  exact ⟨⟨blanks, printable_numbers line.bytes⟩, by decide, by decide, by decide, printable⟩

end Line

/-- Lines without line breaks, each with one behind it, are cut apart again. -/
theorem split_lines {ends : Char → Bool} (newline : ends '\n' = true) {lines : List (List Char)}
    (whole : ∀ line ∈ lines, ∀ c ∈ line, ends c = false) :
    (lines.flatMap fun line => line ++ ['\n']).splitOnP ends = lines ++ [[]] := by
  induction lines with
  | nil => rfl
  | cons line lines induction =>
      rw [List.forall_mem_cons] at whole
      rw [List.flatMap_cons, List.append_assoc, List.singleton_append,
        List.splitOnP_append_cons_of_forall_mem whole.1 '\n' newline, induction whole.2,
        List.cons_append]

namespace Listing

/-- The lines of the text form, from the one that opens it to the one that closes it. -/
def written (indent : Nat) (listing : Listing) : List (List Char) :=
  "[]byte\x7b".toList :: listing.map (Line.written indent) ++ ["\x7d".toList]

theorem to_list_text (indent : Nat) (listing : Listing) :
    (listing.text indent).toList = (listing.written indent).flatMap fun line => line ++ ['\n'] := by
  have inner : (listing.map (Line.text indent)).flatMap String.toList =
      (listing.map (Line.written indent)).flatMap fun line => line ++ ['\n'] := by
    simp only [List.flatMap_map, Line.to_list_text]
  simp only [text, written, String.toList_append, String.toList_join, inner, List.flatMap_append]
  rfl

theorem printable_written (indent : Nat) {listing : Listing} (printable : PrintableLines listing) :
    ∀ line ∈ listing.written indent, Text.AllPrintable line := by
  have opening : Text.Printable "[]byte\x7b" := by decide
  have closing : Text.Printable "\x7d" := by decide
  intro line member
  rcases List.mem_append.mp member with before | last
  · rcases List.mem_cons.mp before with rfl | middle
    · exact opening
    · obtain ⟨found, within, rfl⟩ := List.mem_map.mp middle
      exact Line.printable_written indent (printable found within)
  · rw [List.mem_singleton.mp last]
    exact closing

theorem bytes_written (indent : Nat) (listing : Listing) :
    (listing.map (Line.written indent)).map Line.bytes? =
      listing.map fun line => some line.bytes := by
  rw [List.map_map]
  exact List.map_congr_left fun line _ => Line.bytes_written indent line

theorem map_m_bytes_written (indent : Nat) (listing : Listing) :
    (listing.map (Line.written indent)).mapM Line.bytes? = some (listing.map Line.bytes) := by
  induction listing with
  | nil => rfl
  | cons line listing induction =>
      rw [List.map_cons, List.mapM_cons, Line.bytes_written, induction]
      rfl

end Listing

/-- The text form of a listing is a line that opens it, one line for each line of the listing and a
line that closes it. Reading the numbers before the first double slash of each line in the middle
gives the bytes of that line, and all of them together are the input. A reader may end lines at
other characters than a newline, as long as they are ones that are not printable. -/
theorem text_reads_back (suite : Suite) (settings : Settings) (indent : Nat) (input : Bytes)
    {ends : Char → Bool} (newline : ends '\n' = true)
    (breaks : ∀ c, ends c = true → Text.isUnprintable c = true) :
    ∃ middle : List (List Char),
      ((annotate suite settings input).text indent).toList.splitOnP ends =
        "[]byte\x7b".toList :: middle ++ ["\x7d".toList, []] ∧
      middle.map Line.bytes? = (annotate suite settings input).map (fun line => some line.bytes) ∧
      (middle.mapM Line.bytes?).map List.flatten = some input := by
  have printable := Listing.printable_written indent (printable_annotate suite settings input)
  have whole : ∀ line ∈ (annotate suite settings input).written indent, ∀ c ∈ line,
      ends c = false := by
    intro line member c within
    rw [Bool.eq_false_iff]
    intro ended
    have shown := printable line member c within
    rw [breaks c ended] at shown
    cases shown
  have covered : ((annotate suite settings input).map Line.bytes).flatten = input := by
    have reassembled : spanned (annotate suite settings input) = input := by
      rw [annotate, spanned_flat_map fun piece _ => spanned_piece_lines suite settings piece,
        spanned_split_stream]
    rw [← List.flatMap_def]
    exact reassembled
  refine ⟨(annotate suite settings input).map (Line.written indent), ?_,
    Listing.bytes_written indent _, ?_⟩
  · rw [Listing.to_list_text, split_lines newline whole, Listing.written, List.append_assoc]
    rfl
  · rw [Listing.map_m_bytes_written, Option.map_some, covered]

/-- The characters that Unicode lets a reader take for the end of a line. -/
def Text.lineBreaks : List Char :=
  ['\n', '\x0b', '\x0c', '\r', '\x85', '\u2028', '\u2029']

theorem Text.unprintable_line_breaks : lineBreaks.all isUnprintable = true := by
  decide +kernel

/-- A change whose message breaks lines, opens comments, lists numbers and closes quotes. -/
def breakingDraft : ChangeDraft where
  dependencies := []
  actor := [0xab, 0xcd]
  sequenceNumber := 1
  startOperation := 1
  time := 0
  message := Utf8.encode "1, // 2,\n3, \u2028\"4, // \r\x85\x7d"
  otherActors := []
  operationColumns := []
  extra := [7, 8]

theorem text_reads_back_of_breaking_message :
    Text.lineBreaks.contains '\n' = true ∧
    (∀ c, Text.lineBreaks.contains c = true → Text.isUnprintable c = true) ∧
    ∃ middle : List (List Char),
      ((annotate .standard .default (breakingDraft.chunk .standard)).text 2).toList.splitOnP
          Text.lineBreaks.contains =
        "[]byte\x7b".toList :: middle ++ ["\x7d".toList, []] ∧
      middle.map Line.bytes? =
        (annotate .standard .default (breakingDraft.chunk .standard)).map
          (fun line => some line.bytes) ∧
      (middle.mapM Line.bytes?).map List.flatten = some (breakingDraft.chunk .standard) := by
  have newline : Text.lineBreaks.contains '\n' = true := by decide
  have breaks : ∀ c, Text.lineBreaks.contains c = true → Text.isUnprintable c = true := by
    intro c found
    exact List.all_eq_true.mp Text.unprintable_line_breaks c (List.contains_iff_mem.mp found)
  exact ⟨newline, breaks, text_reads_back .standard .default 2 (breakingDraft.chunk .standard)
    newline breaks⟩

end Chunkscope
