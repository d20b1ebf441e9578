import Chunkscope.Column.Value
import Chunkscope.Hex

/-!
# Texts that show as they are

A text is printable when none of its characters needs an escape. Everything a listing says is put
together from fixed words, numbers, hexadecimal digits and quoted text, and each of these is
printable: numbers because their digits are, quoted text because the quotes escape all else.
-/

namespace Chunkscope.Text

def AllPrintable (chars : List Char) : Prop := ∀ c ∈ chars, isUnprintable c = false

/-- Checks the characters of the list; trying every character there is would never end. -/
instance (chars : List Char) : Decidable (AllPrintable chars) :=
  decidable_of_iff (chars.all (fun c => !isUnprintable c) = true) (by simp [AllPrintable])

def Printable (text : String) : Prop := AllPrintable text.toList

instance (text : String) : Decidable (Printable text) :=
  inferInstanceAs (Decidable (AllPrintable text.toList))

@[simp] theorem all_printable_append {front back : List Char} :
    AllPrintable (front ++ back) ↔ AllPrintable front ∧ AllPrintable back :=
  List.forall_mem_append

@[simp] theorem all_printable_cons {c : Char} {rest : List Char} :
    AllPrintable (c :: rest) ↔ isUnprintable c = false ∧ AllPrintable rest :=
  List.forall_mem_cons

theorem all_printable_replicate {c : Char} (shown : isUnprintable c = false) (count : Nat) :
    AllPrintable (List.replicate count c) := by
  intro other member
  rw [List.eq_of_mem_replicate member]
  exact shown

theorem all_printable_flat_map {Piece : Type} {chars : Piece → List Char} {pieces : List Piece}
    (each : ∀ piece ∈ pieces, AllPrintable (chars piece)) :
    AllPrintable (pieces.flatMap chars) :=
  List.forall_mem_flatMap.mpr each

namespace Printable

variable {first second : String}

@[simp] theorem append_iff :
    Printable (first ++ second) ↔ Printable first ∧ Printable second := by
  simp only [Printable, String.toList_append, all_printable_append]

theorem append (left : Printable first) (right : Printable second) :
    Printable (first ++ second) :=
  append_iff.mpr ⟨left, right⟩

theorem of_list {chars : List Char} (each : AllPrintable chars) :
    Printable (String.ofList chars) := by
  rw [Printable, String.toList_ofList]
  exact each

theorem join {texts : List String} (each : ∀ text ∈ texts, Printable text) :
    Printable (String.join texts) := by
  induction texts with
  | nil => decide
  | cons text texts induction =>
      rw [String.join_cons]
      exact (each text List.mem_cons_self).append
        (induction fun other member => each other (List.mem_cons_of_mem text member))

theorem intercalate {separator : String} {texts : List String} (between : Printable separator)
    (each : ∀ text ∈ texts, Printable text) : Printable (separator.intercalate texts) := by
  induction texts with
  | nil =>
      rw [String.intercalate_nil]
      decide
  | cons text texts induction =>
      have here := each text List.mem_cons_self
      have later := induction fun other member => each other (List.mem_cons_of_mem text member)
      cases texts with
      | nil =>
          rw [String.intercalate_singleton]
          exact here
      | cons other texts =>
          rw [String.intercalate_cons_cons]
          exact (here.append between).append later

end Printable

section Numbers

theorem printable_digits {base : Nat} (several : 1 < base) (few : base ≤ 16) (value : Nat) :
    AllPrintable (Nat.toDigits base value) := by
  have single : ∀ digit : Fin 16, isUnprintable (Nat.digitChar digit) = false := by decide
  induction value using Nat.strongRecOn with
  | ind value induction =>
      rw [Nat.toDigits_eq_if several]
      split
      · next last => exact all_printable_cons.mpr ⟨single ⟨value, by omega⟩, by decide⟩
      · next more =>
          have smaller : value / base < value := Nat.div_lt_self (by omega) several
          have remainder : value % base < base := Nat.mod_lt value (by omega)
          exact all_printable_append.mpr ⟨induction _ smaller,
            all_printable_cons.mpr ⟨single ⟨value % base, by omega⟩, by decide⟩⟩

@[simp] theorem printable_nat (value : Nat) : Printable value.repr := by
  rw [Nat.repr_eq_ofList_toDigits]
  exact .of_list (printable_digits (by decide) (by decide) value)

@[simp] theorem printable_int (value : Int) : Printable value.repr := by
  cases value with
  | ofNat value => exact printable_nat value
  | negSucc value =>
      have minus : Printable "-" := by decide
      exact minus.append (printable_nat _)

@[simp] theorem printable_decimal_list (input : Bytes) : Printable (decimalList input) := by
  have numbers : Printable (", ".intercalate (input.map fun byte => toString byte.toNat)) := by
    apply Printable.intercalate (by decide)
    simp
  exact (Printable.append (by decide) numbers).append (by decide)

@[simp] theorem printable_hex (input : Bytes) : Printable (Hex.encode input) := by
  have single : ∀ digit : Fin 16, isUnprintable (Hex.digit digit) = false := by decide
  apply Printable.of_list
  apply all_printable_flat_map
  intro byte _
  have bound := byte.toNat_lt
  simp only [all_printable_cons]
  exact ⟨single ⟨byte.toNat / 16, by omega⟩, single ⟨byte.toNat % 16, by omega⟩, by decide⟩

@[simp] theorem printable_padded (width value : Nat) :
    Printable (Timestamp.padded width value) := by
  apply Printable.of_list
  exact all_printable_append.mpr ⟨all_printable_replicate (by decide) _, printable_nat value⟩

@[simp] theorem printable_year (year : Int) : Printable (Timestamp.yearText year) := by
  rw [Timestamp.yearText]
  split
  · exact printable_padded 4 _
  · refine Printable.append ?_ (printable_padded 4 _)
    split <;> decide

@[simp] theorem printable_date (milliseconds : Int) :
    Printable (Timestamp.dateText milliseconds) := by
  have fraction : Printable (if (milliseconds % 1000).toNat = 0 then ""
      else "." ++ Timestamp.padded 3 (milliseconds % 1000).toNat) := by
    split
    · decide
    · exact .append (by decide) (printable_padded 3 _)
  simp +decide only [Timestamp.dateText, Printable.append_iff, printable_year, printable_padded,
    fraction]

@[simp] theorem printable_time (milliseconds : Int64) :
    Printable (Timestamp.text milliseconds) := by
  simp only [Timestamp.text]
  split
  · decide
  · split
    · exact printable_date _
    · exact (printable_int _).append (by decide)

theorem printable_positional (whole : Nat) (exponent : Int) :
    Printable (Decimal.positional whole exponent) := by
  have zeros := all_printable_replicate (c := '0') (by decide)
  have digits : AllPrintable (toString whole).toList := printable_nat whole
  simp only [Decimal.positional]
  split
  · exact .of_list (all_printable_append.mpr ⟨digits, zeros _⟩)
  · have padded := all_printable_append.mpr
      ⟨zeros ((-exponent).toNat + 1 - (toString whole).toList.length), digits⟩
    apply Printable.of_list
    rw [all_printable_append, all_printable_cons]
    exact ⟨fun c member => padded c (List.mem_of_mem_take member), by decide,
      fun c member => padded c (List.mem_of_mem_drop member)⟩

@[simp] theorem printable_binary64 (bits : UInt64) : Printable (Binary64.text bits) := by
  have sign : Printable (if Binary64.isNegative bits then "-" else "") := by
    split <;> decide
  have magnitude : Printable (Binary64.magnitudeText bits) := by
    rw [Binary64.magnitudeText]
    split
    · exact printable_positional _ _
    · decide
  simp only [Binary64.text]
  split
  · decide
  · split
    · exact sign.append (by decide)
    · split
      · exact sign.append (by decide)
      · exact sign.append magnitude

end Numbers

section Quotes

theorem printable_code_point_escape (c : Char) : AllPrintable (codePointEscape c) := by
  simp only [codePointEscape, all_printable_append]
  exact ⟨⟨by decide, printable_digits (by decide) (by decide) _⟩, by decide⟩

theorem printable_escape (c : Char) : AllPrintable (escape c) := by
  simp only [escape]
  split
  · next marked => rcases marked with rfl | rfl <;> decide
  · split
    · decide
    · split
      · decide
      · split
        · decide
        · split
          · decide
          · split
            · exact printable_code_point_escape c
            · next shown => exact all_printable_cons.mpr ⟨by simpa using shown, by decide⟩

@[simp] theorem printable_quote (text : String) : Printable (quote text) := by
  have inside : AllPrintable (text.toList.flatMap escape) :=
    all_printable_flat_map fun c _ => printable_escape c
  apply Printable.of_list
  rw [all_printable_append, all_printable_cons]
  exact ⟨⟨by decide, inside⟩, by decide⟩

end Quotes

end Chunkscope.Text
