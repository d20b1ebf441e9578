import Chunkscope.Proofs.Column.CleanValues

/-!
# Where the values of a column lie

A value lies behind the bytes that the entries before it declare and is as long as its own entry
declares. The sums are exact, however large the declared lengths are. The first value that goes past
the end of the column takes what is left and is the last one. Only there is the column said to be
too short.
-/

namespace Chunkscope

/-- Whether a diagnostic is about an input that ended too early. -/
def Diagnostic.tellsEnd (diagnostic : Diagnostic) : Bool :=
  match diagnostic.problem with
  | .notEnoughBytes _ _ => true
  | .missingItems _ => true
  | _ => false

namespace DecodedValues

/-- What is said of a column that has too few bytes for an entry, with some entries behind it. -/
def shortage (entry : MetaEntry) (available behind : Nat) : List Diagnostic :=
  .error (.notEnoughBytes entry.length available) ::
    if 0 < behind then [.error (.missingItems (UInt64.ofNat behind))] else []

/-- The field of a value has these bytes, and says this about the end of the column. -/
structure LiesAt (entry : MetaEntry) (span : Bytes) (said : List Diagnostic)
    (field : Field Value) : Prop where
  bytes_eq : field.bytes = span
  value_eq : field.value = (Value.decode span entry).1
  said_eq : field.diagnostics.filter Diagnostic.tellsEnd = said

/-- The values of a column lie one behind the other as the entries say, up to the first one that
goes past the end of the input. -/
structure Sliced (entries : List MetaEntry) (input : Bytes) (decoded : DecodedValues) : Prop where
  whole : ∀ index entry, entries[index]? = some entry →
    offset MetaEntry.length entries (index + 1) ≤ input.length →
      ∃ field, decoded.values[index]? = some field ∧
        LiesAt entry
          ((input.drop (offset MetaEntry.length entries index)).take entry.length.toNat) [] field
  complete : offset MetaEntry.length entries entries.length ≤ input.length →
    decoded.values.length = entries.length ∧
      decoded.extra = input.drop (offset MetaEntry.length entries entries.length)
  short : input.length < offset MetaEntry.length entries entries.length →
    ∃ index entry field, entries[index]? = some entry ∧
      offset MetaEntry.length entries index ≤ input.length ∧
      input.length < offset MetaEntry.length entries (index + 1) ∧
      decoded.values[index]? = some field ∧ decoded.values.length = index + 1 ∧
      LiesAt entry (input.drop (offset MetaEntry.length entries index))
        (shortage entry (input.length - offset MetaEntry.length entries index)
          (entries.length - (index + 1))) field ∧
      decoded.extra = []
  covers : spanned decoded.values ++ decoded.extra = input

section Ends

/-- No value by itself says anything about the end of its column. -/
theorem value_tells_no_end (input : Bytes) (entry : MetaEntry) :
    (Value.decode input entry).2.filter Diagnostic.tellsEnd = [] := by
  have fault (part : Option String) (fault : Option Varint.Fault) :
      (Diagnostic.ofFault part fault).filter Diagnostic.tellsEnd = [] := by
    cases fault <;> rfl
  have length (accounted : Nat) :
      (Value.lengthProblems accounted entry).filter Diagnostic.tellsEnd = [] := by
    unfold Value.lengthProblems
    split <;> rfl
  have text : (textProblems input).filter Diagnostic.tellsEnd = [] := by
    unfold textProblems
    split <;> rfl
  have number (part : Option String) (found : Option Varint.Fault) (accounted : Nat) :
      (Diagnostic.ofFault part found ++ Value.lengthProblems accounted entry).filter
        Diagnostic.tellsEnd = [] := by
    rw [List.filter_append, fault, length, List.append_nil]
  unfold Value.decode
  cases entry.kind? with
  | none => rfl
  | some kind =>
      cases kind with
      | null => exact length 0
      | booleanFalse => exact length 0
      | booleanTrue => exact length 0
      | unsigned => exact number _ _ _
      | signed => exact number _ _ _
      | counter => exact number _ _ _
      | timestamp => exact number _ _ _
      | float => exact length 8
      | string => exact text
      | bytes => rfl

variable {entry : MetaEntry} {input : Bytes}

theorem field_within (within : entry.length.toNat ≤ input.length) :
    LiesAt entry (input.take entry.length.toNat) []
      (field entry (window entry.length input)) := by
  rw [window_within within]
  exact ⟨rfl, rfl, value_tells_no_end _ entry⟩

theorem field_beyond (beyond : input.length < entry.length.toNat) {behind : Nat}
    (few : behind < 2 ^ 64) :
    LiesAt entry input (shortage entry input.length behind)
      ((field entry (window entry.length input)).add
        (Diagnostic.missing (UInt64.ofNat behind) 0)) := by
  have counted : (UInt64.ofNat behind).toNat = behind := UInt64.toNat_ofNat_of_lt' few
  have missing : (Diagnostic.missing (UInt64.ofNat behind) 0).filter Diagnostic.tellsEnd =
      if 0 < behind then [.error (.missingItems (UInt64.ofNat behind))] else [] := by
    unfold Diagnostic.missing
    rw [counted]
    split
    · simp [Diagnostic.tellsEnd, Diagnostic.error]
    · rfl
  rw [window_beyond beyond]
  refine ⟨rfl, rfl, ?_⟩
  simp only [field, Field.add, List.filter_append, value_tells_no_end, missing, List.append_nil]
  rfl

end Ends

section Walking

variable {entry : MetaEntry} {input : Bytes} {later : List MetaEntry} {field : Field Value}

theorem Sliced.cons {decoded : DecodedValues} (within : entry.length.toNat ≤ input.length)
    (first : LiesAt entry (input.take entry.length.toNat) [] field)
    (rest : Sliced later (input.drop entry.length.toNat) decoded) :
    Sliced (entry :: later) input ⟨field :: decoded.values, decoded.extra⟩ := by
  have left : (input.drop entry.length.toNat).length = input.length - entry.length.toNat :=
    List.length_drop
  constructor
  case whole =>
    intro index described found fits
    cases index with
    | zero =>
        obtain rfl : entry = described := Option.some.inj found
        exact ⟨field, rfl, first⟩
    | succ index =>
        rw [offset_cons] at fits ⊢
        rw [← List.drop_drop]
        exact rest.whole index described found (by omega)
  case complete =>
    intro fits
    rw [offset_all_cons] at fits ⊢
    obtain ⟨count, extra⟩ := rest.complete (by omega)
    rw [← List.drop_drop]
    exact ⟨congrArg Nat.succ count, extra⟩
  case short =>
    intro beyond
    rw [offset_all_cons] at beyond
    obtain ⟨index, described, last, found, starts, ends, there, count, lies, extra⟩ :=
      rest.short (by omega)
    refine ⟨index + 1, described, last, found, ?_, ?_, there, congrArg Nat.succ count, ?_, extra⟩
    · rw [offset_cons]
      omega
    · rw [offset_cons]
      omega
    · rw [offset_cons, ← List.drop_drop, ← Nat.sub_sub, ← left, List.length_cons,
        Nat.add_sub_add_right]
      exact lies
  case covers =>
    rw [spanned_cons, List.append_assoc, rest.covers, Field.bytes_eq, first.bytes_eq,
      List.take_append_drop]

theorem Sliced.ended (beyond : input.length < entry.length.toNat)
    (last : LiesAt entry input (shortage entry input.length later.length) field) :
    Sliced (entry :: later) input ⟨[field], []⟩ := by
  constructor
  case whole =>
    intro index described _ fits
    rw [offset_cons] at fits
    omega
  case complete =>
    intro fits
    rw [offset_all_cons] at fits
    omega
  case short =>
    intro _
    refine ⟨0, entry, field, rfl, Nat.zero_le _, ?_, rfl, rfl, last, rfl⟩
    rw [offset_cons]
    omega
  case covers => simpa using last.bytes_eq

end Walking

/-- Values are cut off where their entries say, up to the first one that the input is too short for.
No list in memory has 2 ^ 64 elements. -/
theorem decode_slices_input {entries : List MetaEntry} (few : entries.length < 2 ^ 64)
    (input : Bytes) : Sliced entries input (decode entries input) := by
  induction entries generalizing input with
  | nil => exact ⟨by simp, by simp [decode, decodeOnto], by simp, bytes_decode [] input⟩
  | cons entry later induction =>
      have fewer : later.length < 2 ^ 64 := Nat.lt_of_succ_lt few
      by_cases within : entry.length.toNat ≤ input.length
      · have cutting := window_within within
        rw [decode_cons_whole (by rw [cutting]), cutting]
        exact .cons within (cutting ▸ field_within within) (induction fewer _)
      · have beyond := Nat.not_le.mp within
        have cutting := window_beyond beyond
        rw [decode_cons_short (by rw [cutting]), cutting]
        exact .ended beyond (cutting ▸ field_beyond beyond fewer)

/-- The two long values declare more than 2 ^ 64 bytes together. A value without bytes still is
decoded where the input has ended; the first long one is cut off and is the last. -/
theorem decode_slices_input_of_huge_lengths :
    ∃ entries : List MetaEntry,
      entries = [⟨2, 7⟩, ⟨0, 0⟩, ⟨0xffffffffffffffff, 7⟩, ⟨0xffffffffffffffff, 7⟩] ∧
      entries.length < 2 ^ 64 ∧ Sliced entries [1, 2] (decode entries [1, 2]) ∧
      (decode entries [1, 2]).values =
        [⟨[1, 2], .bytes [1, 2], []⟩, ⟨[], .null, []⟩,
          ⟨[], .bytes [],
            [.error (.notEnoughBytes 0xffffffffffffffff 0), .error (.missingItems 1)]⟩] :=
  ⟨_, rfl, by decide, decode_slices_input (by decide) [1, 2], by decide⟩

end DecodedValues

end Chunkscope
