import Chunkscope.Proofs.Column.Values

/-!
# Clean values are their encodings

The bytes of a value are clean when they are the ones that the value is written as, under the entry
that it is written with: integers in their shortest form, eight bytes for a float, valid text, and
nothing at all for a value that its kind tells. Whatever else stands in a column is reported, and a
value that the column is too short for is never clean. What a value is written as is never reported.
-/

namespace Chunkscope

namespace Value

theorem code_of_kind {code : UInt8} {kind : ValueKind}
    (known : ValueKind.ofCode? code = some kind) : kind.code = code := by
  unfold ValueKind.ofCode? at known
  apply UInt8.toNat_inj.mp
  split at known <;> cases known <;> next number => exact number.symm

theorem length_problems_eq_nil_iff (accounted : Nat) (entry : MetaEntry) :
    lengthProblems accounted entry = [] ↔ accounted = entry.length.toNat := by
  unfold lengthProblems
  split <;> simp [*]

theorem text_problems_eq_nil_iff (input : Bytes) :
    textProblems input = [] ↔ Utf8.isValid input = true := by
  unfold textProblems
  split <;> simp [*]

section Clean

variable {input : Bytes} {entry : MetaEntry}

/-- A number that accounts for all bytes is written as all of them. -/
theorem encode_of_clean_unsigned (size : input.length = entry.length.toNat)
    (clean : (ofUnsigned input entry).2 = []) :
    (ofUnsigned input entry).1.encoding? = some (.unsigned, input) := by
  obtain ⟨faultless, whole⟩ := List.append_eq_nil_iff.mp clean
  have written := Varint.scan_unsigned_sound ((of_fault_eq_nil_iff _ _).mp faultless)
  have all : (Varint.scanUnsigned input).bytes = input := by
    apply List.IsPrefix.eq_of_length ⟨_, Varint.scan_unsigned_append input⟩
    exact ((length_problems_eq_nil_iff _ _).mp whole).trans size.symm
  exact congrArg (fun number => some (ValueKind.unsigned, number)) (written.symm.trans all)

theorem encode_of_clean_signed {build : Int64 → Value} {kind : ValueKind}
    (size : input.length = entry.length.toNat)
    (encodes : ∀ number, (build number).encoding? = some (kind, Varint.encodeSigned number))
    (clean : (ofSigned build input entry).2 = []) :
    (ofSigned build input entry).1.encoding? = some (kind, input) := by
  obtain ⟨faultless, whole⟩ := List.append_eq_nil_iff.mp clean
  have written := Varint.scan_signed_sound ((of_fault_eq_nil_iff _ _).mp faultless)
  have all : (Varint.scanSigned input).bytes = input := by
    apply List.IsPrefix.eq_of_length ⟨_, Varint.scan_signed_append input⟩
    exact ((length_problems_eq_nil_iff _ _).mp whole).trans size.symm
  apply (encodes _).trans
  exact congrArg (fun number => some (kind, number)) (written.symm.trans all)

theorem word_bytes_of_word (eight : input.length = 8) : wordBytes (wordOf input) = input := by
  match input, eight with
  | [a, b, c, d, e, f, g, h], _ =>
      have bounded : ∀ byte ∈ [a, b, c, d, e, f, g, h], byte.toNat < 256 :=
        fun byte _ => byte.toNat_lt
      have empty : (wordOf []).toNat = 0 := rfl
      simp only [List.forall_mem_cons] at bounded
      simp only [wordBytes, List.cons.injEq, ← UInt8.toNat_inj, word_of_cons_value,
        UInt64.toNat_toUInt8, UInt64.toNat_shiftRight, UInt64.reduceToNat, Nat.reduceMod,
        Nat.shiftRight_eq_div_pow, empty, and_true]
      omega

theorem encode_of_clean_float (size : input.length = entry.length.toNat)
    (clean : (ofFloat input entry).2 = []) :
    (ofFloat input entry).1.encoding? = some (.float, input) := by
  have eight : input.length = 8 := by
    rw [size]
    exact ((length_problems_eq_nil_iff 8 entry).mp clean).symm
  have whole : cut 8 input = some (input, []) := by
    rw [cut_eq, if_pos (Nat.le_of_eq eight.symm), ← eight, List.take_length, List.drop_length]
  simp only [ofFloat, whole, encoding?, word_bytes_of_word eight]

/-- Nothing is clean but what its value is written as. -/
theorem encoding_of_clean {kind : ValueKind} (known : entry.kind? = some kind)
    (size : input.length = entry.length.toNat) (clean : (decode input entry).2 = []) :
    (decode input entry).1.encoding? = some (kind, input) := by
  have nothing (told : lengthProblems 0 entry = []) : [] = input := by
    apply Eq.symm
    apply List.eq_nil_of_length_eq_zero
    rw [size]
    exact ((length_problems_eq_nil_iff 0 entry).mp told).symm
  unfold decode at clean ⊢
  rw [known] at clean ⊢
  cases kind with
  | null => exact congrArg (fun bytes => some (ValueKind.null, bytes)) (nothing clean)
  | booleanFalse => exact congrArg (fun bytes => some (ValueKind.booleanFalse, bytes)) (nothing clean)
  | booleanTrue => exact congrArg (fun bytes => some (ValueKind.booleanTrue, bytes)) (nothing clean)
  | unsigned => exact encode_of_clean_unsigned size clean
  | signed => exact encode_of_clean_signed size (fun _ => rfl) clean
  | counter => exact encode_of_clean_signed size (fun _ => rfl) clean
  | timestamp => exact encode_of_clean_signed size (fun _ => rfl) clean
  | float => exact encode_of_clean_float size clean
  | string =>
      have valid := (text_problems_eq_nil_iff input).mp clean
      exact congrArg (fun bytes => some (ValueKind.string, bytes)) (Utf8.encode_decode_lossy valid)
  | bytes => rfl

theorem encode_eq_some_iff {value : Value} :
    value.encode? = some (entry, input) ↔
      ∃ kind, value.encoding? = some (kind, input) ∧
        entry = .ofKind kind (UInt64.ofNat input.length) := by
  unfold encode?
  rw [Option.map_eq_some_iff]
  constructor
  · rintro ⟨⟨kind, bytes⟩, found, same⟩
    cases same
    exact ⟨kind, found, rfl⟩
  · rintro ⟨kind, found, rfl⟩
    exact ⟨(kind, input), found, rfl⟩

/-- Bytes of the declared length are clean exactly when they are the encoding of their value. -/
theorem decode_clean_iff (size : input.length = entry.length.toNat) :
    (decode input entry).2 = [] ↔ (decode input entry).1.encode? = some (entry, input) := by
  constructor
  · intro clean
    cases known : entry.kind? with
    | none =>
        unfold decode at clean
        rw [known] at clean
        cases clean
    | some kind =>
        have same_length : UInt64.ofNat input.length = entry.length := by
          rw [size, UInt64.ofNat_toNat]
        refine encode_eq_some_iff.mpr ⟨kind, encoding_of_clean known size clean, ?_⟩
        rw [MetaEntry.ofKind, same_length, code_of_kind known]
  · intro written
    have fits : input.length < 2 ^ 64 := size ▸ entry.length.toNat_lt
    exact congrArg Prod.snd (encode_eq_some written fits).2.2

theorem encode_ne_of_short {value : Value} (short : input.length < entry.length.toNat) :
    value.encode? ≠ some (entry, input) := by
  intro written
  obtain ⟨kind, _, described⟩ := encode_eq_some_iff.mp written
  have declared := congrArg (fun entry => entry.length.toNat) described
  have fits := Nat.lt_trans short entry.length.toNat_lt
  rw [MetaEntry.ofKind, UInt64.toNat_ofNat_of_lt' fits] at declared
  exact absurd declared (Nat.ne_of_gt short)

end Clean

end Value

namespace DecodedValues

/-- A field is clean exactly when it spans the encoding of its value under an entry, and bytes that
any value is written as are taken for that value and are clean. -/
structure CleanIffWritten (entry : MetaEntry) (field : Field Value) : Prop where
  clean_iff : field.diagnostics = [] ↔ field.value.encode? = some (entry, field.bytes)
  of_encoding : ∀ value : Value, value.encode? = some (entry, field.bytes) →
    field.value = value ∧ field.diagnostics = []

/-- A clean field of the bytes that its value is written as. No list in memory has 2 ^ 64 bytes. -/
structure Written (entry : MetaEntry) (field : Field Value) : Prop where
  encoded : field.value.encode? = some (entry, field.bytes)
  clean : field.diagnostics = []
  fits : field.bytes.length < 2 ^ 64

section Walking

variable {entry : MetaEntry} {input : Bytes}

theorem decode_cons_whole (whole : (window entry.length input).short = none)
    (later : List MetaEntry) :
    decode (entry :: later) input =
      ⟨field entry (window entry.length input) ::
          (decode later (window entry.length input).rest).values,
        (decode later (window entry.length input).rest).extra⟩ := by
  rw [decode, decodeOnto]
  simp only [whole]
  exact decode_onto_eq [_] later _

theorem decode_cons_short {available : Nat}
    (short : (window entry.length input).short = some available) (later : List MetaEntry) :
    decode (entry :: later) input =
      ⟨[(field entry (window entry.length input)).add
          (Diagnostic.missing (UInt64.ofNat later.length) 0)],
        (window entry.length input).rest⟩ := by
  rw [decode, decodeOnto]
  simp only [short]
  rfl

theorem whole_field_clean_iff (whole : (window entry.length input).short = none) :
    CleanIffWritten entry (field entry (window entry.length input)) := by
  have size := length_of_whole_window whole
  have fits : (window entry.length input).bytes.length < 2 ^ 64 := size ▸ entry.length.toNat_lt
  constructor
  case clean_iff =>
    simp only [field, whole, List.nil_append]
    exact Value.decode_clean_iff size
  case of_encoding =>
    intro value found
    obtain ⟨-, -, decoded⟩ := Value.encode_eq_some found fits
    have shown : field entry (window entry.length input) =
        .clean (window entry.length input).bytes value := by
      unfold field at decoded ⊢
      simp only [whole, List.nil_append, decoded]
      rfl
    rw [shown]
    exact ⟨rfl, rfl⟩

theorem short_field_not_clean {available : Nat}
    (short : (window entry.length input).short = some available) (more : List Diagnostic) :
    ((field entry (window entry.length input)).add more).diagnostics ≠ [] := by
  simp [field, Field.add, short]

theorem short_field_clean_iff {available : Nat}
    (short : (window entry.length input).short = some available) (more : List Diagnostic) :
    CleanIffWritten entry ((field entry (window entry.length input)).add more) := by
  have never : ∀ value : Value,
      value.encode? ≠ some (entry, (window entry.length input).bytes) :=
    fun _ => Value.encode_ne_of_short (length_of_short_window short)
  exact ⟨iff_of_false (short_field_not_clean short more) (never _),
    fun value found => absurd found (never value)⟩

theorem fields_clean_iff (entries : List MetaEntry) (input : Bytes) :
    List.Forall₂ CleanIffWritten (entries.take (decode entries input).values.length)
        (decode entries input).values ∧
      ((decode entries input).values.length = entries.length ∨
        ∃ field ∈ (decode entries input).values, field.diagnostics ≠ []) := by
  induction entries generalizing input with
  | nil => exact ⟨.nil, .inl rfl⟩
  | cons entry later induction =>
      cases cutting : (window entry.length input).short with
      | none =>
          obtain ⟨each, whole⟩ := induction (window entry.length input).rest
          rw [decode_cons_whole cutting]
          refine ⟨.cons (whole_field_clean_iff cutting) each, ?_⟩
          rcases whole with all | ⟨field, member, reported⟩
          · exact .inl (congrArg Nat.succ all)
          · exact .inr ⟨field, List.mem_cons_of_mem _ member, reported⟩
      | some available =>
          rw [decode_cons_short cutting]
          exact ⟨.cons (short_field_clean_iff cutting _) .nil,
            .inr ⟨_, List.mem_cons_self, short_field_not_clean cutting _⟩⟩

end Walking

theorem decode_of_written {entries : List MetaEntry} {fields : List (Field Value)}
    (written : List.Forall₂ Written entries fields) (rest : Bytes) :
    decode entries (spanned fields ++ rest) = ⟨fields, rest⟩ := by
  induction written with
  | nil => rfl
  | @cons entry first later fields found _ induction =>
      obtain ⟨encoding, value, diagnostics⟩ := first
      obtain ⟨encoded, clean, fits⟩ := found
      subst clean
      have decoded := decode_cons_written encoded fits later (spanned fields ++ rest)
      rw [induction] at decoded
      rw [spanned_cons, List.append_assoc]
      exact decoded

/-- The values of a column, entry by entry. The walk leaves entries out only behind a value that is
not clean, and a column of encodings gives just the values that were encoded. -/
theorem decode_clean_iff_written (entries : List MetaEntry) (input : Bytes) :
    List.Forall₂ CleanIffWritten (entries.take (decode entries input).values.length)
        (decode entries input).values ∧
      ((decode entries input).values.length = entries.length ∨
        ∃ field ∈ (decode entries input).values, field.diagnostics ≠ []) ∧
      ∀ fields rest, List.Forall₂ Written entries fields → spanned fields ++ rest = input →
        decode entries input = ⟨fields, rest⟩ := by
  obtain ⟨each, all⟩ := fields_clean_iff entries input
  refine ⟨each, all, ?_⟩
  rintro fields rest written rfl
  exact decode_of_written written rest

/-- Two numbers, of which the second has a byte too many. The bytes of the first one are all that
one entry takes. -/
theorem decode_clean_iff_written_of_two_numbers :
    ∃ decoded, decoded = decode [⟨1, 3⟩, ⟨2, 3⟩] [5, 0x85, 0] ∧
      decoded.values = [.clean [5] (.unsigned 5),
        ⟨[0x85, 0], .unsigned 5, [.errorIn "uleb" (.malformedVarint .overlong)]⟩] ∧
      List.Forall₂ CleanIffWritten [⟨1, 3⟩, ⟨2, 3⟩] decoded.values ∧
      decode [⟨1, 3⟩] [5, 0x85, 0] = ⟨[.clean [5] (.unsigned 5)], [0x85, 0]⟩ := by
  have both := decode_clean_iff_written [⟨1, 3⟩, ⟨2, 3⟩] [5, 0x85, 0]
  have first : List.Forall₂ Written [⟨1, 3⟩] [.clean [5] (.unsigned 5)] :=
    .cons ⟨by decide +kernel, rfl, by decide⟩ .nil
  have one := decode_clean_iff_written [⟨1, 3⟩] [5, 0x85, 0]
  exact ⟨_, rfl, by decide, both.1, one.2.2 _ _ first rfl⟩

end DecodedValues

end Chunkscope
