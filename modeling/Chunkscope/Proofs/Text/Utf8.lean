import Chunkscope.Text.Utf8
import Chunkscope.Proofs.Field.ReadBack

/-!
# Valid bytes and texts are the same thing

A character has one form, of one to four bytes. Writing a character gives its form, and reading takes
exactly the forms off the front of an input. So the characters of an encoded text are those of the
text, and valid bytes are the encoding of the text they decode to.
-/

namespace Chunkscope.Utf8

/-- A byte after the first one of a character. -/
def Following (byte : UInt8) : Prop := 0x80 ≤ byte.toNat ∧ byte.toNat ≤ 0xbf

/-- The code points and their bytes. -/
inductive Form : Nat → Bytes → Prop where
  | one {value : Nat} {a : UInt8} (ascii : a.toNat < 0x80) (bits : value = a.toNat) :
      Form value [a]
  | two {value : Nat} {a b : UInt8} (low : 0xc2 ≤ a.toNat) (high : a.toNat < 0xe0)
      (second : Following b) (bits : value = (a.toNat - 0xc0) * 64 + (b.toNat - 0x80)) :
      Form value [a, b]
  | three {value : Nat} {a b c : UInt8} (low : 0xe0 ≤ a.toNat) (high : a.toNat < 0xf0)
      (second : Following b) (third : Following c)
      (bits : value = ((a.toNat - 0xe0) * 64 + (b.toNat - 0x80)) * 64 + (c.toNat - 0x80))
      (least : 0x800 ≤ value) (noSurrogate : value < 0xd800 ∨ 0xe000 ≤ value) :
      Form value [a, b, c]
  | four {value : Nat} {a b c d : UInt8} (low : 0xf0 ≤ a.toNat) (high : a.toNat < 0xf5)
      (second : Following b) (third : Following c) (fourth : Following d)
      (bits : value = (((a.toNat - 0xf0) * 64 + (b.toNat - 0x80)) * 64 + (c.toNat - 0x80)) * 64 +
        (d.toNat - 0x80))
      (least : 0x10000 ≤ value) (last : value < 0x110000) :
      Form value [a, b, c, d]

section Writing

theorem byte_value {number : Nat} (small : number < 256) : (UInt8.ofNat number).toNat = number :=
  UInt8.toNat_ofNat_of_lt small

theorem form_encode_char (c : Char) : Form c.val.toNat (String.utf8EncodeChar c) := by
  have valid : c.val.toNat < 0xd800 ∨ 0xdfff < c.val.toNat ∧ c.val.toNat < 0x110000 := c.valid
  simp only [String.utf8EncodeChar]
  generalize c.val.toNat = value at valid ⊢
  split
  · have first := byte_value (show value < 256 by omega)
    exact .one (by omega) (by omega)
  · split
    · have first := byte_value (show value / 64 % 0x20 + 0xc0 < 256 by omega)
      have second := byte_value (show value % 0x40 + 0x80 < 256 by omega)
      exact .two (by omega) (by omega) ⟨by omega, by omega⟩ (by omega)
    · split
      · have first := byte_value (show value / 4096 % 0x10 + 0xe0 < 256 by omega)
        have second := byte_value (show value / 64 % 0x40 + 0x80 < 256 by omega)
        have third := byte_value (show value % 0x40 + 0x80 < 256 by omega)
        exact .three (by omega) (by omega) ⟨by omega, by omega⟩ ⟨by omega, by omega⟩ (by omega)
          (by omega) (by omega)
      · have first := byte_value (show value / 262144 % 0x08 + 0xf0 < 256 by omega)
        have second := byte_value (show value / 4096 % 0x40 + 0x80 < 256 by omega)
        have third := byte_value (show value / 64 % 0x40 + 0x80 < 256 by omega)
        have fourth := byte_value (show value % 0x40 + 0x80 < 256 by omega)
        exact .four (by omega) (by omega) ⟨by omega, by omega⟩ ⟨by omega, by omega⟩
          ⟨by omega, by omega⟩ (by omega) (by omega) (by omega)

theorem Form.unique {value : Nat} {first second : Bytes} (left : Form value first)
    (right : Form value second) : first = second := by
  -- Forms of different lengths hold different ranges of numbers.
  cases left <;> cases right <;> unfold Following at * <;>
    simp only [List.cons.injEq, reduceCtorEq, and_true, and_false, ← UInt8.toNat_inj] <;> omega

theorem Form.valid {value : Nat} {written : Bytes} (form : Form value written) :
    value.isValidChar := by
  unfold Nat.isValidChar
  cases form <;> unfold Following at * <;> omega

theorem Form.encode_char {value : Nat} {written : Bytes} (form : Form value written) :
    String.utf8EncodeChar (Char.ofNat value) = written := by
  have same : (Char.ofNat value).val.toNat = value := by
    rw [Char.ofNat, dif_pos form.valid]
    rfl
  have written := form_encode_char (Char.ofNat value)
  rw [same] at written
  exact written.unique form

end Writing

section Reading

variable {byte : UInt8}

theorem following_iff (byte : UInt8) : ((0x80 : UInt8) ≤ byte ∧ byte ≤ 0xbf) ↔ Following byte := by
  unfold Following
  simp only [UInt8.le_iff_toNat_le, UInt8.reduceToNat]

theorem lead_one (low : byte.toNat < 0x80) :
    Lead.of? byte = some ⟨0, 0x80, 0xbf, byte.toNat⟩ := by
  unfold Lead.of?
  rw [if_pos low]

theorem lead_two (low : 0xc2 ≤ byte.toNat) (high : byte.toNat < 0xe0) :
    Lead.of? byte = some ⟨1, 0x80, 0xbf, byte.toNat - 0xc0⟩ := by
  unfold Lead.of?
  rw [if_neg (by omega), if_neg (by omega), if_pos high]

/-- The bounds of the second of three bytes leave out what two bytes can hold and surrogates. -/
theorem lead_three (low : 0xe0 ≤ byte.toNat) (high : byte.toNat < 0xf0) :
    ∃ first last, Lead.of? byte = some ⟨2, first, last, byte.toNat - 0xe0⟩ ∧
      ∀ next : UInt8, (first ≤ next ∧ next ≤ last) ↔
        Following next ∧ 32 ≤ (byte.toNat - 0xe0) * 64 + (next.toNat - 0x80) ∧
          ((byte.toNat - 0xe0) * 64 + (next.toNat - 0x80) < 864 ∨
            896 ≤ (byte.toNat - 0xe0) * 64 + (next.toNat - 0x80)) := by
  unfold Lead.of? Following
  rw [if_neg (by omega), if_neg (by omega), if_neg (by omega)]
  simp only [if_pos high]
  split
  · refine ⟨_, _, rfl, fun next => ?_⟩
    simp only [UInt8.le_iff_toNat_le, UInt8.reduceToNat]
    omega
  · split
    · refine ⟨_, _, rfl, fun next => ?_⟩
      simp only [UInt8.le_iff_toNat_le, UInt8.reduceToNat]
      omega
    · refine ⟨_, _, rfl, fun next => ?_⟩
      simp only [UInt8.le_iff_toNat_le, UInt8.reduceToNat]
      omega

/-- The bounds of the second of four bytes leave out what three can hold and all past the last code
point. -/
theorem lead_four (low : 0xf0 ≤ byte.toNat) (high : byte.toNat < 0xf5) :
    ∃ first last, Lead.of? byte = some ⟨3, first, last, byte.toNat - 0xf0⟩ ∧
      ∀ next : UInt8, (first ≤ next ∧ next ≤ last) ↔
        Following next ∧ 16 ≤ (byte.toNat - 0xf0) * 64 + (next.toNat - 0x80) ∧
          (byte.toNat - 0xf0) * 64 + (next.toNat - 0x80) < 272 := by
  unfold Lead.of? Following
  rw [if_neg (by omega), if_neg (by omega), if_neg (by omega), if_neg (by omega),
    if_neg (by omega), if_neg (by omega)]
  split
  · refine ⟨_, _, rfl, fun next => ?_⟩
    simp only [UInt8.le_iff_toNat_le, UInt8.reduceToNat]
    omega
  · split
    · refine ⟨_, _, rfl, fun next => ?_⟩
      simp only [UInt8.le_iff_toNat_le, UInt8.reduceToNat]
      omega
    · rw [if_pos (by omega)]
      refine ⟨_, _, rfl, fun next => ?_⟩
      simp only [UInt8.le_iff_toNat_le, UInt8.reduceToNat]
      omega

theorem lead_none (outside : (0x80 ≤ byte.toNat ∧ byte.toNat < 0xc2) ∨ 0xf5 ≤ byte.toNat) :
    Lead.of? byte = none := by
  unfold Lead.of?
  rcases outside with ⟨low, high⟩ | beyond
  · rw [if_neg (by omega), if_pos high]
  · rw [if_neg (by omega), if_neg (by omega), if_neg (by omega), if_neg (by omega),
      if_neg (by omega), if_neg (by omega), if_neg (by omega), if_neg (by omega),
      if_neg (by omega)]

theorem next_of_lead {lead : Lead} (known : Lead.of? byte = some lead) (rest : Bytes) :
    next (byte :: rest) = follow lead.following lead.low lead.high lead.bits rest := by
  simp only [next, known]

theorem follow_within {low high : UInt8} (within : low ≤ byte ∧ byte ≤ high) (count bits : Nat)
    (rest : Bytes) :
    follow (count + 1) low high bits (byte :: rest) =
      follow count 0x80 0xbf (bits * 64 + (byte.toNat - 0x80)) rest := by
  rw [follow, if_pos within]

theorem follow_zero {bits : Nat} {low high : UInt8} {input rest : Bytes} {c : Char}
    (found : follow 0 low high bits input = (some c, rest)) : Char.ofNat bits = c ∧ input = rest := by
  simpa only [follow, Prod.mk.injEq, Option.some.injEq] using found

theorem follow_eq_some {count bits : Nat} {low high : UInt8} {input rest : Bytes} {c : Char}
    (found : follow (count + 1) low high bits input = (some c, rest)) :
    ∃ byte more, input = byte :: more ∧ (low ≤ byte ∧ byte ≤ high) ∧
      follow count 0x80 0xbf (bits * 64 + (byte.toNat - 0x80)) more = (some c, rest) := by
  cases input with
  | nil => simp [follow] at found
  | cons byte more =>
      rw [follow] at found
      split at found
      · next within => exact ⟨byte, more, rfl, within, found⟩
      · cases found

theorem next_form {value : Nat} {written : Bytes} (form : Form value written) (rest : Bytes) :
    next (written ++ rest) = (some (Char.ofNat value), rest) := by
  cases form with
  | one ascii bits =>
      rw [List.singleton_append, next_of_lead (lead_one ascii), follow, bits]
  | two low high second bits =>
      simp only [List.cons_append, List.nil_append]
      rw [next_of_lead (lead_two low high), follow_within ((following_iff _).mpr second), follow, bits]
  | three low high second third bits least noSurrogate =>
      obtain ⟨first, last, known, bounds⟩ := lead_three low high
      have within := (bounds _).mpr ⟨second, by unfold Following at *; omega, by
        unfold Following at *; omega⟩
      simp only [List.cons_append, List.nil_append]
      rw [next_of_lead known, follow_within within, follow_within ((following_iff _).mpr third),
        follow, bits]
  | four low high second third fourth bits least last =>
      obtain ⟨first, last, known, bounds⟩ := lead_four low high
      have within := (bounds _).mpr ⟨second, by unfold Following at *; omega, by
        unfold Following at *; omega⟩
      simp only [List.cons_append, List.nil_append]
      rw [next_of_lead known, follow_within within, follow_within ((following_iff _).mpr third),
        follow_within ((following_iff _).mpr fourth), follow, bits]

/-- A character that was read stood there in its form. -/
theorem form_of_next {rest later : Bytes} {c : Char} (found : next (byte :: rest) = (some c, later)) :
    ∃ value written, Form value written ∧ byte :: rest = written ++ later ∧ c = Char.ofNat value := by
  by_cases outside : (0x80 ≤ byte.toNat ∧ byte.toNat < 0xc2) ∨ 0xf5 ≤ byte.toNat
  · simp [next, lead_none outside] at found
  · by_cases ascii : byte.toNat < 0x80
    · rw [next_of_lead (lead_one ascii)] at found
      obtain ⟨rfl, rfl⟩ := follow_zero found
      exact ⟨_, [byte], .one ascii rfl, rfl, rfl⟩
    · by_cases two : byte.toNat < 0xe0
      · rw [next_of_lead (lead_two (by omega) two)] at found
        obtain ⟨second, more, rfl, within, ended⟩ := follow_eq_some found
        obtain ⟨rfl, rfl⟩ := follow_zero ended
        exact ⟨_, [byte, second], .two (by omega) two ((following_iff _).mp within) rfl, rfl, rfl⟩
      · by_cases three : byte.toNat < 0xf0
        · obtain ⟨low, high, known, bounds⟩ := lead_three (by omega) three
          rw [next_of_lead known] at found
          obtain ⟨second, more, rfl, within, found⟩ := follow_eq_some found
          obtain ⟨third, more, rfl, following, ended⟩ := follow_eq_some found
          obtain ⟨follows, least, noSurrogate⟩ := (bounds second).mp within
          have bound := (following_iff third).mp following
          obtain ⟨rfl, rfl⟩ := follow_zero ended
          refine ⟨_, [byte, second, third], .three (by omega) three follows bound rfl ?_ ?_, rfl, rfl⟩
          · omega
          · unfold Following at bound
            omega
        · have four : 0xf0 ≤ byte.toNat := by omega
          obtain ⟨low, high, known, bounds⟩ := lead_four four (by omega)
          rw [next_of_lead known] at found
          obtain ⟨second, more, rfl, within, found⟩ := follow_eq_some found
          obtain ⟨third, more, rfl, following, found⟩ := follow_eq_some found
          obtain ⟨fourth, more, rfl, following', ended⟩ := follow_eq_some found
          obtain ⟨follows, least, last⟩ := (bounds second).mp within
          have third' := (following_iff third).mp following
          have fourth' := (following_iff fourth).mp following'
          obtain ⟨rfl, rfl⟩ := follow_zero ended
          refine ⟨_, [byte, second, third, fourth],
            .four four (by omega) follows third' fourth' rfl ?_ ?_, rfl, rfl⟩
          · omega
          · unfold Following at third' fourth'
            omega

end Reading

theorem next_encode_char (c : Char) (rest : Bytes) :
    next (String.utf8EncodeChar c ++ rest) = (some c, rest) := by
  rw [next_form (form_encode_char c)]
  exact congrArg (fun found => (some found, rest)) (Char.ofNat_toNat c)

theorem eq_encode_char_of_next {input later : Bytes} {c : Char}
    (found : next input = (some c, later)) : input = String.utf8EncodeChar c ++ later := by
  cases input with
  | nil => cases found
  | cons byte rest =>
      obtain ⟨value, written, form, same, rfl⟩ := form_of_next found
      rw [form.encode_char, same]

theorem characters_encode (text : String) : characters (encode text) = text.toList.map some := by
  apply eq_map_of_forall₂
  apply walk.pieces_written
  intro c _
  refine ⟨String.utf8EncodeChar_ne_nil, ?_, ?_⟩
  · intro _ rest
    exact (congrArg Prod.fst (next_encode_char c rest)).symm
  · intro _ rest
    exact congrArg Prod.snd (next_encode_char c rest)

/-- When every character could be read, writing them again gives the input back. -/
theorem encode_characters (input : Bytes)
    (readable : ∀ c ∈ characters input, c.isSome = true) :
    (characters input).flatMap (fun c => String.utf8EncodeChar (c.getD (Char.ofNat 0xfffd))) =
      input := by
  induction size : input.length using Nat.strongRecOn generalizing input with
  | ind size induction =>
      cases input with
      | nil => simp [characters]
      | cons byte rest =>
          have advanced := walk.advances () byte rest
          rw [characters, walk.pieces_cons] at readable ⊢
          obtain ⟨c, read⟩ := Option.isSome_iff_exists.mp (readable _ List.mem_cons_self)
          have later := induction _ (size ▸ Nat.lt_succ_of_le advanced) _
            (fun other member => readable other (List.mem_cons_of_mem _ member)) rfl
          rw [List.flatMap_cons, read, Option.getD_some]
          refine (congrArg (String.utf8EncodeChar c ++ ·) later).trans ?_
          exact (eq_encode_char_of_next (Prod.ext read rfl)).symm

theorem is_valid_encode (text : String) : isValid (encode text) = true := by
  simp [isValid, characters_encode]

theorem decode_lossy_encode (text : String) : decodeLossy (encode text) = text := by
  simp [decodeLossy, characters_encode]

theorem encode_decode_lossy {input : Bytes} (valid : isValid input = true) :
    encode (decodeLossy input) = input := by
  have readable : ∀ c ∈ characters input, c.isSome = true := List.all_eq_true.mp valid
  rw [encode, decodeLossy, String.toList_ofList, List.flatMap_map]
  exact encode_characters input readable

end Chunkscope.Utf8
