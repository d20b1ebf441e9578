import Chunkscope.Column.Delta
import Chunkscope.Column.Meta
import Chunkscope.Proofs.Column.RunFormat
import Chunkscope.Proofs.Text.Utf8

/-!
# The run-length columns

Columns of integers, deltas, strings and value-meta entries each have a format, and the payloads of
each keep the law of runs. So encoding and decoding are inverse for all of them.
-/

namespace Chunkscope

namespace MetaEntry

theorem spec_value (entry : MetaEntry) :
    entry.spec.toNat = entry.length.toNat % 2 ^ 60 * 16 + entry.code.toNat % 16 := by
  have code : (entry.code &&& 0x0f).toUInt64.toNat = entry.code.toNat % 16 := by
    rw [UInt8.toNat_toUInt64, UInt8.toNat_and]
    exact Nat.and_two_pow_sub_one_eq_mod entry.code.toNat 4
  have small : (entry.code &&& 0x0f).toUInt64.toNat < 2 ^ 4 := by
    rw [code]
    exact Nat.mod_lt _ (by decide)
  rw [spec, UInt64.or_comm, Varint.or_shifted_value 4 60 rfl rfl small (by decide), code]
  omega

theorem of_spec_length_value (spec : UInt64) : (ofSpec spec).length.toNat = spec.toNat / 16 := by
  unfold ofSpec
  rw [UInt64.toNat_shiftRight]
  exact Nat.shiftRight_eq_div_pow spec.toNat 4

theorem of_spec_code_value (spec : UInt64) : (ofSpec spec).code.toNat = spec.toNat % 16 := by
  have masked : (spec &&& 0x0f).toNat = spec.toNat % 16 := by
    rw [UInt64.toNat_and]
    exact Nat.and_two_pow_sub_one_eq_mod spec.toNat 4
  unfold ofSpec
  rw [UInt64.toNat_toUInt8, masked]
  omega

/-- Packing loses nothing of an entry whose length has 60 bits and whose code has four. -/
theorem of_spec_spec {entry : MetaEntry} (short : entry.length.toNat < 2 ^ 60)
    (known : entry.code.toNat < 16) : ofSpec entry.spec = entry := by
  have length := of_spec_length_value entry.spec
  have code := of_spec_code_value entry.spec
  rw [spec_value] at length code
  have same_length : (ofSpec entry.spec).length = entry.length := by
    apply UInt64.toNat_inj.mp
    omega
  have same_code : (ofSpec entry.spec).code = entry.code := by
    apply UInt8.toNat_inj.mp
    omega
  cases entry
  exact congrArg₂ MetaEntry.mk same_length same_code

theorem spec_of_spec (spec : UInt64) : (ofSpec spec).spec = spec := by
  have bounded := spec.toNat_lt
  apply UInt64.toNat_inj.mp
  rw [spec_value, of_spec_length_value, of_spec_code_value]
  omega

end MetaEntry

section Strings

theorem string_field_encode {text : String} (fits : (Utf8.encode text).length < 2 ^ 64)
    (rest : Bytes) :
    stringReader (encodeString text ++ rest) = (.clean (encodeString text) text, rest) := by
  unfold encodeString
  rw [List.append_assoc]
  simp only [stringReader, Varint.encodeLength, Varint.scan_unsigned_encode,
    window_append_exact fits, textProblems, Utf8.is_valid_encode, Utf8.decode_lossy_encode]
  rfl

theorem string_field_sound {input : Bytes} (clean : (stringReader input).1.diagnostics = []) :
    (stringReader input).1.bytes = encodeString (stringReader input).1.value := by
  simp only [stringReader, List.append_eq_nil_iff] at clean
  obtain ⟨⟨faultless, whole⟩, text⟩ := clean
  have length := Varint.scan_unsigned_sound ((of_fault_eq_nil_iff _ _).mp faultless)
  have valid : Utf8.isValid (window (Varint.scanUnsigned input).value
      (Varint.scanUnsigned input).rest).bytes = true := by
    unfold textProblems at text
    split at text
    · assumption
    · cases text
  have size : (window (Varint.scanUnsigned input).value
      (Varint.scanUnsigned input).rest).bytes.length = (Varint.scanUnsigned input).value.toNat := by
    apply length_of_whole_window
    split at whole
    · assumption
    · cases whole
  simp only [stringReader, encodeString, Utf8.encode_decode_lossy valid, Varint.encodeLength, size,
    UInt64.ofNat_toNat, length]

end Strings

namespace RunFormat

/-- The format of a column that holds its values as they are. -/
def plain {Value : Type} (encode : Value → Bytes) (writable : Value → Prop) :
    RunFormat Value Value Value where
  encode := encode
  ofStep := id
  ofItem := id
  writable := writable
  tolerated := []
  running _ member := absurd member List.not_mem_nil

variable {Value : Type} {encode : Value → Bytes} {writable : Value → Prop}

theorem plain_harmless_iff (diagnostics : List Diagnostic) :
    (plain encode writable).Harmless diagnostics ↔ diagnostics = [] := by
  unfold Harmless plain
  simp [List.eq_nil_iff_forall_not_mem]

theorem plain_law {reader : Reader (Field Value)} (nonempty : ∀ value, encode value ≠ [])
    (reads : ∀ value, writable value → (encode value).length < 2 ^ 63 → ∀ rest,
      reader (encode value ++ rest) = (.clean (encode value) value, rest))
    (sound : ∀ input, (reader input).1.diagnostics = [] →
      (reader input).1.bytes = encode (reader input).1.value) :
    (plain encode writable).Law (Payload.uniform reader) := by
  have reads_back {value : Value} (distinct : writable value)
      (fits : (encode value).length < 2 ^ 63) :
      ReadsBack (fun (_ : Unit) input => ((reader input).1, (), (reader input).2)) (encode value)
        ((plain encode writable).Shows id value) :=
    reader.reads_back (nonempty value) (reads value distinct fits) ⟨rfl, rfl, harmless_nil⟩
  have clean (input : Bytes) : (plain encode writable).Sound id (reader input).1 := by
    intro harmless
    exact sound input ((plain_harmless_iff _).mp harmless)
  exact {
    nonempty := nonempty
    repeated_reads := fun value distinct fits _ => reads_back distinct fits
    literal_reads := fun value distinct fits => reads_back distinct fits
    repeated_sound := fun _ _ input => clean input
    literal_sound := fun _ input => clean input }

theorem clean_of_records {step : RunStep Value} {run : Run Value Value}
    (records : (plain encode writable).Records step run) : run.diagnostics = [] := by
  cases records with
  | null count => rfl
  | repeated span times payload harmless => exact (plain_harmless_iff _).mp harmless
  | @literals values items each =>
      refine List.append_eq_nil_iff.mpr ⟨rfl, ?_⟩
      induction each with
      | nil => rfl
      | cons first _ induction =>
          exact List.append_eq_nil_iff.mpr ⟨(plain_harmless_iff _).mp first.harmless, induction⟩

theorem clean_runs {steps : List (RunStep Value)} {runs : List (Run Value Value)}
    (records : List.Forall₂ (plain encode writable).Records steps runs) :
    ∀ run ∈ runs, run.diagnostics = [] := by
  induction records with
  | nil => simp
  | cons first _ induction => exact List.forall_mem_cons.mpr ⟨clean_of_records first, induction⟩

/-- Integers, whatever they stand for. -/
def integers : RunFormat UInt64 UInt64 UInt64 := plain Varint.encodeUnsigned fun _ => True

def strings : RunFormat String String String := plain encodeString fun _ => True

/-- Entries; a spec has room for 60 bits of length and four of type. -/
def entries : RunFormat MetaEntry MetaEntry MetaEntry :=
  plain MetaEntry.encode fun entry => entry.length.toNat < 2 ^ 60 ∧ entry.code.toNat < 16

/-- Deltas; that a running value is negative or too large is not a fault of the bytes. -/
def deltas : RunFormat DeltaStep DeltaValue Int64 where
  encode := Varint.encodeSigned
  ofStep := DeltaStep.delta
  ofItem := DeltaValue.delta
  writable _ := True
  tolerated := [.negativeRunningValue, .runningValueOverflow]
  running := by simp

theorem integers_law : integers.Law (Payload.uniform (Reader.unsigned (some "value"))) := by
  apply plain_law Varint.encode_unsigned_ne_nil
  · intro value _ _ rest
    exact unsigned_field_encode _ value rest
  · intro input clean
    exact unsigned_field_sound clean

theorem strings_law : strings.Law (Payload.uniform stringReader) := by
  apply plain_law
  · intro text
    exact List.append_ne_nil_of_left_ne_nil (Varint.encode_unsigned_ne_nil _) _
  · intro text _ fits rest
    rw [encodeString, List.length_append] at fits
    exact string_field_encode (by omega) rest
  · intro input clean
    exact string_field_sound clean

theorem entries_law : entries.Law (Payload.uniform Meta.reader) := by
  apply plain_law
  · intro entry
    exact Varint.encode_unsigned_ne_nil entry.spec
  · intro entry packed _ rest
    have found := unsigned_field_encode (some "meta") entry.spec rest
    simp only [Meta.reader, Reader.map, MetaEntry.encode, found, Field.map, Field.clean,
      MetaEntry.of_spec_spec packed.1 packed.2]
  · intro input clean
    simp only [Meta.reader, Reader.map, Field.map, MetaEntry.encode, MetaEntry.spec_of_spec]
    exact unsigned_field_sound clean

theorem settle_harmless (sum : Option Int64) (wrapped : Int64) :
    deltas.Harmless (Delta.settle sum wrapped).2 := by
  intro diagnostic member
  unfold Delta.settle at member
  split at member
  · split at member
    · obtain rfl := List.mem_singleton.mp member
      exact List.mem_cons_self
    · cases member
  · obtain rfl := List.mem_singleton.mp member
    exact List.mem_cons_of_mem _ List.mem_cons_self

theorem deltas_law : deltas.Law Delta.payload where
  nonempty := Varint.encode_signed_ne_nil
  repeated_reads := by
    intro delta _ _ count
    refine ⟨Varint.encode_signed_ne_nil delta, ?_, ?_⟩
    · intro running rest
      simp only [Delta.payload, Delta.repeated, deltas, signed_field_encode]
      exact ⟨rfl, rfl, settle_harmless _ _⟩
    · intro running rest
      simp only [Delta.payload, Delta.repeated, deltas, signed_field_encode]
  literal_reads := by
    intro delta _ _
    refine ⟨Varint.encode_signed_ne_nil delta, ?_, ?_⟩
    · intro running rest
      simp only [Delta.payload, Delta.literal, deltas, signed_field_encode]
      exact ⟨rfl, rfl, settle_harmless _ _⟩
    · intro running rest
      simp only [Delta.payload, Delta.literal, deltas, signed_field_encode]
  repeated_sound := by
    intro running count input harmless
    exact Varint.scan_signed_sound (fault_none (harmless_append.mp harmless).1)
  literal_sound := by
    intro running input harmless
    exact Varint.scan_signed_sound (fault_none (harmless_append.mp harmless).1)

end RunFormat

/-- Encoding and decoding run-length columns are inverse, whatever the limit of values is. -/
theorem run_columns_inverse (limit : Nat) :
    RunFormat.integers.Inverse limit (decodeIntegers limit) ∧
      RunFormat.deltas.Inverse limit (decodeDeltas limit) ∧
      RunFormat.strings.Inverse limit (decodeStrings limit) ∧
      RunFormat.entries.Inverse limit (Meta.decode limit) :=
  ⟨RunFormat.integers_law.inverse limit (), RunFormat.deltas_law.inverse limit 0,
    RunFormat.strings_law.inverse limit (), RunFormat.entries_law.inverse limit ()⟩

end Chunkscope
