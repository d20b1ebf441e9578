import Chunkscope.Proofs.Column.Entries
import Chunkscope.Proofs.Column.Section

/-!
# Values behind their entries

The bytes of a value, with the entry that describes them, are decoded to the value. A pair of columns
first gives the entries back and by them cuts the values off one by one, so it gives back all values
that have an encoding.
-/

namespace Chunkscope

section Decoding

namespace Value

def hasEncoding : Value → Bool
  | .unknown _ => false
  | .truncated _ => false
  | _ => true

/-- The bytes that a value is written as; none for a value without an encoding. -/
def encoded (value : Value) : Bytes := (value.encode?.map Prod.snd).getD []

def written (value : Value) : Field Value := .clean value.encoded value

theorem word_of_cons_value (byte : UInt8) (above : Bytes) :
    (wordOf (byte :: above)).toNat = byte.toNat + 256 * ((wordOf above).toNat % 2 ^ 56) := by
  have small : byte.toUInt64.toNat < 2 ^ 8 := byte.toNat_lt
  have step : wordOf (byte :: above) = byte.toUInt64 ||| wordOf above <<< 8 := rfl
  rw [step, Varint.or_shifted_value 8 56 rfl rfl small (by decide)]
  rfl

theorem word_of_word_bytes (word : UInt64) : wordOf (wordBytes word) = word := by
  have bounded := word.toNat_lt
  have empty : (wordOf []).toNat = 0 := rfl
  apply UInt64.toNat_inj.mp
  simp only [wordBytes, word_of_cons_value, UInt64.toNat_toUInt8, UInt64.toNat_shiftRight,
    UInt64.reduceToNat, Nat.reduceMod, Nat.shiftRight_eq_div_pow, empty]
  omega

theorem length_problems_of_length {encoded : Bytes} (fits : encoded.length < 2 ^ 64)
    (kind : ValueKind) :
    lengthProblems encoded.length (.ofKind kind (UInt64.ofNat encoded.length)) = [] := by
  have size : (UInt64.ofNat encoded.length).toNat = encoded.length := UInt64.toNat_ofNat_of_lt' fits
  unfold lengthProblems MetaEntry.ofKind
  rw [size, if_pos rfl]

theorem of_signed_encode (build : Int64 → Value) (number : Int64) {entry : MetaEntry}
    (length : lengthProblems (Varint.encodeSigned number).length entry = []) :
    ofSigned build (Varint.encodeSigned number) entry = (build number, []) := by
  have scanned := Varint.scan_signed_encode number []
  rw [List.append_nil] at scanned
  simp only [ofSigned, scanned, length]
  rfl

theorem of_unsigned_encode (number : UInt64) {entry : MetaEntry}
    (length : lengthProblems (Varint.encodeUnsigned number).length entry = []) :
    ofUnsigned (Varint.encodeUnsigned number) entry = (.unsigned number, []) := by
  have scanned := Varint.scan_unsigned_encode number []
  rw [List.append_nil] at scanned
  simp only [ofUnsigned, scanned, length]
  rfl

theorem of_float_word (bits : UInt64) {entry : MetaEntry}
    (length : lengthProblems (wordBytes bits).length entry = []) :
    ofFloat (wordBytes bits) entry = (.float bits, []) := by
  have eight : (wordBytes bits).length = 8 := rfl
  have whole : cut 8 (wordBytes bits) = some (wordBytes bits, []) := rfl
  rw [eight] at length
  simp only [ofFloat, whole, word_of_word_bytes, length]

/-- The bytes of a value, with the entry that describes them, are decoded to the value. -/
theorem decode_encoding {value : Value} {kind : ValueKind} {encoded : Bytes}
    (found : value.encoding? = some (kind, encoded)) (fits : encoded.length < 2 ^ 64) :
    decode encoded (.ofKind kind (UInt64.ofNat encoded.length)) = (value, []) := by
  have length := length_problems_of_length fits kind
  have known : (MetaEntry.ofKind kind (UInt64.ofNat encoded.length)).kind? = some kind :=
    ValueKind.of_code_code kind
  unfold decode
  rw [known]
  cases value with
  | null =>
      cases found
      exact congrArg (Prod.mk _) length
  | boolean value =>
      cases value
      · cases found
        exact congrArg (Prod.mk _) length
      · cases found
        exact congrArg (Prod.mk _) length
  | unsigned number =>
      cases found
      exact of_unsigned_encode number length
  | signed number =>
      cases found
      exact of_signed_encode .signed number length
  | float bits =>
      cases found
      exact of_float_word bits length
  | string text =>
      cases found
      simp only [textProblems, Utf8.is_valid_encode, Utf8.decode_lossy_encode, if_true]
  | bytes input =>
      cases found
      rfl
  | counter number =>
      cases found
      exact of_signed_encode .counter number length
  | timestamp milliseconds =>
      cases found
      exact of_signed_encode .timestamp milliseconds length
  | unknown code => cases found
  | truncated kind => cases found

theorem code_lt (kind : ValueKind) : kind.code.toNat < 16 := by
  cases kind <;> decide

theorem is_some_encode (value : Value) : value.encode?.isSome = value.hasEncoding := by
  cases value with
  | boolean value => cases value <;> rfl
  | _ => rfl

theorem encoded_eq {value : Value} {entry : MetaEntry} {input : Bytes}
    (found : value.encode? = some (entry, input)) : value.encoded = input := by
  simp [encoded, found]

theorem encode_eq_some {value : Value} {entry : MetaEntry} {input : Bytes}
    (found : value.encode? = some (entry, input)) (fits : input.length < 2 ^ 64) :
    entry.length = UInt64.ofNat input.length ∧ entry.code.toNat < 16 ∧
      decode input entry = (value, []) := by
  obtain ⟨⟨kind, written⟩, encoding, packed⟩ := Option.map_eq_some_iff.mp found
  cases packed
  exact ⟨rfl, code_lt kind, decode_encoding encoding fits⟩

end Value

namespace DecodedValues

/-- The encoding of a value is cut off and decoded to the value, whatever is behind it. -/
theorem decode_cons_written {value : Value} {entry : MetaEntry} {input : Bytes}
    (found : value.encode? = some (entry, input)) (fits : input.length < 2 ^ 64)
    (entries : List MetaEntry) (rest : Bytes) :
    decode (entry :: entries) (input ++ rest) =
      ⟨.clean input value :: (decode entries rest).values, (decode entries rest).extra⟩ := by
  obtain ⟨length, _, decoded⟩ := Value.encode_eq_some found fits
  have cutting := window_append_exact fits rest
  have shown : field entry ⟨input, rest, none⟩ = .clean input value := by
    simp only [field, decoded, List.nil_append]
    rfl
  rw [← length] at cutting
  simp only [decode, decodeOnto, cutting, shown]
  exact decode_onto_eq [.clean input value] entries rest

/-- All values with an encoding are decoded, in order and without a byte to spare. -/
theorem decode_written {values : List Value}
    (short : ∀ value ∈ values, value.encoded.length < 2 ^ 60) :
    decode ((values.filterMap Value.encode?).map Prod.fst)
        ((values.filterMap Value.encode?).flatMap Prod.snd) =
      ⟨(values.filter Value.hasEncoding).map Value.written, []⟩ := by
  induction values with
  | nil => rfl
  | cons value values induction =>
      have later := induction fun other member => short other (List.mem_cons_of_mem value member)
      have kept := Value.is_some_encode value
      cases found : value.encode? with
      | none =>
          rw [found, Option.isSome_none] at kept
          rw [List.filterMap_cons_none found, List.filter_cons_of_neg (by simp [← kept]), later]
      | some encoded =>
          rw [found, Option.isSome_some] at kept
          have bounded := short value List.mem_cons_self
          rw [Value.encoded_eq found] at bounded
          rw [List.filterMap_cons_some found, List.filter_cons_of_pos kept.symm, List.map_cons,
            List.map_cons, List.flatMap_cons,
            decode_cons_written found (Nat.lt_trans bounded (by decide)), later, Value.written,
            Value.encoded_eq found]

end DecodedValues

end Decoding

section Pair

/-- The two columns of some values: their entries and their bytes, under one id. -/
def valueColumns (id : UInt64) (values : List Value) : List EncodedColumn :=
  [⟨16 * id + 6, (encodeValues values).1⟩, ⟨16 * id + 7, (encodeValues values).2⟩]

theorem forall_value_columns {holds : EncodedColumn → Prop} (id : UInt64) (values : List Value) :
    (∀ column ∈ valueColumns id values, holds column) ↔
      holds ⟨16 * id + 6, (encodeValues values).1⟩ ∧
        holds ⟨16 * id + 7, (encodeValues values).2⟩ := by
  simp [valueColumns]

/-- Reading a pair of value columns gives the values that have an encoding, bit by bit the same, and
finds nothing wrong with any part and nothing left over. -/
structure ValuesReadBack (context : Context) (group : ColumnGroup) (id : UInt64)
    (values : List Value) : Prop where
  descriptors : ColumnDescriptors.reader group (encodeDescriptors (valueColumns id values)) =
    (.written group (valueColumns id values), [])
  bodies : ∃ runs later,
    decodeSection context (.written group (valueColumns id values))
        (encodeBodies (valueColumns id values)) =
      ([ ⟨group, ⟨16 * id + 6, UInt64.ofNat (encodeValues values).1.length⟩,
            (encodeValues values).1, .valueMeta runs, []⟩,
          ⟨group, ⟨16 * id + 7, UInt64.ofNat (encodeValues values).2.length⟩,
            (encodeValues values).2,
            .values ⟨(values.filter Value.hasEncoding).map Value.written, []⟩, []⟩ ],
        [], later) ∧
      ∀ run ∈ runs, run.diagnostics = []

section Written

variable {values : List Value}

theorem length_entries (values : List Value) :
    ((values.filterMap Value.encode?).map Prod.fst).length =
      (values.filter Value.hasEncoding).length := by
  rw [List.length_map, List.length_filterMap_eq_countP, ← List.countP_eq_length_filter]
  exact congrArg (List.countP · values) (funext Value.is_some_encode)

theorem entries_packed (short : ∀ value ∈ values, value.encoded.length < 2 ^ 60) :
    ∀ entry ∈ (values.filterMap Value.encode?).map Prod.fst,
      RunFormat.entries.writable entry := by
  intro entry member
  obtain ⟨⟨_, input⟩, among, rfl⟩ := List.mem_map.mp member
  obtain ⟨value, inside, found⟩ := List.mem_filterMap.mp among
  have bounded := short value inside
  rw [Value.encoded_eq found] at bounded
  have fits : input.length < 2 ^ 64 := Nat.lt_trans bounded (by decide)
  obtain ⟨length, code, _⟩ := Value.encode_eq_some found fits
  refine ⟨?_, code⟩
  rw [length, UInt64.toNat_ofNat_of_lt' fits]
  exact bounded

end Written

section Columns

variable {context : Context} {group : ColumnGroup} {id : UInt64} {values : List Value}

theorem decoded_meta_column (small : id.toNat < 2 ^ 28)
    (spelled : Repeated.spelled
        ((Meta.decode context.limit (encodeValues values).1).flatMap Meta.copies) =
      (values.filterMap Value.encode?).map Prod.fst)
    (few : ((values.filterMap Value.encode?).map Prod.fst).length ≤ context.limit) :
    EncodedColumn.decoded group context ⟨16 * id + 6, (encodeValues values).1⟩ =
      (⟨group, ⟨16 * id + 6, UInt64.ofNat (encodeValues values).1.length⟩, (encodeValues values).1,
          .valueMeta (Meta.decode context.limit (encodeValues values).1), []⟩,
        { context with
          memory := context.memory.remember group id
            ((values.filterMap Value.encode?).map Prod.fst) }) := by
  obtain ⟨same, plain, type⟩ := column_of_spec 6 small (by decide)
    (UInt64.ofNat (encodeValues values).1.length)
  obtain ⟨kept, unlimited⟩ := Meta.entries_within_limit (spelled.symm ▸ few)
  rw [spelled] at kept
  unfold EncodedColumn.decoded EncodedColumn.announced Column.decode
  simp only [plain, type, same, kept, unlimited]
  rfl

theorem decoded_value_column (small : id.toNat < 2 ^ 28)
    (short : ∀ value ∈ values, value.encoded.length < 2 ^ 60)
    (remembered : context.memory.find? group id =
      some ((values.filterMap Value.encode?).map Prod.fst)) :
    EncodedColumn.decoded group context ⟨16 * id + 7, (encodeValues values).2⟩ =
      (⟨group, ⟨16 * id + 7, UInt64.ofNat (encodeValues values).2.length⟩, (encodeValues values).2,
          .values ⟨(values.filter Value.hasEncoding).map Value.written, []⟩, []⟩,
        context) := by
  obtain ⟨same, plain, type⟩ := column_of_spec 7 small (by decide)
    (UInt64.ofNat (encodeValues values).2.length)
  have decoded := DecodedValues.decode_written short
  unfold EncodedColumn.decoded EncodedColumn.announced Column.decode
  simp only [plain, type, same, remembered]
  simp only [Column.valuesBody, encodeValues, decoded]
  rfl

end Columns

/-- Values survive being written as a pair of columns and read again. The id leaves room for the type
in a spec, and no list in memory has 2 ^ 63 elements. -/
theorem values_read_back (context : Context) (group : ColumnGroup) {id : UInt64}
    {values : List Value} (small : id.toNat < 2 ^ 28)
    (few : (values.filter Value.hasEncoding).length ≤ context.limit)
    (short : ∀ value ∈ values, value.encoded.length < 2 ^ 60) (counted : values.length < 2 ^ 63)
    (metaFits : (encodeValues values).1.length < 2 ^ 63)
    (dataFits : (encodeValues values).2.length < 2 ^ 63) :
    ValuesReadBack context group id values := by
  have bounded := List.length_filter_le Value.hasEncoding values
  rw [← length_entries] at few bounded
  have within : ∀ column ∈ valueColumns id values, column.body.length < 2 ^ 64 := by
    rw [forall_value_columns]
    exact ⟨Nat.lt_trans metaFits (by decide), Nat.lt_trans dataFits (by decide)⟩
  have specs : ∀ column ∈ valueColumns id values, column.spec ≤ Column.largestSpec := by
    rw [forall_value_columns]
    exact ⟨spec_le_largest small (by decide), spec_le_largest small (by decide)⟩
  obtain ⟨spelled, clean⟩ := Meta.decode_encoded context.limit (Nat.lt_of_le_of_lt bounded counted)
    few (entries_packed short) metaFits
  constructor
  · have read := ColumnDescriptors.read_encoded group
      (show (valueColumns id values).length < 2 ^ 64 from (by decide : 2 < 2 ^ 64)) specs []
    rwa [List.append_nil] at read
  · -- The second column finds the entries that decoding the first one has just remembered.
    have cutting := decode_section_written group within context []
    have remembered := MetaMemory.find_remember context.memory group id
      ((values.filterMap Value.encode?).map Prod.fst)
    rw [List.append_nil, valueColumns, map_state_cons, decoded_meta_column small spelled few,
      map_state_cons, decoded_value_column small short remembered] at cutting
    exact ⟨_, _, cutting, clean⟩

/-- Equal entries share a run, a value of unknown type is left out, and a float need not be a
number. -/
theorem values_read_back_of_mixed :
    ValuesReadBack (.new 5) .operation 5
      [.unsigned 1, .unsigned 2, .unknown 10, .float 0x7ff8000000000001, .string "hé", .null] :=
  values_read_back (.new 5) .operation (by decide) (by decide) (by decide +kernel) (by decide)
    (by decide +kernel) (by decide +kernel)

end Pair

end Chunkscope
