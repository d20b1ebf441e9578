import Chunkscope.Column.Encode
import Chunkscope.Proofs.Field.ReadBack

/-!
# Runs written and runs read

A format says how the values of a run-length column are written and where decoded runs hold them.
When its payloads are read back one by one, so are whole runs, and by induction along the walk so is
every list of runs. When payloads without a diagnostic hold the bytes that their values are written
as, so do runs, and a body whose runs are free of diagnostics is written again as it was.
-/

namespace Chunkscope

section Runs

variable {Step Item : Type}

/-- Everything wrong with a run, its items included. -/
def Run.diagnostics : Run Step Item → List Diagnostic
  | .null nulls => nulls.diagnostics
  | .repeated step => step.diagnostics
  | .literal header items => header.diagnostics ++ items.flatMap Field.diagnostics

end Runs

/-- How the values of one kind of column are written, and where decoded runs hold them. -/
structure RunFormat (Step Item Value : Type) where
  encode : Value → Bytes
  ofStep : Step → Value
  ofItem : Item → Value
  /-- The values that the encoding can tell apart. -/
  writable : Value → Prop
  /-- What can be wrong with a run without any fault in its bytes. -/
  tolerated : List Problem
  running : ∀ problem ∈ tolerated, problem = .negativeRunningValue ∨ problem = .runningValueOverflow

namespace RunFormat

variable {State Step Item Value : Type} (format : RunFormat Step Item Value)

/-- The call that writes a decoded run again. -/
def step : Run Step Item → RunStep Value
  | .null nulls => .null nulls.value
  | .repeated field => .repeated (format.ofStep field.value.value) field.value.count.toInt64
  | .literal _ items => .literals (items.map fun item => format.ofItem item.value)

/-- The runs that can be written: a count that is positive, or a list that is neither empty nor
longer than decoding allows. -/
def Writable (limit : Nat) : RunStep Value → Prop
  | .null _ => True
  | .repeated value count => 0 < count ∧ format.writable value
  | .literals values =>
      values ≠ [] ∧ values.length ≤ limit ∧ ∀ value ∈ values, format.writable value

def Harmless (diagnostics : List Diagnostic) : Prop :=
  ∀ diagnostic ∈ diagnostics, diagnostic.problem ∈ format.tolerated

/-- A field shows a value when it spans the bytes of the value and nothing is wrong with them. -/
structure Shows {Content : Type} (content : Content → Value) (value : Value)
    (field : Field Content) : Prop where
  span : field.bytes = format.encode value
  value : content field.value = value
  harmless : format.Harmless field.diagnostics

/-- A field without faults spans the bytes of its value. -/
def Sound {Content : Type} (content : Content → Value) (field : Field Content) : Prop :=
  format.Harmless field.diagnostics → field.bytes = format.encode (content field.value)

/-- A run without faults spans what writing it again gives. -/
def SoundRun (run : Run Step Item) : Prop :=
  format.Harmless run.diagnostics → bytes run = (format.step run).encode format.encode

/-- A decoded run records a call when it holds what the call wrote, part by part. -/
inductive Records : RunStep Value → Run Step Item → Prop where
  | null (count : UInt64) :
      Records (.null count)
        (.null (.clean (Varint.encodeSigned 0 ++ Varint.encodeUnsigned count) count))
  | repeated {value : Value} {count : Int64} {field : Field (Repeated Step)}
      (span : field.bytes = Varint.encodeSigned count ++ format.encode value)
      (times : field.value.count = count.toUInt64) (payload : format.ofStep field.value.value = value)
      (harmless : format.Harmless field.diagnostics) :
      Records (.repeated value count) (.repeated field)
  | literals {values : List Value} {items : List (Field Item)}
      (each : List.Forall₂ (format.Shows format.ofItem) values items) :
      Records (.literals values)
        (.literal (.clean (Varint.encodeSigned (-Int64.ofNat values.length))
          (UInt64.ofNat values.length)) items)

/-- Writing and reading undo one another: every call is read back as one run, and a body without
faults is written again as it was. No byte string in memory has 2 ^ 63 bytes. -/
structure Inverse (limit : Nat) (decode : Bytes → List (Run Step Item)) : Prop where
  decode_encode : ∀ steps : List (RunStep Value), (∀ step ∈ steps, format.Writable limit step) →
    (encodeRuns format.encode steps).length < 2 ^ 63 →
    List.Forall₂ (fun step run => format.Records step run ∧ bytes run = step.encode format.encode)
      steps (decode (encodeRuns format.encode steps))
  encode_decode : ∀ body, (∀ run ∈ decode body, format.Harmless run.diagnostics) →
    encodeRuns format.encode ((decode body).map format.step) = body

/-- What payloads have to keep for whole columns to be read back. -/
structure Law (payload : Payload State Step Item) : Prop where
  nonempty : ∀ value, format.encode value ≠ []
  repeated_reads : ∀ value, format.writable value → (format.encode value).length < 2 ^ 63 →
    ∀ count, ReadsBack (fun state => payload.repeated state count) (format.encode value)
      (format.Shows format.ofStep value)
  literal_reads : ∀ value, format.writable value → (format.encode value).length < 2 ^ 63 →
    ReadsBack payload.literal (format.encode value) (format.Shows format.ofItem value)
  repeated_sound : ∀ state count input,
    format.Sound format.ofStep (payload.repeated state count input).1
  literal_sound : ∀ state input, format.Sound format.ofItem (payload.literal state input).1

variable {format} {payload : Payload State Step Item}

theorem harmless_nil : format.Harmless [] := by simp [Harmless]

theorem harmless_append {first second : List Diagnostic} :
    format.Harmless (first ++ second) ↔ format.Harmless first ∧ format.Harmless second := by
  unfold Harmless
  exact List.forall_mem_append

theorem not_harmless {diagnostic : Diagnostic}
    (different : diagnostic.problem ≠ .negativeRunningValue ∧
      diagnostic.problem ≠ .runningValueOverflow) :
    ¬format.Harmless [diagnostic] := by
  intro harmless
  obtain same | same := format.running _ (harmless diagnostic List.mem_cons_self)
  · exact different.1 same
  · exact different.2 same

theorem fault_none {part : Option String} {fault : Option Varint.Fault}
    (harmless : format.Harmless (Diagnostic.ofFault part fault)) : fault = none := by
  cases fault with
  | none => rfl
  | some fault => exact absurd harmless (not_harmless (by simp))

theorem all_items {declared : UInt64} {limit found : Nat} {rest : Bytes}
    (few : found ≤ declared.toNat)
    (harmless : format.Harmless (Payload.shortfall declared limit found rest)) :
    found = declared.toNat := by
  by_contra different
  have short : found < declared.toNat := by omega
  unfold Payload.shortfall Diagnostic.missing at harmless
  simp only [if_pos short] at harmless
  split at harmless
  · exact not_harmless (by simp [Diagnostic.error]) harmless
  · exact not_harmless (by simp [Diagnostic.error]) harmless

section Writing

theorem encode_step_ne_nil (encode : Value → Bytes) (step : RunStep Value) :
    step.encode encode ≠ [] := by
  cases step with
  | null count => exact List.append_ne_nil_of_left_ne_nil (Varint.encode_signed_ne_nil 0) _
  | repeated value count =>
      exact List.append_ne_nil_of_left_ne_nil (Varint.encode_signed_ne_nil count) _
  | literals values => exact List.append_ne_nil_of_left_ne_nil (Varint.encode_signed_ne_nil _) _

theorem next_run_null (payload : Payload State Step Item) (limit : Nat) (state : State)
    (count : UInt64) (rest : Bytes) :
    payload.nextRun limit state (Varint.encodeSigned 0 ++ (Varint.encodeUnsigned count ++ rest)) =
      (.null (.clean (Varint.encodeSigned 0 ++ Varint.encodeUnsigned count) count), state, rest) := by
  simp only [Payload.nextRun, Varint.scan_signed_encode, Varint.scan_unsigned_encode]
  rfl

theorem next_run_repeated (payload : Payload State Step Item) (limit : Nat) (state : State)
    {count : Int64} (positive : 0 < count) (rest : Bytes) :
    payload.nextRun limit state (Varint.encodeSigned count ++ rest) =
      (.repeated
        { bytes := Varint.encodeSigned count ++ (payload.repeated state count.toUInt64 rest).1.bytes
          value := ⟨count.toUInt64, (payload.repeated state count.toUInt64 rest).1.value⟩
          diagnostics := (payload.repeated state count.toUInt64 rest).1.diagnostics },
        (payload.repeated state count.toUInt64 rest).2) := by
  have nonzero : count ≠ 0 := by
    rintro rfl
    exact absurd positive (by decide)
  simp only [Payload.nextRun, Varint.scan_signed_encode, if_neg nonzero, if_pos positive,
    of_fault_none, List.nil_append]

theorem count_pos {count : Int64} (positive : 0 < count) : 0 < count.toUInt64.toNat := by
  by_contra none
  have zero : count.toUInt64 = 0 := UInt64.toNat_inj.mp (Nat.eq_zero_of_not_pos none)
  rw [← Int64.toInt64_toUInt64 count, zero] at positive
  exact absurd positive (by decide)

/-- A positive count has 63 bits. -/
theorem count_lt {count : Int64} (positive : 0 < count) : count.toUInt64.toNat < 2 ^ 63 := by
  have value : count.toInt = (count.toUInt64.toNat : Int).bmod (2 ^ 64) :=
    BitVec.toInt_eq_toNat_bmod _
  have bounded := count.toUInt64.toNat_lt
  rw [Int64.lt_iff_toInt_lt, Int64.toInt_zero, value, Int.bmod_def] at positive
  omega

theorem negated_length {count : Nat} (positive : 0 < count) (fits : count < 2 ^ 63) :
    -Int64.ofNat count ≠ 0 ∧ ¬0 < -Int64.ofNat count := by
  have negated : (-Int64.ofNat count).toInt = -(count : Int) :=
    Int64.toInt_neg_ofNat_of_le (Nat.le_of_lt fits)
  constructor
  · intro zero
    rw [zero, Int64.toInt_zero] at negated
    omega
  · rw [Int64.lt_iff_toInt_lt, negated, Int64.toInt_zero]
    omega

theorem declared_ne_zero {count : Int64} (nonzero : count ≠ 0) : (-count).toUInt64.toNat ≠ 0 := by
  intro none
  have zero : (-count).toUInt64 = 0 := UInt64.toNat_inj.mp none
  apply nonzero
  calc count = - -count := Int64.neg_neg.symm
    _ = -(-count).toUInt64.toInt64 := by rw [Int64.toInt64_toUInt64]
    _ = 0 := by rw [zero]; rfl

theorem shortfall_of_all (declared : UInt64) (limit : Nat) (rest : Bytes) :
    Payload.shortfall declared limit declared.toNat rest = [] := by
  simp [Payload.shortfall, missing_of_all]

theorem next_run_literals (payload : Payload State Step Item) {limit count : Nat} (state : State)
    (input : Bytes) (positive : 0 < count) (fits : count < 2 ^ 63) (allowed : count ≤ limit)
    (all : (takeUpTo payload.literal count state input).1.length = count) :
    payload.nextRun limit state (Varint.encodeSigned (-Int64.ofNat count) ++ input) =
      (.literal (.clean (Varint.encodeSigned (-Int64.ofNat count)) (UInt64.ofNat count))
          (takeUpTo payload.literal count state input).1,
        (takeUpTo payload.literal count state input).2) := by
  obtain ⟨nonzero, negative⟩ := negated_length positive fits
  have declared : (- -Int64.ofNat count).toUInt64 = UInt64.ofNat count := by
    rw [Int64.neg_neg, Int64.toUInt64_ofNat']
  have size : (UInt64.ofNat count).toNat = count :=
    UInt64.toNat_ofNat_of_lt' (Nat.lt_trans fits (by decide))
  have none_missing := shortfall_of_all (UInt64.ofNat count) limit
    (takeUpTo payload.literal count state input).2.2
  rw [size] at none_missing
  simp only [Payload.nextRun, Varint.scan_signed_encode, if_neg nonzero, if_neg negative, declared,
    size, Nat.min_eq_left allowed, all, none_missing]
  rfl

end Writing

section Reading

theorem Law.reads (law : format.Law payload) {limit : Nat} {step : RunStep Value}
    (writable : format.Writable limit step)
    (size : (step.encode format.encode).length < 2 ^ 63) :
    ReadsBack (payload.nextRun limit) (step.encode format.encode)
      (fun run => format.Records step run ∧ bytes run = step.encode format.encode) := by
  -- A run spans what reading takes off the input, so it is enough to know where reading stops.
  suffices both : ∀ state rest,
      format.Records step (payload.nextRun limit state (step.encode format.encode ++ rest)).1 ∧
        (payload.nextRun limit state (step.encode format.encode ++ rest)).2.2 = rest by
    refine ⟨encode_step_ne_nil format.encode step, ?_, fun state rest => (both state rest).2⟩
    intro state rest
    have whole := payload.next_run_append limit state (step.encode format.encode ++ rest)
    rw [(both state rest).2] at whole
    exact ⟨(both state rest).1, List.append_cancel_right whole⟩
  intro state rest
  cases step with
  | null count =>
      rw [RunStep.encode, List.append_assoc, next_run_null]
      exact ⟨.null count, rfl⟩
  | repeated value count =>
      obtain ⟨positive, distinct⟩ := writable
      rw [RunStep.encode, List.length_append] at size
      have back := law.repeated_reads value distinct (by omega) count.toUInt64
      rw [RunStep.encode, List.append_assoc, next_run_repeated payload limit state positive]
      have shown := back.shown state rest
      exact ⟨.repeated (congrArg _ shown.span) rfl shown.value shown.harmless,
        back.rest state rest⟩
  | literals values =>
      obtain ⟨nonempty, allowed, distinct⟩ := writable
      rw [RunStep.encode, List.length_append] at size
      have counted := length_le_length_flat_map fun value (_ : value ∈ values) => law.nonempty value
      have each : ∀ value ∈ values,
          ReadsBack payload.literal (format.encode value) (format.Shows format.ofItem value) := by
        intro value member
        have part := length_le_of_mem_flat_map format.encode member
        exact law.literal_reads value (distinct value member) (by omega)
      obtain ⟨shown, left⟩ := take_up_to_written each state rest
      rw [RunStep.encode, List.append_assoc, next_run_literals payload state _
        (List.length_pos_iff.mpr nonempty) (by omega) allowed shown.length_eq.symm]
      exact ⟨.literals shown, left⟩

theorem spanned_of_sound {items : List (Field Item)}
    (each : ∀ item ∈ items, item.bytes = format.encode (format.ofItem item.value)) :
    spanned items = (items.map fun item => format.ofItem item.value).flatMap format.encode := by
  rw [List.flatMap_map]
  exact List.flatMap_congr each

theorem Law.sound (law : format.Law payload) (limit : Nat) (state : State) (input : Bytes) :
    format.SoundRun (payload.nextRun limit state input).1 := by
  intro harmless
  by_cases zero : (Varint.scanSigned input).value = 0
  · simp only [Payload.nextRun, if_pos zero, Run.diagnostics, harmless_append] at harmless ⊢
    have header := Varint.scan_signed_sound (fault_none harmless.1)
    have nulls := Varint.scan_unsigned_sound (fault_none harmless.2)
    rw [zero] at header
    exact congrArg₂ (· ++ ·) header nulls
  by_cases positive : 0 < (Varint.scanSigned input).value
  · simp only [Payload.nextRun, if_neg zero, if_pos positive, Run.diagnostics,
      harmless_append] at harmless ⊢
    have header := Varint.scan_signed_sound (fault_none harmless.1)
    have value := law.repeated_sound _ _ _ harmless.2
    simp only [step, RunStep.encode, Int64.toInt64_toUInt64]
    exact congrArg₂ (· ++ ·) header value
  · simp only [Payload.nextRun, if_neg zero, if_neg positive, Run.diagnostics,
      harmless_append] at harmless ⊢
    obtain ⟨⟨faultless, all⟩, clean⟩ := harmless
    have header := Varint.scan_signed_sound (fault_none faultless)
    generalize (Varint.scanSigned input).value = count at *
    have bounded := length_take_up_to_le payload.literal (min (-count).toUInt64.toNat limit) state
      (Varint.scanSigned input).rest
    -- A limit that cuts the list short is a fault, so the declared number is the number of items.
    have found := all_items (Nat.le_trans bounded (Nat.min_le_left _ _)) all
    have times : -Int64.ofNat (-count).toUInt64.toNat = count := by
      rw [← UInt64.toInt64_ofNat', UInt64.ofNat_toNat, Int64.toInt64_toUInt64, Int64.neg_neg]
    have each := forall_take_up_to payload.literal
      (fun state input _ => law.literal_sound state input) (min (-count).toUInt64.toNat limit) state
      (Varint.scanSigned input).rest
    have items := spanned_of_sound fun item member => each item member
      fun diagnostic found => clean diagnostic (List.mem_flatMap.mpr ⟨item, member, found⟩)
    simp only [step, RunStep.encode, List.length_map, found, times]
    exact congrArg₂ (· ++ ·) header items

theorem Law.each_reads (law : format.Law payload) {limit : Nat} {steps : List (RunStep Value)}
    (writable : ∀ step ∈ steps, format.Writable limit step)
    (size : (encodeRuns format.encode steps).length < 2 ^ 63) :
    ∀ step ∈ steps, ReadsBack (payload.nextRun limit) (step.encode format.encode)
      (fun run => format.Records step run ∧ bytes run = step.encode format.encode) := by
  intro step member
  have part := length_le_of_mem_flat_map (RunStep.encode format.encode) member
  exact law.reads (writable step member) (Nat.lt_of_le_of_lt part size)

/-- Columns are read back, and written again, when their payloads are. -/
theorem Law.inverse (law : format.Law payload) (limit : Nat) (state : State) :
    format.Inverse limit (payload.decodeRuns limit state) where
  decode_encode := by
    intro steps writable size
    apply Walk.pieces_written
    exact law.each_reads writable size
  encode_decode := by
    intro body harmless
    have each := (payload.walk limit).forall_pieces (law.sound limit) state body
    have whole := payload.spanned_decode_runs limit state body
    rw [encodeRuns, List.flatMap_map]
    refine (List.flatMap_congr fun run member => ?_).trans whole
    exact (each run member (harmless run member)).symm

end Reading

end RunFormat

end Chunkscope
