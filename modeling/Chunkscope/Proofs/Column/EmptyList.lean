import Chunkscope.Proofs.Column.Formats
import Chunkscope.Proofs.Column.Limit
import Chunkscope.Proofs.Varint.Lenient

/-!
# A list of no values

The number of values in a list is written negated, and zero is the header of nulls. So an empty list
is the header of nulls without their number, and the bytes behind it are taken for that number. Among
calls that write something this is never without effect, wherever it stands: a call that writes values
gives its header away for a number of nulls, and at the end of a column the number is missing.
-/

namespace Chunkscope

section Presence

variable {Step Item Value : Type}

/-- Which values of a run there are; the others are null. -/
def Run.present : Run Step Item → List Bool
  | .null nulls => List.replicate nulls.value.toNat false
  | .repeated step => List.replicate step.value.count.toNat true
  | .literal _ items => List.replicate items.length true

def RunStep.present : RunStep Value → List Bool
  | .null count => List.replicate count.toNat false
  | .repeated _ count => List.replicate count.toUInt64.toNat true
  | .literals values => List.replicate values.length true

/-- A repeated payload stands for as many values as it is repeated. -/
def PayloadValues.Counted (meaning : PayloadValues Step Item Value) : Prop :=
  ∀ step, (meaning.ofStep step).length = step.count.toNat

theorem PayloadValues.plain_counted (Value : Type) : (plain Value).Counted :=
  fun _ => List.length_replicate

theorem PayloadValues.deltas_counted : deltas.Counted := by
  intro step
  rw [deltas, List.length_map, List.length_range]

theorem Run.present_of_values {meaning : PayloadValues Step Item Value} (counted : meaning.Counted)
    (run : Run Step Item) : (run.values meaning).map Option.isSome = run.present := by
  cases run with
  | null nulls => simp [values, present]
  | repeated step => simp [values, present, ← counted step.value, Function.comp_def]
  | literal header items => simp [values, present, Function.comp_def]

theorem Run.present_of_all_values {meaning : PayloadValues Step Item Value}
    (counted : meaning.Counted) (runs : List (Run Step Item)) :
    (runs.flatMap (values meaning)).map Option.isSome = runs.flatMap present := by
  rw [List.map_flatMap]
  exact List.flatMap_congr fun run _ => present_of_values counted run

/-- Runs are as good as others when they give the same values and nothing is reported for them that is
not reported for the others. -/
structure Run.AsGoodAs (meaning : PayloadValues Step Item Value) (runs others : List (Run Step Item)) :
    Prop where
  values : runs.flatMap (values meaning) = others.flatMap (values meaning)
  diagnostics : runs.flatMap Run.diagnostics ⊆ others.flatMap Run.diagnostics

end Presence

namespace RunFormat

variable {State Step Item Value : Type} {format : RunFormat Step Item Value}

section Recorded

variable {step : RunStep Value} {run : Run Step Item}

theorem present_of_records (records : format.Records step run) : run.present = step.present := by
  cases records with
  | null count => rfl
  | repeated span times payload harmless => simp only [Run.present, RunStep.present, times]
  | literals each => simp only [Run.present, RunStep.present, each.length_eq]

theorem harmless_of_records (records : format.Records step run) :
    format.Harmless run.diagnostics := by
  cases records with
  | null count => exact harmless_nil
  | repeated span times payload harmless => exact harmless
  | @literals values items each =>
      apply harmless_append.mpr
      apply And.intro harmless_nil
      induction each with
      | nil => exact harmless_nil
      | cons first _ induction => exact harmless_append.mpr ⟨first.harmless, induction⟩

end Recorded

section Misread

/-- What is read for a null header without its number, when the bytes behind it are `rest`. -/
def unnumbered (rest : Bytes) : Run Step Item :=
  let nulls := Varint.scanUnsigned rest
  .null ⟨0 :: nulls.bytes, nulls.value, Diagnostic.ofFault (some "null") nulls.fault⟩

variable {payload : Payload State Step Item} {limit : Nat}

theorem next_run_unnumbered (payload : Payload State Step Item) (limit : Nat) (state : State)
    (rest : Bytes) :
    payload.nextRun limit state (0 :: rest) =
      (unnumbered rest, state, (Varint.scanUnsigned rest).rest) := by
  have header := Varint.scan_signed_encode 0 rest
  rw [Varint.encode_signed_zero] at header
  simp only [Payload.nextRun, List.singleton_append ▸ header]
  rfl

theorem decode_unnumbered (payload : Payload State Step Item) (limit : Nat) (state : State)
    (rest : Bytes) :
    payload.decodeRuns limit state (0 :: rest) =
      unnumbered rest :: payload.decodeRuns limit state (Varint.scanUnsigned rest).rest := by
  rw [Payload.decode_runs_cons, next_run_unnumbered]

/-- A run that is not one of nulls begins with a value, unless something is wrong with it. -/
theorem head_present_of_next_run {state : State} {input : Bytes}
    (header : (Varint.scanSigned input).value ≠ 0)
    (harmless : format.Harmless (payload.nextRun limit state input).1.diagnostics) :
    (payload.nextRun limit state input).1.present.head? = some true := by
  by_cases positive : 0 < (Varint.scanSigned input).value
  · have steps := Nat.ne_of_gt (count_pos positive)
    simp only [Payload.nextRun, if_neg header, if_pos positive, Run.present, List.head?_replicate,
      if_neg steps]
  · simp only [Payload.nextRun, if_neg header, if_neg positive, Run.diagnostics, harmless_append,
      Run.present] at harmless ⊢
    have bounded := length_take_up_to_le payload.literal
      (min (-(Varint.scanSigned input).value).toUInt64.toNat limit) state
      (Varint.scanSigned input).rest
    have all := all_items (Nat.le_trans bounded (Nat.min_le_left _ _)) harmless.1.2
    rw [List.head?_replicate, all, if_neg (declared_ne_zero header)]

theorem head_present_of_decode {state : State} {input : Bytes}
    (header : (Varint.scanSigned input).value ≠ 0)
    (harmless : ∀ run ∈ payload.decodeRuns limit state input,
      format.Harmless run.diagnostics) :
    ((payload.decodeRuns limit state input).flatMap Run.present).head? = some true := by
  cases input with
  | nil => exact absurd rfl header
  | cons byte rest =>
      rw [Payload.decode_runs_cons] at harmless ⊢
      have first := head_present_of_next_run header (harmless _ List.mem_cons_self)
      rw [List.flatMap_cons, List.head?_append, first, Option.some_or]

theorem ne_of_heads {first second : List Bool} (absent : first.head? = some false)
    (there : second.head? = some true) : first ≠ second := by
  rintro rfl
  rw [absent] at there
  cases there

theorem head_present_of_header {header : Int64} (nonzero : header ≠ 0) (more : Bytes) :
    (unnumbered (Varint.encodeSigned header ++ more) : Run Step Item).present.head? =
      some false := by
  have signed : (Varint.scanSigned (Varint.encodeSigned header ++ more)).value ≠ 0 := by
    rwa [Varint.scan_signed_encode]
  have number : (Varint.scanUnsigned (Varint.encodeSigned header ++ more)).value.toNat ≠ 0 := by
    intro none
    exact signed ((Varint.signed_zero_iff _).mpr (UInt64.toNat_inj.mp none))
  rw [unnumbered, Run.present, List.head?_replicate, if_neg number]

/-- A call that writes values loses its header to the nulls. -/
theorem present_differs_behind_header {header : Int64} (nonzero : header ≠ 0) {present : List Bool}
    (there : present.head? = some true) (payload : Payload State Step Item) (limit : Nat)
    (state : State) (rest : Bytes) (more : List Bool) :
    (payload.decodeRuns limit state (0 :: (Varint.encodeSigned header ++ rest))).flatMap
      Run.present ≠ present ++ more := by
  rw [decode_unnumbered, List.flatMap_cons]
  apply ne_of_heads
  · rw [List.head?_append, head_present_of_header nonzero, Option.some_or]
  · rw [List.head?_append, there, Option.some_or]

/-- Nulls lose their header to a run of none, and their number is taken for a header. -/
theorem decode_unnumbered_nulls (payload : Payload State Step Item) (limit : Nat) (state : State)
    (count : UInt64) (rest : Bytes) :
    payload.decodeRuns limit state
        (0 :: ((RunStep.null count).encode format.encode ++ rest)) =
      .null (.clean [0, 0] 0) ::
        payload.decodeRuns limit state (Varint.encodeUnsigned count ++ rest) := by
  rw [RunStep.encode, Varint.encode_signed_zero, ← Varint.encode_unsigned_zero, List.append_assoc,
    decode_unnumbered, unnumbered, Varint.scan_unsigned_encode, Varint.encode_unsigned_zero]
  rfl

theorem present_differs_behind_number {count : UInt64} (nonzero : count ≠ 0) {state : State}
    {rest : Bytes} (harmless : ∀ run ∈ payload.decodeRuns limit state
      (Varint.encodeUnsigned count ++ rest), format.Harmless run.diagnostics) (more : List Bool) :
    (payload.decodeRuns limit state (Varint.encodeUnsigned count ++ rest)).flatMap Run.present ≠
      List.replicate count.toNat false ++ more := by
  have header : (Varint.scanSigned (Varint.encodeUnsigned count ++ rest)).value ≠ 0 := by
    rw [Ne, Varint.signed_zero_iff, Varint.scan_unsigned_encode]
    exact nonzero
  have number : count.toNat ≠ 0 := fun none => nonzero (UInt64.toNat_inj.mp none)
  apply Ne.symm
  apply ne_of_heads
  · rw [List.head?_append, List.head?_replicate, if_neg number, Option.some_or]
  · exact head_present_of_decode header harmless

/-- Behind an empty list some run has a fault, or else there are other values than the calls behind it
write. -/
theorem present_differs_behind_empty_list (law : format.Law payload) {after : List (RunStep Value)}
    (writable : ∀ step ∈ after, format.Writable limit step)
    (size : (encodeRuns format.encode after).length < 2 ^ 63) (state : State)
    (harmless : ∀ run ∈ payload.decodeRuns limit state (0 :: encodeRuns format.encode after),
      format.Harmless run.diagnostics) :
    (payload.decodeRuns limit state (0 :: encodeRuns format.encode after)).flatMap Run.present ≠
      after.flatMap RunStep.present := by
  unfold encodeRuns at size harmless ⊢
  induction after with
  | nil =>
      rw [List.flatMap_nil, decode_unnumbered] at harmless
      have missing : format.Harmless (Diagnostic.ofFault (some "null") (some .truncated)) :=
        harmless _ List.mem_cons_self
      cases fault_none missing
  | cons step after induction =>
      obtain ⟨first, later⟩ := List.forall_mem_cons.mp writable
      rw [List.flatMap_cons, List.length_append] at size
      rw [List.flatMap_cons] at harmless
      rw [List.flatMap_cons, List.flatMap_cons]
      cases step with
      | null count =>
          rw [decode_unnumbered_nulls] at harmless ⊢
          have unread := (List.forall_mem_cons.mp harmless).2
          rw [List.flatMap_cons]
          by_cases none : count = 0
          · subst none
            rw [Varint.encode_unsigned_zero] at unread ⊢
            exact induction later (by omega) unread
          · exact present_differs_behind_number none unread _
      | repeated value count =>
          have nonzero : count ≠ 0 := by
            rintro rfl
            exact absurd first.1 (by decide)
          have there : (RunStep.repeated value count).present.head? = some true := by
            rw [RunStep.present, List.head?_replicate, if_neg (Nat.ne_of_gt (count_pos first.1))]
          rw [RunStep.encode, List.append_assoc]
          exact present_differs_behind_header nonzero there payload limit state _ _
      | literals values =>
          have positive := List.length_pos_iff.mpr first.1
          have few := length_le_length_flat_map fun value (_ : value ∈ values) => law.nonempty value
          have there : (RunStep.literals values).present.head? = some true := by
            rw [RunStep.present, List.head?_replicate, if_neg (Nat.ne_of_gt positive)]
          rw [RunStep.encode, List.length_append] at size
          rw [RunStep.encode, List.append_assoc]
          exact present_differs_behind_header (negated_length positive (by omega)).1 there payload
            limit state _ _

end Misread

section Insertion

variable {payload : Payload State Step Item} {limit : Nat}

theorem present_of_all_records {steps : List (RunStep Value)} {runs : List (Run Step Item)}
    (records : List.Forall₂ format.Records steps runs) :
    runs.flatMap Run.present = steps.flatMap RunStep.present := by
  induction records with
  | nil => rfl
  | cons first _ induction =>
      rw [List.flatMap_cons, List.flatMap_cons, present_of_records first, induction]

theorem harmless_of_all_records {steps : List (RunStep Value)} {runs : List (Run Step Item)}
    (records : List.Forall₂ format.Records steps runs) :
    format.Harmless (runs.flatMap Run.diagnostics) := by
  induction records with
  | nil => exact harmless_nil
  | cons first _ induction => exact harmless_append.mpr ⟨harmless_of_records first, induction⟩

theorem Law.decode_onto (law : format.Law payload) {before : List (RunStep Value)}
    (writable : ∀ step ∈ before, format.Writable limit step)
    (size : (encodeRuns format.encode before).length < 2 ^ 63) (state : State) (rest : Bytes) :
    ∃ runs later, List.Forall₂ format.Records before runs ∧
      payload.decodeRuns limit state (encodeRuns format.encode before ++ rest) =
        runs ++ payload.decodeRuns limit later rest := by
  have each := law.each_reads writable size
  obtain ⟨runs, later, shown, whole⟩ :=
    (payload.walk limit).pieces_written_onto each state rest
  exact ⟨runs, later, shown.imp fun _ _ both => both.1, whole⟩

/-- What an empty list does among calls that write something. -/
structure EmptyListMisread (format : RunFormat Step Item Value) (limit : Nat)
    (meaning : PayloadValues Step Item Value) (decode : Bytes → List (Run Step Item)) : Prop where
  /-- The calls before it are read back, and it takes the bytes behind it for a number of nulls. -/
  taken : ∀ before after, (∀ step ∈ before, format.Writable limit step) →
    (encodeRuns format.encode before).length < 2 ^ 63 →
    ∃ runs more, List.Forall₂ format.Records before runs ∧
      decode (encodeRuns format.encode (before ++ .literals [] :: after)) =
        runs ++ unnumbered (encodeRuns format.encode after) :: more
  /-- Values are lost or made up, or something is reported that was not before. -/
  noticed : ∀ before after, (∀ step ∈ before ++ after, format.Writable limit step) →
    (encodeRuns format.encode (before ++ after)).length < 2 ^ 63 →
    ¬Run.AsGoodAs meaning
      (decode (encodeRuns format.encode (before ++ .literals [] :: after)))
      (decode (encodeRuns format.encode (before ++ after)))

theorem encode_with_empty_list (encode : Value → Bytes) (before after : List (RunStep Value)) :
    encodeRuns encode (before ++ .literals [] :: after) =
      encodeRuns encode before ++ 0 :: encodeRuns encode after := by
  have empty : (RunStep.literals []).encode encode = [0] := by
    simp [RunStep.encode, Varint.encode_signed_zero]
  rw [encodeRuns, List.flatMap_append, List.flatMap_cons, empty]
  rfl

theorem Law.empty_list_misread (law : format.Law payload)
    {meaning : PayloadValues Step Item Value} (counted : meaning.Counted) (limit : Nat)
    (state : State) :
    format.EmptyListMisread limit meaning (payload.decodeRuns limit state) where
  taken := by
    intro before after writable size
    obtain ⟨runs, later, records, whole⟩ :=
      law.decode_onto writable size state (0 :: encodeRuns format.encode after)
    rw [encode_with_empty_list, whole, decode_unnumbered]
    exact ⟨runs, _, records, rfl⟩
  noticed := by
    intro before after writable size same
    obtain ⟨first, later⟩ := List.forall_mem_append.mp writable
    have parts := size
    rw [encodeRuns, List.flatMap_append, List.length_append] at parts
    have front := Nat.lt_of_le_of_lt (Nat.le_add_right _ _) parts
    obtain ⟨runs, reached, records, whole⟩ :=
      law.decode_onto first front state (0 :: encodeRuns format.encode after)
    have read := ((law.inverse limit state).decode_encode _ writable size).imp
      fun _ _ both => both.1
    rw [encode_with_empty_list, whole] at same
    -- Nothing is wrong with the column without the list, so nothing is wrong behind the list.
    have harmless : ∀ run ∈ payload.decodeRuns limit reached (0 :: encodeRuns format.encode after),
        format.Harmless run.diagnostics := by
      intro run member diagnostic reported
      apply harmless_of_all_records read
      apply same.diagnostics
      exact List.mem_flatMap.mpr ⟨run, List.mem_append_right _ member, reported⟩
    have present := calc
      before.flatMap RunStep.present ++
          (payload.decodeRuns limit reached (0 :: encodeRuns format.encode after)).flatMap
            Run.present
        = (runs ++ payload.decodeRuns limit reached
            (0 :: encodeRuns format.encode after)).flatMap Run.present := by
          rw [List.flatMap_append, present_of_all_records records]
      _ = (payload.decodeRuns limit state (encodeRuns format.encode (before ++ after))).flatMap
            Run.present := by
          rw [← Run.present_of_all_values counted, same.values, Run.present_of_all_values counted]
      _ = before.flatMap RunStep.present ++ after.flatMap RunStep.present := by
          rw [present_of_all_records read, List.flatMap_append]
    have few := Nat.lt_of_le_of_lt (Nat.le_add_left _ _) parts
    apply present_differs_behind_empty_list law later few reached harmless
    exact List.append_cancel_left present

end Insertion

end RunFormat

/-- In no column of runs is an empty list without effect, wherever it stands. -/
theorem empty_list_never_neutral (limit : Nat) :
    RunFormat.integers.EmptyListMisread limit (.plain UInt64) (decodeIntegers limit) ∧
      RunFormat.deltas.EmptyListMisread limit .deltas (decodeDeltas limit) ∧
      RunFormat.strings.EmptyListMisread limit (.plain String) (decodeStrings limit) ∧
      RunFormat.entries.EmptyListMisread limit (.plain MetaEntry) (Meta.decode limit) :=
  ⟨RunFormat.integers_law.empty_list_misread (PayloadValues.plain_counted _) limit (),
    RunFormat.deltas_law.empty_list_misread PayloadValues.deltas_counted limit 0,
    RunFormat.strings_law.empty_list_misread (PayloadValues.plain_counted _) limit (),
    RunFormat.entries_law.empty_list_misread (PayloadValues.plain_counted _) limit ()⟩

/-- Three sevens become three nulls and the beginning of a run. -/
theorem empty_list_takes_run_for_nulls :
    ¬Run.AsGoodAs (.plain UInt64)
      (decodeIntegers 9 (encodeRuns Varint.encodeUnsigned [.literals [], .repeated 7 3]))
      (decodeIntegers 9 (encodeRuns Varint.encodeUnsigned [.repeated 7 3])) := by
  intro same
  exact absurd same.values (by decide +kernel)

end Chunkscope
