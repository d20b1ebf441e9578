import Chunkscope.Proofs.Column.RunningRange

/-!
# What the report of an overflow means

A single difference is reported when the running value after it does not fit in 64 bits. Of a repeated
one the whole distance is worked out first, and it has to fit as well. A distance can be too large
between two running values that both fit, when one of them is negative, so then the report says more
than is the case.
-/

namespace Chunkscope

def Diagnostic.TellsOverflow (diagnostics : List Diagnostic) : Prop :=
  ∃ diagnostic ∈ diagnostics, diagnostic.problem = .runningValueOverflow

/-- The running value that single differences report last. -/
def DeltaValue.reported (running : Int64) (items : List (Field DeltaValue)) : Int64 :=
  (items.getLast?.map fun item => item.value.value).getD running

/-- The running value reported just behind a run, when `running` is the one before it. -/
def Run.reported (running : Int64) : Run DeltaStep DeltaValue → Int64
  | .null _ => running
  | .repeated step => step.value.value.last
  | .literal _ items => DeltaValue.reported running items

/-- Some of so many equal steps leads to a running value that does not fit. -/
def Delta.Leaves (running delta : Int64) (count : Nat) : Prop :=
  ∃ steps : Nat, 1 ≤ steps ∧ steps ≤ count ∧ ¬Fits (running.toInt + delta.toInt * steps)

/-- What reports of an overflow in a run mean: a running value does not fit or, for a repeated
difference only, the distance from the running value before it does not. -/
inductive Run.OverflowReports (running : Int64) : Run DeltaStep DeltaValue → Prop where
  | null {nulls : Field UInt64} : OverflowReports running (.null nulls)
  | repeated {step : Field (Repeated DeltaStep)}
      (told : Diagnostic.TellsOverflow step.diagnostics ↔
        Delta.Leaves running step.value.value.delta step.value.count.toNat ∨
          ¬Delta.Fits (step.value.value.delta.toInt * step.value.count.toNat)) :
      OverflowReports running (.repeated step)
  | literal {header : Field UInt64} {items : List (Field DeltaValue)}
      (told : ∀ before item after, items = before ++ item :: after →
        (Diagnostic.TellsOverflow item.diagnostics ↔
          Delta.Leaves (DeltaValue.reported running before) item.value.delta 1)) :
      OverflowReports running (.literal header items)

theorem DeltaValue.reported_cons (running : Int64) (item : Field DeltaValue)
    (items : List (Field DeltaValue)) :
    reported running (item :: items) = reported item.value.value items := by
  unfold reported
  rw [List.getLast?_cons]
  cases items.getLast? <;> rfl

theorem Diagnostic.tells_behind_fault (part : Option String) (fault : Option Varint.Fault)
    (second : List Diagnostic) :
    TellsOverflow (ofFault part fault ++ second) ↔ TellsOverflow second := by
  cases fault with
  | none => rfl
  | some fault => simp [TellsOverflow, ofFault]

namespace Delta

open Diagnostic (TellsOverflow)

variable {running delta : Int64}

theorem leaves_iff {count : Nat} (positive : 0 < count) :
    Leaves running delta count ↔ ¬Fits (running.toInt + delta.toInt * count) := by
  constructor
  · rintro ⟨steps, _, few, large⟩ last
    exact large (steps_between (fits_word running) last few)
  · intro large
    exact ⟨count, positive, Nat.le_refl count, large⟩

theorem settle_tells_iff (sum : Option Int64) (wrapped : Int64) :
    TellsOverflow (settle sum wrapped).2 ↔ sum = none := by
  cases sum with
  | none => simp [TellsOverflow, settle, Diagnostic.errorIn]
  | some value =>
      simp only [settle]
      split <;> simp [TellsOverflow, Diagnostic.warningIn]

theorem word_eq_none_iff (value : Int) : word? value = none ↔ ¬Fits value := by
  constructor
  · intro none fits
    rw [word_of_fits fits] at none
    cases none
  · exact word_of_not_fits

theorem advance_eq_none_iff {count : UInt64} (few : count.toNat < 2 ^ 63) :
    advance? running delta count = none ↔
      ¬Fits (running.toInt + delta.toInt * count.toNat) ∨ ¬Fits (delta.toInt * count.toNat) := by
  by_cases whole : Fits (delta.toInt * count.toNat)
  · rw [advance_of_fits few whole, word_eq_none_iff, or_iff_left (not_not.mpr whole)]
  · exact iff_of_true (advance_of_not_fits few whole) (.inr whole)

theorem literal_tells_iff (running : Int64) (input : Bytes) :
    TellsOverflow (literal running input).1.diagnostics ↔
      Leaves running (literal running input).1.value.delta 1 := by
  rw [leaves_iff Nat.one_pos, Nat.cast_one, Int.mul_one]
  exact (Diagnostic.tells_behind_fault _ _ _).trans
    ((settle_tells_iff _ _).trans (word_eq_none_iff _))

theorem repeated_tells_iff {count : UInt64} (positive : 0 < count.toNat)
    (few : count.toNat < 2 ^ 63) (running : Int64) (input : Bytes) :
    TellsOverflow (repeated running count input).1.diagnostics ↔
      Leaves running (repeated running count input).1.value.delta count.toNat ∨
        ¬Fits ((repeated running count input).1.value.delta.toInt * count.toNat) := by
  rw [leaves_iff positive]
  exact (Diagnostic.tells_behind_fault _ _ _).trans
    ((settle_tells_iff _ _).trans (advance_eq_none_iff few))

theorem state_reported (count : Nat) (running : Int64) (input : Bytes) :
    (takeUpTo literal count running input).2.1 =
      DeltaValue.reported running (takeUpTo literal count running input).1 := by
  induction count generalizing running input with
  | zero => rfl
  | succ count induction =>
      cases input with
      | nil => rfl
      | cons byte rest =>
          simp only [take_up_to_succ, DeltaValue.reported_cons]
          exact induction _ _

theorem items_tell {count : Nat} {input : Bytes} {before after : List (Field DeltaValue)}
    {item : Field DeltaValue}
    (found : (takeUpTo literal count running input).1 = before ++ item :: after) :
    TellsOverflow item.diagnostics ↔
      Leaves (DeltaValue.reported running before) item.value.delta 1 := by
  obtain ⟨later, rest, taken, rfl⟩ := piece_of_take_up_to literal found
  obtain rfl : later = DeltaValue.reported running before := by
    have state := state_reported before.length running input
    rwa [taken] at state
  exact literal_tells_iff _ rest

/-- One run reports rightly, and what it reports last is carried on. -/
theorem next_run_reports (limit : Nat) (running : Int64) (input : Bytes) :
    (payload.nextRun limit running input).1.OverflowReports running ∧
      (payload.nextRun limit running input).2.1 =
        (payload.nextRun limit running input).1.reported running := by
  unfold Payload.nextRun
  by_cases zero : (Varint.scanSigned input).value = 0
  · simp only [if_pos zero]
    exact ⟨.null, rfl⟩
  by_cases positive : 0 < (Varint.scanSigned input).value
  · simp only [if_neg zero, if_pos positive]
    have some_steps := RunFormat.count_pos positive
    have told := repeated_tells_iff some_steps (RunFormat.count_lt positive) running
      (Varint.scanSigned input).rest
    exact ⟨.repeated ((Diagnostic.tells_behind_fault _ _ _).trans told), rfl⟩
  · simp only [if_neg zero, if_neg positive]
    exact ⟨.literal fun before item after found => items_tell found, state_reported _ _ _⟩

theorem decode_runs_report (limit : Nat) {input : Bytes}
    {before after : List (Run DeltaStep DeltaValue)} {run : Run DeltaStep DeltaValue}
    (found : payload.decodeRuns limit running input = before ++ run :: after) :
    run.OverflowReports (before.foldl Run.reported running) := by
  induction running, input using (payload.walk limit).induct generalizing before with
  | ended running => simp [Payload.decodeRuns] at found
  | onward running byte rest induction =>
      obtain ⟨here, state⟩ := next_run_reports limit running (byte :: rest)
      rw [Payload.decode_runs_cons] at found
      cases before with
      | nil =>
          obtain ⟨rfl, _⟩ := List.cons.inj found
          exact here
      | cons head before =>
          obtain ⟨rfl, later⟩ := List.cons.inj found
          have reports := induction later
          rwa [List.foldl_cons, ← state]

end Delta

/-- A single difference is reported as overflowing exactly when the running value after it does not
fit. A repeated one is reported when some running value on its way does not fit, and also when only its
distance does not. -/
theorem overflow_reports_exact {limit : Nat} {body : Bytes}
    {before after : List (Run DeltaStep DeltaValue)} {run : Run DeltaStep DeltaValue}
    (found : decodeDeltas limit body = before ++ run :: after) :
    run.OverflowReports (before.foldl Run.reported 0) :=
  Delta.decode_runs_report limit found

/-- The difference -1, and then two steps of 2 ^ 62. -/
def wideStepBody : Bytes :=
  [0x7f, 0x7f, 2, 0x80, 0x80, 0x80, 0x80, 0x80, 0x80, 0x80, 0x80, 0xc0, 0]

def runBeforeWideStep : Run DeltaStep DeltaValue :=
  .literal ⟨[0x7f], 1, []⟩ [⟨[0x7f], ⟨-1, -1⟩, [.warningIn "rle" .negativeRunningValue]⟩]

/-- From -1 it goes to 2 ^ 62 - 1 and to 2 ^ 63 - 1. -/
def wideStep : Run DeltaStep DeltaValue :=
  .repeated
    ⟨[2, 0x80, 0x80, 0x80, 0x80, 0x80, 0x80, 0x80, 0x80, 0xc0, 0],
      ⟨2, 0x4000000000000000, 0x3fffffffffffffff, Int64.maxValue⟩,
      [.errorIn "rle" .runningValueOverflow]⟩

theorem overflow_reports_exact_of_wide_step :
    decodeDeltas 9 wideStepBody = [runBeforeWideStep] ++ wideStep :: [] ∧
      wideStep.OverflowReports ([runBeforeWideStep].foldl Run.reported 0) := by
  have read : decodeDeltas 9 wideStepBody = [runBeforeWideStep] ++ wideStep :: [] := by
    decide +kernel
  exact ⟨read, overflow_reports_exact read⟩

/-- Both running values of the two steps fit, and yet an overflow is reported, because the distance of
2 ^ 63 between the first and the last one does not. -/
theorem overflow_told_of_fitting_values :
    decodeDeltas 9 wideStepBody = [runBeforeWideStep] ++ wideStep :: [] ∧
      ¬(Diagnostic.TellsOverflow wideStep.diagnostics ↔
        Delta.Leaves ([runBeforeWideStep].foldl Run.reported 0) 0x4000000000000000 2) := by
  constructor
  · decide +kernel
  · intro meant
    have told : Diagnostic.TellsOverflow wideStep.diagnostics := ⟨_, List.mem_cons_self, rfl⟩
    have last := (Delta.leaves_iff (by decide)).mp (meant.mp told)
    apply last
    unfold Delta.Fits
    decide

end Chunkscope
