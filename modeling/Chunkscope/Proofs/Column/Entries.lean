import Chunkscope.Proofs.Column.Formats
import Mathlib.Data.List.SplitBy

/-!
# Entries in runs

A value-meta column writes each stretch of equal entries as one run. Its decoded runs stand for the
same entries again, and no limit that has room for them cuts any off.
-/

namespace Chunkscope

section Expansion

variable {Item : Type}

namespace Repeated

/-- All values of some runs one by one. -/
def spelled (runs : List (Repeated Item)) : List Item :=
  runs.flatMap fun run => List.replicate run.count.toNat run.value

theorem spelled_cons (run : Repeated Item) (runs : List (Repeated Item)) :
    spelled (run :: runs) = List.replicate run.count.toNat run.value ++ spelled runs := rfl

theorem expand_cons (limit : Nat) (run : Repeated Item) (runs : List (Repeated Item)) :
    expand limit (run :: runs) =
      List.replicate (min limit run.count.toNat) run.value ++
        expand (limit - min limit run.count.toNat) runs := by
  unfold expand clip
  rw [map_state_cons, List.flatMap_cons]

theorem expand_eq_take (limit : Nat) (runs : List (Repeated Item)) :
    expand limit runs = (spelled runs).take limit := by
  induction runs generalizing limit with
  | nil => simp [expand, clip, spelled]
  | cons run runs induction =>
      have room : limit - min limit run.count.toNat = limit - run.count.toNat := by omega
      rw [expand_cons, induction, room, spelled_cons, List.take_append, List.take_replicate,
        List.length_replicate]

theorem total_eq_length (runs : List (Repeated Item)) : total runs = (spelled runs).length := by
  induction runs with
  | nil => rfl
  | cons run runs induction =>
      unfold total at induction ⊢
      rw [List.foldr_cons, spelled_cons, List.length_append, List.length_replicate, induction]

end Repeated

/-- The values that a call writes. -/
def RunStep.values : RunStep Item → List Item
  | .null _ => []
  | .repeated value count => List.replicate count.toUInt64.toNat value
  | .literals values => values

theorem spelled_copies {step : RunStep MetaEntry} {run : Run MetaEntry MetaEntry}
    (records : RunFormat.entries.Records step run) :
    Repeated.spelled (Meta.copies run) = step.values := by
  cases records with
  | null count => rfl
  | @repeated entry count field span times payload harmless =>
      have same : field.value.value = entry := payload
      simp only [Meta.copies, Repeated.spelled_cons, times, same, RunStep.values]
      exact List.append_nil _
  | @literals entries items each =>
      simp only [Meta.copies, RunStep.values]
      induction each with
      | nil => rfl
      | @cons entry item entries items first _ induction =>
          have same : item.value = entry := first.value
          rw [List.map_cons, Repeated.spelled_cons, induction, same]
          rfl

theorem spelled_runs {steps : List (RunStep MetaEntry)} {runs : List (Run MetaEntry MetaEntry)}
    (records : List.Forall₂ RunFormat.entries.Records steps runs) :
    Repeated.spelled (runs.flatMap Meta.copies) = steps.flatMap RunStep.values := by
  induction records with
  | nil => rfl
  | cons first _ induction =>
      rw [List.flatMap_cons, List.flatMap_cons, ← spelled_copies first, ← induction]
      exact List.flatMap_append

end Expansion

section Grouping

namespace Meta

theorem eq_replicate_of_chain {entry : MetaEntry} {rest : List MetaEntry}
    (chain : (entry :: rest).IsChain fun first second => (first == second) = true) :
    entry :: rest = List.replicate (rest.length + 1) entry := by
  induction rest generalizing entry with
  | nil => rfl
  | cons next rest induction =>
      obtain ⟨equal, later⟩ := List.isChain_cons_cons.mp chain
      obtain rfl : entry = next := eq_of_beq equal
      rw [List.length_cons, List.replicate_succ, ← induction later]

variable {group : List MetaEntry}

theorem values_step_of (few : group.length < 2 ^ 63)
    (equal : group.IsChain fun first second => (first == second) = true) :
    (stepOf group).values = group := by
  match group with
  | [] => rfl
  | [entry] => rfl
  | entry :: next :: rest =>
      have count : (UInt64.ofNat ((next :: rest).length + 1)).toNat = (next :: rest).length + 1 :=
        UInt64.toNat_ofNat_of_lt' (Nat.lt_trans few (by decide))
      have step : stepOf (entry :: next :: rest) =
          .repeated entry (Int64.ofNat ((next :: rest).length + 1)) := rfl
      rw [step, RunStep.values, Int64.toUInt64_ofNat', count]
      exact (eq_replicate_of_chain equal).symm

theorem writable_step_of {limit : Nat} (nonempty : group ≠ []) (few : group.length < 2 ^ 63)
    (allowed : group.length ≤ limit)
    (packed : ∀ entry ∈ group, RunFormat.entries.writable entry) :
    RunFormat.entries.Writable limit (stepOf group) := by
  match group with
  | [] => exact absurd rfl nonempty
  | [entry] => exact ⟨nonempty, allowed, packed⟩
  | entry :: next :: rest =>
      have count := Int64.toInt_ofNat_of_lt (n := (next :: rest).length + 1) few
      refine ⟨?_, packed entry List.mem_cons_self⟩
      rw [Int64.lt_iff_toInt_lt, count, Int64.toInt_zero]
      exact Int.natCast_pos.mpr (Nat.succ_pos _)

/-- The runs of a value-meta column stand for the entries that it was made from. -/
theorem decode_encoded (limit : Nat) {entries : List MetaEntry} (few : entries.length < 2 ^ 63)
    (allowed : entries.length ≤ limit)
    (packed : ∀ entry ∈ entries, RunFormat.entries.writable entry)
    (fits : (encode entries).length < 2 ^ 63) :
    Repeated.spelled ((decode limit (encode entries)).flatMap copies) = entries ∧
      ∀ run ∈ decode limit (encode entries), run.diagnostics = [] := by
  have whole := List.flatten_splitBy (· == ·) entries
  have within {group : List MetaEntry} (member : group ∈ entries.splitBy (· == ·)) :
      group.Sublist entries := by
    have part := List.sublist_flatten_of_mem member
    rwa [whole] at part
  have writable : ∀ step ∈ (entries.splitBy (· == ·)).map stepOf,
      RunFormat.entries.Writable limit step := by
    intro step member
    obtain ⟨group, found, rfl⟩ := List.mem_map.mp member
    have short := (within found).length_le
    exact writable_step_of (List.ne_nil_of_mem_splitBy found) (by omega) (by omega)
      fun entry inside => packed entry ((within found).subset inside)
  -- Neighbours in a group are equal, so one entry and a count stand for all of it.
  have values : ∀ group ∈ entries.splitBy (· == ·), (stepOf group).values = group := by
    intro group found
    have short := (within found).length_le
    exact values_step_of (by omega) (List.isChain_of_mem_splitBy found)
  have read := (RunFormat.entries_law.inverse limit ()).decode_encode _ writable fits
  have records := read.imp fun _ _ found => found.1
  refine ⟨?_, RunFormat.clean_runs records⟩
  calc Repeated.spelled ((decode limit (encode entries)).flatMap copies)
      = ((entries.splitBy (· == ·)).map stepOf).flatMap RunStep.values := spelled_runs records
    _ = (entries.splitBy (· == ·)).flatMap id := by
        rw [List.flatMap_map]
        exact List.flatMap_congr values
    _ = entries := by rw [List.flatMap_id, whole]

theorem entries_within_limit {limit : Nat} {runs : List (Run MetaEntry MetaEntry)}
    (allowed : (Repeated.spelled (runs.flatMap copies)).length ≤ limit) :
    entries limit runs = Repeated.spelled (runs.flatMap copies) ∧ limitProblems limit runs = [] := by
  constructor
  · rw [entries, Repeated.expand_eq_take, List.take_of_length_le allowed]
  · rw [limitProblems, Repeated.total_eq_length, if_neg (Nat.not_lt.mpr allowed)]

end Meta

end Grouping

end Chunkscope
