import Chunkscope.Proofs.Column.Section

/-!
# The windows of columns

The bodies of a group are cut off an input one after the other, each as long as its descriptor
declares. Where each one lies is known beforehand: it starts at the exact sum of the lengths that
are declared before it, or at the end of the input when that comes first. However large the lengths
are, a body is made up of just the bytes in its window, and what follows the last window is left.
-/

namespace Chunkscope

/-- A column has the window from some position of an input on that its descriptor declares, or what
there is of it, and says so when that is not all. -/
structure ColumnData.InWindow (input : Bytes) (start : Nat) (data : ColumnData) : Prop where
  bytes_eq :
    data.bytes = input.extract start (min input.length (start + data.column.length.toNat))
  covered : Spans.bytes data.body = data.bytes
  told_iff : data.diagnostics.head? =
      some (.error (.notEnoughBytes data.column.length (input.length - start))) ↔
    input.length - start < data.column.length.toNat
  whole : data.column.length.toNat ≤ input.length - start → data.Whole

/-- Cutting an interval down to an input changes nothing about the bytes in it. -/
theorem extract_clipped (input : Bytes) (start length : Nat) :
    input.extract (min input.length start)
        (min input.length (min input.length start + length)) =
      (input.drop start).take length := by
  by_cases within : start ≤ input.length
  · rw [Nat.min_eq_right within, List.extract_eq_take_drop, List.take_eq_take_iff,
      List.length_drop]
    omega
  · have beyond := Nat.le_of_not_le within
    rw [Nat.min_eq_left beyond, List.extract_eq_take_drop, List.drop_length,
      List.drop_of_length_le beyond, List.take_nil, List.take_nil]

section Steps

variable (context : Context) (group : ColumnGroup) (column : Column) (input : Bytes)

/-- Decoding a column leaves what its descriptor does not ask for. -/
theorem rest_of_next :
    (Column.decodeNext group (input, context) column).2.1 = input.drop column.length.toNat := by
  simp only [Column.decodeNext, window_clipped]

/-- The column that is cut off first has the window at the front. -/
theorem in_window_first :
    (Column.decodeNext group (input, context) column).1.InWindow input 0 := by
  have silent := column.decode_never_short context group (window column.length input).bytes
  constructor
  case bytes_eq =>
    have clipped := extract_clipped input 0 column.length.toNat
    rw [Nat.min_zero] at clipped
    simp only [Column.decodeNext, clipped, window_clipped, List.drop_zero]
  case covered => exact column.bytes_decode context group _
  case told_iff =>
    by_cases beyond : input.length < column.length.toNat
    · refine iff_of_true ?_ beyond
      simp only [Column.decodeNext, window_beyond beyond]
      rfl
    · refine iff_of_false ?_ beyond
      intro told
      have within := Nat.not_lt.mp beyond
      simp only [Column.decodeNext, window_within within, List.nil_append] at told silent
      exact silent _ (List.mem_of_mem_head? told) _ _ rfl
  case whole =>
    intro fits
    have within : column.length.toNat ≤ input.length := fits
    simp only [ColumnData.Whole, Column.decodeNext, window_within within, List.nil_append]
      at silent ⊢
    exact silent

variable {input} {start consumed : Nat} {data : ColumnData}

/-- A column in a window of what is left behind some bytes has a window of the whole input. -/
theorem in_window_behind
    (inside : data.InWindow (input.drop consumed) (min (input.drop consumed).length start)) :
    data.InWindow input (min input.length (consumed + start)) := by
  have left : (input.drop consumed).length - min (input.drop consumed).length start =
      input.length - min input.length (consumed + start) := by
    rw [List.length_drop]
    omega
  obtain ⟨span, covered, told, whole⟩ := inside
  rw [left] at told whole
  rw [extract_clipped, List.drop_drop] at span
  refine ⟨?_, covered, told, whole⟩
  rw [extract_clipped]
  exact span

end Steps

section Sections

variable (context : Context) (descriptors : ColumnDescriptors) (input : Bytes)

theorem columns_in_windows (group : ColumnGroup) (columns : List Column) :
    (∀ (index : Nat) (data : ColumnData),
      (mapState (Column.decodeNext group) (input, context) columns).1[index]? = some data →
        data.InWindow input (min input.length (offset Column.length columns index))) ∧
    (mapState (Column.decodeNext group) (input, context) columns).2.1 =
      input.drop (offset Column.length columns columns.length) := by
  induction columns generalizing context input with
  | nil => simp
  | cons column columns induction =>
      have front := in_window_first context group column input
      have rest := rest_of_next context group column input
      rw [map_state_cons]
      -- Later columns only see what the first one leaves, whatever it adds to the context.
      generalize Column.decodeNext group (input, context) column = next at front rest ⊢
      obtain ⟨first, left, after⟩ := next
      obtain rfl : left = input.drop column.length.toNat := rest
      obtain ⟨later, remaining⟩ := induction after (input.drop column.length.toNat)
      constructor
      · intro index data found
        cases index with
        | zero =>
            obtain rfl : first = data := Option.some.inj found
            rw [offset_zero, Nat.min_zero]
            exact front
        | succ index =>
            rw [offset_cons]
            apply in_window_behind
            exact later index data found
      · rw [offset_all_cons, ← List.drop_drop]
        exact remaining

theorem groups_of_section :
    ∀ data ∈ (decodeSection context descriptors input).1, data.group = descriptors.group := by
  apply forall_map_state
  intro state column
  rfl

/-- A group has one body for each descriptor, in their order. Each lies in its window, which starts
where the declared lengths of the columns before it end, however far beyond the input their sum
gets, and what follows the last window is left. -/
theorem section_cut_into_windows :
    (decodeSection context descriptors input).1.map ColumnData.column =
        descriptors.columns.map Field.value ∧
      (∀ data ∈ (decodeSection context descriptors input).1, data.group = descriptors.group) ∧
      (∀ (index : Nat) (data : ColumnData),
        (decodeSection context descriptors input).1[index]? = some data →
          data.InWindow input (min input.length
            (offset Column.length (descriptors.columns.map Field.value) index))) ∧
      (decodeSection context descriptors input).2.1 =
        input.drop (offset Column.length (descriptors.columns.map Field.value)
          descriptors.columns.length) := by
  have columns := columns_of_section context descriptors input
  have groups := groups_of_section context descriptors input
  obtain ⟨windows, rest⟩ := columns_in_windows context input descriptors.group
    (descriptors.columns.map Field.value)
  rw [List.length_map] at rest
  exact ⟨columns, groups, windows, rest⟩

/-- The second length already takes the sum out of 64 bits. Its column has the three bytes that are
there; the third column has no bytes, from the end of the input on, and is told just that. -/
theorem section_cut_into_windows_of_huge_lengths :
    ∃ descriptors : ColumnDescriptors,
      descriptors.columns.map Field.value =
        [⟨34, 2⟩, ⟨86, 0xffffffffffffffff⟩, ⟨87, 0xffffffffffffffff⟩] ∧
      2 ^ 64 < offset Column.length (descriptors.columns.map Field.value) 2 ∧
      ∃ data : ColumnData,
        (decodeSection (.new 5) descriptors [1, 9, 0x7f, 0x13, 5]).1[2]? = some data ∧
        data.InWindow [1, 9, 0x7f, 0x13, 5] 5 ∧ data.bytes = [] ∧
        data.diagnostics = [.error (.notEnoughBytes 0xffffffffffffffff 0)] := by
  let lengths : Bytes := [3, 34, 2, 86, 0xff, 0xff, 0xff, 0xff, 0xff, 0xff, 0xff, 0xff, 0xff, 1,
    87, 0xff, 0xff, 0xff, 0xff, 0xff, 0xff, 0xff, 0xff, 0xff, 1]
  let descriptors := (ColumnDescriptors.reader .operation lengths).1
  obtain ⟨_, _, windows, _⟩ :=
    section_cut_into_windows (.new 5) descriptors [1, 9, 0x7f, 0x13, 5]
  refine ⟨descriptors, by decide +kernel, by decide +kernel, _, rfl, ?_, by decide +kernel,
    by decide +kernel⟩
  exact windows 2 _ rfl

end Sections

end Chunkscope
