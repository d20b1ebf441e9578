import Chunkscope.Field
import Chunkscope.Proofs.Varint.Canonical
import Mathlib.Data.List.Forall2

/-!
# Reading back what was written

What an encoder writes is read back whatever follows it: integers as clean fields, stretches of bytes
as windows that are not short, and lists of pieces one by one. Windows that are cut off one after the
other lie at the offsets that their declared lengths add up to. In the other direction a field of an
integer is clean only if its bytes are the shortest ones.
-/

namespace Chunkscope

section Integers

namespace Varint

variable {Value : Type}

theorem result_eq_ok_iff (scan : Scan Value) (value : Value) (rest : Bytes) :
    scan.result = .ok (value, rest) ↔
      scan.fault = none ∧ scan.value = value ∧ scan.rest = rest := by
  unfold Scan.result
  cases scan.fault with
  | none => simp
  | some fault => simp

theorem scan_of_result {scan : Scan Value} {value : Value} {written rest : Bytes}
    (result : scan.result = .ok (value, rest))
    (covers : scan.bytes ++ scan.rest = written ++ rest) :
    scan = ⟨value, written, rest, none⟩ := by
  obtain ⟨sound, found, after⟩ := (result_eq_ok_iff scan value rest).mp result
  rw [after] at covers
  have span := List.append_cancel_right covers
  cases scan
  simp_all

theorem scan_unsigned_encode (value : UInt64) (rest : Bytes) :
    scanUnsigned (encodeUnsigned value ++ rest) = ⟨value, encodeUnsigned value, rest, none⟩ := by
  apply scan_of_result
  · exact (read_unsigned_eq_ok_iff (encodeUnsigned value ++ rest) rest value).mpr rfl
  · exact scan_unsigned_append _

theorem scan_signed_encode (value : Int64) (rest : Bytes) :
    scanSigned (encodeSigned value ++ rest) = ⟨value, encodeSigned value, rest, none⟩ := by
  apply scan_of_result
  · exact (read_signed_eq_ok_iff (encodeSigned value ++ rest) rest value).mpr rfl
  · exact scan_signed_append _

theorem scan_unsigned_sound {input : Bytes} (sound : (scanUnsigned input).fault = none) :
    (scanUnsigned input).bytes = encodeUnsigned (scanUnsigned input).value := by
  have result := (result_eq_ok_iff (scanUnsigned input) _ _).mpr ⟨sound, rfl, rfl⟩
  have whole := (read_unsigned_eq_ok_iff input _ _).mp result
  exact List.append_cancel_right ((scan_unsigned_append input).trans whole)

theorem scan_signed_sound {input : Bytes} (sound : (scanSigned input).fault = none) :
    (scanSigned input).bytes = encodeSigned (scanSigned input).value := by
  have result := (result_eq_ok_iff (scanSigned input) _ _).mpr ⟨sound, rfl, rfl⟩
  have whole := (read_signed_eq_ok_iff input _ _).mp result
  exact List.append_cancel_right ((scan_signed_append input).trans whole)

end Varint

@[simp] theorem of_fault_none (part : Option String) : Diagnostic.ofFault part none = [] := rfl

theorem of_fault_eq_nil_iff (part : Option String) (fault : Option Varint.Fault) :
    Diagnostic.ofFault part fault = [] ↔ fault = none := by
  cases fault with
  | none => simp
  | some fault => simp [Diagnostic.ofFault]

theorem unsigned_field_encode (part : Option String) (value : UInt64) (rest : Bytes) :
    Reader.unsigned part (Varint.encodeUnsigned value ++ rest) =
      (.clean (Varint.encodeUnsigned value) value, rest) := by
  simp only [Reader.unsigned, Varint.scan_unsigned_encode]
  rfl

theorem signed_field_encode (part : Option String) (value : Int64) (rest : Bytes) :
    Reader.signed part (Varint.encodeSigned value ++ rest) =
      (.clean (Varint.encodeSigned value) value, rest) := by
  simp only [Reader.signed, Varint.scan_signed_encode]
  rfl

theorem unsigned_field_sound {part : Option String} {input : Bytes}
    (clean : (Reader.unsigned part input).1.diagnostics = []) :
    (Reader.unsigned part input).1.bytes =
      Varint.encodeUnsigned (Reader.unsigned part input).1.value :=
  Varint.scan_unsigned_sound ((of_fault_eq_nil_iff part _).mp clean)

theorem signed_field_sound {part : Option String} {input : Bytes}
    (clean : (Reader.signed part input).1.diagnostics = []) :
    (Reader.signed part input).1.bytes =
      Varint.encodeSigned (Reader.signed part input).1.value :=
  Varint.scan_signed_sound ((of_fault_eq_nil_iff part _).mp clean)

end Integers

section Windows

/-- How many bytes the pieces before an index declare together. The sum is exact. -/
def offset {Item : Type} (length : Item → UInt64) (items : List Item) (index : Nat) : Nat :=
  ((items.take index).map fun item => (length item).toNat).sum

@[simp] theorem offset_zero {Item : Type} (length : Item → UInt64) (items : List Item) :
    offset length items 0 = 0 := by
  simp [offset]

theorem offset_cons {Item : Type} (length : Item → UInt64) (item : Item) (later : List Item)
    (index : Nat) :
    offset length (item :: later) (index + 1) = (length item).toNat + offset length later index := by
  simp [offset]

theorem offset_all_cons {Item : Type} (length : Item → UInt64) (item : Item) (later : List Item) :
    offset length (item :: later) (item :: later).length =
      (length item).toNat + offset length later later.length :=
  offset_cons length item later later.length

theorem window_within {declared : UInt64} {input : Bytes}
    (within : declared.toNat ≤ input.length) :
    window declared input =
      ⟨input.take declared.toNat, input.drop declared.toNat, none⟩ := by
  simp only [window, cut_eq, if_pos within]

theorem window_beyond {declared : UInt64} {input : Bytes}
    (beyond : input.length < declared.toNat) :
    window declared input = ⟨input, [], some input.length⟩ := by
  simp only [window, cut_eq, if_neg (Nat.not_le.mpr beyond)]

/-- The bytes of a window, whether or not there are as many as declared. -/
theorem window_clipped (declared : UInt64) (input : Bytes) :
    window declared input = ⟨input.take declared.toNat, input.drop declared.toNat,
      if input.length < declared.toNat then some input.length else none⟩ := by
  by_cases within : declared.toNat ≤ input.length
  · rw [window_within within, if_neg (Nat.not_lt.mpr within)]
  · have beyond := Nat.not_le.mp within
    rw [window_beyond beyond, if_pos beyond, List.take_of_length_le (Nat.le_of_lt beyond),
      List.drop_of_length_le (Nat.le_of_lt beyond)]

theorem window_append_exact {front : Bytes} (fits : front.length < 2 ^ 64) (rest : Bytes) :
    window (UInt64.ofNat front.length) (front ++ rest) = ⟨front, rest, none⟩ := by
  have size : (UInt64.ofNat front.length).toNat = front.length := UInt64.toNat_ofNat_of_lt' fits
  have room : front.length ≤ (front ++ rest).length := by simp
  simp only [window, cut_eq, size, if_pos room, List.take_left, List.drop_left]

theorem length_of_whole_window {declared : UInt64} {input : Bytes}
    (whole : (window declared input).short = none) :
    (window declared input).bytes.length = declared.toNat := by
  by_cases within : declared.toNat ≤ input.length
  · rw [window_within within]
    exact List.length_take_of_le within
  · rw [window_beyond (Nat.not_le.mp within)] at whole
    cases whole

theorem length_of_short_window {declared : UInt64} {input : Bytes} {available : Nat}
    (short : (window declared input).short = some available) :
    (window declared input).bytes.length < declared.toNat := by
  by_cases within : declared.toNat ≤ input.length
  · rw [window_within within] at short
    cases short
  · rw [window_beyond (Nat.not_le.mp within)]
    exact Nat.not_le.mp within

end Windows

section Lengths

variable {Item : Type}

theorem length_le_length_flat_map {encode : Item → Bytes} {items : List Item}
    (nonempty : ∀ item ∈ items, encode item ≠ []) :
    items.length ≤ (items.flatMap encode).length := by
  induction items with
  | nil => simp
  | cons item items induction =>
      obtain ⟨first, later⟩ := List.forall_mem_cons.mp nonempty
      have positive := List.length_pos_iff.mpr first
      have counted := induction later
      rw [List.flatMap_cons, List.length_append, List.length_cons]
      omega

theorem length_le_of_mem_flat_map {Part : Type} (encode : Item → List Part) {item : Item}
    {items : List Item} (member : item ∈ items) :
    (encode item).length ≤ (items.flatMap encode).length := by
  obtain ⟨before, after, rfl⟩ := List.append_of_mem member
  rw [List.flatMap_append, List.flatMap_cons, List.length_append, List.length_append]
  omega

theorem missing_of_all (declared : UInt64) : Diagnostic.missing declared declared.toNat = [] := by
  simp [Diagnostic.missing]

theorem missing_of_fewer {declared : UInt64} {found : Nat} (fewer : found < declared.toNat) :
    Diagnostic.missing declared found =
      [.error (.missingItems (UInt64.ofNat (declared.toNat - found)))] := by
  rw [Diagnostic.missing, if_pos fewer, UInt64.ofNat_sub (Nat.le_of_lt fewer), UInt64.ofNat_toNat]

theorem declared_of_none_missing {declared : UInt64} {found : Nat} (few : found ≤ declared.toNat)
    (complete : Diagnostic.missing declared found = []) : UInt64.ofNat found = declared := by
  have enough : ¬found < declared.toNat := by
    intro short
    rw [Diagnostic.missing, if_pos short] at complete
    cases complete
  have all : found = declared.toNat := by omega
  rw [all, UInt64.ofNat_toNat]

end Lengths

section Pieces

variable {State Piece Item : Type}

/-- From any state, reading takes just what was written and gives a piece that shows it. -/
structure ReadsBack (read : State → Bytes → Piece × State × Bytes) (written : Bytes)
    (shows : Piece → Prop) : Prop where
  nonempty : written ≠ []
  shown : ∀ state rest, shows (read state (written ++ rest)).1
  rest : ∀ state rest, (read state (written ++ rest)).2.2 = rest

variable {encode : Item → Bytes} {shows : Item → Piece → Prop} {items : List Item}

theorem take_up_to_of_nonempty (read : State → Bytes → Piece × State × Bytes) (count : Nat)
    (state : State) {input : Bytes} (nonempty : input ≠ []) :
    takeUpTo read (count + 1) state input =
      ((read state input).1 :: (takeUpTo read count (read state input).2.1
          (read state input).2.2).1,
        (takeUpTo read count (read state input).2.1 (read state input).2.2).2) := by
  obtain ⟨byte, more, rfl⟩ := List.exists_cons_of_ne_nil nonempty
  exact take_up_to_succ read count state byte more

theorem Walk.pieces_of_nonempty (walk : Walk State Piece) (state : State) {input : Bytes}
    (nonempty : input ≠ []) :
    walk.pieces state input =
      (walk.step state input).1 ::
        walk.pieces (walk.step state input).2.1 (walk.step state input).2.2 := by
  obtain ⟨byte, more, rfl⟩ := List.exists_cons_of_ne_nil nonempty
  exact walk.pieces_cons state byte more

/-- Counted pieces are read back one by one, and what follows them is left. -/
theorem take_up_to_written {read : State → Bytes → Piece × State × Bytes}
    (each : ∀ item ∈ items, ReadsBack read (encode item) (shows item)) (state : State)
    (rest : Bytes) :
    List.Forall₂ shows items
        (takeUpTo read items.length state (items.flatMap encode ++ rest)).1 ∧
      (takeUpTo read items.length state (items.flatMap encode ++ rest)).2.2 = rest := by
  induction items generalizing state with
  | nil => simp
  | cons item items induction =>
      have first := each item List.mem_cons_self
      have nonempty : encode item ++ (items.flatMap encode ++ rest) ≠ [] :=
        List.append_ne_nil_of_left_ne_nil first.nonempty _
      have later := induction (fun other member => each other (List.mem_cons_of_mem item member))
        (read state (encode item ++ (items.flatMap encode ++ rest))).2.1
      rw [List.flatMap_cons, List.append_assoc, List.length_cons,
        take_up_to_of_nonempty read items.length state nonempty, first.rest]
      exact ⟨.cons (first.shown state _) later.1, later.2⟩

/-- A walk over what was written gives a piece for each item and then goes on behind it. -/
theorem Walk.pieces_written_onto {walk : Walk State Piece}
    (each : ∀ item ∈ items, ReadsBack walk.step (encode item) (shows item)) (state : State)
    (rest : Bytes) :
    ∃ pieces later, List.Forall₂ shows items pieces ∧
      walk.pieces state (items.flatMap encode ++ rest) = pieces ++ walk.pieces later rest := by
  induction items generalizing state with
  | nil => exact ⟨[], state, .nil, rfl⟩
  | cons item items induction =>
      have first := each item List.mem_cons_self
      have here := first.shown state (items.flatMap encode ++ rest)
      have nonempty : encode item ++ (items.flatMap encode ++ rest) ≠ [] :=
        List.append_ne_nil_of_left_ne_nil first.nonempty _
      obtain ⟨pieces, later, shown, whole⟩ := induction
        (fun other member => each other (List.mem_cons_of_mem item member))
        (walk.step state (encode item ++ (items.flatMap encode ++ rest))).2.1
      refine ⟨_ :: pieces, later, .cons here shown, ?_⟩
      rw [List.flatMap_cons, List.append_assoc, walk.pieces_of_nonempty state nonempty, first.rest,
        whole, List.cons_append]

/-- A walk over what was written gives a piece for each item. -/
theorem Walk.pieces_written {walk : Walk State Piece}
    (each : ∀ item ∈ items, ReadsBack walk.step (encode item) (shows item)) (state : State) :
    List.Forall₂ shows items (walk.pieces state (items.flatMap encode)) := by
  obtain ⟨pieces, later, shown, whole⟩ := walk.pieces_written_onto each state []
  rw [walk.pieces_nil, List.append_nil, List.append_nil] at whole
  rwa [whole]

theorem eq_map_of_forall₂ {Other : Type} {change : Item → Other} {others : List Other}
    (related : List.Forall₂ (fun item other => change item = other) items others) :
    others = items.map change := by
  rw [← List.forall₂_map_left_iff, List.forall₂_eq_eq_eq] at related
  exact related.symm

theorem Reader.reads_back [Spans Piece] (reader : Reader Piece) {written : Bytes} {piece : Piece}
    {shows : Piece → Prop} (nonempty : written ≠ [])
    (reads : ∀ rest, reader (written ++ rest) = (piece, rest)) (shown : shows piece) :
    ReadsBack (fun (_ : Unit) input => ((reader input).1, (), (reader input).2)) written shows := by
  refine ⟨nonempty, ?_, ?_⟩
  · intro _ rest
    rw [reads]
    exact shown
  · intro _ rest
    rw [reads]

/-- A number of pieces that was written is read back as that many pieces. -/
theorem Reader.counted_written [Spans Piece] (reader : Reader Piece) {piece : Item → Piece}
    (few : items.length < 2 ^ 64) (nonempty : ∀ item ∈ items, encode item ≠ [])
    (reads : ∀ item ∈ items, ∀ rest, reader (encode item ++ rest) = (piece item, rest))
    (rest : Bytes) :
    reader.upTo (UInt64.ofNat items.length).toNat (items.flatMap encode ++ rest) =
        (items.map piece, rest) ∧
      Diagnostic.missing (UInt64.ofNat items.length) (items.map piece).length = [] := by
  have counted : (UInt64.ofNat items.length).toNat = items.length := UInt64.toNat_ofNat_of_lt' few
  have each : ∀ item ∈ items,
      ReadsBack (fun (_ : Unit) input => ((reader input).1, (), (reader input).2)) (encode item)
        (fun found => piece item = found) :=
    fun item member => reader.reads_back (nonempty item member) (reads item member) rfl
  obtain ⟨shown, left⟩ := take_up_to_written each () rest
  constructor
  · rw [counted]
    exact Prod.ext (eq_map_of_forall₂ shown) left
  · have complete := missing_of_all (UInt64.ofNat items.length)
    rw [counted] at complete
    rwa [List.length_map]

theorem Walk.forall_pieces (walk : Walk State Piece) {holds : Piece → Prop}
    (each : ∀ state input, holds (walk.step state input).1) (state : State) (input : Bytes) :
    ∀ piece ∈ walk.pieces state input, holds piece := by
  induction state, input using walk.induct with
  | ended state => simp
  | onward state byte rest induction =>
      rw [walk.pieces_cons]
      exact List.forall_mem_cons.mpr ⟨each state (byte :: rest), induction⟩

/-- Each piece of a walk is what a step gives, and behind it the walk goes on from there. -/
theorem Walk.step_of_pieces (walk : Walk State Piece) {state : State} {input : Bytes}
    {before after : List Piece} {piece : Piece}
    (found : walk.pieces state input = before ++ piece :: after) :
    ∃ place rest, rest ≠ [] ∧ (walk.step place rest).1 = piece ∧
      walk.pieces (walk.step place rest).2.1 (walk.step place rest).2.2 = after := by
  induction before generalizing state input with
  | nil =>
      cases input with
      | nil =>
          rw [walk.pieces_nil] at found
          cases found
      | cons byte rest =>
          rw [walk.pieces_cons, List.nil_append, List.cons_eq_cons] at found
          exact ⟨state, byte :: rest, List.cons_ne_nil byte rest, found⟩
  | cons first before induction =>
      cases input with
      | nil =>
          rw [walk.pieces_nil] at found
          cases found
      | cons byte rest =>
          rw [walk.pieces_cons, List.cons_append, List.cons_eq_cons] at found
          exact induction found.2

/-- Pieces are read only where the input goes on. -/
theorem forall_take_up_to (read : State → Bytes → Piece × State × Bytes) {holds : Piece → Prop}
    (each : ∀ state input, input ≠ [] → holds (read state input).1) (count : Nat) (state : State)
    (input : Bytes) : ∀ piece ∈ (takeUpTo read count state input).1, holds piece := by
  induction count generalizing state input with
  | zero => simp
  | succ count induction =>
      cases input with
      | nil => simp
      | cons byte rest =>
          rw [take_up_to_succ]
          intro piece member
          obtain rfl | later := List.mem_cons.mp member
          · exact each state (byte :: rest) (List.cons_ne_nil byte rest)
          · exact induction _ _ piece later

/-- Pieces that take at least one byte each are no more than the bytes that they span. -/
theorem length_take_up_to_le_spanned [Spans Piece] (read : State → Bytes → Piece × State × Bytes)
    (advances : ∀ state input, input ≠ [] → bytes (read state input).1 ≠ []) (count : Nat)
    (state : State) (input : Bytes) :
    (takeUpTo read count state input).1.length ≤
      (spanned (takeUpTo read count state input).1).length :=
  length_le_length_flat_map (forall_take_up_to read advances count state input)

/-- A table that misses none of the pieces it declares has as many of them as it declares. -/
theorem Reader.declared_of_counted [Spans Piece] (reader : Reader Piece) {declared : UInt64}
    {input : Bytes}
    (complete : Diagnostic.missing declared (reader.upTo declared.toNat input).1.length = []) :
    UInt64.ofNat (reader.upTo declared.toNat input).1.length = declared :=
  declared_of_none_missing (length_take_up_to_le _ _ _ _) complete

/-- Counted pieces span what they are written as, when each sound piece does. -/
theorem Reader.spanned_counted [Spans Piece] (reader : Reader Piece) (encode : Piece → Bytes)
    {sound : Piece → Prop}
    (each : ∀ input, sound (reader input).1 → bytes (reader input).1 = encode (reader input).1)
    {count : Nat} {input : Bytes} (clean : ∀ piece ∈ (reader.upTo count input).1, sound piece) :
    spanned (reader.upTo count input).1 = (reader.upTo count input).1.flatMap encode := by
  have spans : ∀ piece ∈ (reader.upTo count input).1, sound piece → bytes piece = encode piece :=
    forall_take_up_to _ (fun _ input _ => each input) count () input
  exact List.flatMap_congr fun piece member => spans piece member (clean piece member)

end Pieces

end Chunkscope
