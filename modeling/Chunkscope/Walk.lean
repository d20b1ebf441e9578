import Chunkscope.Bytes

/-!
Ways of going through an input piece by piece. A walk goes on until the input is used up and ends
because each step takes at least one byte; a counted walk also stops when it has enough pieces,
so a declared count never makes it go on past the end of the input.
-/

namespace Chunkscope

variable {State Piece : Type}

/-- A way of taking pieces off the front of an input while carrying a state along. -/
structure Walk (State Piece : Type) where
  step : State → Bytes → Piece × State × Bytes
  advances : ∀ state byte rest, (step state (byte :: rest)).2.2.length ≤ rest.length

namespace Walk

/-- Walks on after the pieces in `done`, which are kept last one first. -/
def onto (walk : Walk State Piece) (done : List Piece) (state : State) : Bytes → List Piece
  | [] => done.reverse
  | byte :: rest =>
      let next := walk.step state (byte :: rest)
      walk.onto (next.1 :: done) next.2.1 next.2.2
termination_by input => input.length
decreasing_by exact Nat.lt_succ_of_le (walk.advances state byte rest)

/-- All pieces of the input, in order. -/
def pieces (walk : Walk State Piece) (state : State) (input : Bytes) : List Piece :=
  walk.onto [] state input

theorem onto_append (walk : Walk State Piece) (more done : List Piece) (state : State)
    (input : Bytes) :
    walk.onto (more ++ done) state input = done.reverse ++ walk.onto more state input := by
  fun_induction onto walk more state input with
  | case1 more state => rw [onto, List.reverse_append]
  | case2 more state byte rest next ih => rw [onto]; exact ih

@[simp] theorem pieces_nil (walk : Walk State Piece) (state : State) :
    walk.pieces state [] = [] := by
  rw [pieces, onto, List.reverse_nil]

theorem pieces_cons (walk : Walk State Piece) (state : State) (byte : UInt8) (rest : Bytes) :
    walk.pieces state (byte :: rest) =
      (walk.step state (byte :: rest)).1 ::
        walk.pieces (walk.step state (byte :: rest)).2.1 (walk.step state (byte :: rest)).2.2 := by
  rw [pieces, onto]
  exact onto_append walk [] [_] _ _

/-- What holds at the end of the input, and before a step when it holds after it, always holds. -/
theorem induct (walk : Walk State Piece) {motive : State → Bytes → Prop}
    (ended : ∀ state, motive state [])
    (onward : ∀ state byte rest,
      motive (walk.step state (byte :: rest)).2.1 (walk.step state (byte :: rest)).2.2 →
        motive state (byte :: rest)) (state : State) (input : Bytes) : motive state input := by
  induction size : input.length using Nat.strongRecOn generalizing state input with
  | ind size ih =>
      cases input with
      | nil => exact ended state
      | cons byte rest =>
          have advanced := Nat.lt_succ_of_le (walk.advances state byte rest)
          exact onward state byte rest (ih _ (size ▸ advanced) _ _ rfl)

/-- When each step gives back every byte it took, so does the whole walk. -/
theorem spanned_pieces [Spans Piece] (walk : Walk State Piece)
    (covers : ∀ state input,
      bytes (walk.step state input).1 ++ (walk.step state input).2.2 = input)
    (state : State) (input : Bytes) : spanned (walk.pieces state input) = input := by
  induction state, input using walk.induct with
  | ended state => simp
  | onward state byte rest ih =>
      rw [pieces_cons, spanned_cons, ih]
      exact covers state (byte :: rest)

end Walk

/-- Takes pieces after those in `done`, which are kept last one first, until there are `count`
more or the input is used up. -/
def takeOnto (read : State → Bytes → Piece × State × Bytes) (done : List Piece) :
    Nat → State → Bytes → List Piece × State × Bytes
  | 0, state, input => (done.reverse, state, input)
  | _ + 1, state, [] => (done.reverse, state, [])
  | count + 1, state, byte :: rest =>
      let next := read state (byte :: rest)
      takeOnto read (next.1 :: done) count next.2.1 next.2.2

/-- Up to `count` pieces off the front of the input, with the state and the input after them. -/
def takeUpTo (read : State → Bytes → Piece × State × Bytes) (count : Nat) (state : State)
    (input : Bytes) : List Piece × State × Bytes :=
  takeOnto read [] count state input

theorem take_onto_eq (read : State → Bytes → Piece × State × Bytes) (done : List Piece)
    (count : Nat) (state : State) (input : Bytes) :
    takeOnto read done count state input =
      (done.reverse ++ (takeUpTo read count state input).1,
        (takeUpTo read count state input).2) := by
  suffices general : ∀ more, takeOnto read (more ++ done) count state input =
      (done.reverse ++ (takeOnto read more count state input).1,
        (takeOnto read more count state input).2) from general []
  intro more
  fun_induction takeOnto read more count state input with
  | case1 more state input => simp [takeOnto]
  | case2 more state => simp [takeOnto]
  | case3 more count state byte rest next ih => rw [takeOnto]; exact ih

@[simp] theorem take_up_to_zero (read : State → Bytes → Piece × State × Bytes) (state : State)
    (input : Bytes) : takeUpTo read 0 state input = ([], state, input) := by
  simp [takeUpTo, takeOnto]

@[simp] theorem take_up_to_nil (read : State → Bytes → Piece × State × Bytes) (count : Nat)
    (state : State) : takeUpTo read count state [] = ([], state, []) := by
  cases count <;> simp [takeUpTo, takeOnto]

theorem take_up_to_succ (read : State → Bytes → Piece × State × Bytes) (count : Nat)
    (state : State) (byte : UInt8) (rest : Bytes) :
    takeUpTo read (count + 1) state (byte :: rest) =
      let next := read state (byte :: rest)
      let later := takeUpTo read count next.2.1 next.2.2
      (next.1 :: later.1, later.2) := by
  rw [takeUpTo, takeOnto]
  exact take_onto_eq read _ _ _ _

theorem spanned_take_up_to [Spans Piece] (read : State → Bytes → Piece × State × Bytes)
    (covers : ∀ state input, bytes (read state input).1 ++ (read state input).2.2 = input)
    (count : Nat) (state : State) (input : Bytes) :
    spanned (takeUpTo read count state input).1 ++ (takeUpTo read count state input).2.2 =
      input := by
  induction count generalizing state input with
  | zero => simp
  | succ count ih =>
      cases input with
      | nil => simp
      | cons byte rest =>
          rw [take_up_to_succ]
          simp only [spanned_cons, List.append_assoc, ih, covers]

theorem length_take_up_to_le (read : State → Bytes → Piece × State × Bytes) (count : Nat)
    (state : State) (input : Bytes) : (takeUpTo read count state input).1.length ≤ count := by
  induction count generalizing state input with
  | zero => simp
  | succ count ih =>
      cases input with
      | nil => simp
      | cons byte rest =>
          rw [take_up_to_succ]
          exact Nat.succ_le_succ (ih _ _)

/-- Only the end of the input makes pieces fewer than wanted. -/
theorem length_take_up_to_of_left (read : State → Bytes → Piece × State × Bytes) {count : Nat}
    (state : State) (input : Bytes) (left : (takeUpTo read count state input).2.2 ≠ []) :
    (takeUpTo read count state input).1.length = count := by
  induction count generalizing state input with
  | zero => simp
  | succ count ih =>
      cases input with
      | nil => simp at left
      | cons byte rest =>
          rw [take_up_to_succ] at left ⊢
          exact congrArg Nat.succ (ih _ _ left)

theorem take_up_to_add (read : State → Bytes → Piece × State × Bytes) (count more : Nat)
    (state : State) (input : Bytes) :
    takeUpTo read (count + more) state input =
      let first := takeUpTo read count state input
      let later := takeUpTo read more first.2.1 first.2.2
      (first.1 ++ later.1, later.2) := by
  induction count generalizing state input with
  | zero => simp
  | succ count ih =>
      cases input with
      | nil => simp
      | cons byte rest =>
          simp only [Nat.succ_add, take_up_to_succ, ih, List.cons_append]

/-- Applies `step` to each element in turn, carrying a state along. -/
def mapState {Input Output : Type} (step : State → Input → Output × State) (state : State)
    (inputs : List Input) : List Output × State :=
  let (done, final) := inputs.foldl
    (fun (done, state) input =>
      let (output, later) := step state input
      (output :: done, later))
    ([], state)
  (done.reverse, final)

@[simp] theorem map_state_nil {Input Output : Type} (step : State → Input → Output × State)
    (state : State) : mapState step state [] = ([], state) := rfl

theorem map_state_cons {Input Output : Type} (step : State → Input → Output × State)
    (state : State) (input : Input) (inputs : List Input) :
    mapState step state (input :: inputs) =
      ((step state input).1 :: (mapState step (step state input).2 inputs).1,
        (mapState step (step state input).2 inputs).2) := by
  have carried : ∀ (inputs : List Input) (done : List Output) (state : State),
      inputs.foldl
        (fun (done, state) input =>
          let (output, later) := step state input
          (output :: done, later)) (done, state) =
        ((mapState step state inputs).1.reverse ++ done, (mapState step state inputs).2) := by
    intro inputs
    induction inputs with
    | nil => intro done state; simp [mapState]
    | cons head tail ih =>
        intro done state
        rw [mapState, List.foldl_cons, List.foldl_cons, ih, ih]
        simp
  rw [mapState, List.foldl_cons, carried]
  simp

/-- What every step of a walk gives holds of all that the walk gives. -/
theorem forall_map_state {Input Output : Type} {step : State → Input → Output × State}
    {Holds : Output → Prop} (each : ∀ state input, Holds (step state input).1) (state : State)
    (inputs : List Input) : ∀ output ∈ (mapState step state inputs).1, Holds output := by
  induction inputs generalizing state with
  | nil => simp
  | cons input inputs induction =>
      intro output member
      rw [map_state_cons] at member
      rcases List.mem_cons.mp member with rfl | later
      · exact each state input
      · exact induction _ output later

/-- What every step keeps of the state holds of the state after all steps. -/
theorem keeps_map_state {Input Output : Type} {step : State → Input → Output × State}
    {Keeps : State → Prop} (each : ∀ state input, Keeps state → Keeps (step state input).2)
    {state : State} (start : Keeps state) (inputs : List Input) :
    Keeps (mapState step state inputs).2 := by
  induction inputs generalizing state with
  | nil => exact start
  | cons input inputs induction =>
      rw [map_state_cons]
      exact induction (each state input start)

theorem map_map_state {Input Output : Type} {step : State → Input → Output × State}
    {back : Output → Input} (each : ∀ state input, back (step state input).1 = input)
    (state : State) (inputs : List Input) : (mapState step state inputs).1.map back = inputs := by
  induction inputs generalizing state with
  | nil => rfl
  | cons input inputs induction => rw [map_state_cons, List.map_cons, each, induction]

end Chunkscope
