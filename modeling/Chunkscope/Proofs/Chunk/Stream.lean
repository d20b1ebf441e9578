import Chunkscope.Chunk.Stream

/-!
# The walk along a stream

An input of ten bytes or more starts with a chunk, a shorter one is a fragment, and the walk ends
where the input does. What is said of all streams is proved by induction along the walk.
-/

namespace Chunkscope

variable {suite : Suite} {input rest : Bytes} {chunk : Chunk}

namespace Chunk

theorem parse_short (short : input.length < 10) :
    parse suite input = .error (.tooShort input.length) := by
  simp only [parse]
  split
  · simp only [List.length_cons] at short
    omega
  · rfl

theorem parse_long (suite : Suite) (long : 10 ≤ input.length) :
    ∃ chunk rest, parse suite input = .ok (chunk, rest) := by
  match input, long with
  | m0 :: m1 :: m2 :: m3 :: c0 :: c1 :: c2 :: c3 :: kindByte :: length :: rest, _ =>
      exact ⟨_, _, rfl⟩

/-- What a parsed chunk says of itself was found in the parts of its frame. -/
theorem parse_eq_ok (parsed : parse suite input = .ok (chunk, rest)) :
    ∃ m0 m1 m2 m3 stored kindByte covered, covered ≠ [] ∧
      ofParts suite [m0, m1, m2, m3] stored kindByte covered = (chunk, rest) := by
  unfold parse at parsed
  split at parsed
  · exact ⟨_, _, _, _, _, _, _, List.cons_ne_nil _ _, Except.ok.inj parsed⟩
  · cases parsed

end Chunk

open StreamPiece

@[simp] theorem split_stream_nil (suite : Suite) : splitStream suite [] = [] :=
  Walk.pieces_nil _ _

theorem split_stream_of_nonempty (suite : Suite) (nonempty : input ≠ []) :
    splitStream suite input =
      (first suite input).1 :: splitStream suite (first suite input).2 := by
  obtain ⟨byte, more, rfl⟩ := List.exists_cons_of_ne_nil nonempty
  exact Walk.pieces_cons _ _ _ _

theorem split_stream_fragment (nonempty : input ≠ []) (short : input.length < 10) :
    splitStream suite input = [.fragment input] := by
  have cut : first suite input = (.fragment input, []) := by
    simp only [first, Chunk.parse_short short]
  rw [split_stream_of_nonempty suite nonempty, cut, split_stream_nil]

theorem split_stream_chunk (parsed : Chunk.parse suite input = .ok (chunk, rest)) :
    splitStream suite input = .chunk chunk :: splitStream suite rest := by
  have nonempty : input ≠ [] := by
    rintro rfl
    cases parsed
  have cut : first suite input = (.chunk chunk, rest) := by
    simp only [first, parsed]
  rw [split_stream_of_nonempty suite nonempty, cut]

/-- Induction along the walk: nothing is left, a fragment is left, or a chunk comes first. -/
theorem stream_induction (suite : Suite) {motive : Bytes → Prop} (nil : motive [])
    (fragment : ∀ input, input ≠ [] → input.length < 10 → motive input)
    (chunk : ∀ input found rest, Chunk.parse suite input = .ok (found, rest) →
      motive rest → motive input)
    (input : Bytes) : motive input := by
  induction size : input.length using Nat.strongRecOn generalizing input with
  | ind size induction =>
      by_cases empty : input = []
      · exact empty ▸ nil
      · by_cases short : input.length < 10
        · exact fragment input empty short
        · obtain ⟨found, rest, parsed⟩ := Chunk.parse_long suite (Nat.le_of_not_lt short)
          refine chunk input found rest parsed (induction rest.length ?_ rest rfl)
          obtain ⟨byte, more, rfl⟩ := List.exists_cons_of_ne_nil empty
          have advanced := (walk suite).advances () byte more
          have cut : first suite (byte :: more) = (.chunk found, rest) := by
            simp only [first, parsed]
          simp only [walk, cut] at advanced
          simp only [List.length_cons] at size
          omega

end Chunkscope
