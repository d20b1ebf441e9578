import Chunkscope.Proofs.Listing.Independence
import Mathlib.Data.List.Chain

/-!
# A listing is an outline

The lines of a part stand at one depth, and those of its own parts one deeper, directly below the
line that introduces them. So the depth never rises by more than one, and behind a part the listing
is back where it was before. At the top stand the four lines of each frame, and the fragment at the
end.
-/

namespace Chunkscope

/-- An outline from some depth on. Each line stands at that depth, with an outline from the next
depth on below it and the rest of the outline behind that. It goes down a bounded number of levels.
-/
inductive Outline : Nat → Nat → List Line → Prop where
  | nil (depth levels : Nat) : Outline depth levels []
  | cons {depth levels : Nat} {line : Line} {below behind : List Line}
      (stands : line.depth = depth) (inner : Outline (depth + 1) levels below)
      (later : Outline depth (levels + 1) behind) :
      Outline depth (levels + 1) (line :: (below ++ behind))

namespace Outline

variable {depth levels : Nat} {line : Line} {lines front back : List Line}

theorem single (levels : Nat) (stands : line.depth = depth) :
    Outline depth (levels + 1) [line] :=
  .cons stands (.nil (depth + 1) levels) (.nil depth (levels + 1))

/-- A line above an outline from the next depth on. -/
theorem above (stands : line.depth = depth) (inner : Outline (depth + 1) levels lines) :
    Outline depth (levels + 1) (line :: lines) := by
  have whole := Outline.cons stands inner (.nil depth (levels + 1))
  rwa [List.append_nil] at whole

/-- A line in front of an outline from its own depth on. -/
theorem before (stands : line.depth = depth) (later : Outline depth (levels + 1) lines) :
    Outline depth (levels + 1) (line :: lines) :=
  .cons stands (.nil (depth + 1) levels) later

theorem append (first : Outline depth levels front) (second : Outline depth levels back) :
    Outline depth levels (front ++ back) := by
  induction first with
  | nil => exact second
  | cons stands inner _ _ induction =>
      rw [List.cons_append, List.append_assoc]
      exact .cons stands inner (induction second)

theorem flat_map {Piece : Type} {render : Piece → List Line} (pieces : List Piece)
    (each : ∀ piece, Outline depth levels (render piece)) :
    Outline depth levels (pieces.flatMap render) := by
  induction pieces with
  | nil => exact .nil depth levels
  | cons piece pieces induction => exact (each piece).append induction

theorem map {Piece : Type} {render : Piece → Line} (levels : Nat) (pieces : List Piece)
    (each : ∀ piece, (render piece).depth = depth) :
    Outline depth (levels + 1) (pieces.map render) := by
  induction pieces with
  | nil => exact .nil depth (levels + 1)
  | cons piece pieces induction => exact .before (each piece) induction

theorem depth_of_first (outline : Outline depth levels lines) :
    ∀ first ∈ lines.head?, first.depth = depth := by
  cases outline with
  | nil => simp
  | cons stands =>
      intro first leads
      obtain rfl := Option.some.inj leads
      exact stands

theorem depth_of_line (outline : Outline depth levels lines) :
    ∀ line ∈ lines, depth ≤ line.depth ∧ line.depth < depth + levels := by
  induction outline with
  | nil => simp
  | cons stands _ _ inner later =>
      intro line member
      rcases List.mem_cons.mp member with rfl | member
      · omega
      · rcases List.mem_append.mp member with below | behind
        · have bounds := inner line below
          omega
        · exact later line behind

/-- From one line to the next an outline goes down one level at most. -/
theorem steps (outline : Outline depth levels lines) :
    lines.IsChain fun line next => next.depth ≤ line.depth + 1 := by
  induction outline with
  | nil => exact .nil
  | @cons depth levels line below behind stands inner later induction rest =>
      apply List.isChain_cons.mpr
      constructor
      · intro next follows
        rw [List.head?_append, Option.mem_def, Option.or_eq_some_iff] at follows
        rcases follows with first | ⟨-, first⟩
        · have deeper := inner.depth_of_first next first
          omega
        · have level := later.depth_of_first next first
          omega
      · apply induction.append rest
        intro last ends next follows
        have deep := inner.depth_of_line last (List.mem_of_mem_getLast? ends)
        have level := later.depth_of_first next follows
        omega

end Outline

section Parts

variable (depth levels : Nat)

theorem outline_actor (actor : Actor) : Outline depth (levels + 1) (actor.lines depth) :=
  .before rfl (.single levels rfl)

theorem outline_actor_table (table : ActorTable) :
    Outline depth (levels + 2) (table.lines depth) := by
  apply Outline.above
  · rfl
  · apply Outline.flat_map
    exact outline_actor (depth + 1) levels

theorem outline_heads (heads : Heads) : Outline depth (levels + 2) (heads.lines depth) := by
  apply Outline.above
  · rfl
  · apply Outline.map
    exact fun _ => rfl

theorem outline_descriptors (descriptors : ColumnDescriptors) :
    Outline depth (levels + 2) (descriptors.lines depth) := by
  apply Outline.above
  · rfl
  · apply Outline.map
    exact fun _ => rfl

theorem outline_run {Step Item : Type} (wording : RunWording Step Item) (run : Run Step Item) :
    Outline depth (levels + 2) (run.lines wording depth) := by
  cases run with
  | null nulls => exact .single (levels + 1) rfl
  | repeated step => exact .single (levels + 1) rfl
  | literal header items =>
      apply Outline.above
      · rfl
      · apply Outline.map
        exact fun _ => rfl

theorem outline_runs {Step Item : Type} (wording : RunWording Step Item)
    (runs : List (Run Step Item)) :
    Outline depth (levels + 2) (runs.flatMap (Run.lines wording depth)) := by
  apply Outline.flat_map
  exact outline_run depth levels wording

theorem outline_values (decoded : DecodedValues) :
    Outline depth (levels + 1) (decoded.lines depth) := by
  apply Outline.append
  · apply Outline.map
    exact fun _ => rfl
  · split
    · exact .nil depth (levels + 1)
    · exact .single levels rfl

theorem outline_column_body (body : ColumnBody) :
    Outline depth (levels + 2) (body.lines depth) := by
  cases body with
  | compressed input => exact .single (levels + 1) rfl
  | integers runs => exact outline_runs depth levels _ runs
  | deltas runs => exact outline_runs depth levels _ runs
  | booleans runs => exact .map (levels + 1) runs fun _ => rfl
  | strings runs => exact outline_runs depth levels _ runs
  | valueMeta runs => exact outline_runs depth levels _ runs
  | values decoded => exact outline_values depth (levels + 1) decoded
  | missingMeta field => exact .single (levels + 1) rfl

theorem outline_columns (columns : List ColumnData) :
    Outline depth (levels + 3) (columns.flatMap (ColumnData.lines depth)) := by
  apply Outline.flat_map
  intro data
  exact .above rfl (outline_column_body (depth + 1) levels data.body)

theorem outline_head_indexes (indexes : HeadIndexes) :
    Outline depth (levels + 2) (indexes.lines depth) := by
  cases indexes with
  | omitted => exact .single (levels + 1) rfl
  | present indexes =>
      apply Outline.above
      · rfl
      · apply Outline.map
        exact fun _ => rfl

theorem outline_trailing (comment : String) (trailing : Field Unit) :
    Outline depth (levels + 1) (trailingLines depth comment trailing) := by
  unfold trailingLines
  split
  · exact .nil depth (levels + 1)
  · exact .single levels rfl

theorem outline_document (document : Document) :
    Outline depth (levels + 3) (document.lines depth) := by
  unfold Document.lines
  split
  · exact .single (levels + 2) rfl
  · refine .append (.append (.append (.append (.append (.append (.append ?actors ?heads)
      ?changeColumns) ?operationColumns) ?changeData) ?operationData) ?headIndexes) ?trailing
    case actors => exact outline_actor_table depth (levels + 1) document.actors
    case heads => exact outline_heads depth (levels + 1) document.heads
    case changeColumns => exact outline_descriptors depth (levels + 1) document.changeColumns
    case operationColumns =>
      exact outline_descriptors depth (levels + 1) document.operationColumns
    case changeData => exact outline_columns depth levels document.changeData
    case operationData => exact outline_columns depth levels document.operationData
    case headIndexes => exact outline_head_indexes depth (levels + 1) document.headIndexes
    case trailing => exact outline_trailing depth (levels + 2) _ document.trailing

theorem outline_header (header : ChangeHeader) :
    Outline depth (levels + 2) (header.lines depth) := by
  apply Outline.append
  · apply Outline.append
    · exact outline_heads depth levels header.heads
    · exact outline_actor depth (levels + 1) header.actor
  · exact .before rfl (.before rfl (.before rfl (.single (levels + 1) rfl)))

theorem outline_tail (tail : ChangeTail) : Outline depth (levels + 3) (tail.lines depth) := by
  apply Outline.append
  · apply Outline.append
    · apply Outline.append
      · exact outline_actor_table depth (levels + 1) tail.otherActors
      · exact outline_descriptors depth (levels + 1) tail.operationColumns
    · exact outline_columns depth levels tail.operationData
  · exact outline_trailing depth (levels + 2) _ tail.extra

theorem outline_change (change : Change) : Outline depth (levels + 3) (change.lines depth) := by
  apply Outline.append
  · exact outline_header depth (levels + 1) change.header
  · cases change.tail with
    | none => exact .single (levels + 2) rfl
    | some tail => exact .before rfl (outline_tail depth levels tail)

end Parts

namespace Chunk

variable (suite : Suite) (settings : Settings)

theorem outline_body (body : Bytes) (kind : Option ChunkKind) :
    Outline 1 3 (bodyLines settings body kind) := by
  cases kind with
  | none => exact .single 2 rfl
  | some kind =>
      cases kind with
      | document => exact outline_document 1 0 (Document.decode (.new settings.limit) body).1
      | change => exact outline_change 1 0 (Change.decode (.new settings.limit) body).1
      | compressed => exact .single 2 rfl

theorem depth_magic_line (magic : Field Bool) : (magicLine magic).depth = 0 := by
  unfold magicLine
  split <;> rfl

/-- A body stands below the line of its length, the last one of its frame. -/
theorem outline_lines (chunk : Chunk) : Outline 0 4 (chunk.lines suite settings) := by
  apply Outline.before (depth_magic_line chunk.magic)
  apply Outline.before (depth_checksum_line _ _)
  apply Outline.before
  · rfl
  · apply Outline.above
    · rfl
    · exact outline_body settings chunk.body chunk.kind?

theorem depth_of_frame_line (chunk : Chunk) :
    ∀ line ∈ chunk.frameLines suite settings, line.depth = 0 := by
  simp [frameLines, depth_magic_line, depth_checksum_line, kindLine, Line.ofCount, Line.ofField,
    Line.annotated]

/-- The lines of a frame are all lines of a chunk that stand at the top. -/
theorem top_lines (chunk : Chunk) :
    (chunk.lines suite settings).filter (fun line => line.depth = 0) =
      chunk.frameLines suite settings := by
  have frame : (chunk.frameLines suite settings).filter (fun line => line.depth = 0) =
      chunk.frameLines suite settings := by
    apply List.filter_eq_self.mpr
    intro line member
    simp [depth_of_frame_line suite settings chunk line member]
  have body : (bodyLines settings chunk.body chunk.kind?).filter (fun line => line.depth = 0) =
      [] := by
    apply List.filter_eq_nil_iff.mpr
    intro line member
    have below := (outline_body settings chunk.body chunk.kind?).depth_of_line line member
    simp only [decide_eq_true_eq]
    omega
  rw [lines_eq, List.filter_append, frame, body, List.append_nil]

theorem bytes_of_frame_lines (chunk : Chunk) :
    (chunk.frameLines suite settings).map Line.bytes =
      [chunk.magic.bytes, chunk.checksum.bytes, chunk.kindByte.bytes, chunk.length.bytes] := by
  simp only [frameLines, List.map_cons, List.map_nil, bytes_magic_line, bytes_checksum_line,
    Line.bytes_of_count]
  rfl

end Chunk

section Streams

variable (suite : Suite) (settings : Settings)

theorem outline_annotate (input : Bytes) : Outline 0 4 (annotate suite settings input) := by
  apply Outline.flat_map
  intro piece
  cases piece with
  | chunk found => exact Chunk.outline_lines suite settings found
  | fragment left => exact .single 3 rfl

/-- The line of a fragment. -/
def fragmentLine (left : Bytes) : Line := ⟨0, left, tooShortComment, some .error⟩

/-- The lines at the top of a listing: those of the frame of each chunk, and that of a fragment. -/
theorem top_lines_of_stream (input : Bytes) :
    ∃ (chunks : List Chunk) (fragment : Option Bytes),
      splitStream suite input = chunks.map .chunk ++ (fragment.map .fragment).toList ∧
      (∀ left ∈ fragment, left ≠ [] ∧ left.length < 10) ∧
      (annotate suite settings input).filter (fun line => line.depth = 0) =
        chunks.flatMap (Chunk.frameLines suite settings) ++ (fragment.map fragmentLine).toList := by
  induction input using stream_induction suite with
  | nil =>
      refine ⟨[], none, ?_, by simp, ?_⟩
      · exact split_stream_nil suite
      · rw [annotate, split_stream_nil]
        rfl
  | fragment input nonempty short =>
      refine ⟨[], some input, ?_, ?_, ?_⟩
      · exact split_stream_fragment nonempty short
      · intro left last
        obtain rfl := Option.some.inj last
        exact ⟨nonempty, short⟩
      · rw [annotate, split_stream_fragment nonempty short]
        rfl
  | chunk input found rest parsed induction =>
      obtain ⟨chunks, fragment, pieces, few, top⟩ := induction
      refine ⟨found :: chunks, fragment, ?_, few, ?_⟩
      · rw [split_stream_chunk parsed, pieces]
        rfl
      · rw [annotate_of_parse suite settings parsed, List.filter_append, top, List.flatMap_cons,
          Chunk.top_lines, List.append_assoc]

/-- A listing is an outline of four levels from the top on: its first line stands at the top, every
line at most one level below the one before it, and none deeper than three. At the top stand, in the
order of the stream, the lines for the magic bytes, the checksum, the kind and the length of every
chunk, then one for the fragment that is left, if there is one, and nothing else. -/
theorem listing_is_outline (input : Bytes) :
    Outline 0 4 (annotate suite settings input) ∧
    (∀ first ∈ (annotate suite settings input).head?, first.depth = 0) ∧
    (annotate suite settings input).IsChain (fun line next => next.depth ≤ line.depth + 1) ∧
    (∀ line ∈ annotate suite settings input, line.depth ≤ 3) ∧
    ∃ (chunks : List Chunk) (fragment : Option Bytes),
      splitStream suite input = chunks.map .chunk ++ (fragment.map .fragment).toList ∧
      (∀ left ∈ fragment, left ≠ [] ∧ left.length < 10) ∧
      (annotate suite settings input).filter (fun line => line.depth = 0) =
        chunks.flatMap (Chunk.frameLines suite settings) ++ (fragment.map fragmentLine).toList ∧
      ∀ chunk ∈ chunks, (chunk.frameLines suite settings).map Line.bytes =
        [chunk.magic.bytes, chunk.checksum.bytes, chunk.kindByte.bytes, chunk.length.bytes] := by
  have outline := outline_annotate suite settings input
  refine ⟨outline, outline.depth_of_first, outline.steps, ?_, ?_⟩
  · intro line member
    have bounds := outline.depth_of_line line member
    omega
  · obtain ⟨chunks, fragment, pieces, few, top⟩ := top_lines_of_stream suite settings input
    refine ⟨chunks, fragment, pieces, few, top, ?_⟩
    intro chunk _
    exact Chunk.bytes_of_frame_lines suite settings chunk

end Streams

/-- A document with one integer column, whose only run is a list, and a byte behind it. The listing
goes down to the item of the list and comes back for what is behind. -/
theorem listing_is_outline_of_literal_list :
    ∃ listing, listing = annotate .standard ⟨5, false⟩
        [0x85, 0x6f, 0x4a, 0x83, 0, 0, 0, 0, 0, 8, 0, 0, 1, 34, 2, 0, 0x7f, 5, 0x85] ∧
      listing.map Line.depth = [0, 0, 0, 0, 1, 1, 1, 2, 1, 1, 2, 3, 1, 0] ∧ Outline 0 4 listing ∧
      (∀ first ∈ listing.head?, first.depth = 0) ∧ (∀ line ∈ listing, line.depth ≤ 3) := by
  have outlined := listing_is_outline .standard ⟨5, false⟩
    [0x85, 0x6f, 0x4a, 0x83, 0, 0, 0, 0, 0, 8, 0, 0, 1, 34, 2, 0, 0x7f, 5, 0x85]
  exact ⟨_, rfl, by decide +kernel, outlined.1, outlined.2.1, outlined.2.2.2.1⟩

end Chunkscope
