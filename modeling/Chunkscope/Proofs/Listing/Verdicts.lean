import Chunkscope.CommandLine.Run
import Chunkscope.Proofs.Listing.Independence
import Chunkscope.Proofs.Transform.Renewal

/-!
# Verification changes nothing but verdicts

Whether compressed chunks are verified is asked on the line of a checksum and nowhere else, and only
where the chunk cannot tell by itself. Two listings of one stream have the same lines but for those,
and as none of them is ever an error, a checked run ends in the same way.
-/

namespace Chunkscope

namespace Listing

/-- Two listings with lines of the same bytes and depths and with as many errors, whose lines are
the same but for some places. -/
structure AlikeBut (apart : Nat → Prop) (one two : Listing) : Prop where
  length_eq : one.length = two.length
  outline_eq : one.map (fun line => (line.depth, line.bytes)) =
    two.map fun line => (line.depth, line.bytes)
  same_line : ∀ index, ¬apart index → one[index]? = two[index]?
  errors_eq : count .error one = count .error two

namespace AlikeBut

variable {apart early late : Nat → Prop} {one two first second : Listing}

theorem refl (apart : Nat → Prop) (listing : Listing) : AlikeBut apart listing listing :=
  ⟨rfl, rfl, fun _ _ => rfl, rfl⟩

/-- Two lines that are no errors may say different things about the same bytes. -/
theorem line {line other : Line} (place : apart 0) (depth : line.depth = other.depth)
    (span : line.bytes = other.bytes) (harmless : line.severity ≠ some .error)
    (alike : other.severity ≠ some .error) : AlikeBut apart [line] [other] := by
  constructor
  case length_eq => rfl
  case outline_eq => rw [List.map_singleton, List.map_singleton, depth, span]
  case same_line =>
    intro index known
    cases index with
    | zero => exact absurd place known
    | succ index => rfl
  case errors_eq => simp [count, harmless, alike]

/-- Listings that follow one another differ where the first ones do and, behind these, where the
second ones do. -/
theorem append (front : AlikeBut early one two) (back : AlikeBut late first second)
    (before : ∀ index, early index → apart index)
    (behind : ∀ index, late index → apart (one.length + index)) :
    AlikeBut apart (one ++ first) (two ++ second) := by
  constructor
  case length_eq =>
    rw [List.length_append, List.length_append, front.length_eq, back.length_eq]
  case outline_eq => rw [List.map_append, List.map_append, front.outline_eq, back.outline_eq]
  case same_line =>
    intro index known
    by_cases within : index < one.length
    · rw [List.getElem?_append_left within,
        List.getElem?_append_left (front.length_eq ▸ within)]
      apply front.same_line
      exact fun different => known (before index different)
    · have beyond := Nat.not_lt.mp within
      rw [List.getElem?_append_right beyond,
        List.getElem?_append_right (front.length_eq ▸ beyond), ← front.length_eq]
      apply back.same_line
      intro different
      apply known
      have moved := behind _ different
      rwa [Nat.add_sub_cancel' beyond] at moved
  case errors_eq =>
    have ahead := front.errors_eq
    have later := back.errors_eq
    unfold count at ahead later ⊢
    rw [List.countP_append, List.countP_append, ahead, later]

end AlikeBut

/-- A listing has errors when it counts some. -/
theorem has_errors_eq_count (listing : Listing) :
    listing.hasErrors = decide (0 < count .error listing) := by
  rw [Bool.eq_iff_iff]
  simp [hasErrors, count]

end Listing

namespace Chunk

variable {suite : Suite} {one two : Settings} {chunk : Chunk} {input rest : Bytes}

/-- Only a compressed chunk leaves the question of its checksum open. -/
theorem compressed_of_unvalidated (parsed : parse suite input = .ok (chunk, rest))
    (unvalidated : chunk.checksum.value = .notValidated) : chunk.kind? = some .compressed := by
  obtain ⟨m0, m1, m2, m3, stored, kindByte, covered, -, parts⟩ := parse_eq_ok parsed
  have status := congrArg (fun found => found.1.checksum.value) parts
  have kind := congrArg (fun found => found.1.kindByte) parts
  simp only [ofParts, checksum_field_value, unvalidated] at status kind
  unfold checksumStatus at status
  split at status
  · next compressed =>
      rw [kind?, ← kind, compressed]
      rfl
  · split at status <;> cases status

/-- A chunk that can tell by itself whether its checksum is right is never verified. -/
theorem verdict_of_told (told : chunk.checksum.value ≠ .notValidated) :
    chunk.verdict suite one = chunk.verdict suite two := by
  unfold verdict
  split
  · rfl
  · rfl
  · next unvalidated => exact absurd unvalidated told

theorem body_lines_of_limit (same : one.limit = two.limit) (body : Bytes)
    (kind : Option ChunkKind) : bodyLines one body kind = bodyLines two body kind := by
  unfold bodyLines
  rw [same]

/-- The lines of a chunk are the same but for the second one, when the chunk is compressed. -/
theorem lines_alike (same : one.limit = two.limit)
    (parsed : parse suite input = .ok (chunk, rest)) :
    Listing.AlikeBut (fun index => chunk.kind? = some .compressed ∧ index = 1)
      (chunk.lines suite one) (chunk.lines suite two) := by
  unfold lines
  rw [body_lines_of_limit same]
  by_cases unvalidated : chunk.checksum.value = .notValidated
  · have compressed := compressed_of_unvalidated parsed unvalidated
    have verdicts : Listing.AlikeBut (fun index => index = 0)
        [checksumLine chunk.checksum.bytes (chunk.verdict suite one)]
        [checksumLine chunk.checksum.bytes (chunk.verdict suite two)] := by
      apply Listing.AlikeBut.line
      · rfl
      · rw [depth_checksum_line, depth_checksum_line]
      · rw [bytes_checksum_line, bytes_checksum_line]
      · exact unvalidated_line_severity suite one chunk unvalidated
      · exact unvalidated_line_severity suite two chunk unvalidated
    have behind := verdicts.append
      (.refl (fun _ => False) (kindLine chunk.kindByte :: .ofCount 0 "length = " chunk.length ::
        bodyLines two chunk.body chunk.kind?)) (fun _ first => first) (fun _ => False.elim)
    have magic := Listing.AlikeBut.refl (fun _ => False) [magicLine chunk.magic]
    apply magic.append behind (fun _ => False.elim)
    rintro index rfl
    exact ⟨compressed, rfl⟩
  · rw [verdict_of_told unvalidated]
    exact .refl _ _

end Chunk

section Streams

variable (suite : Suite) {one two : Settings}

/-- The line at an index of a listing is that of the checksum of a compressed chunk, the second one
of the chunk's lines. -/
def VerdictAt (settings : Settings) (input : Bytes) (index : Nat) : Prop :=
  ∃ before chunk behind, splitStream suite input = before ++ .chunk chunk :: behind ∧
    chunk.kind? = some .compressed ∧
    index = (before.flatMap (StreamPiece.lines suite settings)).length + 1

theorem annotate_alike (same : one.limit = two.limit) (input : Bytes) :
    Listing.AlikeBut (VerdictAt suite one input) (annotate suite one input)
      (annotate suite two input) := by
  induction input using stream_induction suite with
  | nil =>
      rw [annotate, annotate, split_stream_nil]
      exact .refl _ _
  | fragment input nonempty short =>
      rw [annotate, annotate, split_stream_fragment nonempty short]
      exact .refl _ _
  | chunk input found rest parsed induction =>
      rw [annotate_of_parse suite one parsed, annotate_of_parse suite two parsed]
      apply (Chunk.lines_alike same parsed).append induction
      · rintro index ⟨compressed, rfl⟩
        exact ⟨[], found, splitStream suite rest, split_stream_chunk parsed, compressed, rfl⟩
      · rintro index ⟨before, chunk, behind, pieces, compressed, rfl⟩
        refine ⟨.chunk found :: before, chunk, behind, ?_, compressed, ?_⟩
        · rw [split_stream_chunk parsed, pieces, List.cons_append]
        · rw [List.flatMap_cons, List.length_append, Nat.add_assoc]
          rfl

end Streams

namespace CommandLine.Options

/-- Options that ask for the same but for whether compressed chunks are verified; how a listing is
laid out may differ as well. -/
structure AlikeButVerified (one two : Options) : Prop where
  heading_eq : one.heading = two.heading
  max_values_eq : one.maxValues = two.maxValues
  has_eq : ∀ switch, switch ≠ .verifyCompressed → one.has switch = two.has switch

variable {one two : Options}

theorem pipeline_alike (alike : one.AlikeButVerified two) : one.pipeline = two.pipeline := by
  unfold pipeline
  rw [alike.heading_eq, alike.has_eq .fixChecksum (by decide), alike.has_eq .compress (by decide),
    alike.has_eq .decompress (by decide)]

theorem limit_alike (alike : one.AlikeButVerified two) :
    one.settings.limit = two.settings.limit := by
  unfold settings
  rw [alike.max_values_eq]

theorem listing_exit_alike (suite : Suite) (alike : one.AlikeButVerified two) (input : Bytes) :
    (one.listing suite input).exitCode = (two.listing suite input).exitCode := by
  have errors := (annotate_alike suite (limit_alike alike) input).errors_eq
  simp only [listing, Listing.has_errors_eq_count, errors, alike.has_eq .check (by decide)]

/-- A run ends in the same way whether or not compressed chunks are verified. -/
theorem exit_alike (suite : Suite) (alike : one.AlikeButVerified two)
    (source : Except FileError Bytes) :
    (one.run suite source).exitCode = (two.run suite source).exitCode := by
  cases source with
  | error failure => rfl
  | ok input =>
      simp only [run, pipeline_alike alike, alike.has_eq .raw (by decide)]
      cases two.pipeline.run suite input with
      | error failure => rfl
      | ok result =>
          have listings := listing_exit_alike suite alike result
          by_cases raw : two.has .raw = true
          · simp only [if_pos raw]
          · simp only [if_neg raw]
            exact listings

end CommandLine.Options

/-- Two listings of one stream whose settings differ in nothing but verification have the same
number of lines, and line by line the same depth and bytes. A line is another one at most where it is
about the checksum of a compressed chunk. There are as many errors in both, so both have errors or
neither, and a run ends with the same exit code. -/
theorem verification_changes_verdicts_only (suite : Suite) :
    (∀ (one two : Settings) (input : Bytes), one.limit = two.limit →
      Listing.AlikeBut (VerdictAt suite one input) (annotate suite one input)
          (annotate suite two input) ∧
        (annotate suite one input).hasErrors = (annotate suite two input).hasErrors) ∧
    ∀ (one two : CommandLine.Options) (source : Except CommandLine.FileError Bytes),
      one.AlikeButVerified two →
        (one.run suite source).exitCode = (two.run suite source).exitCode := by
  constructor
  · intro one two input same
    have alike := annotate_alike suite same input
    refine ⟨alike, ?_⟩
    rw [Listing.has_errors_eq_count, Listing.has_errors_eq_count, alike.errors_eq]
  · intro one two source alike
    exact CommandLine.Options.exit_alike suite alike source

/-- Verification warns of the checksum of this chunk, and a checked run does not mind. -/
theorem verification_changes_verdicts_only_of_stored_block :
    (⟨5, false⟩ : Settings).limit = (⟨5, true⟩ : Settings).limit ∧
      Listing.AlikeBut (VerdictAt .standard ⟨5, false⟩ Chunk.storedBlockChunk)
        (annotate .standard ⟨5, false⟩ Chunk.storedBlockChunk)
        (annotate .standard ⟨5, true⟩ Chunk.storedBlockChunk) ∧
      (annotate .standard ⟨5, false⟩ Chunk.storedBlockChunk)[1]? ≠
        (annotate .standard ⟨5, true⟩ Chunk.storedBlockChunk)[1]? ∧
      ∃ one two : CommandLine.Options, one.switches = [.check] ∧
        two.switches = [.check, .verifyCompressed] ∧ one.AlikeButVerified two ∧
        (one.run .standard (.ok Chunk.storedBlockChunk)).exitCode =
          (two.run .standard (.ok Chunk.storedBlockChunk)).exitCode := by
  have only := verification_changes_verdicts_only .standard
  have different : (annotate .standard ⟨5, false⟩ Chunk.storedBlockChunk)[1]? ≠
      (annotate .standard ⟨5, true⟩ Chunk.storedBlockChunk)[1]? := by decide +kernel
  refine ⟨rfl, (only.1 ⟨5, false⟩ ⟨5, true⟩ Chunk.storedBlockChunk rfl).1, different, ?_⟩
  have alike : CommandLine.Options.AlikeButVerified
      ⟨none, [.check], none, none, none, none⟩
      ⟨none, [.check, .verifyCompressed], none, none, none, none⟩ := by
    refine ⟨rfl, rfl, ?_⟩
    intro switch other
    cases switch with
    | verifyCompressed => exact absurd rfl other
    | _ => rfl
  exact ⟨_, _, rfl, rfl, alike, only.2 _ _ (.ok Chunk.storedBlockChunk) alike⟩

end Chunkscope
