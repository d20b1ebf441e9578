import Chunkscope.Column.Repeated
import Chunkscope.Field

/-!
Run-length columns. A body is a sequence of runs, each introduced by a signed count: a positive
count is followed by one payload that repeats so many times, a negative one by so many payloads,
and zero by an unsigned number of nulls.

What a payload is differs from column to column, so walking the runs is written once for any
payload decoder that accounts for the bytes it takes.
-/

namespace Chunkscope

/-- One run; the values of repeated payloads and of single ones may have different types. -/
inductive Run (Step Item : Type) where
  /-- So many nulls. The field spans the zero count and the number. -/
  | null (nulls : Field UInt64)
  /-- One payload, repeated. The field spans the count and the payload. -/
  | repeated (step : Field (Repeated Step))
  /-- The header spans the count alone, and each item its own payload. -/
  | literal (header : Field UInt64) (items : List (Field Item))
  deriving DecidableEq, Repr

instance {Step Item : Type} : Spans (Run Step Item) :=
  ⟨fun run => match run with
    | .null nulls => nulls.bytes
    | .repeated step => step.bytes
    | .literal header items => header.bytes ++ spanned items⟩

/-- Decodes the payloads of a column while carrying a state along. -/
structure Payload (State Step Item : Type) where
  repeated : State → UInt64 → Bytes → Field Step × State × Bytes
  literal : State → Bytes → Field Item × State × Bytes
  repeated_covers : ∀ state count input,
    (repeated state count input).1.bytes ++ (repeated state count input).2.2 = input
  literal_covers : ∀ state input,
    (literal state input).1.bytes ++ (literal state input).2.2 = input

namespace Payload

variable {State Step Item Value : Type}

/-- Payloads that are read alike whether they repeat or not. -/
def uniform (reader : Reader (Field Value)) : Payload Unit Value Value where
  repeated _ _ input := ((reader input).1, (), (reader input).2)
  literal _ input := ((reader input).1, (), (reader input).2)
  repeated_covers _ _ input := reader.covers input
  literal_covers _ input := reader.covers input

/-- What is wrong with a list of payloads that stopped before the declared number. -/
def shortfall (declared : UInt64) (limit found : Nat) (rest : Bytes) : List Diagnostic :=
  if rest = [] then Diagnostic.missing declared found
  else if found < declared.toNat then [.error (.tooManyValues limit)]
  else []

/-- Reads one run. At most `limit` single payloads are read; the walk then goes on behind the last
one read. -/
def nextRun (payload : Payload State Step Item) (limit : Nat) (state : State) (input : Bytes) :
    Run Step Item × State × Bytes :=
  let count := Varint.scanSigned input
  let problems := Diagnostic.ofFault (some "length") count.fault
  if count.value = 0 then
    let nulls := Varint.scanUnsigned count.rest
    (.null
      { bytes := count.bytes ++ nulls.bytes
        value := nulls.value
        diagnostics := problems ++ Diagnostic.ofFault (some "null") nulls.fault },
      state, nulls.rest)
  else if 0 < count.value then
    let times := count.value.toUInt64
    let (step, later, rest) := payload.repeated state times count.rest
    (.repeated
      { bytes := count.bytes ++ step.bytes
        value := ⟨times, step.value⟩
        diagnostics := problems ++ step.diagnostics },
      later, rest)
  else
    let declared := (-count.value).toUInt64
    let (items, later, rest) :=
      takeUpTo payload.literal (min declared.toNat limit) state count.rest
    (.literal
      { bytes := count.bytes
        value := declared
        diagnostics := problems ++ shortfall declared limit items.length rest }
      items,
      later, rest)

theorem next_run_append (payload : Payload State Step Item) (limit : Nat) (state : State)
    (input : Bytes) :
    bytes (payload.nextRun limit state input).1 ++ (payload.nextRun limit state input).2.2 =
      input := by
  have whole := Varint.scan_signed_append input
  simp only [nextRun]
  split
  · simp only [Spans.bytes, List.append_assoc, Varint.scan_unsigned_append, whole]
  · split
    · simp only [Spans.bytes, List.append_assoc, payload.repeated_covers, whole]
    · have items := spanned_take_up_to payload.literal payload.literal_covers
        (min (-(Varint.scanSigned input).value).toUInt64.toNat limit) state
        (Varint.scanSigned input).rest
      simp only [Spans.bytes, List.append_assoc]
      rw [items, whole]

theorem length_next_run_rest (payload : Payload State Step Item) (limit : Nat) (state : State)
    (byte : UInt8) (rest : Bytes) :
    (payload.nextRun limit state (byte :: rest)).2.2.length ≤ rest.length := by
  have header := Varint.length_scan_signed_rest byte rest
  refine Nat.le_trans ?_ header
  simp only [nextRun]
  split
  · have covered := congrArg List.length
      (Varint.scan_unsigned_append (Varint.scanSigned (byte :: rest)).rest)
    rw [List.length_append] at covered
    exact Nat.le.intro (Nat.add_comm _ _ ▸ covered)
  · split
    · have covered := congrArg List.length (payload.repeated_covers state
        (Varint.scanSigned (byte :: rest)).value.toUInt64 (Varint.scanSigned (byte :: rest)).rest)
      rw [List.length_append] at covered
      exact Nat.le.intro (Nat.add_comm _ _ ▸ covered)
    · have covered := congrArg List.length (spanned_take_up_to payload.literal
        payload.literal_covers
        (min (-(Varint.scanSigned (byte :: rest)).value).toUInt64.toNat limit) state
        (Varint.scanSigned (byte :: rest)).rest)
      rw [List.length_append] at covered
      exact Nat.le.intro (Nat.add_comm _ _ ▸ covered)

def walk (payload : Payload State Step Item) (limit : Nat) : Walk State (Run Step Item) where
  step := payload.nextRun limit
  advances := payload.length_next_run_rest limit

/-- All runs of a column body. -/
def decodeRuns (payload : Payload State Step Item) (limit : Nat) (state : State)
    (input : Bytes) : List (Run Step Item) :=
  (payload.walk limit).pieces state input

theorem spanned_decode_runs (payload : Payload State Step Item) (limit : Nat) (state : State)
    (input : Bytes) : spanned (payload.decodeRuns limit state input) = input :=
  (payload.walk limit).spanned_pieces (payload.next_run_append limit) state input

end Payload

/-- A column of unsigned integers: plain ones, actors and group sizes. -/
def decodeIntegers (limit : Nat) (input : Bytes) : List (Run UInt64 UInt64) :=
  (Payload.uniform (Reader.unsigned (some "value"))).decodeRuns limit () input

end Chunkscope
