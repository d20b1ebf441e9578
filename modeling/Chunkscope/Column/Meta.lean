import Chunkscope.Column.Spec
import Chunkscope.Column.Value

/-!
Value-meta columns: runs of packed entries, one entry for each value of the value column with the
same id. While a body is decoded, the entries of each such column are remembered for the value
column to come.
-/

namespace Chunkscope

namespace Meta

def reader : Reader (Field MetaEntry) :=
  (Reader.unsigned (some "meta")).map MetaEntry.ofSpec

/-- The runs of a value-meta column. -/
def decode (limit : Nat) (input : Bytes) : List (Run MetaEntry MetaEntry) :=
  (Payload.uniform reader).decodeRuns limit () input

/-- The entries of one run; nulls stand for no entry. -/
def copies : Run MetaEntry MetaEntry → List (Repeated MetaEntry)
  | .null _ => []
  | .repeated step => [step.value]
  | .literal _ items => items.map fun item => ⟨1, item.value⟩

/-- The entries of some runs one by one, at most `limit` of them. Allocation is idealised: no
list is too long here, while the program fails on one of more than 2 ^ 63 - 1 bytes. -/
def entries (limit : Nat) (runs : List (Run MetaEntry MetaEntry)) : List MetaEntry :=
  Repeated.expand limit (runs.flatMap copies)

/-- What is wrong with runs that stand for more entries than the limit allows. -/
def limitProblems (limit : Nat) (runs : List (Run MetaEntry MetaEntry)) : List Diagnostic :=
  if limit < Repeated.total (runs.flatMap copies) then [.error (.tooManyValues limit)] else []

end Meta

/-- The entries of the value-meta columns seen so far, by group and column id. -/
structure MetaMemory where
  columns : List ((ColumnGroup × UInt64) × List MetaEntry)
  deriving DecidableEq, Repr

namespace MetaMemory

def empty : MetaMemory := ⟨[]⟩

def find? (memory : MetaMemory) (group : ColumnGroup) (id : UInt64) : Option (List MetaEntry) :=
  memory.columns.lookup (group, id)

def forget (memory : MetaMemory) (group : ColumnGroup) (id : UInt64) : MetaMemory :=
  ⟨memory.columns.filter fun column => column.1 ≠ (group, id)⟩

def remember (memory : MetaMemory) (group : ColumnGroup) (id : UInt64)
    (entries : List MetaEntry) : MetaMemory :=
  ⟨((group, id), entries) :: (memory.forget group id).columns⟩

theorem find_remember (memory : MetaMemory) (group : ColumnGroup) (id : UInt64)
    (entries : List MetaEntry) :
    (memory.remember group id entries).find? group id = some entries := by
  simp [find?, remember]

theorem find_forget (memory : MetaMemory) (group : ColumnGroup) (id : UInt64) :
    (memory.forget group id).find? group id = none := by
  simp only [find?, forget]
  induction memory.columns with
  | nil => rfl
  | cons column columns ih =>
      by_cases same : column.1 = (group, id)
      · simpa [same] using ih
      · rw [List.filter_cons_of_pos (by simpa using same), List.lookup_cons]
        have different : ((group, id) == column.1) = false := by
          simpa using fun equal => same (Eq.symm equal)
        rw [different]
        exact ih

section Others

variable {group other : ColumnGroup} {id otherId : UInt64}

theorem find_forget_other (memory : MetaMemory) (different : (other, otherId) ≠ (group, id)) :
    (memory.forget group id).find? other otherId = memory.find? other otherId := by
  simp only [find?, forget]
  induction memory.columns with
  | nil => rfl
  | cons column columns ih =>
      by_cases same : column.1 = (group, id)
      · have skipped : ((other, otherId) == column.1) = false := by
          rw [same]
          exact beq_false_of_ne different
        rw [List.filter_cons_of_neg (by simpa using same), List.lookup_cons, skipped]
        exact ih
      · rw [List.filter_cons_of_pos (by simpa using same), List.lookup_cons, List.lookup_cons, ih]

theorem find_remember_other (memory : MetaMemory) (entries : List MetaEntry)
    (different : (other, otherId) ≠ (group, id)) :
    (memory.remember group id entries).find? other otherId = memory.find? other otherId := by
  have skipped : ((other, otherId) == (group, id)) = false := beq_false_of_ne different
  rw [← memory.find_forget_other different]
  simp only [find?, remember, List.lookup_cons, skipped]

end Others

end MetaMemory

end Chunkscope
