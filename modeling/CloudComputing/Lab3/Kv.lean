import CloudComputing.Lab3.Core

/-!
# The key-value map of a participant

`kv.cc`.  The hash map is a partial function; no modelled function iterates
over it.
-/

namespace CloudComputing
namespace Lab3

/-- Contents of the map `_kvdb`. -/
abbrev KV := Bytes → Option Bytes

namespace KV

/-- A freshly constructed map. -/
def empty : KV := fun _ => none

/-- `kvSET` -/
def kvSET (kvdb : KV) (key value : Bytes) : KV :=
  Function.update kvdb key (some value)

/-- `kvDEL`, with its return code. -/
def kvDEL (kvdb : KV) (key : Bytes) : Int × KV :=
  match kvdb key with
  | some _ => (kvOk, Function.update kvdb key none)
  | none => (kvDel, kvdb)

/-- `kvDELArry`: the number of deletions and the map afterwards. -/
def kvDELArry : KV → List Bytes → Int × KV
  | kvdb, [] => (0, kvdb)
  | kvdb, key :: keys =>
      let (code, kvdb) := kvdb.kvDEL key
      let (number, kvdb) := kvdb.kvDELArry keys
      (if code = kvOk then number + 1 else number, kvdb)

/-- `kvGET` -/
def kvGET (kvdb : KV) (key : Bytes) : Bytes :=
  match kvdb key with
  | none => str "nil"
  | some value => value

/-- A deletion removes exactly its key. -/
theorem kvDEL_snd_apply
    (kvdb : KV)
    (key other : Bytes) :
    (kvdb.kvDEL key).2 other = if other = key then none else kvdb other := by
  cases found : kvdb key with
  | none =>
      by_cases equal : other = key
      · simp [kvDEL, equal, found]
      · simp [kvDEL, found, equal]
  | some value =>
      by_cases equal : other = key
      · simp [kvDEL, found, equal]
      · simp [kvDEL, found, equal]

/-- A list of deletions removes exactly the listed keys. -/
theorem kvDELArry_snd_apply
    (kvdb : KV)
    (keys : List Bytes)
    (other : Bytes) :
    (kvdb.kvDELArry keys).2 other =
      if other ∈ keys then none else kvdb other := by
  induction keys generalizing kvdb with
  | nil => simp [kvDELArry]
  | cons key keys inductionHypothesis =>
      simp only [kvDELArry, inductionHypothesis, kvDEL_snd_apply,
        List.mem_cons]
      by_cases inTail : other ∈ keys
      · simp [inTail]
      · simp [inTail]

/-- No more deletions are counted than keys are listed. -/
theorem kvDELArry_fst_le
    (kvdb : KV)
    (keys : List Bytes) :
    ∃ number : Nat, number ≤ keys.length ∧
      (kvdb.kvDELArry keys).1 = number := by
  induction keys generalizing kvdb with
  | nil => exact ⟨0, le_rfl, rfl⟩
  | cons key keys inductionHypothesis =>
      obtain ⟨number, bound, counted⟩ :=
        inductionHypothesis (kvdb.kvDEL key).2
      simp only [kvDELArry, counted, List.length_cons]
      by_cases deleted : (kvdb.kvDEL key).1 = kvOk
      · exact ⟨number + 1, by omega, by rw [if_pos deleted]; rfl⟩
      · exact ⟨number, by omega, by rw [if_neg deleted]⟩

end KV
end Lab3
end CloudComputing
