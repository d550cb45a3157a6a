import CloudComputing.Lab3.Messages
import CloudComputing.Lib.PartialMap

/-!
# The sequential map

What a client may expect of the database: one map, on which the commands are
executed one after the other.  A participant that executes a command which the
coordinator has let through does what the sequential map does, although it
looks at the first letter of the name only.
-/

namespace CloudComputing
namespace Lab3

open CloudComputing.Lab3.Parser

namespace SequentialMap

/-- One command: the answer and the map afterwards. -/
def step (map : KV) : List Bytes → Bytes × KV
  | [] => (getErrorMessage, map)
  | name :: args =>
      if name = str "SET" then
        match args with
        | [key, value] =>
            (getSuccessMessage, Function.update map key (some value))
        | _ => (getErrorMessage, map)
      else if name = str "DEL" then
        (getIntergerMessage (PartialMap.present map args).card,
          PartialMap.erase map args)
      else if name = str "GET" then
        match args with
        | [key] => (getRESPArryOfString ((map key).getD (str "nil")), map)
        | _ => (getErrorMessage, map)
      else (getErrorMessage, map)

/-- Commands one after the other. -/
def run (map : KV) : List (List Bytes) → List Bytes × KV
  | [] => ([], map)
  | task :: tasks =>
      let (reply, map) := step map task
      let (replies, map) := run map tasks
      (reply :: replies, map)

/-- The commands that the map takes as an update. -/
def isStore : List Bytes → Bool
  | [] => false
  | name :: args =>
      (name = str "SET" && args.length = 2) || name = str "DEL"

/-- No stored value has `bound` bytes or more. -/
def Within (bound : Nat) (map : KV) : Prop :=
  ∀ key value, map key = some value → value.length < bound

theorem Within.step
    {bound : Nat}
    {map : KV}
    (within : Within bound map)
    {task : List Bytes}
    (small : ∀ element ∈ task, element.length < bound) :
    Within bound (step map task).2 := by
  intro key value found
  unfold SequentialMap.step at found
  split at found
  · exact within key value found
  · rename_i name args
    split at found
    · split at found
      · rename_i stored new
        dsimp only at found
        by_cases same : key = stored
        · rw [same, Function.update_self, Option.some_inj] at found
          rw [← found]
          exact small new (by simp)
        · rw [Function.update_of_ne same] at found
          exact within key value found
      · exact within key value found
    · split at found
      · simp only [PartialMap.erase] at found
        split at found
        · cases found
        · exact within key value found
      · split at found
        · split at found
          · exact within key value found
          · exact within key value found
        · exact within key value found

end SequentialMap

/-- Successive deletions are those of the map. -/
theorem KV.kvDELArry_eq (kvdb : KV) (keys : List Bytes) :
    kvdb.kvDELArry keys =
      (((PartialMap.present kvdb keys).card : Int),
        PartialMap.erase kvdb keys) := by
  have single : ∀ (kvdb : KV) key,
      (kvdb.kvDEL key).2 = PartialMap.erase kvdb [key] := by
    intro kvdb key
    funext other
    rw [KV.kvDEL_snd_apply]
    simp [PartialMap.erase]
  rw [← PartialMap.hits_eq_card_present]
  induction keys generalizing kvdb with
  | nil => simp [KV.kvDELArry, PartialMap.hits]
  | cons key keys inductionHypothesis =>
      rw [KV.kvDELArry, PartialMap.erase_cons, PartialMap.hits]
      simp only [inductionHypothesis, single]
      cases found : kvdb key with
      | none => simp [KV.kvDEL, found, kvDel, kvOk]
      | some value => simp [KV.kvDEL, found]

/-- A participant executes the commands that the coordinator lets through like
the sequential map. -/
theorem Participant.runComds_eq_step
    (kvdb : KV)
    {task : List Bytes}
    (known : isUpdate task = true ∨ isRequest task = true) :
    runComds kvdb task = SequentialMap.step kvdb task := by
  cases task with
  | nil => simp [isUpdate, isRequest] at known
  | cons name args =>
      have named : name = str "SET" ∨ name = str "DEL" ∨ name = str "GET" := by
        simpa [isUpdate, isRequest, or_assoc] using known
      rcases named with rfl | rfl | rfl
      · rfl
      · simp only [runComds, SequentialMap.step,
          show (str "DEL").headD 0 = 68 by rfl, KV.kvDELArry_eq,
          show ¬ str "DEL" = str "SET" by decide, if_true, if_false]
      · simp only [runComds, SequentialMap.step,
          show (str "GET").headD 0 = 71 by rfl,
          show ¬ str "GET" = str "SET" by decide,
          show ¬ str "GET" = str "DEL" by decide, if_true, if_false]
        rcases args with _ | ⟨key, _ | ⟨other, rest⟩⟩
        · rfl
        · cases found : kvdb key with
          | none => simp only [KV.kvGET, found, Option.getD_none]
          | some value => simp only [KV.kvGET, found, Option.getD_some]
        · rfl

/-- The map refuses every other command. -/
theorem SequentialMap.step_of_unknown
    (map : KV)
    {task : List Bytes}
    (notUpdate : isUpdate task = false)
    (notRequest : isRequest task = false) :
    step map task = (getErrorMessage, map) := by
  cases task with
  | nil => rfl
  | cons name args =>
      simp only [isUpdate, isRequest, Bool.or_eq_false_iff,
        decide_eq_false_iff_not] at notUpdate notRequest
      simp only [step, notUpdate.1, notUpdate.2, notRequest, if_false]

/-- An update is stored when participants accept it. -/
theorem SequentialMap.isStore_eq
    {task : List Bytes}
    (update : isUpdate task = true) :
    isStore task = Participant.Accepted task := by
  cases task with
  | nil => cases update
  | cons name args =>
      have named : name = str "SET" ∨ name = str "DEL" := by
        simpa [isUpdate] using update
      rcases named with rfl | rfl
      · simp only [isStore, Participant.Accepted,
          show (str "SET").headD 0 = 83 by rfl,
          show ¬ str "SET" = str "DEL" by decide, decide_true, decide_false,
          Bool.true_and, Bool.or_false]
      · simp only [isStore, Participant.Accepted,
          show (str "DEL").headD 0 = 68 by rfl, decide_true, Bool.or_true]

theorem SequentialMap.isUpdate_of_isStore
    {task : List Bytes}
    (store : isStore task = true) :
    isUpdate task = true := by
  cases task with
  | nil => cases store
  | cons name args =>
      simp only [isStore, Bool.or_eq_true, Bool.and_eq_true] at store
      simp only [isUpdate, Bool.or_eq_true]
      exact store.imp_left And.left

end Lab3
end CloudComputing
