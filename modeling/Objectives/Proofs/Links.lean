/- # Links between records

A goal names its period, a key result its goal, and a comment what it is on.  Few calls change what
records there are to name: most change other fields of the records alone.

Main definitions:

* `Table.setEach` — something set in several values of a table, one after the other;
* `Memory.SameLinks` — a store with the same goals, key results and comments, naming the same;
* `Call.relinks` — whether a call may add or remove a goal, a key result or a comment;
* `Memory.Unowned` — a field of goals that no change of the owner, the weight or the place changes.

Main results:

* `Memory.sameLinks_carry` — **any other call leaves the links as they are**.
-/

import Objectives.Proofs.Subject
import Objectives.Proofs.Table

set_option relaxedAutoImplicit false
set_option autoImplicit false

namespace Objectives

/-! ### One field of the values of a table -/

namespace Table

variable {κ ν α : Type} [Key κ] [DecidableEq κ] {field : ν → α}

/-- A value that takes the place of another with the same field. -/
theorem map_get?_insert {t : Table κ ν} {k : κ} {v v' : ν} (h : t.get? k = some v)
    (hv : field v' = field v) (k' : κ) :
    ((t.insert k v').get? k').map field = (t.get? k').map field := by
  rw [get?_insert]
  by_cases hk : k = k'
  · subst hk
    rw [if_pos rfl, h, Option.map_some, Option.map_some, hv]
  · rw [if_neg hk]

/-- A change of other fields. -/
theorem map_get?_modify {f : ν → ν} (hf : ∀ v, field (f v) = field v) (t : Table κ ν) (k k' : κ) :
    ((t.modify k f).get? k').map field = (t.get? k').map field := by
  rw [get?_modify]
  split
  · cases t.get? k' with
    | none => rfl
    | some v => exact congrArg some (hf v)
  · rfl

/-- Sets something in the values of a table, under one key after the other. -/
def setEach {β : Type} (set : β → ν → ν) (t : Table κ ν) (list : List (κ × β)) : Table κ ν :=
  list.foldl (fun t item => t.modify item.1 (set item.2)) t

/-- What is set one after the other leaves the other fields. -/
theorem map_get?_setEach {β : Type} {set : β → ν → ν} (hset : ∀ b v, field (set b v) = field v)
    (t : Table κ ν) (list : List (κ × β)) (k : κ) :
    ((setEach set t list).get? k).map field = (t.get? k).map field := by
  induction list generalizing t with
  | nil => rfl
  | cons item rest ih =>
    rw [setEach, List.foldl_cons]
    exact (ih _).trans (map_get?_modify (hset item.2) t item.1 k)

end Table

namespace Memory

theorem map_get?_setOrders {ν α : Type} {field : ν → α} {set : Int → ν → ν}
    (hset : ∀ order v, field (set order v) = field v) (t : Table Int ν) (changes : List (Int × Int))
    (k : Int) : ((setOrders set t changes).get? k).map field = (t.get? k).map field :=
  Table.map_get?_setEach hset t changes k

theorem map_get?_setWeights {α : Type} {field : KeyResult → α}
    (hset : ∀ (k : KeyResult) weight, field { k with weight } = field k)
    (t : Table KeyResultId KeyResult) (weights : List (KeyResultId × Weight)) (id : KeyResultId) :
    ((weights.foldl setWeight t).get? id).map field = (t.get? id).map field :=
  Table.map_get?_setEach (fun weight k => hset k weight) t weights id

end Memory

/-! ### Links -/

/-- Whether a call may add or remove a goal, a key result or a comment. -/
def Call.relinks : Call → Bool
  | createGoal .. | deleteGoal _ | createKeyResult .. | deleteKeyResult _ | addComment .. => true
  | _ => false

namespace Memory

/-- The same goals in the same periods, the same key results of the same goals, and the same comments.
-/
structure SameLinks (m m' : Memory) : Prop where
  goals : ∀ id, (m'.goals.get? id).map Goal.period = (m.goals.get? id).map Goal.period
  keyResults : ∀ id, (m'.keyResults.get? id).map KeyResult.goal =
    (m.keyResults.get? id).map KeyResult.goal
  comments : m'.comments = m.comments

section Goals

variable {m : Memory} {α : Type} {field : Goal → α}

/-- The field of a goal depends neither on its owner nor on its weight and its place. -/
def Unowned (field : Goal → α) : Prop :=
  ∀ (g : Goal) team weight sortOrder, field { g with team, weight, sortOrder } = field g

theorem map_get?_updateGoal (hfield : ∀ (g : Goal) draft, field (g.apply draft) = field g)
    (id : GoalId) (draft : GoalDraft) (i : GoalId) :
    ((m.updateGoal id draft).2.goals.get? i).map field = (m.goals.get? i).map field := by
  unfold updateGoal
  split
  · rfl
  · rename_i goal hget
    exact Table.map_get?_insert hget (hfield goal draft) i

theorem map_get?_replaceShares (hfield : Unowned field) (plan : SharePlan) (i : GoalId) :
    ((m.replaceShares plan).2.goals.get? i).map field = (m.goals.get? i).map field := by
  unfold replaceShares
  rcases m.setOwner_cases plan.goal plan.owner with
    ⟨-, hset⟩ | ⟨goal, goal', order, hget, hgoal', -, hset⟩
  · rw [hset]
  · rw [hset]
    exact Table.map_get?_insert hget (by rw [hgoal', hfield]) i

theorem map_get?_promote (hfield : Unowned field) (share : Share) (i : GoalId) :
    ((m.promote share).2.goals.get? i).map field = (m.goals.get? i).map field := by
  unfold promote
  rcases m.setOwner_cases share.goal ⟨share.team, share.weight⟩ with
    ⟨-, hset⟩ | ⟨goal, goal', order, hget, hgoal', -, hset⟩
  · rw [hset]
  · rw [hset]
    exact Table.map_get?_insert hget (by rw [hgoal', hfield]) i

theorem map_get?_setTeamWeight (hfield : Unowned field) (id : GoalId) (team : TeamId)
    (weight : Weight) (i : GoalId) :
    ((m.setTeamWeight id team weight).2.goals.get? i).map field = (m.goals.get? i).map field := by
  have hshare : (m.setShareWeight id team weight).2.goals = m.goals := by
    unfold setShareWeight
    split <;> rfl
  unfold setTeamWeight
  split
  · rename_i goal hget
    split
    · exact Table.map_get?_insert hget (hfield goal goal.team weight goal.sortOrder) i
    · rw [hshare]
  · rw [hshare]

theorem map_get?_moveGoal (hfield : Unowned field) (id : GoalId) (asTeam : Option TeamId)
    (direction : Direction) (i : GoalId) :
    ((m.move (.goal id asTeam) direction).2.goals.get? i).map field =
      (m.goals.get? i).map field := by
  unfold move
  simp only
  split
  · rfl
  · split
    · rfl
    · exact map_get?_setOrders (fun order g => hfield g g.team g.weight order) m.goals _ i

theorem unowned_period : Unowned Goal.period := fun _ _ _ _ => rfl

end Goals

section KeyResults

variable {m : Memory}

/-- A key result may take the place of another of the same goal. -/
theorem Replaced.sameLinks {m' : Memory} {id : KeyResultId} (h : m.Replaced id m') :
    m.SameLinks m' := by
  cases h with
  | none _ => exact ⟨fun _ => rfl, fun _ => rfl, rfl⟩
  | one hget _ hgoal _ _ => exact ⟨fun _ => rfl, Table.map_get?_insert hget hgoal, rfl⟩

theorem sameLinks_setWeights (goal : GoalId) (weights : List (KeyResultId × Weight)) :
    m.SameLinks (m.setWeights goal weights).2 := by
  unfold setWeights
  split
  · exact ⟨fun _ => rfl, fun _ => rfl, rfl⟩
  · refine ⟨fun _ => rfl, fun i => ?_, rfl⟩
    exact map_get?_setWeights (fun _ _ => rfl) m.keyResults weights i

theorem sameLinks_moveKeyResult (id : KeyResultId) (direction : Direction) :
    m.SameLinks (m.move (.keyResult id) direction).2 := by
  unfold move
  simp only
  split
  · exact ⟨fun _ => rfl, fun _ => rfl, rfl⟩
  · refine ⟨fun _ => rfl, fun i => ?_, rfl⟩
    refine map_get?_setOrders ?_ m.keyResults _ i
    intro order k
    rfl

end KeyResults

/-- **A call that neither adds nor removes a goal, a key result or a comment leaves the links as they
are.** -/
theorem sameLinks_carry {c : Call} (hc : c.relinks = false) (m : Memory) :
    m.SameLinks (carry c m).2 := by
  have htouched := touched_carry c m
  by_cases hgoals : c.subject = .goals
  · -- a call about goals leaves key results and comments as they are
    obtain ⟨hkeyResults, hcomments⟩ :=
      htouched.keyResults_comments (by simp [hgoals]) (by simp [hgoals])
    refine ⟨fun i => ?_, fun i => ?_, hcomments⟩
    · cases c with
      | updateGoal id draft => exact map_get?_updateGoal (fun _ _ => rfl) id draft i
      | replaceShares plan => exact map_get?_replaceShares unowned_period plan i
      | removeShare goal team => rfl
      | promote share => exact map_get?_promote unowned_period share i
      | setTeamWeight id team weight => exact map_get?_setTeamWeight unowned_period id team weight i
      | move item direction =>
        cases item with
        | goal id asTeam => exact map_get?_moveGoal unowned_period id asTeam direction i
        | keyResult id => cases hgoals
        | period id => cases hgoals
      | createGoal team period draft => cases hc
      | _ => cases hgoals
    · rw [hkeyResults]
  · by_cases hkeyResults : c.subject = .keyResults
    · cases c with
      | updateKeyResult id draft => exact (m.replaced_updateKeyResult id draft).sameLinks
      | setWeights goal weights => exact sameLinks_setWeights goal weights
      | recordProgress id update => exact (m.replaced_recordProgress id update).sameLinks
      | addCheckpoint id draft => exact (m.replaced_addCheckpoint id draft).sameLinks
      | move item direction =>
        cases item with
        | keyResult id => exact sameLinks_moveKeyResult id direction
        | goal id asTeam => cases hkeyResults
        | period id => cases hkeyResults
      | createKeyResult goal draft => cases hc
      | deleteKeyResult id => cases hc
      | addComment target text => cases hc
      | _ => cases hkeyResults
    · -- any other call but the removal of a goal leaves all three tables as they are
      have hwhole : c.subject ≠ .wholeGoal := by
        cases c with
        | deleteGoal id => cases hc
        | move item direction => cases item <;> simp [Call.subject]
        | _ => simp [Call.subject]
      obtain ⟨hkeys, hcomments⟩ := htouched.keyResults_comments hkeyResults hwhole
      refine ⟨fun i => ?_, fun i => ?_, hcomments⟩
      · rw [(htouched.goals_shares hgoals hwhole).1]
      · rw [hkeys]

end Memory

end Objectives
