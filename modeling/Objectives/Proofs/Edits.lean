/- # What a call makes of a goal and of a share

Goals and shares keep weights and keys of their own.  A call gives a goal the weight that it names, or
leaves it; the key of a goal is changed by moves and with the owner.  The key of a share is given with
the share, as a copy of the key that the goal has, and never changed.

Main definitions:

* `Memory.weighs` — the weight that a call gives a goal, if any;
* `Call.movesGoal` — whether a call moves a goal among others;
* `Memory.Follows` — a goal after a call beside the one before.

Main results:

* `Memory.follows_carry` — **a goal after a call follows from the one before**;
* `Memory.share_carry` — **a share after a call has the key of the one before, or is new and has the
  key of its goal**.
-/

import Objectives.Proofs.Links
import Objectives.Proofs.Ledger
import Objectives.Proofs.OrderKeys

set_option relaxedAutoImplicit false
set_option autoImplicit false

namespace Objectives

/-- Whether a call moves a goal among others. -/
def Call.movesGoal : Call → Bool
  | move (.goal ..) _ => true
  | _ => false

namespace Memory

/-! ### Goals -/

/-- The weight that a call gives a goal that is there.  What it does to the weight of a team is about
the goal only if that team owns it. -/
def weighs (m : Memory) (id : GoalId) : Call → Option Weight
  | .updateGoal i draft => if i = id then some draft.weight else none
  | .replaceShares plan => if plan.goal = id then some plan.owner.weight else none
  | .promote share => if share.goal = id then some share.weight else none
  | .setTeamWeight i team weight =>
    if i = id ∧ ((m.goals.get? id).any fun g => g.isOwnedBy team) then some weight else none
  | _ => none

/-- A goal after a call beside the one before: the same goal, with the weight that the call gives it, or
else the one that it had, and with another key only if it has been moved or has another owner. -/
structure Follows (m : Memory) (c : Call) (id : GoalId) (g g' : Goal) : Prop where
  id_eq : g'.id = g.id
  weight_eq : g'.weight = (m.weighs id c).getD g.weight
  sortOrder_eq : g'.sortOrder = g.sortOrder ∨ g'.team ≠ g.team ∨ c.movesGoal = true

section Goals

variable {m : Memory} {c : Call} {id : GoalId} {g' : Goal}

theorem Follows.refl (h : m.weighs id c = none) (g : Goal) : m.Follows c id g g :=
  ⟨rfl, by rw [h, Option.getD_none], .inl rfl⟩

/-- The goals are those of before, and none of them gets a weight. -/
theorem follows_same (h : m.goals.get? id = some g') (hw : m.weighs id c = none) :
    ∃ g, m.goals.get? id = some g ∧ m.Follows c id g g' :=
  ⟨g', h, .refl hw g'⟩

/-- One goal is put in the place of another, and no other gets a weight. -/
theorem follows_insert {i : GoalId} {old new : Goal} (h : (m.goals.insert i new).get? id = some g')
    (hget : m.goals.get? i = some old) (hnew : m.Follows c i old new)
    (hother : i ≠ id → m.weighs id c = none) :
    ∃ g, m.goals.get? id = some g ∧ m.Follows c id g g' := by
  rw [Table.get?_insert] at h
  split at h
  · rename_i hi
    rw [Option.some_inj] at h
    subst hi h
    exact ⟨old, hget, hnew⟩
  · rename_i hi
    exact follows_same h (hother hi)

theorem follows_updateGoal {i : GoalId} {draft : GoalDraft}
    (h : (m.updateGoal i draft).2.goals.get? id = some g') :
    ∃ g, m.goals.get? id = some g ∧ m.Follows (.updateGoal i draft) id g g' := by
  unfold updateGoal at h
  split at h
  · rename_i hnone
    refine follows_same h (if_neg ?_)
    rintro rfl
    rw [hnone] at h
    cases h
  · rename_i old hget
    refine follows_insert h hget ⟨rfl, ?_, .inl rfl⟩ fun hi => if_neg hi
    rw [weighs, if_pos rfl]
    rfl

/-- The owner of a goal and the weight of the owner are set. -/
theorem follows_setOwner {i : GoalId} {owner : ShareTarget}
    (hw : ∀ id, m.weighs id c = if i = id then some owner.weight else none)
    (h : (m.setOwner i owner).2.goals.get? id = some g') :
    ∃ g, m.goals.get? id = some g ∧ m.Follows c id g g' := by
  rcases m.setOwner_cases i owner with ⟨hnone, hset⟩ | ⟨old, new, order, hget, hnew, horder, hset⟩
  · rw [hset] at h
    refine follows_same h ((hw id).trans (if_neg ?_))
    rintro rfl
    rw [hnone] at h
    cases h
  · rw [hset] at h
    subst hnew
    refine follows_insert h hget ⟨rfl, ?_, ?_⟩ fun hi => (hw id).trans (if_neg hi)
    · rw [hw, if_pos rfl]
      rfl
    · by_cases howner : old.team = owner.team
      · exact .inl (horder.trans (if_pos howner))
      · exact .inr (.inl (Ne.symm howner))

theorem follows_setTeamWeight {i : GoalId} {team : TeamId} {weight : Weight}
    (h : (m.setTeamWeight i team weight).2.goals.get? id = some g') :
    ∃ g, m.goals.get? id = some g ∧ m.Follows (.setTeamWeight i team weight) id g g' := by
  unfold setTeamWeight at h
  split at h
  · rename_i old hget
    split at h
    · rename_i howner
      refine follows_insert h hget ⟨rfl, ?_, .inl rfl⟩ fun hi => if_neg fun hand => hi hand.1
      rw [weighs, if_pos ⟨rfl, by simpa [hget] using howner⟩]
      rfl
    · rename_i howner
      rw [setShareWeight_goals] at h
      refine follows_same h (if_neg ?_)
      rintro ⟨rfl, hany⟩
      rw [hget] at hany
      exact howner hany
  · rename_i hnone
    rw [setShareWeight_goals] at h
    refine follows_same h (if_neg ?_)
    rintro ⟨rfl, hany⟩
    rw [hnone] at hany
    cases hany

theorem follows_move {i : GoalId} {asTeam : Option TeamId} {direction : Direction}
    (h : (m.move (.goal i asTeam) direction).2.goals.get? id = some g') :
    ∃ g, m.goals.get? id = some g ∧ m.Follows (.move (.goal i asTeam) direction) id g g' := by
  unfold move at h
  simp only at h
  split at h
  · exact follows_same h rfl
  · split at h
    · exact follows_same h rfl
    · -- keys are set, and nothing else of a goal
      have hfields (changes : List (Int × Int)) :
          ((setOrders Sequenced.setOrder m.goals changes).get? id).map (fun g => (g.id, g.weight)) =
            (m.goals.get? id).map fun g => (g.id, g.weight) := by
        refine map_get?_setOrders ?_ m.goals changes id
        intro order g
        rfl
      obtain ⟨g, hg, hsame⟩ := Option.map_eq_some_iff.1
        ((hfields _).symm.trans (congrArg (Option.map fun g : Goal => (g.id, g.weight)) h))
      rw [Prod.mk.injEq] at hsame
      exact ⟨g, hg, hsame.1.symm, hsame.2.symm, .inr (.inr rfl)⟩

/-- **A goal after a call follows from the one before**: under an identifier that has been given no
goal is new. -/
theorem follows_carry (hgiven : id ≤ m.lastId) (h : (carry c m).2.goals.get? id = some g') :
    ∃ g, m.goals.get? id = some g ∧ m.Follows c id g g' := by
  by_cases hs : c.subject = .goals ∨ c.subject = .wholeGoal
  · cases c with
    | createGoal team period draft =>
      have hne : m.lastId + 1 ≠ id := Int.ne_of_gt (Int.lt_add_one_of_le hgiven)
      have hold : m.goals.get? id = some g' := (Table.get?_insert_of_ne _ _ hne).symm.trans h
      exact follows_same hold rfl
    | updateGoal i draft => exact follows_updateGoal h
    | deleteGoal i =>
      simp only [carry, deleteGoal] at h
      split at h
      · rw [Table.get?_erase] at h
        split at h
        · cases h
        · exact follows_same h rfl
      · exact follows_same h rfl
    | replaceShares plan =>
      simp only [carry, replaceShares_goals] at h
      exact follows_setOwner (fun _ => rfl) h
    | removeShare goal team => exact follows_same h rfl
    | promote share =>
      simp only [carry, promote_goals] at h
      exact follows_setOwner (fun _ => rfl) h
    | setTeamWeight i team weight => exact follows_setTeamWeight h
    | move item direction =>
      cases item with
      | goal i asTeam => exact follows_move h
      | keyResult i => rcases hs with hs | hs <;> cases hs
      | period i => rcases hs with hs | hs <;> cases hs
    | _ => rcases hs with hs | hs <;> cases hs
  · -- any other call leaves the goals as they are
    rw [not_or] at hs
    rw [((touched_carry c m).goals_shares hs.1 hs.2).1] at h
    refine follows_same h ?_
    cases c with
    | move item direction => rfl
    | _ => first | rfl | exact absurd rfl hs.1

end Goals

/-! ### Shares -/

section Shares

variable {m : Memory} {goal : GoalId} {order : Int}

/-- A share that is set has the key that it had, or is new and has the key of the goal. -/
theorem get?_setShare {shares : Table (GoalId × TeamId) Share} {target : ShareTarget}
    {key : GoalId × TeamId} {row' : Share}
    (h : (setShare goal order shares target).get? key = some row') :
    (∃ row, shares.get? key = some row ∧ row'.sortOrder = row.sortOrder) ∨
      (key = (goal, target.team) ∧ shares.get? key = none ∧ row'.sortOrder = order) := by
  by_cases hkey : key = (goal, target.team)
  · subst hkey
    unfold setShare at h
    simp only at h
    split at h
    · rename_i row hget
      rw [Table.get?_insert_self, Option.some_inj] at h
      exact .inl ⟨row, hget, by rw [← h]⟩
    · rename_i hnone
      rw [Table.get?_insert_self, Option.some_inj] at h
      exact .inr ⟨rfl, hnone, by rw [← h]⟩
  · rw [get?_setShare_of_ne hkey] at h
    exact .inl ⟨row', h, rfl⟩

/-- No share is lost when one is set. -/
theorem get?_eq_none_of_setShare {shares : Table (GoalId × TeamId) Share} {target : ShareTarget}
    {key : GoalId × TeamId} (h : (setShare goal order shares target).get? key = none) :
    shares.get? key = none := by
  by_cases hkey : key = (goal, target.team)
  · subst hkey
    unfold setShare at h
    simp only at h
    split at h
    · rw [Table.get?_insert_self] at h
      cases h
    · rw [Table.get?_insert_self] at h
      cases h
  · rwa [get?_setShare_of_ne hkey] at h

/-- So with several of them. -/
theorem get?_foldl_setShare {targets : List ShareTarget}
    {shares : Table (GoalId × TeamId) Share} {key : GoalId × TeamId} {row' : Share}
    (h : (targets.foldl (setShare goal order) shares).get? key = some row') :
    (∃ row, shares.get? key = some row ∧ row'.sortOrder = row.sortOrder) ∨
      (key.1 = goal ∧ (∃ target ∈ targets, target.team = key.2) ∧ shares.get? key = none ∧
        row'.sortOrder = order) := by
  induction targets generalizing shares with
  | nil => exact .inl ⟨row', h, rfl⟩
  | cons target rest ih =>
    rcases ih h with ⟨row, hrow, hkey⟩ | ⟨hgoal, ⟨t, ht, hteam⟩, hnone, hnew⟩
    · rcases get?_setShare hrow with ⟨old, hold, hsame⟩ | ⟨rfl, hnone, hnew⟩
      · exact .inl ⟨old, hold, hkey.trans hsame⟩
      · exact .inr ⟨rfl, ⟨target, List.mem_cons_self .., rfl⟩, hnone, hkey.trans hnew⟩
    · refine .inr ⟨hgoal, ⟨t, List.mem_cons_of_mem _ ht, hteam⟩, ?_, hnew⟩
      exact get?_eq_none_of_setShare hnone

/-- A share of a goal that is new has the key that the goal has by then. -/
theorem share_replaceShares {plan : SharePlan} {team : TeamId} {id : GoalId} {row' : Share}
    (h : (m.replaceShares plan).2.shares.get? (id, team) = some row') :
    (∃ row, m.shares.get? (id, team) = some row ∧ row'.sortOrder = row.sortOrder) ∨
      (m.shares.get? (id, team) = none ∧
        ∃ g', (m.replaceShares plan).2.goals.get? id = some g' ∧ row'.sortOrder = g'.sortOrder) := by
  rw [replaceShares_goals]
  unfold replaceShares at h
  rcases m.setOwner_cases plan.goal plan.owner with
    ⟨-, hset⟩ | ⟨goal, goal', order, hget, hgoal', -, hset⟩
  · rw [hset] at h
    exact .inl ⟨row', h, rfl⟩
  · rw [hset] at h ⊢
    rcases get?_foldl_setShare h with ⟨row, hrow, hsame⟩ | ⟨rfl, ⟨target, ht, hteam⟩, hnone, hnew⟩
    · rw [Table.get?_filter, Option.filter_eq_some_iff] at hrow
      exact .inl ⟨row, hrow.1, hsame⟩
    · -- the shares of teams that the plan names are kept
      have hnamed : plan.shares.any (fun s => s.team == team) = true :=
        List.any_eq_true.2 ⟨target, ht, by simpa using hteam⟩
      rw [Table.get?_filter, Option.filter_eq_none_iff] at hnone
      refine .inr ⟨?_, goal', Table.get?_insert_self .., hnew⟩
      cases hold : m.shares.get? (plan.goal, team) with
      | none => rfl
      | some row =>
        have := hnone row hold
        simp [hnamed] at this

/-- A share gets another weight. -/
theorem share_setShareWeight {i id : GoalId} {t team : TeamId} {weight : Weight} {row' : Share}
    (h : (m.setShareWeight i t weight).2.shares.get? (id, team) = some row') :
    ∃ row, m.shares.get? (id, team) = some row ∧ row'.sortOrder = row.sortOrder := by
  unfold setShareWeight at h
  split at h
  · rename_i row hget
    rw [Table.get?_insert] at h
    split at h
    · rename_i hkey
      cases h
      exact ⟨row, hkey ▸ hget, rfl⟩
    · exact ⟨row', h, rfl⟩
  · exact ⟨row', h, rfl⟩

/-- **A share after a call has the key of the one before, or is new and has the key of its goal.** -/
theorem share_carry {c : Call} {id : GoalId} {team : TeamId} {row' : Share}
    (h : (carry c m).2.shares.get? (id, team) = some row') :
    (∃ row, m.shares.get? (id, team) = some row ∧ row'.sortOrder = row.sortOrder) ∨
      (m.shares.get? (id, team) = none ∧
        ∃ g', (carry c m).2.goals.get? id = some g' ∧ row'.sortOrder = g'.sortOrder) := by
  by_cases hs : c.subject = .goals ∨ c.subject = .wholeGoal
  · cases c with
    | replaceShares plan => exact share_replaceShares h
    | setTeamWeight i t weight =>
      simp only [carry, setTeamWeight] at h
      split at h
      · split at h
        · exact .inl ⟨row', h, rfl⟩
        · exact .inl (share_setShareWeight h)
      · exact .inl (share_setShareWeight h)
    -- the others take shares away at most
    | createGoal team period draft => exact .inl ⟨row', h, rfl⟩
    | updateGoal i draft =>
      simp only [carry, updateGoal] at h
      split at h <;> exact .inl ⟨row', h, rfl⟩
    | deleteGoal i =>
      simp only [carry, deleteGoal] at h
      split at h
      · rw [Table.get?_filter, Option.filter_eq_some_iff] at h
        exact .inl ⟨row', h.1, rfl⟩
      · exact .inl ⟨row', h, rfl⟩
    | removeShare goal t =>
      simp only [carry, removeShare, Table.get?_erase] at h
      split at h
      · cases h
      · exact .inl ⟨row', h, rfl⟩
    | promote share =>
      simp only [carry, promote] at h
      rcases m.setOwner_cases share.goal ⟨share.team, share.weight⟩ with
        ⟨-, hset⟩ | ⟨goal, goal', order, -, -, -, hset⟩
      · rw [hset] at h
        exact .inl ⟨row', h, rfl⟩
      · rw [hset] at h
        simp only [removeShare, Table.get?_erase] at h
        split at h
        · cases h
        · exact .inl ⟨row', h, rfl⟩
    | move item direction =>
      cases item with
      | goal i asTeam =>
        simp only [carry, move] at h
        split at h
        · exact .inl ⟨row', h, rfl⟩
        · split at h <;> exact .inl ⟨row', h, rfl⟩
      | keyResult i => rcases hs with hs | hs <;> cases hs
      | period i => rcases hs with hs | hs <;> cases hs
    | _ => rcases hs with hs | hs <;> cases hs
  · rw [not_or] at hs
    rw [((touched_carry c m).goals_shares hs.1 hs.2).2] at h
    exact .inl ⟨row', h, rfl⟩

end Shares

end Memory

end Objectives
