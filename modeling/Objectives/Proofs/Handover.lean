/- # Deleting a goal team by team

A goal that several teams carry can be deleted by each of them.  Depending on what the others have
done before, a team gives up its share, hands the goal over to the first team with a share, or removes
the goal.  In whatever order the teams come, the goal stays with those that have not come yet, at the
weights that it has for them, and the last one removes it.

Main definitions:

* `Memory.statusOf` — the status of a team in a period;
* `Memory.deletedBy` — the store after some teams have deleted a goal, one after the other;
* `Memory.CarriedBy` — a store in which a goal is left to some of the teams that carried it;
* `Memory.Cleared` — a store that has lost a goal with all that was on it.

Main results:

* `Memory.run_delete_share`, `Memory.run_delete_heir`, `Memory.run_delete_last` — the three things
  that the deletion of a goal on behalf of a team can be;
* `Memory.CarriedBy.giveUp`, `Memory.CarriedBy.handOver`, `Memory.CarriedBy.clear` — what each of
  them leaves;
* `Memory.deleted_team_by_team` — **whatever the order in which the teams delete a goal, it is left to
  those that have not, and goes with the last**.
-/

import Objectives.Proofs.Refusal
import Objectives.Proofs.Rollup

set_option relaxedAutoImplicit false
set_option autoImplicit false

namespace Objectives.Memory

/-! ### The deletion for one team -/

/-- The status of a team in a period. -/
def statusOf (m : Memory) (team : TeamId) (period : PeriodId) : Status :=
  (m.statuses.get? (team, period)).getD .noGoals

/-- The listed statuses of a period are those that are stored. -/
theorem get?_listStatuses (m : Memory) (team : TeamId) (period : PeriodId) :
    (m.listStatuses period).get? team = m.statuses.get? (team, period) := by
  have distinct : (((m.statuses.entries.filter fun e => e.1.2 == period).map fun e =>
      (e.1.1, e.2)).map Prod.fst).Nodup := by
    rw [List.map_map]
    refine (m.statuses.nodup_entries.filter _).map_on ?_
    intro a ha b hb hteam
    have ha' := List.mem_filter.1 ha
    have hb' := List.mem_filter.1 hb
    have hperiod : a.1.2 = b.1.2 := (beq_iff_eq.1 ha'.2).trans (beq_iff_eq.1 hb'.2).symm
    exact List.inj_on_of_nodup_map m.statuses.nodup_keys ha'.1 hb'.1 (Prod.ext hteam hperiod)
  apply Option.ext
  intro status
  rw [listStatuses, Table.get?_ofList_eq_some_iff distinct, Table.get?_eq_some_iff, List.mem_map]
  constructor
  · rintro ⟨e, he, heq⟩
    obtain ⟨hmem, hperiod⟩ := List.mem_filter.1 he
    obtain ⟨⟨t, p⟩, s⟩ := e
    cases heq
    exact beq_iff_eq.1 hperiod ▸ hmem
  · intro hmem
    exact ⟨((team, period), status), List.mem_filter.2 ⟨hmem, by simp⟩, rfl⟩

section Deletion

open Program (Answers)

variable {m : Memory} {id : GoalId} {g : Goal} {team : TeamId}

theorem requireGoal_answers (hget : m.goals.get? id = some g) : (requireGoal id).Answers m g := by
  refine Answers.bind (.ask rfl) ?_
  rw [hget]
  exact .done g

theorem requireOpen_answers {period : PeriodId} (hopen : (m.statusOf team period).isClosed = false)
    (action : Action) : (requireOpen team period action).Answers m (m.statusOf team period) := by
  refine Answers.bind (.ask rfl) ?_
  show (if (m.statusOf team period).isClosed then _ else _ : Program Status).Answers m _
  rw [hopen]
  exact .done _

/-- A team that does not own the goal gives up its share. -/
theorem run_delete_share (h : m.Ledger) (hget : m.goals.get? id = some g)
    (hopen : (m.statusOf team g.period).isClosed = false) (howner : g.team ≠ team) :
    (Goals.delete id (some team)).run carry m = (.ok .shareRemoved, m.removeShare id team) := by
  obtain rfl := h.goalKeyed id g hget
  have hnot : ¬ g.isOwnedBy ((some team).getD g.team) = true := by simpa [Goal.isOwnedBy] using howner
  refine ((requireGoal_answers hget).run_bind _).trans ?_
  refine ((requireOpen_answers hopen .deleteGoal).run_bind _).trans ?_
  rw [if_neg hnot]
  rfl

/-- A promotion of a share makes its team the owner at the weight of the share, and removes the share.
-/
theorem exists_promote_eq {share : Share} (hget : m.goals.get? share.goal = some g) :
    ∃ order, m.promote share = (.ok (), { m with
      goals := m.goals.insert share.goal
        { g with team := share.team, weight := share.weight, sortOrder := order }
      shares := m.shares.erase (share.goal, share.team) }) := by
  obtain ⟨order, -, hset⟩ := exists_setOwner_eq hget ⟨share.team, share.weight⟩
  rw [promote, hset]
  exact ⟨order, rfl⟩

/-- The first of the listed shares is stored. -/
theorem get?_heir (h : m.Ledger) {heir : Share} {rest : List Share}
    (hshares : m.listShares id = heir :: rest) : m.shares.get? (id, heir.team) = some heir :=
  (mem_listShares h).1 (by simp [hshares])

theorem goal_of_heir (h : m.Ledger) {heir : Share} {rest : List Share}
    (hshares : m.listShares id = heir :: rest) : heir.goal = id :=
  congrArg Prod.fst (h.shareKeyed _ heir (get?_heir h hshares))

/-- The owner hands the goal over to the first team with a share. -/
theorem run_delete_heir (h : m.Ledger) (hget : m.goals.get? id = some g)
    (hopen : (m.statusOf g.team g.period).isClosed = false) {heir : Share} {rest : List Share}
    (hshares : m.listShares id = heir :: rest) :
    (Goals.delete id (some g.team)).run carry m =
      (.ok (.ownershipTransferred heir.team), (m.promote heir).2) := by
  obtain rfl := h.goalKeyed id g hget
  have howner : g.isOwnedBy ((some g.team).getD g.team) = true := by simp [Goal.isOwnedBy]
  obtain ⟨order, hpromote⟩ := exists_promote_eq (goal_of_heir h hshares ▸ hget)
  refine ((requireGoal_answers hget).run_bind _).trans ?_
  refine ((requireOpen_answers hopen .deleteGoal).run_bind _).trans ?_
  rw [if_pos howner]
  have hask : (Program.ask (.shares g.id)).Answers m (heir :: rest) := .ask (hshares ▸ rfl)
  refine (hask.run_bind _).trans ?_
  show ((Program.ask (.promote heir)).bind _).run carry m = _
  rw [Program.run_bind, run_ask, carry, hpromote]
  rfl

/-- The owner removes the goal that no other team carries. -/
theorem run_delete_last (h : m.Ledger) (hget : m.goals.get? id = some g)
    (hopen : (m.statusOf g.team g.period).isClosed = false) (hshares : m.listShares id = []) :
    (Goals.delete id (some g.team)).run carry m = (.ok .deleted, (m.deleteGoal id).2) := by
  obtain rfl := h.goalKeyed id g hget
  have howner : g.isOwnedBy ((some g.team).getD g.team) = true := by simp [Goal.isOwnedBy]
  refine ((requireGoal_answers hget).run_bind _).trans ?_
  refine ((requireOpen_answers hopen .deleteGoal).run_bind _).trans ?_
  rw [if_pos howner]
  have hask : (Program.ask (.shares g.id)).Answers m [] := .ask (hshares ▸ rfl)
  refine (hask.run_bind _).trans ?_
  show ((Program.ask (.deleteGoal g.id)).bind _).run carry m = _
  rw [Program.run_bind, run_ask, carry, deleteGoal, if_pos (Table.contains_of_get? hget)]
  rfl

end Deletion

/-! ### What the deletions leave -/

/-- The store after some teams have deleted a goal on their own behalf, one after the other. -/
def deletedBy (m : Memory) (id : GoalId) (teams : List TeamId) : Memory :=
  teams.foldl (fun m team => ((Command.deleteGoal id (some team)).program.run carry m).2) m

/-- A goal is left to some of the teams that carried it, as it was but for its owner. -/
structure CarriedBy (m : Memory) (id : GoalId) (g : Goal) (left : List TeamId) (m' : Memory) :
    Prop where
  /-- The goal exists. -/
  goal : ∃ team weight sortOrder, m'.goals.get? id = some { g with team, weight, sortOrder }
  /-- Exactly these teams own it or share in it, none of them twice. -/
  carriers : ∀ g', m'.goals.get? id = some g' →
    (g'.team :: (m'.listShares id).map Share.team).Perm left
  oneOwner : ∀ g', m'.goals.get? id = some g' → left.countP g'.isOwnedBy = 1
  /-- Each of them has the goal at the weight that it had. -/
  weights : ∀ g', m'.goals.get? id = some g' → ∀ team ∈ left,
    effectiveWeight g' team (m'.listShares id) = effectiveWeight g team (m.listShares id)
  /-- The shares that are left are as they were. -/
  shares : ∀ team s, m'.shares.get? (id, team) = some s → m.shares.get? (id, team) = some s
  otherGoals : ∀ i, i ≠ id → m'.goals.get? i = m.goals.get? i
  otherShares : ∀ i team, i ≠ id → m'.shares.get? (i, team) = m.shares.get? (i, team)
  /-- Nothing but goals and shares has changed: no key result, and no comment. -/
  others : m' = { m with goals := m'.goals, shares := m'.shares }

/-- A goal has gone with its shares, its key results and all comments on either, and nothing else
has. -/
structure Cleared (m : Memory) (id : GoalId) (m' : Memory) : Prop where
  goal : m'.goals.get? id = none
  shares : ∀ team, m'.shares.get? (id, team) = none
  keyResults : ∀ i k, m'.keyResults.get? i = some k ↔ m.keyResults.get? i = some k ∧ k.goal ≠ id
  comments : ∀ i c, m'.comments.get? i = some c ↔ m.comments.get? i = some c ∧
    c.target ≠ .goal id ∧ ∀ i' k, m.keyResults.get? i' = some k → k.goal = id →
      c.target ≠ .keyResult i'
  otherGoals : ∀ i, i ≠ id → m'.goals.get? i = m.goals.get? i
  otherShares : ∀ i team, i ≠ id → m'.shares.get? (i, team) = m.shares.get? (i, team)
  others : m' = { m with
    goals := m'.goals, shares := m'.shares, keyResults := m'.keyResults, comments := m'.comments }

/-- A comment is on a goal if that or a key result of it is the target. -/
theorem isCommentOn_iff {m : Memory} {id : GoalId} {c : Comment} :
    m.isCommentOn id c = true ↔ c.target = .goal id ∨
      ∃ i k, m.keyResults.get? i = some k ∧ k.goal = id ∧ c.target = .keyResult i := by
  cases htarget : c.target with
  | goal i => simp [isCommentOn, htarget]
  | keyResult i =>
    cases hget : m.keyResults.get? i with
    | none =>
      simp only [isCommentOn, htarget, hget, Bool.false_eq_true, reduceCtorEq,
        CommentTarget.keyResult.injEq, false_or, false_iff]
      rintro ⟨i', k, hk, -, rfl⟩
      rw [hget] at hk
      cases hk
    | some k =>
      simp only [isCommentOn, htarget, hget, beq_iff_eq, reduceCtorEq,
        CommentTarget.keyResult.injEq, false_or]
      constructor
      · intro hk
        exact ⟨i, k, hget, hk, rfl⟩
      · rintro ⟨i', k', hk', hgoal, rfl⟩
        rw [hget, Option.some_inj] at hk'
        rw [hk', hgoal]

/-! ### The steps -/

namespace CarriedBy

variable {m m' m'' : Memory} {id : GoalId} {g g' : Goal} {team : TeamId} {left rest : List TeamId}

theorem mem_left_iff (h : m.CarriedBy id g left m') (hm' : m'.Ledger)
    (hget : m'.goals.get? id = some g') :
    team ∈ left ↔ team = g'.team ∨ m'.shares.contains (id, team) = true := by
  rw [← (h.carriers g' hget).mem_iff, List.mem_cons, mem_map_listShares hm']

theorem nodup_left (h : m.CarriedBy id g left m') (hm' : m'.Ledger) : left.Nodup := by
  obtain ⟨_, _, _, hget⟩ := h.goal
  exact (h.carriers _ hget).nodup_iff.1 (nodup_carriers hm' hget)

/-- Of a goal and its carriers everything follows from the owner, the shares and the weights. -/
theorem of_carriers (hm' : m'.Ledger) (hget : m'.goals.get? id = some g')
    (hgoal : ∃ team weight sortOrder, g' = { g with team, weight, sortOrder }) (hleft : left.Nodup)
    (hmem : ∀ t, t ∈ left ↔ t = g'.team ∨ m'.shares.contains (id, t) = true)
    (hweights : ∀ t ∈ left, ((m'.shares.get? (id, t)).map Share.weight).getD g'.weight =
      effectiveWeight g t (m.listShares id))
    (hshares : ∀ t s, m'.shares.get? (id, t) = some s → m.shares.get? (id, t) = some s)
    (otherGoals : ∀ i, i ≠ id → m'.goals.get? i = m.goals.get? i)
    (otherShares : ∀ i t, i ≠ id → m'.shares.get? (i, t) = m.shares.get? (i, t))
    (others : m' = { m with goals := m'.goals, shares := m'.shares }) :
    m.CarriedBy id g left m' := by
  have hnodup := nodup_carriers hm' hget
  have hperm : (g'.team :: (m'.listShares id).map Share.team).Perm left := by
    refine (List.perm_ext_iff_of_nodup hnodup hleft).2 fun t => ?_
    rw [hmem, List.mem_cons, mem_map_listShares hm']
  have hsame : ∀ b, m'.goals.get? id = some b → b = g' := by
    intro b hb
    rw [hget, Option.some_inj] at hb
    exact hb.symm
  constructor
  case goal =>
    obtain ⟨team, weight, sortOrder, rfl⟩ := hgoal
    exact ⟨team, weight, sortOrder, hget⟩
  case carriers =>
    intro b hb
    rw [hsame b hb]
    exact hperm
  case oneOwner =>
    intro b hb
    rw [hsame b hb, ← hperm.countP_eq]
    have hcount := List.count_eq_one_of_mem hnodup (List.mem_cons_self ..)
    rw [← hcount, List.count]
    refine List.countP_congr fun t _ => ?_
    rw [Goal.isOwnedBy, beq_iff_eq, beq_iff_eq, eq_comm]
  case weights =>
    intro b hb t ht
    rw [hsame b hb, effectiveWeight_listShares hm' hget]
    exact hweights t ht
  case shares => exact hshares
  case otherGoals => exact otherGoals
  case otherShares => exact otherShares
  case others => exact others

/-- Before any team has deleted the goal it is left to all that carry it. -/
theorem start (hm : m.Ledger) (hget : m.goals.get? id = some g)
    (hleft : left.Perm (g.team :: (m.listShares id).map Share.team)) :
    m.CarriedBy id g left m := by
  refine of_carriers hm hget ⟨g.team, g.weight, g.sortOrder, rfl⟩
    (hleft.nodup_iff.2 (nodup_carriers hm hget)) ?_ ?_ (fun _ _ hs => hs) (fun _ _ => rfl)
    (fun _ _ _ => rfl) rfl
  · intro t
    rw [hleft.mem_iff, List.mem_cons, mem_map_listShares hm]
  · intro t _
    exact (effectiveWeight_listShares hm hget t).symm

/-- The weight of a team that is left is that of its share, or else that of the goal. -/
theorem weight_eq (h : m.CarriedBy id g left m') (hm' : m'.Ledger)
    (hget : m'.goals.get? id = some g') (hteam : team ∈ left) :
    ((m'.shares.get? (id, team)).map Share.weight).getD g'.weight =
      effectiveWeight g team (m.listShares id) := by
  rw [← effectiveWeight_listShares hm' hget, h.weights g' hget team hteam]

/-- The owner has the goal at the weight that stands with it. -/
theorem owner_weight (h : m.CarriedBy id g left m') (hm' : m'.Ledger)
    (hget : m'.goals.get? id = some g') :
    g'.weight = effectiveWeight g g'.team (m.listShares id) := by
  rw [← h.weight_eq hm' hget ((h.mem_left_iff hm' hget).2 (.inl rfl)), hm'.owner_unshared hget]
  rfl

/-- One share less: the goal is left to its owner and to the teams with another share. -/
theorem dropShare (h : m.CarriedBy id g left m') (hm' : m'.Ledger)
    (hget : m'.goals.get? id = some g') (hm'' : m''.Ledger) {gone : TeamId}
    (hchange : m'' = { m' with goals := m''.goals, shares := m'.shares.erase (id, gone) })
    (otherGoals : ∀ i, i ≠ id → m''.goals.get? i = m'.goals.get? i) {g'' : Goal}
    (hget'' : m''.goals.get? id = some g'')
    (hgoal : ∃ team weight sortOrder, g'' = { g with team, weight, sortOrder })
    (hweight : g''.weight = effectiveWeight g g''.team (m.listShares id)) (hrest : rest.Nodup)
    (hmem : ∀ t, t ∈ rest ↔ t = g''.team ∨ t ≠ gone ∧ m'.shares.contains (id, t) = true) :
    m.CarriedBy id g rest m'' := by
  have hshares : m''.shares = m'.shares.erase (id, gone) := congrArg Memory.shares hchange
  have hkept : ∀ t, t ≠ gone → m''.shares.get? (id, t) = m'.shares.get? (id, t) := by
    intro t ht
    rw [hshares]
    exact Table.get?_erase_of_ne _ (by simp [ht])
  have hgone : m''.shares.get? (id, gone) = none := by
    rw [hshares]
    exact Table.get?_erase_self ..
  refine of_carriers hm'' hget'' hgoal hrest ?_ ?_ ?_ ?_ ?_ ?_
  · intro t
    rw [hmem]
    by_cases ht : t = gone
    · simp [ht, Table.contains, hgone]
    · simp [ht, Table.contains, hkept]
  · intro t ht
    rcases (hmem t).1 ht with rfl | ⟨hne, hshare⟩
    · rw [hm''.owner_unshared hget'']
      exact hweight
    · have hold := h.weight_eq hm' hget ((h.mem_left_iff hm' hget).2 (.inr hshare))
      obtain ⟨s, hs⟩ := Table.contains_iff.1 hshare
      rw [hs] at hold
      rw [hkept t hne, hs]
      exact hold
  · intro t s hs
    by_cases ht : t = gone
    · rw [ht, hgone] at hs
      cases hs
    · rw [hkept t ht] at hs
      exact h.shares t s hs
  · intro i hi
    rw [otherGoals i hi, h.otherGoals i hi]
  · intro i t hi
    rw [← h.otherShares i t hi, hshares]
    exact Table.get?_erase_of_ne _ (by simp [hi])
  · rw [hchange, h.others]

/-- A team gives up its share: the goal is left to the others. -/
theorem giveUp (h : m.CarriedBy id g (team :: rest) m') (hm' : m'.Ledger)
    (hget : m'.goals.get? id = some g') (howner : g'.team ≠ team) :
    m.CarriedBy id g rest (m'.removeShare id team) := by
  obtain ⟨hteam, hrest⟩ := List.nodup_cons.1 (h.nodup_left hm')
  have hgoal : ∃ team weight sortOrder, g' = { g with team, weight, sortOrder } := by
    obtain ⟨t, w, k, ht⟩ := h.goal
    rw [hget, Option.some_inj] at ht
    exact ⟨t, w, k, ht⟩
  refine h.dropShare hm' hget (hm'.removeShare id team) rfl (fun _ _ => rfl) hget hgoal
    (h.owner_weight hm' hget) hrest ?_
  intro t
  have hmem : t ∈ team :: rest ↔ _ := h.mem_left_iff hm' hget
  rw [List.mem_cons] at hmem
  by_cases ht : t = team
  · subst ht
    simp [hteam, Ne.symm howner]
  · simpa [ht] using hmem

/-- The owner hands the goal over: it is left to the others, of which the first with a share owns it.
-/
theorem handOver (h : m.CarriedBy id g (g'.team :: rest) m') (hm' : m'.Ledger)
    (hget : m'.goals.get? id = some g') {heir : Share} {others : List Share}
    (hshares : m'.listShares id = heir :: others) :
    m.CarriedBy id g rest (m'.promote heir).2 := by
  obtain ⟨hteam, hrest⟩ := List.nodup_cons.1 (h.nodup_left hm')
  have hheir := get?_heir hm' hshares
  obtain ⟨order, hpromote⟩ := exists_promote_eq ((goal_of_heir hm' hshares).symm ▸ hget)
  have hledger := hm'.promote heir
  rw [hpromote] at hledger ⊢
  rw [goal_of_heir hm' hshares] at hledger ⊢
  have hleft : heir.team ∈ g'.team :: rest :=
    (h.mem_left_iff hm' hget).2 (.inr (Table.contains_of_get? hheir))
  refine h.dropShare hm' hget hledger rfl ?_ (Table.get?_insert_self ..) ?_ ?_ hrest ?_
  · intro i hi
    exact Table.get?_insert_of_ne _ _ (Ne.symm hi)
  · obtain ⟨t, w, k, ht⟩ := h.goal
    rw [hget, Option.some_inj] at ht
    exact ⟨heir.team, heir.weight, order, by rw [ht]⟩
  · have hweight := h.weight_eq hm' hget hleft
    rw [hheir] at hweight
    exact hweight
  · intro t
    have hmem : t ∈ g'.team :: rest ↔ _ := h.mem_left_iff hm' hget
    rw [List.mem_cons] at hmem
    by_cases howner : t = g'.team
    · subst howner
      have hunshared := hm'.owner_unshared hget
      have hne : g'.team ≠ heir.team := by
        intro heq
        rw [← heq, hunshared] at hheir
        cases hheir
      simp [hteam, hne, Table.contains, hunshared]
    · by_cases ht : t = heir.team
      · subst ht
        simpa [howner] using hleft
      · simpa [howner, ht] using hmem

/-- The last team removes the goal. -/
theorem clear (h : m.CarriedBy id g left m') :
    m.Cleared id (m'.deleteGoal id).2 := by
  obtain ⟨_, _, _, hget⟩ := h.goal
  have hkeyResults : m'.keyResults = m.keyResults := by rw [h.others]
  have hcomments : m'.comments = m.comments := by rw [h.others]
  have hcontains : m'.goals.contains id = true := Table.contains_of_get? hget
  rw [deleteGoal, if_pos hcontains]
  constructor
  case goal => exact Table.get?_erase_self ..
  case shares =>
    intro team
    rw [Table.get?_filter]
    cases m'.shares.get? (id, team) <;> simp
  case keyResults =>
    intro i k
    rw [Table.get?_filter, Option.filter_eq_some_iff, hkeyResults, bne_iff_ne]
  case comments =>
    intro i c
    have hon : m'.isCommentOn id c = m.isCommentOn id c := by
      unfold isCommentOn
      rw [hkeyResults]
    rw [Table.get?_filter, Option.filter_eq_some_iff, hcomments, hon, Bool.not_eq_true',
      Bool.eq_false_iff, Ne, isCommentOn_iff, not_or]
    simp only [not_exists, not_and, Ne]
  case otherGoals =>
    intro i hi
    rw [← h.otherGoals i hi]
    exact Table.get?_erase_of_ne _ hi
  case otherShares =>
    intro i team hi
    rw [← h.otherShares i team hi, Table.get?_filter]
    cases m'.shares.get? (i, team) <;> simp [hi]
  case others => rw [h.others]

/-- The next of the teams that are left deletes the goal: it goes if no other team is left, and else
it is left to the others. -/
theorem delete (h : m.CarriedBy id g (team :: rest) m') (hm' : m'.Ledger)
    (hopen : (m.statusOf team g.period).isClosed = false) :
    ∃ answer m'', (Goals.delete id (some team)).run carry m' = (.ok answer, m'') ∧
      (rest ≠ [] → answer ≠ .deleted ∧ m.CarriedBy id g rest m'') ∧
      (rest = [] → answer = .deleted ∧ m.Cleared id m'') := by
  obtain ⟨t, w, k, hget⟩ := h.goal
  have hopen' : (m'.statusOf team g.period).isClosed = false := by
    rw [h.others]
    exact hopen
  by_cases howner : t = team
  · subst howner
    cases hshares : m'.listShares id with
    | nil =>
      have hrest : rest = [] := by
        have hperm := h.carriers _ hget
        rw [hshares] at hperm
        simpa using hperm.length_eq
      refine ⟨_, _, run_delete_last hm' hget hopen' hshares, ?_, ?_⟩
      · intro hne
        exact absurd hrest hne
      · intro _
        exact ⟨rfl, h.clear⟩
    | cons heir others =>
      have hrest : rest ≠ [] := by
        have hperm := h.carriers _ hget
        rw [hshares] at hperm
        intro hnil
        simpa [hnil] using hperm.length_eq
      refine ⟨_, _, run_delete_heir hm' hget hopen' hshares, ?_, ?_⟩
      · intro _
        exact ⟨by simp, handOver h hm' hget hshares⟩
      · intro hnil
        exact absurd hnil hrest
  · have hrest : rest ≠ [] := by
      intro hnil
      have hmem := (h.mem_left_iff hm' hget).2 (.inl rfl)
      rw [hnil, List.mem_singleton] at hmem
      exact howner hmem
    refine ⟨_, _, run_delete_share hm' hget hopen' howner, ?_, ?_⟩
    · intro _
      exact ⟨by simp, h.giveUp hm' hget howner⟩
    · intro hnil
      exact absurd hnil hrest

end CarriedBy

/-! ### All teams, in any order -/

section Runs

variable {m : Memory} {id : GoalId} {g : Goal}

/-- After some of the teams the goal is left to the others. -/
theorem CarriedBy.deletedBy {m' : Memory} {done rest : List TeamId}
    (h : m.CarriedBy id g (done ++ rest) m') (hm' : m'.Reachable) (hrest : rest ≠ [])
    (hopen : ∀ team ∈ done, (m.statusOf team g.period).isClosed = false) :
    m.CarriedBy id g rest (m'.deletedBy id done) ∧ (m'.deletedBy id done).Reachable := by
  induction done generalizing m' with
  | nil => exact ⟨h, hm'⟩
  | cons team done ih =>
    obtain ⟨answer, m'', hrun, hleft, -⟩ := h.delete hm'.sound.ledger (hopen team (by simp))
    obtain ⟨-, hnext⟩ := hleft (by simp [hrest])
    have hreachable := hm'.run (.deleteGoal id (some team))
    have hstore : ((Command.deleteGoal id (some team)).program.run carry m').2 = m'' :=
      congrArg Prod.snd hrun
    rw [Memory.deletedBy, List.foldl_cons]
    rw [hstore] at hreachable ⊢
    exact ih hnext hreachable fun t ht => hopen t (by simp [ht])

/-- **Whatever the order in which the teams that carry a goal delete it**, each on its own behalf and in
a period that is not closed for it: until the last has come the goal is left to those that have not,
at the weights that it had for them and with all that is on it, and one of them owns it; with the last
it goes, with its shares, its key results and all comments on either.  Nothing else changes. -/
theorem deleted_team_by_team (h : m.Reachable) (hget : m.goals.get? id = some g)
    {order : List TeamId} (horder : order.Perm (g.team :: (m.listShares id).map Share.team))
    (hopen : ∀ team ∈ order, m.statusOf team g.period ≠ .closed) :
    (∀ done team rest, order = done ++ team :: rest →
      m.CarriedBy id g (team :: rest) (m.deletedBy id done) ∧
      ∃ answer, ((Command.deleteGoal id (some team)).program.run carry (m.deletedBy id done)).1 =
          .ok answer ∧ (answer = .deleted ↔ rest = [])) ∧
    m.Cleared id (m.deletedBy id order) := by
  have hopened : ∀ team ∈ order, (m.statusOf team g.period).isClosed = false := by
    intro team hteam
    simpa [Status.isClosed] using hopen team hteam
  have hnext : ∀ done team rest, order = done ++ team :: rest →
      m.CarriedBy id g (team :: rest) (m.deletedBy id done) ∧
      ∃ answer m'', (Goals.delete id (some team)).run carry (m.deletedBy id done) =
          (.ok answer, m'') ∧
        (rest ≠ [] → answer ≠ .deleted) ∧ (rest = [] → answer = .deleted ∧ m.Cleared id m'') := by
    rintro done team rest rfl
    have hstart := CarriedBy.start h.sound.ledger hget horder
    obtain ⟨hleft, hreachable⟩ :=
      hstart.deletedBy h (by simp) fun t ht => hopened t (by simp [ht])
    obtain ⟨answer, m'', hrun, hmore, hlast⟩ :=
      hleft.delete hreachable.sound.ledger (hopened team (by simp))
    exact ⟨hleft, answer, m'', hrun, fun hrest => (hmore hrest).1, hlast⟩
  refine ⟨?_, ?_⟩
  · intro done team rest horder
    obtain ⟨hleft, answer, m'', hrun, hmore, hlast⟩ := hnext done team rest horder
    refine ⟨hleft, answer, congrArg Prod.fst hrun, ?_⟩
    constructor
    · intro hanswer
      by_contra hrest
      exact hmore hrest hanswer
    · intro hrest
      exact (hlast hrest).1
  · rcases List.eq_nil_or_concat order with rfl | ⟨done, team, rfl⟩
    · simpa using horder.length_eq
    · obtain ⟨-, answer, m'', hrun, -, hlast⟩ := hnext done team [] (List.concat_eq_append ..)
      have hstore : m.deletedBy id (done.concat team) = m'' := by
        rw [deletedBy, List.concat_eq_append, List.foldl_append]
        exact congrArg Prod.snd hrun
      rw [hstore]
      exact (hlast rfl).2

end Runs

theorem reachable_oneShare : oneShare.Reachable :=
  ((((Reachable.empty.addTeam _ _ _).addTeam _ _ _).createPeriod _ _ _).run _).run _

/-- A store with a goal that two teams carry, a key result of it and a comment on either. -/
def discussed : Memory :=
  let draft : KeyResultDraft := ⟨"Ship", "", ⟨80, by decide⟩, .boolean false⟩
  let measured := ((Command.createKeyResult 4 draft).program.run carry oneShare).2
  let onGoal := ((Command.addComment (.goal 4) "soon").program.run carry measured).2
  ((Command.addComment (.keyResult 5) "late").program.run carry onGoal).2

/-- The owner deletes the goal first: it goes to the other team, and then it goes. -/
theorem deleted_team_by_team_discussed :
    ∃ g, discussed.Reachable ∧ discussed.goals.get? 4 = some g ∧
      discussed.keyResults.keys = [5] ∧ discussed.comments.keys = [6, 7] ∧
      [1, 2].Perm (g.team :: (discussed.listShares 4).map Share.team) ∧
      (∀ team ∈ [1, 2], discussed.statusOf team g.period ≠ .closed) ∧
      discussed.CarriedBy 4 g [2] (discussed.deletedBy 4 [1]) ∧
      discussed.Cleared 4 (discussed.deletedBy 4 [1, 2]) := by
  have hreachable : discussed.Reachable := ((reachable_oneShare.run _).run _).run _
  have hget : discussed.goals.get? 4 = some ⟨4, 1, 3, "Grow", "", .p0, ⟨60, by decide⟩, .delivery,
      .stability, "", 1⟩ := by decide +kernel
  have horder : [1, 2].Perm (1 :: (discussed.listShares 4).map Share.team) := by decide +kernel
  have hopen : ∀ team ∈ [1, 2], discussed.statusOf team 3 ≠ .closed := by decide +kernel
  obtain ⟨hnext, hcleared⟩ := deleted_team_by_team hreachable hget horder hopen
  exact ⟨_, hreachable, hget, by decide +kernel, by decide +kernel, horder, hopen,
    (hnext [1] 2 [] rfl).1, hcleared⟩

end Objectives.Memory
