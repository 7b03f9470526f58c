/- # Integrity of a store

The tables of a store refer to one another by identifiers, and nothing but the calls sees to it that
what is referred to exists: a goal that is removed takes its shares, its key results and the comments
on either along, and an identifier is never given twice.

Main definitions:

* `Memory.Linked` — key results and comments are of records that exist;
* `Memory.Integral` — all that records refer to exists, and identifiers stand for one thing each;
* `Memory.Unburdened` — a store in which what is new has nothing on it yet.

Main results:

* `Memory.Linked.carry` — a call keeps the links of key results and comments;
* `Memory.unburdened_carry` — a goal or a key result that a call creates inherits nothing;
* `System.integral_of_steps` — **every store that can come about is integral, what has left it does
  not come back, and what is new in it inherits nothing**.
-/

import Objectives.Proofs.Handover
import Objectives.Proofs.Identifiers
import Objectives.Proofs.Refusal.Memory

set_option relaxedAutoImplicit false
set_option autoImplicit false

namespace Objectives

namespace Memory

/-! ### Links of key results and comments -/

/-- Whether what a comment is on exists. -/
def hasTarget (m : Memory) : CommentTarget → Bool
  | .goal id => m.goals.contains id
  | .keyResult id => m.keyResults.contains id

/-- Key results are of goals that exist, and comments on goals and key results that exist. -/
structure Linked (m : Memory) : Prop where
  keyResults : ∀ id k, m.keyResults.get? id = some k → m.goals.contains k.goal = true
  comments : ∀ id c, m.comments.get? id = some c → m.hasTarget c.target = true

namespace SameLinks

variable {m m' : Memory}

theorem contains_goals (h : m.SameLinks m') (id : GoalId) :
    m'.goals.contains id = m.goals.contains id := by
  have hid := congrArg Option.isSome (h.goals id)
  rwa [Option.isSome_map, Option.isSome_map] at hid

theorem contains_keyResults (h : m.SameLinks m') (id : KeyResultId) :
    m'.keyResults.contains id = m.keyResults.contains id := by
  have hid := congrArg Option.isSome (h.keyResults id)
  rwa [Option.isSome_map, Option.isSome_map] at hid

theorem hasTarget (h : m.SameLinks m') (target : CommentTarget) :
    m'.hasTarget target = m.hasTarget target := by
  cases target with
  | goal id => exact h.contains_goals id
  | keyResult id => exact h.contains_keyResults id

end SameLinks

namespace Linked

variable {m m' : Memory}

theorem empty : Memory.empty.Linked where
  keyResults id k h := by cases h
  comments id c h := by cases h

theorem of_sameLinks (h : m.Linked) (hm' : m.SameLinks m') : m'.Linked where
  keyResults id k hget := by
    have hgoal := hm'.keyResults id
    rw [hget, Option.map_some, eq_comm, Option.map_eq_some_iff] at hgoal
    obtain ⟨k₀, hk₀, hsame⟩ := hgoal
    rw [hm'.contains_goals, ← hsame]
    exact h.keyResults id k₀ hk₀
  comments id c hget := by
    rw [hm'.comments] at hget
    rw [hm'.hasTarget]
    exact h.comments id c hget

/-- More goals and key results than before do no harm. -/
theorem of_more (h : m.Linked)
    (goals : ∀ id, m.goals.contains id = true → m'.goals.contains id = true)
    (keyResults : ∀ id, m.keyResults.contains id = true → m'.keyResults.contains id = true)
    (keyResults_of : ∀ id k, m'.keyResults.get? id = some k →
      m.keyResults.get? id = some k ∨ m.goals.contains k.goal = true)
    (comments_of : ∀ id c, m'.comments.get? id = some c →
      m.comments.get? id = some c ∨ m.hasTarget c.target = true) : m'.Linked where
  keyResults id k hget := by
    rcases keyResults_of id k hget with hk | hgoal
    · exact goals k.goal (h.keyResults id k hk)
    · exact goals k.goal hgoal
  comments id c hget := by
    have htarget : m.hasTarget c.target = true := by
      rcases comments_of id c hget with hc | htarget
      · exact h.comments id c hc
      · exact htarget
    cases hc : c.target with
    | goal i =>
      rw [hc] at htarget
      exact goals i htarget
    | keyResult i =>
      rw [hc] at htarget
      exact keyResults i htarget

theorem createGoal (h : m.Linked) (team : TeamId) (period : PeriodId) (draft : GoalDraft) :
    (m.createGoal team period draft).2.Linked :=
  h.of_more (fun _ hid => Table.contains_insert_of_contains hid) (fun _ hid => hid)
    (fun _ _ hk => .inl hk) fun _ _ hc => .inl hc

theorem createKeyResult (h : m.Linked) (goal : GoalId) (draft : KeyResultDraft) :
    (m.createKeyResult goal draft).2.Linked := by
  unfold Memory.createKeyResult
  split
  · rename_i hgoal
    obtain ⟨lastId, -, hmeasure⟩ := m.takeId.measure_snd draft.measurement []
    simp only [hmeasure]
    refine h.of_more (fun _ hid => hid) (fun _ hid => Table.contains_insert_of_contains hid) ?_
      fun _ _ hc => .inl hc
    intro id k hk
    simp only [takeId, Table.get?_insert] at hk
    split at hk
    · rw [Option.some_inj] at hk
      subst hk
      exact .inr hgoal
    · exact .inl hk
  · exact h

theorem addComment (h : m.Linked) (target : CommentTarget) (text : String) :
    (m.addComment target text).2.Linked := by
  unfold Memory.addComment
  split
  · exact h
  · rename_i hmissing
    have htarget : m.hasTarget target = true := by
      cases target with
      | goal i => simpa [missingTarget, Memory.hasTarget] using hmissing
      | keyResult i => simpa [missingTarget, Memory.hasTarget] using hmissing
    refine h.of_more (fun _ hid => hid) (fun _ hid => hid) (fun _ _ hk => .inl hk) ?_
    intro id c hc
    simp only [takeId, Table.get?_insert] at hc
    split at hc
    · rw [Option.some_inj] at hc
      subst hc
      exact .inr htarget
    · exact .inl hc

/-- With a goal go its key results and the comments on either. -/
theorem deleteGoal (h : m.Linked) (id : GoalId) : (m.deleteGoal id).2.Linked := by
  unfold Memory.deleteGoal
  split
  · refine ⟨fun i k hget => ?_, fun i c hget => ?_⟩
    · rw [Table.get?_filter, Option.filter_eq_some_iff] at hget
      have hother : k.goal ≠ id := by simpa using hget.2
      rw [Table.contains, Table.get?_erase_of_ne _ hother]
      exact h.keyResults i k hget.1
    · rw [Table.get?_filter, Option.filter_eq_some_iff, Bool.not_eq_true', Bool.eq_false_iff, Ne,
        isCommentOn_iff, not_or] at hget
      obtain ⟨hc, hgoal, hkeyResult⟩ := hget
      have htarget := h.comments i c hc
      cases hct : c.target with
      | goal j =>
        rw [hct] at htarget
        have hother : j ≠ id := by
          rintro rfl
          exact hgoal hct
        show (m.goals.erase id).contains j = true
        rw [Table.contains, Table.get?_erase_of_ne _ hother]
        exact htarget
      | keyResult j =>
        rw [hct] at htarget
        obtain ⟨k, hk⟩ := Table.contains_iff.1 htarget
        refine Table.contains_filter_iff.2 ⟨k, hk, ?_⟩
        rw [bne_iff_ne]
        intro hon
        exact hkeyResult ⟨j, k, hk, hon, hct⟩
  · exact h

/-- With a key result go the comments on it. -/
theorem deleteKeyResult (h : m.Linked) (id : KeyResultId) : (m.deleteKeyResult id).2.Linked := by
  unfold Memory.deleteKeyResult
  split
  · refine ⟨fun i k hget => ?_, fun i c hget => ?_⟩
    · rw [Table.get?_erase] at hget
      split at hget
      · cases hget
      · exact h.keyResults i k hget
    · rw [Table.get?_filter, Option.filter_eq_some_iff, bne_iff_ne] at hget
      have htarget := h.comments i c hget.1
      cases hct : c.target with
      | goal j =>
        rw [hct] at htarget
        exact htarget
      | keyResult j =>
        rw [hct] at htarget
        have hother : j ≠ id := by
          rintro rfl
          exact hget.2 hct
        show (m.keyResults.erase id).contains j = true
        rw [Table.contains, Table.get?_erase_of_ne _ hother]
        exact htarget
  · exact h

/-- A call keeps the links of key results and comments. -/
theorem carry (h : m.Linked) (c : Call) : (Memory.carry c m).2.Linked := by
  cases hc : c.relinks with
  | false => exact h.of_sameLinks (sameLinks_carry hc m)
  | true =>
    cases c with
    | createGoal team period draft => exact h.createGoal team period draft
    | deleteGoal id => exact h.deleteGoal id
    | createKeyResult goal draft => exact h.createKeyResult goal draft
    | deleteKeyResult id => exact h.deleteKeyResult id
    | addComment target text => exact h.addComment target text
    | _ => cases hc

end Linked

theorem Reachable.linked {m : Memory} (h : m.Reachable) : m.Linked :=
  h.induction Linked.empty (fun _ _ _ _ hm => ⟨hm.keyResults, hm.comments⟩)
    (fun _ _ _ hm => ⟨hm.keyResults, hm.comments⟩) fun _ c hm => hm.carry c

/-- In a store that can come about no identifier stands for two things. -/
theorem Reachable.numbered {m : Memory} (h : m.Reachable) : m.Numbered :=
  h.induction Numbered.empty
    (fun m name type parent hm => (m.renewed_addTeam name type parent).numbered hm)
    (fun m team parent hm => (m.renewed_setTeamParent team parent).numbered hm)
    fun m c hm => (renewed_carry c m).numbered hm

/-! ### New records -/

/-- A goal that is new in a store has no share, no key result and no comment, and a key result that is
new has no comment. -/
structure Unburdened (m m' : Memory) : Prop where
  goals : ∀ id, m.goals.contains id = false → m'.goals.contains id = true →
    (∀ team, m'.shares.get? (id, team) = none) ∧ m'.keyResultsIn id = [] ∧
      m'.listComments (.goal id) = []
  keyResults : ∀ id, m.keyResults.contains id = false → m'.keyResults.contains id = true →
    m'.listComments (.keyResult id) = []

section Unburdened

variable {m m' : Memory}

/-- There is no comment on what does not exist. -/
theorem listComments_eq_nil (h : m.Linked) (target : CommentTarget)
    (htarget : m.hasTarget target = false) : m.listComments target = [] := by
  rw [listComments, List.reverse_eq_nil_iff, List.filter_eq_nil_iff]
  intro c hc hon
  obtain ⟨id, hget⟩ := Table.mem_values_iff.1 hc
  have hexists := h.comments id c hget
  rw [beq_iff_eq.1 hon, htarget] at hexists
  cases hexists

/-- There is no key result of a goal that does not exist. -/
theorem keyResultsIn_eq_nil (h : m.Linked) {id : GoalId} (hgoal : m.goals.contains id = false) :
    m.keyResultsIn id = [] := by
  rw [keyResultsIn, List.filter_eq_nil_iff]
  intro k hk hof
  obtain ⟨i, hget⟩ := Table.mem_values_iff.1 hk
  have hexists := h.keyResults i k hget
  rw [beq_iff_eq.1 hof, hgoal] at hexists
  cases hexists

/-- There is no share in a goal that does not exist. -/
theorem shares_eq_none (h : m.Ledger) {id : GoalId} (hgoal : m.goals.contains id = false)
    (team : TeamId) : m.shares.get? (id, team) = none := by
  cases hget : m.shares.get? (id, team) with
  | none => rfl
  | some s =>
    obtain ⟨g, hg, -⟩ := h.shared id team (Table.contains_of_get? hget)
    rw [Table.contains_of_get? hg] at hgoal
    cases hgoal

/-- Where no goal and no key result is new there is nothing to show. -/
theorem Unburdened.of_contains
    (goals : ∀ id, m'.goals.contains id = true → m.goals.contains id = true)
    (keyResults : ∀ id, m'.keyResults.contains id = true → m.keyResults.contains id = true) :
    m.Unburdened m' where
  goals id hold hnew := by
    rw [goals id hnew] at hold
    cases hold
  keyResults id hold hnew := by
    rw [keyResults id hnew] at hold
    cases hold

/-- A goal or a key result that a call creates inherits nothing: what would be on it is on nothing
before. -/
theorem unburdened_carry (hledger : m.Ledger) (h : m.Linked) (c : Call) :
    m.Unburdened (carry c m).2 := by
  cases hc : c.relinks with
  | false =>
    have hsame := sameLinks_carry hc m
    refine .of_contains (fun id hid => ?_) fun id hid => ?_
    · rwa [hsame.contains_goals] at hid
    · rwa [hsame.contains_keyResults] at hid
  | true =>
    cases c with
    | createGoal team period draft =>
      refine ⟨fun id hold _ => ?_, fun id hold hnew => ?_⟩
      · exact ⟨shares_eq_none hledger hold, keyResultsIn_eq_nil h hold, listComments_eq_nil h _ hold⟩
      · exact listComments_eq_nil h (.keyResult id) hold
    | createKeyResult goal draft =>
      have htouched := touched_carry (.createKeyResult goal draft) m
      have hgoals := (htouched.goals_shares (by simp [Call.subject]) (by simp [Call.subject])).1
      have hcomments : (m.createKeyResult goal draft).2.comments = m.comments := by
        unfold createKeyResult
        split
        · exact comments_measure ..
        · rfl
      refine ⟨fun id hold hnew => ?_, fun id hold _ => ?_⟩
      · rw [hgoals, hold] at hnew
        cases hnew
      · show (m.createKeyResult goal draft).2.listComments _ = []
        rw [listComments, hcomments]
        exact listComments_eq_nil h (.keyResult id) hold
    | deleteGoal i =>
      simp only [carry, deleteGoal]
      split
      · exact .of_contains (fun id hid => Table.contains_of_filter hid)
          fun id hid => Table.contains_of_filter hid
      · exact .of_contains (fun _ hid => hid) fun _ hid => hid
    | deleteKeyResult i =>
      simp only [carry, deleteKeyResult]
      split
      · exact .of_contains (fun _ hid => hid) fun id hid => Table.contains_of_filter hid
      · exact .of_contains (fun _ hid => hid) fun _ hid => hid
    | addComment target text =>
      simp only [carry, addComment]
      split
      · exact .of_contains (fun _ hid => hid) fun _ hid => hid
      · exact .of_contains (fun _ hid => hid) fun _ hid => hid
    | _ => cases hc

end Unburdened

/-! ### Stores that can come about -/

/-- All that records refer to exists, every record is stored under its own identifier, and no
identifier stands for two things. -/
structure Integral (m : Memory) : Prop where
  ownKeys : m.OwnKeys
  /-- The team and the period of every goal exist. -/
  goals : ∀ id g, m.goals.get? id = some g →
    m.teams.contains g.team = true ∧ m.periods.contains g.period = true
  /-- The goal and the team of every share exist. -/
  shares : ∀ k s, m.shares.get? k = some s →
    m.goals.contains s.goal = true ∧ m.teams.contains s.team = true
  /-- The goal of every key result exists, and what every comment is on. -/
  linked : m.Linked
  /-- The identifiers of records and of their parts are distinct, and have been given. -/
  numbered : m.Numbered

end Memory

namespace System

variable {s s' : System}

/-- Whatever happens next, no identifier comes in but those that are given. -/
theorem renewed_of_step (h : Step s s') : s.store.Renewed s'.store := by
  refine Memory.Reachable.of_step (P := s.store.Renewed) ?_ ?_ ?_ h (.refl s.store)
  · intro m name type parent hm
    exact hm.trans (m.renewed_addTeam name type parent)
  · intro m team parent hm
    exact hm.trans (m.renewed_setTeamParent team parent)
  · intro m c hm
    exact hm.trans (Memory.renewed_carry c m)

theorem renewed_of_steps (h : Relation.ReflTransGen Step s s') : s.store.Renewed s'.store := by
  induction h with
  | refl => exact .refl s.store
  | tail _ hstep ih => exact ih.trans (renewed_of_step hstep)

/-- Whatever happens next, what is new inherits nothing. -/
theorem unburdened_of_step (hledger : s.store.Ledger) (hlinked : s.store.Linked) (h : Step s s') :
    s.store.Unburdened s'.store := by
  rcases h.store_cases with ⟨_, _, _, hstore⟩ | ⟨_, _, hstore⟩ | hstore | ⟨c, hstore⟩
  · exact hstore ▸ .of_contains (fun _ hid => hid) fun _ hid => hid
  · exact hstore ▸ .of_contains (fun _ hid => hid) fun _ hid => hid
  · exact hstore ▸ .of_contains (fun _ hid => hid) fun _ hid => hid
  · exact hstore ▸ Memory.unburdened_carry hledger hlinked c

/-- **Every store that can come about is integral.**  An identifier that has left it does not come
back, whatever happens, and a goal or a key result that is created inherits nothing. -/
theorem integral_of_steps (h : Relation.ReflTransGen Step ⟨Memory.empty, []⟩ s) :
    s.store.Integral ∧
    (∀ s', Relation.ReflTransGen Step s s' → ∀ i ∈ s.store.ids, i ∉ s'.store.ids →
      ∀ s'', Relation.ReflTransGen Step s' s'' → i ∉ s''.store.ids) ∧
    ∀ s', Step s s' → s.store.Unburdened s'.store := by
  have hreachable : s.store.Reachable := ⟨s.running, h⟩
  have hsound := hreachable.sound
  have hnumbered := (renewed_of_steps h).numbered Memory.Numbered.empty
  refine ⟨⟨hreachable.ownKeys, ?_, ?_, hreachable.linked, hnumbered⟩, ?_, ?_⟩
  · intro id g hget
    exact ⟨hsound.staffed g.team (.of_goal hget), hsound.dated id g hget⟩
  · intro k share hget
    have hkey := hsound.ledger.shareKeyed k share hget
    have hcontains := Table.contains_of_get? hget
    rw [← hkey] at hcontains
    obtain ⟨g, hg, -⟩ := hsound.ledger.shared share.goal share.team hcontains
    exact ⟨Table.contains_of_get? hg, hsound.staffed share.team (.of_share hcontains)⟩
  · intro s' hs' i hi hgone s'' hs''
    have hgiven := (hnumbered.given i hi).2
    have hle := (renewed_of_steps hs').lastId_le
    exact (renewed_of_steps hs'').not_mem_ids (Int.le_trans hgiven hle) hgone
  · intro s' hs'
    exact unburdened_of_step hsound.ledger hreachable.linked hs'

/-- A command that is submitted can be carried through without interference. -/
theorem exists_steps_run (s : System) (c : Command) : ∃ running,
    Relation.ReflTransGen Step s ⟨(c.program.run Memory.carry s.store).2, running⟩ := by
  obtain ⟨running, hrest⟩ := Memory.Reachable.steps_run c.program s.running s.store
  exact ⟨running, .head (.submit s c) hrest⟩

/-- The goal that two teams carry is deleted by both, with its key result and the comments. -/
theorem integral_of_steps_discussed :
    ∃ s s', Relation.ReflTransGen Step ⟨Memory.empty, []⟩ s ∧ Relation.ReflTransGen Step s s' ∧
      s.store.ids = [1, 2, 3, 4, 5, 6, 7] ∧ s'.store.ids = [1, 2, 3] ∧ s.store.Integral ∧
      ∀ s'', Relation.ReflTransGen Step s' s'' → 4 ∉ s''.store.ids := by
  obtain ⟨running, hsteps⟩ : Memory.discussed.Reachable :=
    ((Memory.reachable_oneShare.run _).run _).run _
  obtain ⟨running₁, hfirst⟩ := exists_steps_run ⟨Memory.discussed, running⟩ (.deleteGoal 4 (some 1))
  obtain ⟨running₂, hsecond⟩ := exists_steps_run ⟨_, running₁⟩ (.deleteGoal 4 (some 2))
  obtain ⟨hintegral, hgone, -⟩ := integral_of_steps hsteps
  have hids : Memory.discussed.ids = [1, 2, 3, 4, 5, 6, 7] := by decide +kernel
  have hleft : (Memory.discussed.deletedBy 4 [1, 2]).ids = [1, 2, 3] := by decide +kernel
  have hwas : 4 ∈ Memory.discussed.ids := by simp [hids]
  have hnot : 4 ∉ (Memory.discussed.deletedBy 4 [1, 2]).ids := by simp [hleft]
  exact ⟨_, _, hsteps, hfirst.trans hsecond, hids, hleft, hintegral,
    hgone _ (hfirst.trans hsecond) 4 hwas hnot⟩

end System

end Objectives
