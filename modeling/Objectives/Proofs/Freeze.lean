/- # Closed periods

Once a period is closed for the team that owns a goal, the goal is there to stay, and so is all that is
on it: its key results, what has been reported on them and what has been said about either.  It takes
all commands together to see that: each that would change something of it acts for the owner and is
turned away, and what is left acts on other records.

Main definitions:

* `Memory.resultsUnder`, `Memory.commentsUnder` — the key results of a goal but for their places, and
  the comments on the goal and on them;
* `Memory.progressOf` — the progress of a goal;
* `Memory.Frozen` — a store in which all this is as it was.

Main results:

* `Memory.Frozen.progress` — the progress is that of the key results, wherever they stand;
* `Memory.frozen_of_writes` — **what a command writes leaves the goals of a team whose period is closed
  frozen**;
* `Memory.frozen_while_closed` — **a command for such a team is turned away, and as long as the period
  stays closed and the goal with its owner, the goal stays frozen**.
-/

import Objectives.Proofs.Integrity
import Objectives.Proofs.Runs

set_option relaxedAutoImplicit false
set_option autoImplicit false

namespace Objectives

/-! ### Progress -/

namespace Progress

theorem total_of_perm {values values' : List Nat} (h : values.Perm values') :
    total values = total values' := h.foldr_eq 0

/-- The progress of a goal does not depend on the order of its key results. -/
theorem ofKeyResults_of_perm {keyResults keyResults' : List KeyResult}
    (h : keyResults.Perm keyResults') : ofKeyResults keyResults = ofKeyResults keyResults' := by
  have hitems := h.map fun k => (ofKeyResult k, k.weight)
  have hsum := total_of_perm (hitems.map fun item => item.1.value * item.2.value)
  have hweight := total_of_perm (hitems.map fun item => item.2.value)
  unfold ofKeyResults average averageIn totalWeight weightedSum
  rw [hsum, hweight]

end Progress

/-- The key result, wherever it stands among the others. -/
def KeyResult.unplaced (k : KeyResult) : KeyResult := { k with sortOrder := 0 }

namespace Memory

/-! ### What is on a goal -/

/-- The key results of a goal in a table, wherever they stand. -/
def resultsUnder (id : GoalId) (t : Table KeyResultId KeyResult) : Table KeyResultId KeyResult :=
  (t.mapValues fun _ k => k.unplaced).filter fun _ k => k.goal == id

/-- The comments on a goal and on its key results. -/
def commentsUnder (m : Memory) (id : GoalId) : Table CommentId Comment :=
  m.comments.filter fun _ c => m.isCommentOn id c

/-- The progress of a goal, as it is computed when it is asked for. -/
def progressOf (m : Memory) (id : GoalId) : Percentage :=
  Progress.ofKeyResults (m.listKeyResults id)

/-- A goal has not gone and is of its period, and its key results and all comments are as they were. -/
structure Frozen (m : Memory) (id : GoalId) (m' : Memory) : Prop where
  goal : (m'.goals.get? id).map Goal.period = (m.goals.get? id).map Goal.period
  keyResults : resultsUnder id m'.keyResults = resultsUnder id m.keyResults
  comments : m'.commentsUnder id = m.commentsUnder id

section Tables

variable {id : GoalId} {t t' : Table KeyResultId KeyResult}

theorem get?_resultsUnder (id : GoalId) (t : Table KeyResultId KeyResult) (i : KeyResultId) :
    (resultsUnder id t).get? i =
      ((t.get? i).map KeyResult.unplaced).filter fun k => k.goal == id := by
  rw [resultsUnder, Table.get?_filter, Table.get?_mapValues]

theorem contains_resultsUnder {i : KeyResultId} :
    (resultsUnder id t).contains i = true ↔ ∃ k, t.get? i = some k ∧ k.goal = id := by
  rw [Table.contains, get?_resultsUnder]
  cases t.get? i with
  | none => simp
  | some k => simp [Option.isSome_filter, KeyResult.unplaced]

/-- A change of places alone is no change. -/
theorem resultsUnder_of_unplaced
    (h : ∀ i, (t'.get? i).map KeyResult.unplaced = (t.get? i).map KeyResult.unplaced) :
    resultsUnder id t' = resultsUnder id t := by
  apply Table.ext_get?
  intro i
  rw [get?_resultsUnder, get?_resultsUnder, h]

/-- Tables with the same key results of a goal. -/
theorem resultsUnder_of_get?
    (h : ∀ i k, k.goal = id → (t'.get? i = some k ↔ t.get? i = some k)) :
    resultsUnder id t' = resultsUnder id t := by
  apply Table.ext_get?
  intro i
  apply Option.ext
  intro k
  simp only [get?_resultsUnder, Option.filter_eq_some_iff, Option.map_eq_some_iff, beq_iff_eq]
  refine and_congr_left fun hgoal => exists_congr fun k₀ => and_congr_left fun hk => h i k₀ ?_
  rw [← hgoal, ← hk]
  rfl

/-- A key result that is put into a table, where neither it nor the one in its place is of the goal. -/
theorem resultsUnder_insert {i : KeyResultId} {k : KeyResult} (hnew : k.goal ≠ id)
    (hold : ∀ k₀, t.get? i = some k₀ → k₀.goal ≠ id) :
    resultsUnder id (t.insert i k) = resultsUnder id t := by
  refine resultsUnder_of_get? fun i' k' hk' => ?_
  rw [Table.get?_insert]
  by_cases hi : i = i'
  · subst hi
    rw [if_pos rfl, Option.some_inj]
    constructor
    · rintro rfl
      exact absurd hk' hnew
    · intro hget
      exact absurd hk' (hold k' hget)
  · rw [if_neg hi]

theorem resultsUnder_filter {keep : KeyResultId → KeyResult → Bool}
    (h : ∀ i k, t.get? i = some k → k.goal = id → keep i k = true) :
    resultsUnder id (t.filter keep) = resultsUnder id t := by
  refine resultsUnder_of_get? fun i k hk => ?_
  rw [Table.get?_filter, Option.filter_eq_some_iff]
  exact and_iff_left_of_imp fun hget => h i k hget hk

theorem resultsUnder_foldl_setWeight {weights : List (KeyResultId × Weight)}
    (h : ∀ item ∈ weights, ∀ k, t.get? item.1 = some k → k.goal ≠ id) :
    resultsUnder id (weights.foldl setWeight t) = resultsUnder id t := by
  induction weights generalizing t with
  | nil => rfl
  | cons item rest ih =>
    rw [List.foldl_cons, ih]
    · cases hget : t.get? item.1 with
      | none =>
        have hmissing : t.contains item.1 = false := by simp [Table.contains, hget]
        rw [setWeight, Table.modify_of_not_contains hmissing]
      | some k =>
        have hk := h item (List.mem_cons_self ..) k hget
        rw [setWeight, Table.modify_eq_insert hget]
        refine resultsUnder_insert hk fun k₀ hk₀ => ?_
        rw [hget, Option.some_inj] at hk₀
        exact hk₀ ▸ hk
    · -- a weight that has been set changes no goal
      intro item' hitem' k hk
      have hsame : ((setWeight t item).get? item'.1).map KeyResult.goal =
          (t.get? item'.1).map KeyResult.goal :=
        Table.map_get?_modify (f := fun k => { k with weight := item.2 }) (fun _ => rfl) t item.1 _
      rw [hk, Option.map_some, eq_comm, Option.map_eq_some_iff] at hsame
      obtain ⟨k₀, hk₀, hgoal⟩ := hsame
      exact hgoal ▸ h item' (List.mem_cons_of_mem _ hitem') k₀ hk₀

end Tables

/-- The progress of a goal is that of its key results, wherever they stand. -/
theorem progressOf_eq (m : Memory) (id : GoalId) :
    m.progressOf id = Progress.ofKeyResults (resultsUnder id m.keyResults).values := by
  have hvalues : (resultsUnder id m.keyResults).values =
      (m.keyResultsIn id).map KeyResult.unplaced := by
    simp only [resultsUnder, keyResultsIn, Table.values, Table.filter, Table.mapValues,
      List.filter_map, List.map_map]
    rfl
  have hperm : (m.listKeyResults id).Perm (m.keyResultsIn id) := sortBy_perm ..
  rw [progressOf, Progress.ofKeyResults_of_perm hperm, hvalues]
  simp only [Progress.ofKeyResults, List.map_map]
  rfl

section Comments

variable {m m' : Memory} {id : GoalId}

/-- Whether a comment is on a goal is a matter of the key results of the goal alone. -/
theorem isCommentOn_of_resultsUnder
    (h : resultsUnder id m'.keyResults = resultsUnder id m.keyResults) (c : Comment) :
    m'.isCommentOn id c = m.isCommentOn id c := by
  have hsame : ∀ i, (∃ k, m'.keyResults.get? i = some k ∧ k.goal = id) ↔
      ∃ k, m.keyResults.get? i = some k ∧ k.goal = id := by
    intro i
    rw [← contains_resultsUnder, ← contains_resultsUnder, h]
  rw [Bool.eq_iff_iff, isCommentOn_iff, isCommentOn_iff]
  refine or_congr_right ?_
  constructor
  · rintro ⟨i, k, hk, hgoal, htarget⟩
    obtain ⟨k', hk', hgoal'⟩ := (hsame i).1 ⟨k, hk, hgoal⟩
    exact ⟨i, k', hk', hgoal', htarget⟩
  · rintro ⟨i, k, hk, hgoal, htarget⟩
    obtain ⟨k', hk', hgoal'⟩ := (hsame i).2 ⟨k, hk, hgoal⟩
    exact ⟨i, k', hk', hgoal', htarget⟩

namespace Frozen

theorem refl (m : Memory) (id : GoalId) : m.Frozen id m := ⟨rfl, rfl, rfl⟩

theorem trans {m'' : Memory} (h : m.Frozen id m') (h' : m'.Frozen id m'') : m.Frozen id m'' where
  goal := h'.goal.trans h.goal
  keyResults := h'.keyResults.trans h.keyResults
  comments := h'.comments.trans h.comments

/-- The comments on the goal, and no others, have to be the same. -/
theorem of_tables (goal : (m'.goals.get? id).map Goal.period = (m.goals.get? id).map Goal.period)
    (keyResults : resultsUnder id m'.keyResults = resultsUnder id m.keyResults)
    (comments : ∀ i c, m.isCommentOn id c = true →
      (m'.comments.get? i = some c ↔ m.comments.get? i = some c)) : m.Frozen id m' := by
  refine ⟨goal, keyResults, ?_⟩
  apply Table.ext_get?
  intro i
  apply Option.ext
  intro c
  rw [commentsUnder, commentsUnder, Table.get?_filter, Table.get?_filter,
    Option.filter_eq_some_iff, Option.filter_eq_some_iff, isCommentOn_of_resultsUnder keyResults]
  exact and_congr_left fun hon => comments i c hon

theorem of_keyResults {lastId : Int} {keyResults : Table KeyResultId KeyResult}
    (h : resultsUnder id keyResults = resultsUnder id m.keyResults) :
    m.Frozen id { m with keyResults, lastId } :=
  of_tables rfl h fun _ _ _ => Iff.rfl

theorem of_sameWork (h : m.SameWork m') : m.Frozen id m' := by
  refine of_tables (by rw [h.goals]) (by rw [h.keyResults]) fun i c _ => ?_
  rw [h.comments]

/-- The progress is that of the key results, wherever they stand. -/
theorem progress (h : m.Frozen id m') : m'.progressOf id = m.progressOf id := by
  rw [progressOf_eq, progressOf_eq, h.keyResults]

end Frozen

end Comments

/-! ### The calls, one by one -/

/-- There is no record yet under the next identifier. -/
structure Fresh (m : Memory) : Prop where
  goals : m.goals.get? (m.lastId + 1) = none
  keyResults : m.keyResults.get? (m.lastId + 1) = none
  comments : m.comments.get? (m.lastId + 1) = none

/-- Under an identifier that is none of a table's there is no value. -/
theorem get?_of_not_mem_ids {ν : Type} {t : Table Int ν} {key : ν → Int} (h : t.Keyed key)
    {idsOf : ν → List Int} (hkey : ∀ v, key v ∈ idsOf v) {i : Int} (hi : i ∉ t.ids idsOf) :
    t.get? i = none := by
  cases hget : t.get? i with
  | none => rfl
  | some v =>
    refine absurd (List.mem_flatMap.2 ⟨v, Table.mem_values_iff.2 ⟨i, hget⟩, ?_⟩) hi
    exact h i v hget ▸ hkey v

/-- In a store that can come about the next identifier has not been given. -/
theorem Reachable.fresh {m : Memory} (h : m.Reachable) : m.Fresh := by
  have hkeys := h.ownKeys
  have hnumbered := h.numbered
  have hnew : m.lastId + 1 ∉ m.ids := by
    intro hmem
    have hle := (hnumbered.given _ hmem).2
    omega
  simp only [ids, List.mem_append, not_or] at hnew
  obtain ⟨⟨⟨⟨-, -⟩, hgoals⟩, hkeyResults⟩, hcomments⟩ := hnew
  exact {
    goals := get?_of_not_mem_ids hkeys.goals (by simp) hgoals
    keyResults := get?_of_not_mem_ids hkeys.keyResults (by simp [KeyResult.ids]) hkeyResults
    comments := get?_of_not_mem_ids hkeys.comments (by simp) hcomments }

section Calls

variable {m : Memory} {id : GoalId} {g : Goal}

/-- A call that neither adds nor removes a record and is not about key results leaves all that is on a
goal as it is. -/
theorem frozen_carry {c : Call} (hlinks : c.relinks = false) (hsubject : c.subject ≠ .keyResults)
    (m : Memory) (id : GoalId) : m.Frozen id (carry c m).2 := by
  have hwhole : c.subject ≠ .wholeGoal := by
    cases c with
    | deleteGoal i => cases hlinks
    | move item direction => cases item <;> simp [Call.subject]
    | _ => simp [Call.subject]
  obtain ⟨hkeyResults, hcomments⟩ := (touched_carry c m).keyResults_comments hsubject hwhole
  refine .of_tables ((sameLinks_carry hlinks m).goals id) ?_ ?_
  · rw [hkeyResults]
  · intro i c _
    rw [hcomments]

/-- So do several such calls. -/
theorem frozen_after {calls : List Call}
    (h : ∀ c ∈ calls, c.relinks = false ∧ c.subject ≠ .keyResults) : m.Frozen id (m.after calls) :=
  after_keeps (fun c hc m' hm' => hm'.trans (frozen_carry (h c hc).1 (h c hc).2 m' id)) (.refl m id)

theorem frozen_createGoal (hfresh : m.Fresh) (hget : m.goals.get? id = some g) (team : TeamId)
    (period : PeriodId) (draft : GoalDraft) :
    m.Frozen id (m.createGoal team period draft).2 := by
  -- the new goal must not take the place of this one
  have hne : m.lastId + 1 ≠ id := by
    rintro rfl
    rw [hfresh.goals] at hget
    cases hget
  refine .of_tables ?_ rfl fun _ _ _ => Iff.rfl
  exact congrArg (Option.map Goal.period) (Table.get?_insert_of_ne _ _ hne)

/-- The removal of another goal takes none of the key results and none of the comments. -/
theorem frozen_deleteGoal {i : GoalId} (hi : i ≠ id) : m.Frozen id (m.deleteGoal i).2 := by
  unfold deleteGoal
  split
  · refine .of_tables ?_ ?_ ?_
    · exact congrArg (Option.map Goal.period) (Table.get?_erase_of_ne _ hi.symm)
    · refine resultsUnder_filter fun _ k _ hk => ?_
      simpa [hk] using hi.symm
    · -- a comment that goes is on the other goal, or on a key result of it
      intro i' c hon
      rw [Table.get?_filter, Option.filter_eq_some_iff]
      refine and_iff_left_of_imp fun _ => ?_
      rw [Bool.not_eq_true', Bool.eq_false_iff, ne_eq, isCommentOn_iff]
      rw [isCommentOn_iff] at hon
      rintro (htarget | ⟨j, k, hk, hgoal, htarget⟩)
      · rcases hon with hon | ⟨_, _, _, _, hon⟩
        · rw [htarget, CommentTarget.goal.injEq] at hon
          exact hi hon
        · rw [htarget] at hon
          cases hon
      · rcases hon with hon | ⟨j', k', hk', hgoal', hon⟩
        · rw [htarget] at hon
          cases hon
        · rw [htarget, CommentTarget.keyResult.injEq] at hon
          subst hon
          rw [hk, Option.some_inj] at hk'
          exact hi (hgoal.symm.trans ((congrArg KeyResult.goal hk').trans hgoal'))
  · exact .refl m id

theorem frozen_createKeyResult (hfresh : m.Fresh) {i : GoalId} (hi : i ≠ id)
    (draft : KeyResultDraft) : m.Frozen id (m.createKeyResult i draft).2 := by
  unfold createKeyResult
  split
  · obtain ⟨lastId, -, hmeasure⟩ := m.takeId.measure_snd draft.measurement []
    simp only [hmeasure]
    refine .of_keyResults (resultsUnder_insert hi ?_)
    intro k₀ hk₀
    rw [show (m.takeId.keyResults.get? m.takeId.lastId) = none from hfresh.keyResults] at hk₀
    cases hk₀
  · exact .refl m id

variable {i : KeyResultId} (hi : ∀ k, m.keyResults.get? i = some k → k.goal ≠ id)

include hi

/-- Another key result may take the place of one that is not of the goal. -/
theorem Replaced.frozen {m' : Memory} (h : m.Replaced i m') : m.Frozen id m' := by
  cases h with
  | none _ => exact .of_keyResults rfl
  | @one k k' _ hget _ hgoal _ _ =>
    exact .of_keyResults (resultsUnder_insert (hgoal ▸ hi k hget) hi)

theorem frozen_deleteKeyResult : m.Frozen id (m.deleteKeyResult i).2 := by
  unfold deleteKeyResult
  split
  · refine .of_tables rfl ?_ ?_
    · refine resultsUnder_filter fun i' k hk hgoal => ?_
      have hne : i' ≠ i := by
        rintro rfl
        exact hi k hk hgoal
      simpa using hne
    · intro i' c hon
      rw [Table.get?_filter, Option.filter_eq_some_iff]
      refine and_iff_left_of_imp fun _ => ?_
      rw [isCommentOn_iff] at hon
      rw [bne_iff_ne]
      intro htarget
      rcases hon with hon | ⟨j, k, hk, hgoal, hon⟩
      · rw [htarget] at hon
        cases hon
      · rw [htarget, CommentTarget.keyResult.injEq] at hon
        exact hi k (hon ▸ hk) hgoal
  · exact .refl m id

end Calls

section Calls

variable {m : Memory} {id : GoalId}

/-- Weights are set for key results of one goal alone. -/
theorem frozen_setWeights {i : GoalId} (hi : i ≠ id) (weights : List (KeyResultId × Weight)) :
    m.Frozen id (m.setWeights i weights).2 := by
  unfold setWeights
  split
  · exact .refl m id
  · rename_i hnone
    refine .of_keyResults (resultsUnder_foldl_setWeight fun item hitem k hk => ?_)
    have hown := List.find?_eq_none.1 hnone item.1 (List.mem_map_of_mem hitem)
    rw [hk] at hown
    have hgoal : k.goal = i := by simpa using hown
    exact hgoal ▸ hi

/-- A new comment on something else. -/
theorem frozen_addComment (hfresh : m.Fresh) {target : CommentTarget} (text : String)
    (htarget : m.isCommentOn id ⟨m.lastId + 1, target, text⟩ = false) :
    m.Frozen id (m.addComment target text).2 := by
  unfold addComment
  split
  · exact .refl m id
  · refine .of_tables rfl rfl fun i c hon => ?_
    show (m.comments.insert (m.lastId + 1) ⟨m.lastId + 1, target, text⟩).get? i = some c ↔ _
    rw [Table.get?_insert]
    split
    · rename_i hi
      rw [Option.some_inj, ← hi, hfresh.comments]
      constructor
      · rintro rfl
        rw [htarget] at hon
        cases hon
      · intro hnone
        cases hnone
    · rfl

/-- A move changes places alone. -/
theorem frozen_moveKeyResult (i : KeyResultId) (direction : Direction) :
    m.Frozen id (m.move (.keyResult i) direction).2 := by
  unfold move
  simp only
  split
  · exact .refl m id
  · refine .of_keyResults (resultsUnder_of_unplaced fun j => ?_)
    refine map_get?_setOrders ?_ m.keyResults _ j
    intro order k
    rfl

theorem frozen_move (item : SequencedItem) (direction : Direction) :
    m.Frozen id (m.move item direction).2 := by
  cases item with
  | goal i asTeam =>
    exact frozen_carry (c := .move (.goal i asTeam) direction) rfl (by simp [Call.subject]) m id
  | keyResult i => exact frozen_moveKeyResult i direction
  | period i =>
    exact frozen_carry (c := .move (.period i) direction) rfl (by simp [Call.subject]) m id

end Calls

/-! ### The commands -/

section Commands

variable {m : Memory} {id : GoalId} {g : Goal}

/-- What is done to a goal for its owner, and let in, is not done to a goal of a team whose period is
closed. -/
theorem ne_of_open {i : GoalId} {g' : Goal} (asTeam : Option TeamId)
    (hget : m.goals.get? id = some g) (hclosed : m.statusOf g.team g.period = .closed)
    (hget' : m.goals.get? i = some g') (howner : asTeam.getD g'.team = g'.team)
    (hopen : ∀ team period, (m.goals.get? i).map (fun g => (asTeam.getD g.team, g.period)) =
      some (team, period) → m.statusOf team period ≠ .closed) : i ≠ id := by
  rintro rfl
  rw [hget, Option.some_inj] at hget'
  subst hget'
  exact hopen g.team g.period (by rw [hget, Option.map_some, howner]) hclosed

/-- Nor is it done to a key result of such a goal. -/
theorem goal_ne_of_open {i : KeyResultId} (hget : m.goals.get? id = some g)
    (hclosed : m.statusOf g.team g.period = .closed)
    (hopen : ∀ team period, (m.goalUnder i).map (fun g => (g.team, g.period)) = some (team, period) →
      m.statusOf team period ≠ .closed) :
    ∀ k, m.keyResults.get? i = some k → k.goal ≠ id := by
  rintro k hk rfl
  exact hopen g.team g.period (by simp [goalUnder, hk, hget]) hclosed

/-- **What a command writes leaves the goals of a team whose period is closed frozen.** -/
theorem frozen_of_writes (hfresh : m.Fresh) (hget : m.goals.get? id = some g)
    (hclosed : m.statusOf g.team g.period = .closed) {c : Command} {calls : List Call}
    (hopen : c.Open m) (hwrites : c.Writes m calls) : m.Frozen id (m.after calls) := by
  cases hwrites with
  | @createFirst team period _ tidy _ _ _ _ =>
    have hstatus : (m.createGoal team period tidy).2.Frozen id
        ((m.createGoal team period tidy).2.after [.setStatus team period .forming]) :=
      frozen_after (by simp [Call.relinks, Call.subject])
    exact (frozen_createGoal hfresh hget team period tidy).trans hstatus
  | createNext => exact frozen_createGoal hfresh hget _ _ _
  | editOwn | editShared | handOver | giveUp | share | setStatus =>
    -- these may well be about the goal, but touch none of its key results and no comment
    exact frozen_after (by simp [Call.relinks, Call.subject])
  | remove hget' howner _ =>
    exact frozen_deleteGoal (ne_of_open _ hget hclosed hget' howner hopen)
  | createKeyResult _ hget' =>
    exact frozen_createKeyResult hfresh (ne_of_open none hget hclosed hget' rfl hopen) _
  | updateKeyResult => exact (m.replaced_updateKeyResult _ _).frozen (goal_ne_of_open hget hclosed hopen)
  | setWeights hget' => exact frozen_setWeights (ne_of_open none hget hclosed hget' rfl hopen) _
  | recordProgress => exact (m.replaced_recordProgress _ _).frozen (goal_ne_of_open hget hclosed hopen)
  | addCheckpoint => exact (m.replaced_addCheckpoint _ _).frozen (goal_ne_of_open hget hclosed hopen)
  | deleteKeyResult => exact frozen_deleteKeyResult (goal_ne_of_open hget hclosed hopen)
  | @addComment target _ _ _ _ hget' =>
    refine frozen_addComment hfresh _ ?_
    rw [Bool.eq_false_iff, ne_eq, isCommentOn_iff]
    cases target with
    | goal i =>
      have hi := ne_of_open none hget hclosed hget' rfl hopen
      simpa using hi
    | keyResult i =>
      have hi := goal_ne_of_open hget hclosed hopen
      rintro (htarget | ⟨j, k, hk, hgoal, htarget⟩)
      · cases htarget
      · cases htarget
        exact hi k hk hgoal
  | move => exact frozen_move _ _

/-- Whatever happens next, a goal of a team whose period is closed stays frozen. -/
theorem frozen_happen (h : m.Reachable) (hget : m.goals.get? id = some g)
    (hclosed : m.statusOf g.team g.period = .closed) (e : Event) : m.Frozen id (m.happen e) := by
  rcases happen_cases h e with hsame | ⟨c, -, hopen, calls, hwrites, hafter⟩
  · exact .of_sameWork hsame
  · rw [hafter]
    exact frozen_of_writes h.fresh hget hclosed hopen hwrites

end Commands

/-! ### Runs -/

/-- The period is closed for the team, which owns the goal if there is one. -/
def Sealed (m : Memory) (id : GoalId) (team : TeamId) (period : PeriodId) : Prop :=
  m.statusOf team period = .closed ∧ ∀ g, m.goals.get? id = some g → g.team = team

instance (m : Memory) (id : GoalId) (team : TeamId) (period : PeriodId) :
    Decidable (m.Sealed id team period) :=
  decidable_of_iff (m.statusOf team period = .closed ∧ (m.goals.get? id).all (·.team == team) = true)
    (by cases hget : m.goals.get? id <;> simp [Sealed, hget])

/-- A frozen goal is there, in its period. -/
theorem Frozen.exists_goal {m m' : Memory} {id : GoalId} {g : Goal} (h : m.Frozen id m')
    (hget : m.goals.get? id = some g) :
    ∃ g', m'.goals.get? id = some g' ∧ g'.period = g.period := by
  have hgoal := h.goal
  rw [hget] at hgoal
  exact Option.map_eq_some_iff.1 hgoal

/-- As long as the period is closed for the owner of a goal, and the goal with its owner, it stays
frozen. -/
theorem frozen_throughout {m : Memory} (hm : m.Reachable) {events : List Event} {id : GoalId}
    {g : Goal} (hget : m.goals.get? id = some g)
    (hsealed : m.Throughout events fun m' => m'.Sealed id g.team g.period) :
    m.Throughout events (m.Frozen id) := by
  refine .of_step hm hsealed (.refl m id) ?_
  intro m' e hm' hnow _ hfrozen
  obtain ⟨g', hget', hperiod⟩ := hfrozen.exists_goal hget
  have hclosed : m'.statusOf g'.team g'.period = .closed := by
    rw [hnow.2 g' hget', hperiod]
    exact hnow.1
  exact hfrozen.trans (frozen_happen hm' hget' hclosed e)

/-- **A command for a team whose period is closed fails and changes nothing; and as long as the period
stays closed for the owner of a goal, and the goal with its owner, the goal is not deleted, and its key
results, all comments and its progress are as they were**, whatever the commands are and whomever they
are issued for. -/
theorem frozen_while_closed :
    (∀ (m : Memory) (c : Command) (team : TeamId) (period : PeriodId),
      c.acting m = some (team, period) → m.statusOf team period = .closed →
        ∃ e, c.program.run carry m = (.error e, m)) ∧
    ∀ (m : Memory), m.Reachable → ∀ (events : List Event) (id : GoalId) (g : Goal),
      m.goals.get? id = some g → m.Throughout events (fun m' => m'.Sealed id g.team g.period) →
        m.Throughout events fun m' => m.Frozen id m' ∧ m'.progressOf id = m.progressOf id := by
  refine ⟨fun m c team period => Command.refuses_of_closed, ?_⟩
  intro m hm events id g hget hsealed
  exact (frozen_throughout hm hget hsealed).mono fun m' h => ⟨h, h.progress⟩

/-- The store `discussed` once the period is closed for the owner of the goal, but not for the other team
that carries it. -/
def sealedGoal : Memory := ((Command.setStatus 1 3 .closed).program.run carry discussed).2

theorem reachable_sealedGoal : sealedGoal.Reachable :=
  (((reachable_oneShare.run _).run _).run _).run _

/-- The draft of an edit that the other team makes. -/
def rewording : GoalDraft := ⟨"Shrink", "", .p1, .max, .delivery, .stability, ""⟩

/-- The other team edits the goal and gives up its share; a report is refused. -/
theorem frozen_while_closed_sealedGoal :
    let report : Command := .recordProgress 5 (.boolean true)
    let events : List Event := [.command (.updateGoal 4 (some 2) rewording), .command report,
      .command (.deleteGoal 4 (some 2))]
    ∃ g, report.acting sealedGoal = some (1, 3) ∧ sealedGoal.statusOf 1 3 = .closed ∧
      (∃ e, report.program.run carry sealedGoal = (.error e, sealedGoal)) ∧
      sealedGoal.Reachable ∧ sealedGoal.goals.get? 4 = some g ∧
      (sealedGoal.Throughout events fun m' => m'.Sealed 4 g.team g.period) ∧
      sealedGoal.play events ≠ sealedGoal ∧
      sealedGoal.Throughout events fun m' =>
        sealedGoal.Frozen 4 m' ∧ m'.progressOf 4 = sealedGoal.progressOf 4 := by
  intro report events
  have hget : sealedGoal.goals.get? 4 = some grow := by decide +kernel
  have hacting : report.acting sealedGoal = some (1, 3) := by decide +kernel
  have hclosed : sealedGoal.statusOf 1 3 = .closed := by decide +kernel
  have hsealed : sealedGoal.Throughout events fun m' => m'.Sealed 4 1 3 :=
    .cons (by decide +kernel) (.cons (by decide +kernel) (.cons (by decide +kernel)
      (.nil (by decide +kernel))))
  exact ⟨_, hacting, hclosed, frozen_while_closed.1 sealedGoal report 1 3 hacting hclosed,
    reachable_sealedGoal, hget, hsealed, by decide +kernel,
    frozen_while_closed.2 sealedGoal reachable_sealedGoal events 4 _ hget hsealed⟩

end Memory

end Objectives
