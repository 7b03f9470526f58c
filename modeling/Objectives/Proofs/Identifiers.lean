/- # Identifiers in a store

One counter gives the identifiers of teams, periods, goals, key results, stages, checkpoints and
comments.  A call gives each identifier that is new in the store once, and no other call gives it
again: so no identifier stands for two things, and one that has left the store stays away.

The identifiers of a store are counted.  Each occurs after a call at most as often as before, and once
more if it has been given by the call.

Main definitions:

* `Table.ids`, `Measurement.ids`, `KeyResult.ids`, `Memory.ids` — the identifiers in each of them;
* `fresh` — how often an identifier has been given between two states of the counter;
* `Memory.Renewed` — a store in which no identifier occurs more often than it may.

Main results:

* `Memory.renewed_carry` — **a call brings no identifier in but those that it gives**;
* `Memory.Numbered` — no identifier stands for two things, and all have been given;
* `Memory.Renewed.numbered`, `Memory.Renewed.not_mem_ids` — what is kept when a store is renewed.
-/

import Mathlib.Data.List.Flatten
import Objectives.Proofs.Replay
import Objectives.Proofs.Subject
import Objectives.Proofs.Table

set_option relaxedAutoImplicit false
set_option autoImplicit false

namespace Objectives

/-! ### Identifiers in tables -/

namespace Table

variable {κ ν : Type} [Key κ]

/-- The identifiers in the values of a table. -/
def ids (idsOf : ν → List Int) (t : Table κ ν) : List Int := t.values.flatMap idsOf

variable [DecidableEq κ] (idsOf : ν → List Int)

theorem count_ids_insert (t : Table κ ν) (k : κ) (v : ν) (i : Int) :
    ((t.insert k v).ids idsOf).count i = (idsOf v).count i + ((t.erase k).ids idsOf).count i := by
  have hperm := ((t.perm_insert k v).map Prod.snd).flatMap_right idsOf
  rw [ids, values, hperm.count_eq]
  exact List.count_append

theorem count_ids_of_get? {t : Table κ ν} {k : κ} {v : ν} (h : t.get? k = some v) (i : Int) :
    (t.ids idsOf).count i = (idsOf v).count i + ((t.erase k).ids idsOf).count i := by
  have hcount := t.count_ids_insert idsOf k v i
  rwa [insert_get? h] at hcount

omit [DecidableEq κ] in
theorem count_ids_filter_le (t : Table κ ν) (keep : κ → ν → Bool) (i : Int) :
    ((t.filter keep).ids idsOf).count i ≤ (t.ids idsOf).count i := by
  have hsub : (t.filter keep).values.Sublist t.values := List.filter_sublist.map Prod.snd
  exact (hsub.flatMap idsOf).count_le i

/-- A new value brings in its own identifiers alone. -/
theorem count_ids_insert_le (t : Table κ ν) (k : κ) {v : ν} {i : Int} {n : Nat}
    (hv : (idsOf v).count i ≤ n) :
    ((t.insert k v).ids idsOf).count i ≤ (t.ids idsOf).count i + n := by
  have hinsert := t.count_ids_insert idsOf k v i
  have hkept := t.count_ids_filter_le idsOf (fun k' _ => k' ≠ k) i
  rw [← erase] at hkept
  omega

/-- A value that takes the place of another brings in what it has more than that. -/
theorem count_ids_replace_le {t : Table κ ν} {k : κ} {v v' : ν} (h : t.get? k = some v) {i : Int}
    {n : Nat} (hv : (idsOf v').count i ≤ (idsOf v).count i + n) :
    ((t.insert k v').ids idsOf).count i ≤ (t.ids idsOf).count i + n := by
  have hinsert := t.count_ids_insert idsOf k v' i
  have hold := count_ids_of_get? idsOf h i
  omega

/-- A change that leaves the identifiers of a value brings in none. -/
theorem ids_modify {f : ν → ν} (hf : ∀ v, idsOf (f v) = idsOf v) (t : Table κ ν) (k : κ) :
    (t.modify k f).ids idsOf = t.ids idsOf := by
  unfold ids values modify mapValues
  rw [List.map_map, List.flatMap_map, List.flatMap_map]
  refine List.flatMap_congr fun e _ => ?_
  simp only [Function.comp]
  split
  · exact hf e.2
  · rfl

end Table

/-! ### Identifiers in records -/

/-- The identifiers of the parts of a measurement. -/
def Measurement.ids : Measurement → List Int
  | project stages => stages.map Stage.id
  | percent _ checkpoints => checkpoints.map Checkpoint.id
  | linear _ | boolean _ => []

/-- The identifiers of a key result and of its parts. -/
def KeyResult.ids (k : KeyResult) : List Int := k.id :: k.measurement.ids

/-- How often an identifier has been given between two states of the counter. -/
def fresh (lastId lastId' i : Int) : Nat := if lastId < i ∧ i ≤ lastId' then 1 else 0

theorem fresh_add {a b c : Int} (hab : a ≤ b) (hbc : b ≤ c) (i : Int) :
    fresh a b i + fresh b c i = fresh a c i := by
  unfold fresh
  split_ifs <;> omega

/-- The next identifier is given once. -/
theorem count_next_le (lastId i : Int) : [lastId + 1].count i ≤ fresh lastId (lastId + 1) i := by
  unfold fresh
  rw [List.count_singleton]
  split_ifs with h h' <;> simp only [beq_iff_eq] at h <;> omega

namespace Measurement

/-- A report brings in no identifier and takes none out. -/
theorem ids_report (measurement : Measurement) (update : ProgressUpdate) :
    (measurement.report update).2.ids = measurement.ids := by
  rcases measurement.report_cases update with ⟨measurement', htakes, hreport⟩ | ⟨e, hreport⟩
  · rw [hreport]
    cases htakes with
    | stage hset => exact ids_of_unmarked (map_setStage hset)
    | percentCurrent | linearCurrent | boolean => rfl
  · rw [hreport]

end Measurement

namespace Memory

/-- The stages of a project take one identifier each. -/
theorem count_numberStages_le (lastId place : Int) (drafts : List StageDraft) (i : Int) :
    ((numberStages lastId place drafts).map Stage.id).count i ≤
      fresh lastId (lastId + drafts.length) i := by
  induction drafts generalizing lastId place with
  | nil => exact Nat.zero_le _
  | cons draft rest ih =>
    have hnext := count_next_le lastId i
    have hrest := ih (lastId + 1) (place + 1)
    have hadd := fresh_add (a := lastId) (b := lastId + 1) (c := lastId + 1 + rest.length)
      (by omega) (by omega) i
    have hlast : lastId + (draft :: rest).length = lastId + 1 + rest.length := by
      rw [List.length_cons]
      omega
    rw [numberStages, List.map_cons, ← List.singleton_append, List.count_append, hlast]
    dsimp only
    omega

/-- A measurement has the identifiers that are kept and those that are given. -/
theorem count_measure_le (m : Memory) (draft : MeasurementDraft) (kept : List Checkpoint) (i : Int) :
    (m.measure draft kept).1.ids.count i ≤
      (kept.map Checkpoint.id).count i + fresh m.lastId (m.measure draft kept).2.lastId i := by
  cases draft with
  | project stages =>
    have hcount := count_numberStages_le m.lastId 1 stages i
    simp only [measure, Measurement.ids]
    omega
  | percent range =>
    simp only [measure, Measurement.ids]
    omega
  | linear range => exact Nat.zero_le _
  | boolean done => exact Nat.zero_le _

/-- The checkpoints that are kept were there. -/
theorem count_keptCheckpoints_le (measurement : Measurement) (draft : MeasurementDraft) (i : Int) :
    ((keptCheckpoints measurement draft).map Checkpoint.id).count i ≤ measurement.ids.count i := by
  unfold keptCheckpoints
  split
  · exact Nat.le_refl _
  · exact Nat.zero_le _

/-! ### Identifiers in a store -/

/-- The identifiers of all records and of their parts. -/
def ids (m : Memory) : List Int :=
  m.teams.ids (fun t => [t.id]) ++ m.periods.ids (fun p => [p.id]) ++
    m.goals.ids (fun g => [g.id]) ++ m.keyResults.ids KeyResult.ids ++
    m.comments.ids (fun c => [c.id])

theorem count_ids (m : Memory) (i : Int) :
    m.ids.count i = (m.teams.ids fun t => [t.id]).count i + (m.periods.ids fun p => [p.id]).count i +
      (m.goals.ids fun g => [g.id]).count i + (m.keyResults.ids KeyResult.ids).count i +
      (m.comments.ids fun c => [c.id]).count i := by
  simp only [ids, List.count_append]

/-- An identifier occurs in the store at least as often as in one of its key results. -/
theorem count_le_of_get? {m : Memory} {id : KeyResultId} {k : KeyResult}
    (hget : m.keyResults.get? id = some k) (i : Int) : k.ids.count i ≤ m.ids.count i := by
  have hcount := Table.count_ids_of_get? KeyResult.ids hget i
  rw [count_ids]
  omega

/-- No identifier occurs more often than before, but that those which have been given in between
occur once more. -/
structure Renewed (m m' : Memory) : Prop where
  lastId_le : m.lastId ≤ m'.lastId
  count_le : ∀ i, m'.ids.count i ≤ m.ids.count i + fresh m.lastId m'.lastId i

namespace Renewed

variable {m m' m'' : Memory}

theorem refl (m : Memory) : m.Renewed m where
  lastId_le := Int.le_refl _
  count_le _ := Nat.le_add_right _ _

theorem trans (h : m.Renewed m') (h' : m'.Renewed m'') : m.Renewed m'' where
  lastId_le := Int.le_trans h.lastId_le h'.lastId_le
  count_le i := by
    have hfirst := h.count_le i
    have hsecond := h'.count_le i
    have hadd := fresh_add h.lastId_le h'.lastId_le i
    omega

/-- A change of periods. -/
theorem of_periods {periods : Table PeriodId Period} {lastId : Int} (hle : m.lastId ≤ lastId)
    (h : ∀ i, (periods.ids fun p => [p.id]).count i ≤
      (m.periods.ids fun p => [p.id]).count i + fresh m.lastId lastId i) :
    m.Renewed { m with periods, lastId } where
  lastId_le := hle
  count_le i := by
    have hi := h i
    rw [count_ids, count_ids]
    dsimp only
    omega

/-- A change of goals and shares. -/
theorem of_goals {goals : Table GoalId Goal} {lastId : Int} (shares : Table (GoalId × TeamId) Share)
    (hle : m.lastId ≤ lastId)
    (h : ∀ i, (goals.ids fun g => [g.id]).count i ≤
      (m.goals.ids fun g => [g.id]).count i + fresh m.lastId lastId i) :
    m.Renewed { m with goals, shares, lastId } where
  lastId_le := hle
  count_le i := by
    have hi := h i
    rw [count_ids, count_ids]
    dsimp only
    omega

/-- A change of key results. -/
theorem of_keyResults {keyResults : Table KeyResultId KeyResult} {lastId : Int}
    (hle : m.lastId ≤ lastId)
    (h : ∀ i, (keyResults.ids KeyResult.ids).count i ≤
      (m.keyResults.ids KeyResult.ids).count i + fresh m.lastId lastId i) :
    m.Renewed { m with keyResults, lastId } where
  lastId_le := hle
  count_le i := by
    have hi := h i
    rw [count_ids, count_ids]
    dsimp only
    omega

end Renewed

/-! ### The calls, one by one -/

section Calls

variable {m : Memory}

theorem ids_setOrders {ν : Type} {idsOf : ν → List Int} {set : Int → ν → ν}
    (hset : ∀ order v, idsOf (set order v) = idsOf v) (t : Table Int ν) (changes : List (Int × Int)) :
    (setOrders set t changes).ids idsOf = t.ids idsOf := by
  induction changes generalizing t with
  | nil => rfl
  | cons change rest ih =>
    rw [setOrders, List.foldl_cons]
    exact (ih _).trans (Table.ids_modify _ (hset change.2) t change.1)

/-! #### Periods and goals -/

theorem renewed_createPeriod (name : String) (startDate endDate : Date) :
    m.Renewed (m.createPeriod name startDate endDate).2 := by
  unfold createPeriod
  simp only
  split
  · rename_i period hmake
    have hid : period.id = m.lastId + 1 := by
      unfold Period.make at hmake
      simp only at hmake
      split at hmake
      · cases hmake
      · split at hmake <;> cases hmake
        rfl
    refine .of_periods (by simp only [takeId]; omega) fun i => ?_
    refine m.periods.count_ids_insert_le _ period.id ?_
    rw [hid]
    exact count_next_le m.lastId i
  · have hle : m.lastId ≤ m.takeId.lastId := by simp only [takeId]; omega
    refine .of_periods hle fun i => ?_
    exact Nat.le_add_right _ _

theorem renewed_createGoal (team : TeamId) (period : PeriodId) (draft : GoalDraft) :
    m.Renewed (m.createGoal team period draft).2 := by
  refine .of_goals m.shares (by simp only [takeId]; omega) fun i => ?_
  exact m.goals.count_ids_insert_le _ _ (count_next_le m.lastId i)

/-- A goal that takes the place of one with the same identifier. -/
theorem renewed_replaceGoal {id : GoalId} {g g' : Goal} (hget : m.goals.get? id = some g)
    (hid : g'.id = g.id) (shares : Table (GoalId × TeamId) Share) :
    m.Renewed { m with goals := m.goals.insert id g', shares } := by
  refine .of_goals _ (Int.le_refl _) fun i => ?_
  refine Nat.le_trans (Table.count_ids_replace_le _ hget (n := 0) ?_) (Nat.le_add_right _ _)
  rw [hid]
  exact Nat.le_refl _

theorem renewed_shares (shares : Table (GoalId × TeamId) Share) :
    m.Renewed { m with shares } :=
  .of_goals _ (Int.le_refl _) fun _ => Nat.le_add_right _ _

theorem renewed_updateGoal (id : GoalId) (draft : GoalDraft) :
    m.Renewed (m.updateGoal id draft).2 := by
  unfold updateGoal
  split
  · exact .refl m
  · rename_i goal hget
    have hid : (goal.apply draft).id = goal.id := rfl
    exact renewed_replaceGoal hget hid m.shares

theorem renewed_replaceShares (plan : SharePlan) : m.Renewed (m.replaceShares plan).2 := by
  unfold replaceShares
  rcases m.setOwner_cases plan.goal plan.owner with
    ⟨-, hset⟩ | ⟨goal, goal', order, hget, hgoal', -, hset⟩
  · rw [hset]
    exact .refl m
  · rw [hset]
    exact renewed_replaceGoal hget (by rw [hgoal']) _

theorem renewed_promote (share : Share) : m.Renewed (m.promote share).2 := by
  unfold promote
  rcases m.setOwner_cases share.goal ⟨share.team, share.weight⟩ with
    ⟨-, hset⟩ | ⟨goal, goal', order, hget, hgoal', -, hset⟩
  · rw [hset]
    exact .refl m
  · rw [hset]
    exact renewed_replaceGoal hget (by rw [hgoal']) _

theorem renewed_setTeamWeight (id : GoalId) (team : TeamId) (weight : Weight) :
    m.Renewed (m.setTeamWeight id team weight).2 := by
  have hshare : m.Renewed (m.setShareWeight id team weight).2 := by
    unfold setShareWeight
    split
    · exact renewed_shares _
    · exact .refl m
  unfold setTeamWeight
  split
  · rename_i goal hget
    split
    · have hid : { goal with weight }.id = goal.id := rfl
      exact renewed_replaceGoal hget hid m.shares
    · exact hshare
  · exact hshare

/-- With a goal go the identifiers of its key results and of the comments. -/
theorem renewed_deleteGoal (id : GoalId) : m.Renewed (m.deleteGoal id).2 := by
  unfold deleteGoal
  split
  · refine ⟨Int.le_refl _, fun i => ?_⟩
    have hgoals := m.goals.count_ids_filter_le (fun g => [g.id]) (fun k _ => k ≠ id) i
    have hkeyResults := m.keyResults.count_ids_filter_le KeyResult.ids
      (fun _ k => k.goal != id) i
    have hcomments := m.comments.count_ids_filter_le (fun c => [c.id])
      (fun _ c => !m.isCommentOn id c) i
    rw [← Table.erase] at hgoals
    rw [count_ids, count_ids]
    dsimp only
    omega
  · exact .refl m

/-! #### Key results and comments -/

/-- A key result that takes the place of another with its identifiers and with new ones. -/
theorem renewed_replaceKeyResult {id : KeyResultId} {k k' : KeyResult} {lastId : Int}
    (hget : m.keyResults.get? id = some k) (hle : m.lastId ≤ lastId)
    (hids : ∀ i, k'.ids.count i ≤ k.ids.count i + fresh m.lastId lastId i) :
    m.Renewed { m with keyResults := m.keyResults.insert id k', lastId } :=
  .of_keyResults hle fun i => Table.count_ids_replace_le _ hget (hids i)

theorem renewed_createKeyResult (goal : GoalId) (draft : KeyResultDraft) :
    m.Renewed (m.createKeyResult goal draft).2 := by
  unfold createKeyResult
  split
  · obtain ⟨lastId, hle, hmeasure⟩ := m.takeId.measure_snd draft.measurement []
    have hcount := m.takeId.count_measure_le draft.measurement []
    simp only [hmeasure] at hcount ⊢
    simp only [takeId] at hle hcount ⊢
    refine .of_keyResults (by omega) fun i => ?_
    refine m.keyResults.count_ids_insert_le _ _ ?_
    have hnext := count_next_le m.lastId i
    have hparts := hcount i
    have hadd := fresh_add (a := m.lastId) (b := m.lastId + 1) (c := lastId) (by omega) hle i
    rw [KeyResult.ids, ← List.singleton_append, List.count_append]
    simp only [List.map_nil, List.count_nil] at hparts ⊢
    omega
  · exact .refl m

/-- The checkpoints that are kept were there, and new stages have new identifiers. -/
theorem renewed_updateKeyResult (id : KeyResultId) (draft : KeyResultDraft) :
    m.Renewed (m.updateKeyResult id draft).2 := by
  unfold updateKeyResult
  split
  · exact .refl m
  · rename_i current hget
    obtain ⟨lastId, hle, hmeasure⟩ :=
      m.measure_snd draft.measurement (keptCheckpoints current.measurement draft.measurement)
    have hcount := m.count_measure_le draft.measurement
      (keptCheckpoints current.measurement draft.measurement)
    simp only [hmeasure] at hcount ⊢
    refine renewed_replaceKeyResult hget hle fun i => ?_
    have hparts := hcount i
    have hkept := count_keptCheckpoints_le current.measurement draft.measurement i
    simp only [KeyResult.ids, List.count_cons]
    omega

theorem renewed_setWeights (goal : GoalId) (weights : List (KeyResultId × Weight)) :
    m.Renewed (m.setWeights goal weights).2 := by
  have hids : ∀ t : Table KeyResultId KeyResult,
      (weights.foldl setWeight t).ids KeyResult.ids = t.ids KeyResult.ids := by
    induction weights with
    | nil => exact fun _ => rfl
    | cons item rest ih =>
      intro t
      refine (ih _).trans (Table.ids_modify _ ?_ t item.1)
      intro k
      rfl
  unfold setWeights
  split
  · exact .refl m
  · refine .of_keyResults (Int.le_refl _) fun i => ?_
    rw [hids]
    exact Nat.le_add_right _ _

theorem renewed_recordProgress (id : KeyResultId) (update : ProgressUpdate) :
    m.Renewed (m.recordProgress id update).2 := by
  unfold recordProgress
  split
  · exact .refl m
  · rename_i keyResult hget
    refine renewed_replaceKeyResult hget (Int.le_refl _) fun i => ?_
    simp only [KeyResult.ids, Measurement.ids_report]
    exact Nat.le_add_right _ _

/-- An identifier that is given to no checkpoint is lost. -/
theorem renewed_takeId : m.Renewed m.takeId := by
  refine .of_keyResults ?_ fun _ => Nat.le_add_right _ _
  omega

theorem renewed_addCheckpoint (id : KeyResultId) (draft : CheckpointDraft) :
    m.Renewed (m.addCheckpoint id draft).2 := by
  unfold addCheckpoint
  simp only
  split
  · rename_i keyResult hget
    split
    · rename_i range checkpoints hmeasurement
      refine renewed_replaceKeyResult hget (Int.le_of_lt (Int.lt_succ _)) fun i => ?_
      have hnext := count_next_le m.lastId i
      have hids : ((sortBy Checkpoint.le (checkpoints ++ [draft.store (m.lastId + 1)])).map
          Checkpoint.id).count i = (checkpoints.map Checkpoint.id).count i + [m.lastId + 1].count i := by
        rw [((sortBy_perm _ _).map _).count_eq, List.map_append, List.count_append]
        rfl
      simp only [KeyResult.ids, hmeasurement, Measurement.ids, List.count_cons, takeId]
      omega
    · exact renewed_takeId
  · exact renewed_takeId

theorem renewed_deleteKeyResult (id : KeyResultId) : m.Renewed (m.deleteKeyResult id).2 := by
  unfold deleteKeyResult
  split
  · refine ⟨Int.le_refl _, fun i => ?_⟩
    have hkeyResults := m.keyResults.count_ids_filter_le KeyResult.ids
      (fun k _ => k ≠ id) i
    have hcomments := m.comments.count_ids_filter_le (fun c => [c.id])
      (fun _ c => c.target != .keyResult id) i
    rw [← Table.erase] at hkeyResults
    rw [count_ids, count_ids]
    dsimp only
    omega
  · exact .refl m

theorem renewed_addComment (target : CommentTarget) (text : String) :
    m.Renewed (m.addComment target text).2 := by
  unfold addComment
  split
  · exact .refl m
  · refine ⟨Int.le_of_lt (Int.lt_succ _), fun i => ?_⟩
    have hinsert := m.comments.count_ids_insert_le (fun c => [c.id])
      (v := ⟨m.lastId + 1, target, text⟩) (m.lastId + 1) (count_next_le m.lastId i)
    rw [count_ids, count_ids]
    simp only [takeId]
    omega

theorem renewed_move (item : SequencedItem) (direction : Direction) :
    m.Renewed (m.move item direction).2 := by
  cases item with
  | goal id asTeam =>
    unfold move
    simp only
    split
    · exact .refl m
    · split
      · exact .refl m
      · refine .of_goals _ (Int.le_refl _) fun i => ?_
        rw [ids_setOrders]
        · exact Nat.le_add_right _ _
        · intro order g
          rfl
  | keyResult id =>
    unfold move
    simp only
    split
    · exact .refl m
    · refine .of_keyResults (Int.le_refl _) fun i => ?_
      rw [ids_setOrders]
      · exact Nat.le_add_right _ _
      · intro order k
        rfl
  | period id =>
    unfold move
    simp only
    split
    · exact .refl m
    · refine .of_periods (Int.le_refl _) fun i => ?_
      rw [ids_setOrders]
      · exact Nat.le_add_right _ _
      · intro order p
        rfl

/-- **A call brings no identifier in but those that it gives**, and each of these once. -/
theorem renewed_carry (c : Call) (m : Memory) : m.Renewed (carry c m).2 := by
  cases c with
  | createPeriod name startDate endDate => exact renewed_createPeriod name startDate endDate
  | setStatus team period status => exact ⟨Int.le_refl _, fun _ => Nat.le_add_right _ _⟩
  | createGoal team period draft => exact renewed_createGoal team period draft
  | updateGoal id draft => exact renewed_updateGoal id draft
  | deleteGoal id => exact renewed_deleteGoal id
  | replaceShares plan => exact renewed_replaceShares plan
  | removeShare goal team => exact renewed_shares _
  | promote share => exact renewed_promote share
  | setTeamWeight goal team weight => exact renewed_setTeamWeight goal team weight
  | createKeyResult goal draft => exact renewed_createKeyResult goal draft
  | updateKeyResult id draft => exact renewed_updateKeyResult id draft
  | setWeights goal weights => exact renewed_setWeights goal weights
  | recordProgress id update => exact renewed_recordProgress id update
  | addCheckpoint id draft => exact renewed_addCheckpoint id draft
  | deleteKeyResult id => exact renewed_deleteKeyResult id
  | addComment target text => exact renewed_addComment target text
  | move item direction => exact renewed_move item direction
  | teams | team | periods | period | periodOn | status | statuses | goal | goalsOf | shares
  | keyResult | keyResultsOf | comments => exact .refl m

/-! #### Teams -/

theorem renewed_addTeam (m : Memory) (name : String) (type : TeamType) (parent : Option TeamId) :
    m.Renewed (m.addTeam name type parent).2 := by
  refine ⟨Int.le_of_lt (Int.lt_succ _), fun i => ?_⟩
  have hinsert := m.teams.count_ids_insert_le (fun t => [t.id])
    (v := ⟨m.lastId + 1, name, type, parent⟩) (m.lastId + 1) (count_next_le m.lastId i)
  rw [count_ids, count_ids]
  simp only [addTeam, takeId]
  omega

theorem renewed_setTeamParent (m : Memory) (team : TeamId) (parent : Option TeamId) :
    m.Renewed (m.setTeamParent team parent) := by
  refine ⟨Int.le_refl _, fun i => ?_⟩
  have hids := Table.ids_modify (fun t : Team => [t.id]) (f := fun t => { t with parent })
    (fun _ => rfl) m.teams team
  rw [count_ids, count_ids]
  simp only [setTeamParent, hids]
  exact Nat.le_add_right _ _

end Calls

/-! ### Numbered stores -/

/-- No identifier stands for two things, and all of them have been given. -/
structure Numbered (m : Memory) : Prop where
  lastId_nonneg : 0 ≤ m.lastId
  distinct : m.ids.Nodup
  given : ∀ i ∈ m.ids, 1 ≤ i ∧ i ≤ m.lastId

theorem Numbered.empty : Memory.empty.Numbered where
  lastId_nonneg := Int.le_refl 0
  distinct := List.nodup_nil
  given i hi := by cases hi

namespace Numbered

variable {m : Memory} {id : KeyResultId} {k : KeyResult}

/-- A key result and its parts have distinct identifiers. -/
theorem nodup_ids (h : m.Numbered) (hget : m.keyResults.get? id = some k) : k.ids.Nodup :=
  List.nodup_iff_count_le_one.2 fun i =>
    Nat.le_trans (count_le_of_get? hget i) (List.nodup_iff_count_le_one.1 h.distinct i)

/-- All of them have been given. -/
theorem le_lastId (h : m.Numbered) (hget : m.keyResults.get? id = some k) {i : Int} (hi : i ∈ k.ids) :
    i ≤ m.lastId := by
  have hpos := Nat.lt_of_lt_of_le (List.count_pos_iff.2 hi) (count_le_of_get? hget i)
  exact (h.given i (List.count_pos_iff.1 hpos)).2

end Numbered

namespace Renewed

variable {m m' : Memory}

/-- An identifier in a renewed store was there, or has been given in between. -/
theorem mem_or_given (h : m.Renewed m') {i : Int} (hi : i ∈ m'.ids) :
    i ∈ m.ids ∨ m.lastId < i ∧ i ≤ m'.lastId := by
  by_cases hgiven : m.lastId < i ∧ i ≤ m'.lastId
  · exact .inr hgiven
  · have hcount := h.count_le i
    have hpos := List.count_pos_iff.2 hi
    rw [fresh, if_neg hgiven] at hcount
    exact .inl (List.count_pos_iff.1 (by omega))

/-- A renewed store is numbered: what has been given in between was not there. -/
theorem numbered (h : m.Renewed m') (hm : m.Numbered) : m'.Numbered where
  lastId_nonneg := Int.le_trans hm.lastId_nonneg h.lastId_le
  distinct := by
    refine List.nodup_iff_count_le_one.2 fun i => ?_
    have hcount := h.count_le i
    have hone := List.nodup_iff_count_le_one.1 hm.distinct i
    by_cases hgiven : m.lastId < i ∧ i ≤ m'.lastId
    · have hnone : m.ids.count i = 0 := by
        refine List.count_eq_zero.2 fun hmem => ?_
        have hle := (hm.given i hmem).2
        omega
      rw [fresh, if_pos hgiven] at hcount
      omega
    · rw [fresh, if_neg hgiven] at hcount
      omega
  given i hi := by
    have hle := h.lastId_le
    have h0 := hm.lastId_nonneg
    rcases h.mem_or_given hi with hmem | hgiven
    · have hbounds := hm.given i hmem
      omega
    · omega

/-- An identifier that was given and is not there does not come back. -/
theorem not_mem_ids (h : m.Renewed m') {i : Int} (hle : i ≤ m.lastId) (hi : i ∉ m.ids) :
    i ∉ m'.ids := by
  intro hmem
  rcases h.mem_or_given hmem with hmem | hgiven
  · exact hi hmem
  · omega

end Renewed

end Memory

end Objectives
