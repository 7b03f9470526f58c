/- # Queries of the database

What the calls that read answer.

Main results:

* `Session.findGoal_run`, `Session.goalsOf_run`, `Session.loadKeyResult_run`, … — the answers;
* `Session.session_run_snd` — **a call that reads leaves the database as it is**.
-/

import Objectives.Proofs.Statements
import Objectives.Proofs.Subject

set_option relaxedAutoImplicit false
set_option autoImplicit false

namespace Objectives

/-! ### Columns -/

namespace Column

variable {column : String}

/-- A word that can be read is the name of what is read. -/
theorem name_of_word {α : Type} [Vocabulary α] {text : String} {a : α}
    (h : word α column text = .ok a) : Vocabulary.name a = text := by
  unfold word Vocabulary.read at h
  cases hfind : (Vocabulary.find? text : Option α) with
  | none =>
    rw [hfind] at h
    cases h
  | some b =>
    rw [hfind] at h
    cases h
    exact Vocabulary.name_of_find? hfind

/-- A number that can be read as a weight is its value. -/
theorem value_of_weight {value : Int} {w : Weight} (h : weight column value = .ok w) :
    (w.value : Int) = value := by
  unfold weight Weight.ofInt at h
  split at h
  · rename_i w' hw
    split at hw
    · rename_i hrange
      cases hw
      cases h
      show (value.toNat : Int) = value
      omega
    · cases hw
  · cases h

end Column

/-- The goal of a row is under its key, and the row is that of the goal. -/
theorem GoalRow.eq_of_read {id : GoalId} {row : GoalRow} {g : Goal} (h : row.read id = .ok g) :
    g.id = id ∧ row = ofGoal g := by
  unfold read at h
  cases hp : Column.word Priority "priority" row.priority <;> rw [hp] at h
  · cases h
  cases hw : Column.weight "weight" row.weight <;> simp only [hw] at h
  · cases h
  cases ht : Column.word WorkType "work_type" row.workType <;> simp only [ht] at h
  · cases h
  cases hf : Column.word FocusType "focus_type" row.focusType <;> simp only [hf] at h
  · cases h
  cases h
  refine ⟨rfl, ?_⟩
  have hp := Column.name_of_word hp
  have hw := Column.value_of_weight hw
  have ht := Column.name_of_word ht
  have hf := Column.name_of_word hf
  cases row
  subst hp hw ht hf
  rfl

namespace Session

variable {db : Contents}

/-! ### Teams and periods -/

theorem listTeams_run :
    listTeams .standard db =
      ((sortBy teamBefore db.rows.teams.entries).mapM fun e => e.2.read e.1, db) := by
  rw [listTeams, bind_query_run]
  exact collect_run (fun _ => rfl) _

theorem findTeam_run (id : TeamId) :
    findTeam id .standard db = ((db.rows.teams.get? id).mapM fun row => row.read id, db) := by
  rw [findTeam, bind_query_run]
  cases db.rows.teams.get? id with
  | none => rfl
  | some row =>
    simp only [Effect.bind_run, lift_run, Option.mapM_some]
    cases row.read id <;> rfl

theorem listPeriods_run :
    listPeriods .standard db =
      (.ok ((sortBy (orderedBefore PeriodRow.sortOrder) db.rows.periods.entries).map fun e =>
        e.2.read e.1), db) := by
  rw [listPeriods, bind_query_run]
  rfl

theorem findPeriod_run (id : PeriodId) :
    findPeriod id .standard db = (.ok ((db.rows.periods.get? id).map fun row => row.read id), db) := by
  rw [findPeriod, bind_query_run]
  rfl

theorem periodOn_run (day : Date) :
    periodOn day .standard db =
      (.ok (sortBy laterPeriod ((db.rows.periods.entries.map fun e => e.2.read e.1).filter
        fun p => p.contains day)).head?, db) := by
  rw [periodOn, bind_query_run]
  rfl

/-! ### Statuses -/

theorem findStatus_run (team : TeamId) (period : PeriodId) :
    findStatus team period .standard db =
      (match db.rows.statuses.get? (team, period) with
        | some text => readStatus text
        | none => .ok .noGoals, db) := by
  rw [findStatus, bind_query_run]
  cases db.rows.statuses.get? (team, period) <;> rfl

theorem listStatuses_run (period : PeriodId) :
    listStatuses period .standard db =
      (((db.rows.statuses.entries.filter fun e => e.1.2 == period).mapM fun e =>
        (readStatus e.2).map fun status => (e.1.1, status)).map Table.ofList, db) := by
  rw [listStatuses, bind_query_run]
  simp only [Effect.bind_run]
  rw [collect_run (g := fun e => (readStatus e.2).map fun status => (e.1.1, status))]
  · cases (db.rows.statuses.entries.filter fun e => e.1.2 == period).mapM fun e =>
      (readStatus e.2).map fun status => (e.1.1, status) <;> rfl
  · intro e
    simp only [Effect.bind_run, lift_run]
    cases readStatus e.2 <;> rfl

/-! ### Goals and shares -/

theorem findGoal_run (id : GoalId) :
    findGoal id .standard db = ((db.rows.goals.get? id).mapM fun row => row.read id, db) := by
  rw [findGoal, bind_query_run]
  cases db.rows.goals.get? id with
  | none => rfl
  | some row =>
    simp only [Effect.bind_run, lift_run, Option.mapM_some]
    cases row.read id <;> rfl

theorem goalsOf_run (team : TeamId) (period : PeriodId) :
    goalsOf team period .standard db =
      ((sortBy listedBefore ((db.rows.goals.entries.filter fun e =>
        e.2.period == period).filterMap (listedRow db.rows team))).mapM (readListed team), db) := by
  rw [goalsOf, bind_query_run]
  exact collect_run (fun _ => rfl) _

theorem listShares_run (goal : GoalId) :
    listShares goal .standard db =
      ((db.rows.shares.entries.filter fun e => e.1.1 == goal).mapM fun e => e.2.read e.1, db) := by
  rw [listShares, bind_query_run]
  exact collect_run (fun _ => rfl) _

end Session

/-! ### Key results -/

namespace Rows

variable (rows : Rows)

/-- The range of a key result in one of the relations that hold ranges. -/
def rangeOf (relation : Relation) (ranges : Rows → Table KeyResultId (MetricRange Double))
    (id : KeyResultId) : Except Failure (MetricRange Double) :=
  match (ranges rows).get? id with
  | none => .error (.unreadablePayload id (.rowMissing relation))
  | some range =>
    match MetricRange.make range.start range.target range.current with
    | .ok range => .ok range
    | .error v => .error (.unreadablePayload id (.refused v))

/-- The stages of a key result, in their order. -/
def stagesOf (id : KeyResultId) : Except Failure (List Stage) :=
  (sortBy (orderedBefore StageRow.sortOrder) (rows.stages.entries.filter fun e =>
    e.2.keyResult == id)).mapM fun e => e.2.read e.1

/-- The checkpoints of a key result, in their order. -/
def checkpointsOf (id : KeyResultId) : Except Failure (List Checkpoint) :=
  (sortBy checkpointBefore (rows.checkpoints.entries.filter fun e =>
    e.2.keyResult == id)).mapM fun e => e.2.read e.1

/-- The flag of a key result. -/
def flagOf (id : KeyResultId) : Except Failure Bool :=
  match rows.flags.get? id with
  | none => .error (.unreadablePayload id .flagMissing)
  | some done => .ok done

/-- The measurement of a key result of some kind. -/
def measurementOf (id : KeyResultId) : Kind → Except Failure Measurement
  | .project => (rows.stagesOf id).map .project
  | .percent => do
    let range ← rows.rangeOf .percentRanges Rows.percentRanges id
    (rows.checkpointsOf id).map (.percent range)
  | .linear => (rows.rangeOf .linearRanges Rows.linearRanges id).map .linear
  | .boolean => (rows.flagOf id).map .boolean

/-- The key result of a row. -/
def keyResultOf (id : KeyResultId) (row : KeyResultRow) : Except Failure KeyResult := do
  let kind ← Column.word Kind "kind" row.kind
  let weight ← Column.weight "weight" row.weight
  let measurement ← rows.measurementOf id kind
  return ⟨id, row.goal, row.title, row.description, weight, row.sortOrder, measurement⟩

/-- The key result of a row is under its key. -/
theorem id_of_keyResultOf {rows : Rows} {id : KeyResultId} {row : KeyResultRow} {k : KeyResult}
    (h : rows.keyResultOf id row = .ok k) : k.id = id := by
  unfold keyResultOf at h
  cases hk : Column.word Kind "kind" row.kind <;> simp only [hk] at h
  · cases h
  cases hw : Column.weight "weight" row.weight <;> simp only [hw] at h
  · cases h
  rename_i kind weight
  cases hm : rows.measurementOf id kind <;> simp only [Bind.bind, Except.bind, hm] at h
  · cases h
  cases h
  rfl

/-- The comments on a target, the newest first. -/
def commentsOn : CommentTarget → List Comment
  | .goal id => ((rows.goalComments.entries.filter fun e => e.2.owner == id).map fun e =>
    (⟨e.1, .goal id, e.2.text⟩ : Comment)).reverse
  | .keyResult id => ((rows.keyResultComments.entries.filter fun e => e.2.owner == id).map fun e =>
    (⟨e.1, .keyResult id, e.2.text⟩ : Comment)).reverse

end Rows

namespace Session

variable {db : Contents}

theorem readRange_run (relation : Relation) (ranges : Rows → Table KeyResultId (MetricRange Double))
    (id : KeyResultId) :
    readRange relation ranges id .standard db = (db.rows.rangeOf relation ranges id, db) := by
  rw [readRange, bind_query_run, Effect.bind_run, Rows.rangeOf]
  cases (ranges db.rows).get? id with
  | none => rfl
  | some range =>
    simp only [expect_run_some]
    cases MetricRange.make range.start range.target range.current <;> rfl

theorem readStages_run (id : KeyResultId) : readStages id .standard db = (db.rows.stagesOf id, db) := by
  rw [readStages, bind_query_run]
  exact collect_run (fun _ => rfl) _

theorem readCheckpoints_run (id : KeyResultId) :
    readCheckpoints id .standard db = (db.rows.checkpointsOf id, db) := by
  rw [readCheckpoints, bind_query_run]
  exact collect_run (fun _ => rfl) _

theorem readMeasurement_run (id : KeyResultId) (kind : Kind) :
    readMeasurement id kind .standard db = (db.rows.measurementOf id kind, db) := by
  cases kind with
  | project =>
    rw [readMeasurement, Effect.bind_run, readStages_run, Rows.measurementOf]
    cases db.rows.stagesOf id <;> rfl
  | percent =>
    rw [readMeasurement, Effect.bind_run, readRange_run, Rows.measurementOf]
    cases db.rows.rangeOf .percentRanges Rows.percentRanges id with
    | error e => rfl
    | ok range =>
      simp only [Effect.bind_run, readCheckpoints_run]
      cases db.rows.checkpointsOf id <;> rfl
  | linear =>
    rw [readMeasurement, Effect.bind_run, readRange_run, Rows.measurementOf]
    cases db.rows.rangeOf .linearRanges Rows.linearRanges id <;> rfl
  | boolean =>
    rw [readMeasurement, bind_query_run, Effect.bind_run, Rows.measurementOf, Rows.flagOf]
    cases db.rows.flags.get? id <;> rfl

theorem readKeyResult_run (id : KeyResultId) (row : KeyResultRow) :
    readKeyResult id row .standard db = (db.rows.keyResultOf id row, db) := by
  rw [readKeyResult, Effect.bind_run, lift_run, Rows.keyResultOf]
  cases Column.word Kind "kind" row.kind with
  | error e => rfl
  | ok kind =>
    simp only [Effect.bind_run, lift_run]
    cases Column.weight "weight" row.weight with
    | error e => rfl
    | ok weight =>
      simp only [readMeasurement_run, Except.bind, Bind.bind]
      generalize db.rows.measurementOf id kind = measurement
      cases measurement <;> rfl

theorem loadKeyResult_run (id : KeyResultId) :
    loadKeyResult id .standard db =
      ((db.rows.keyResults.get? id).mapM fun row => db.rows.keyResultOf id row, db) := by
  rw [loadKeyResult, bind_query_run]
  cases db.rows.keyResults.get? id with
  | none => rfl
  | some row =>
    simp only [Effect.bind_run, readKeyResult_run, Option.mapM_some]
    cases db.rows.keyResultOf id row <;> rfl

theorem listKeyResults_run (goal : GoalId) :
    listKeyResults goal .standard db =
      ((sortBy (orderedBefore KeyResultRow.sortOrder) (db.rows.keyResults.entries.filter fun e =>
        e.2.goal == goal)).mapM fun e => db.rows.keyResultOf e.1 e.2, db) := by
  rw [listKeyResults, bind_query_run]
  exact collect_run (g := fun e : KeyResultId × KeyResultRow => db.rows.keyResultOf e.1 e.2)
    (fun e => readKeyResult_run e.1 e.2) _

theorem listComments_run (target : CommentTarget) :
    listComments target .standard db = (.ok (db.rows.commentsOn target), db) := by
  cases target <;> (simp only [listComments]; rw [bind_query_run]; rfl)

/-- A call that only reads leaves the database as it is. -/
theorem session_run_snd {c : Call} (hc : c.subject = .nothing) :
    (Session.ofCall c .standard db).2 = db := by
  cases c with
  | teams => exact congrArg Prod.snd listTeams_run
  | team id => exact congrArg Prod.snd (findTeam_run id)
  | periods => exact congrArg Prod.snd listPeriods_run
  | period id => exact congrArg Prod.snd (findPeriod_run id)
  | periodOn day => exact congrArg Prod.snd (periodOn_run day)
  | status team period => exact congrArg Prod.snd (findStatus_run team period)
  | statuses period => exact congrArg Prod.snd (listStatuses_run period)
  | goal id => exact congrArg Prod.snd (findGoal_run id)
  | goalsOf team period => exact congrArg Prod.snd (goalsOf_run team period)
  | shares goal => exact congrArg Prod.snd (listShares_run goal)
  | keyResult id => exact congrArg Prod.snd (loadKeyResult_run id)
  | keyResultsOf goal => exact congrArg Prod.snd (listKeyResults_run goal)
  | comments target => exact congrArg Prod.snd (listComments_run target)
  | move item direction => cases item <;> cases hc
  | _ => cases hc

end Session

end Objectives
