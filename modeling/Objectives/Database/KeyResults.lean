/- # Key results in the database

The calls on key results, as statements.  The row of a key result names its kind, and its
measurement lies in the relations of that kind.

Main definitions:

* `Session.insertMeasurement`, `Session.clearMeasurement` — the rows of a measurement;
* `Session.createKeyResult`, `Session.updateKeyResult`, `Session.setWeights`,
  `Session.recordProgress`, `Session.addCheckpoint`, `Session.deleteKeyResult` — the calls.
-/

import Objectives.Database.Reading

set_option relaxedAutoImplicit false
set_option autoImplicit false

namespace Objectives.Session

open Statement (reach plainTexts takeId orderAfter change)

/-! ### Rows of measurements -/

/-- The insertion of a stage at a place. -/
def insertStage (keyResult : KeyResultId) (place : Int) (draft : StageDraft) : Statement Unit := do
  reach [.projectStages]
  plainTexts [draft.title]
  let id ← takeId .projectStages
  Statement.require .projectStages "kr_project_stages_weight_check" (1 ≤ draft.weight.value)
  let row : StageRow := ⟨keyResult, draft.title, draft.weight.value, draft.done, place⟩
  change fun rows => { rows with stages := rows.stages.insert id row }

/-- Inserts stages from a place on. -/
def insertStages (keyResult : KeyResultId) : Int → List StageDraft → Session Unit
  | _, [] => pure ()
  | place, draft :: rest => do
    execute "Failed to insert project stage" (insertStage keyResult place draft)
    insertStages keyResult (place + 1) rest

/-- The insertion of a linear range, or its change if there is one already. -/
def upsertLinearRange (id : KeyResultId) (range : MetricRange Double) : Statement Unit := do
  reach [.linearRanges]
  -- Only a new row makes the key result vanish; a changed one does not.
  let vanishes := (← read).vanishing && !(← Statement.rows).linearRanges.contains id
  change fun rows => { rows with linearRanges := rows.linearRanges.insert id range }
  if vanishes then change fun rows => rows.deleteKeyResults (· == id)

/-- Writes the rows of a measurement. -/
def insertMeasurement (id : KeyResultId) : MeasurementDraft → Session Unit
  | .project stages => insertStages id 1 stages
  | .percent range => execute "Failed to upsert percent payload" do
    reach [.percentRanges]
    change fun rows => { rows with percentRanges := rows.percentRanges.insert id range }
  | .linear range => execute "Failed to upsert linear payload" (upsertLinearRange id range)
  | .boolean done => execute "Failed to upsert boolean payload" do
    reach [.booleanFlags]
    change fun rows => { rows with flags := rows.flags.insert id done }

/-- Deletes the rows of a measurement in one relation. -/
def clear (relation : Relation) (f : Rows → Rows) : Session Unit :=
  execute "Failed to clear key result payload" do
    reach [relation]
    change f

/-- Deletes the rows of a measurement, of whatever kind; checkpoints only if they are not kept. -/
def clearMeasurement (id : KeyResultId) (keepCheckpoints : Bool) : Session Unit := do
  clear .projectStages fun rows =>
    { rows with stages := rows.stages.filter fun _ row => row.keyResult != id }
  clear .percentRanges fun rows => { rows with percentRanges := rows.percentRanges.erase id }
  clear .linearRanges fun rows => { rows with linearRanges := rows.linearRanges.erase id }
  clear .booleanFlags fun rows => { rows with flags := rows.flags.erase id }
  if keepCheckpoints then pure ()
  else clear .percentCheckpoints fun rows =>
    { rows with checkpoints := rows.checkpoints.filter fun _ row => row.keyResult != id }

/-! ### Key results -/

/-- The key result that was just written. -/
def loadWritten (id : KeyResultId) : Session KeyResult := do
  expect (.vanished id) (← loadKeyResult id)

/-- The insertion of a key result after the others of its goal. -/
def insertKeyResult (goal : GoalId) (draft : KeyResultDraft) : Statement KeyResultId := do
  reach [.keyResults]
  plainTexts [draft.title, draft.description]
  let id ← takeId .keyResults
  let siblings := (← Statement.rows).keyResults.values.filter fun row => row.goal == goal
  let order ← orderAfter (siblings.map KeyResultRow.sortOrder)
  let row : KeyResultRow :=
    ⟨goal, draft.title, draft.description, draft.weight.value, draft.measurement.kind.name, order⟩
  change fun rows => { rows with keyResults := rows.keyResults.insert id row }
  return id

/-- Adds a key result after the others of its goal. -/
def createKeyResult (goal : GoalId) (draft : KeyResultDraft) : Session KeyResult :=
  transaction do
    let rows ← query "Failed to fetch goal" [.goals]
    if rows.goals.contains goal then
      let id ← execute "Failed to insert key result" (insertKeyResult goal draft)
      insertMeasurement id draft.measurement
      loadWritten id
    else throw (.goalMissing goal)

/-- The key results of a goal, in their order. -/
def listKeyResults (goal : GoalId) : Session (List KeyResult) := do
  let rows ← query "Failed to fetch key results" [.keyResults]
  let own := rows.keyResults.entries.filter fun e => e.2.goal == goal
  collect (fun e => readKeyResult e.1 e.2) (sortBy (orderedBefore KeyResultRow.sortOrder) own)

/-- The row of a key result with its editable fields taken from a draft. -/
def editKeyResultRow (draft : KeyResultDraft) (row : KeyResultRow) : KeyResultRow :=
  { row with
    title := draft.title
    description := draft.description
    weight := draft.weight.value
    kind := draft.measurement.kind.name }

/-- The change of the editable fields of a key result. -/
def editKeyResult (id : KeyResultId) (draft : KeyResultDraft) : Statement Unit := do
  reach [.keyResults]
  plainTexts [draft.title, draft.description]
  change fun rows => { rows with keyResults := rows.keyResults.modify id (editKeyResultRow draft) }

/-- Sets the editable fields of a key result; checkpoints stay if it was and is of the kind that has
them. -/
def updateKeyResult (id : KeyResultId) (draft : KeyResultDraft) : Session KeyResult :=
  transaction do
    let rows ← query "Failed to fetch key result" [.keyResults]
    let row ← expect (.keyResultMissing id) (rows.keyResults.get? id)
    -- The stored kind is read before it is overwritten: it decides over the checkpoints.
    let previous ← lift (Column.word Kind "kind" row.kind)
    execute "Failed to update key result" (editKeyResult id draft)
    clearMeasurement id (previous == .percent && draft.measurement.kind == .percent)
    insertMeasurement id draft.measurement
    loadWritten id

/-- The change of the weight of a key result; answers whether it is one of the goal. -/
def changeWeight (goal : GoalId) (id : KeyResultId) (weight : Weight) : Statement Bool := do
  reach [.keyResults]
  match (← Statement.rows).keyResults.get? id with
  | some row =>
    if row.goal == goal then
      change fun rows =>
        { rows with keyResults := rows.keyResults.insert id { row with weight := weight.value } }
      return true
    else return false
  | none => return false

/-- Sets the weight of a key result of a goal. -/
def setWeight (goal : GoalId) (item : KeyResultId × Weight) : Session Unit := do
  let found ← execute "Failed to update key result weight" (changeWeight goal item.1 item.2)
  if found then pure () else throw (.keyResultMissing item.1)

/-- Sets the weights of key results of one goal, all or none. -/
def setWeights (goal : GoalId) (weights : List (KeyResultId × Weight)) : Session Unit :=
  transaction (forEach (setWeight goal) weights)

/-! ### Progress -/

/-- The change of a present value in one of the relations that hold ranges; answers whether there
is such a range. -/
def changeCurrent (relation : Relation) (ranges : Rows → Table KeyResultId (MetricRange Double))
    (set : Table KeyResultId (MetricRange Double) → Rows → Rows) (id : KeyResultId)
    (value : Double) : Statement Bool := do
  reach [relation]
  let rows ← Statement.rows
  change (set ((ranges rows).modify id fun range => { range with current := value }))
  return (ranges rows).contains id

/-- The change of a stage; answers whether there is such a stage. -/
def changeStage (id : KeyResultId) (stage : StageId) (done : Bool) : Statement Bool := do
  reach [.projectStages]
  match (← Statement.rows).stages.get? stage with
  | some row =>
    if row.keyResult == id then
      change fun rows => { rows with stages := rows.stages.insert stage { row with done } }
      return true
    else return false
  | none => return false

/-- The change of a flag; answers whether there is such a flag. -/
def changeFlag (id : KeyResultId) (done : Bool) : Statement Bool := do
  reach [.booleanFlags]
  let rows ← Statement.rows
  change fun rows => { rows with flags := rows.flags.modify id fun _ => done }
  return rows.flags.contains id

/-- Writes a report of progress to the rows that it is for; answers whether there are such rows. -/
def writeProgress (id : KeyResultId) : ProgressUpdate → Session Bool
  | .stage stage done => execute "Failed to update project stage" (changeStage id stage done)
  | .percentCurrent value => execute "Failed to update percent value"
    (changeCurrent .percentRanges Rows.percentRanges
      (fun ranges rows => { rows with percentRanges := ranges }) id value)
  | .linearCurrent value => execute "Failed to update linear value"
    (changeCurrent .linearRanges Rows.linearRanges
      (fun ranges rows => { rows with linearRanges := ranges }) id value)
  | .boolean done => execute "Failed to update boolean value" (changeFlag id done)

/-- Why a report of progress finds no rows. -/
def missingProgress (id : KeyResultId) : ProgressUpdate → Failure
  | .stage stage _ => .stageMissing stage
  | _ => .keyResultMissing id

/-- Takes a report of progress.  Neither the kind of the key result nor the value is checked. -/
def recordProgress (id : KeyResultId) (update : ProgressUpdate) : Session Unit :=
  transaction do
    let found ← writeProgress id update
    if found then execute "Failed to touch key result" (reach [.keyResults])
    else throw (missingProgress id update)

/-- The insertion of a checkpoint, if there is a key result of the kind that has them. -/
def insertCheckpoint (id : KeyResultId) (draft : CheckpointDraft) :
    Statement (Option CheckpointId) := do
  reach [.percentCheckpoints, .keyResults]
  match (← Statement.rows).keyResults.get? id with
  | some row =>
    if row.kind == Kind.percent.name then
      let checkpoint ← takeId .percentCheckpoints
      let row : CheckpointRow := ⟨id, draft.value, draft.percent.value⟩
      change fun rows => { rows with checkpoints := rows.checkpoints.insert checkpoint row }
      return some checkpoint
    else return none
  | none => return none

/-- Adds a checkpoint. -/
def addCheckpoint (id : KeyResultId) (draft : CheckpointDraft) : Session Checkpoint := do
  let checkpoint ← execute "Failed to insert checkpoint" (insertCheckpoint id draft)
  return draft.store (← expect (.keyResultMissing id) checkpoint)

/-- Removes a key result with the comments on it. -/
def deleteKeyResult (id : KeyResultId) : Session Unit := do
  let found ← execute "Failed to delete key result" do
    reach [.keyResults]
    let found := (← Statement.rows).keyResults.contains id
    change fun rows => rows.deleteKeyResults (· == id)
    return found
  if found then pure () else throw (.keyResultMissing id)

end Objectives.Session
