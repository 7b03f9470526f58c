/- # Records from rows

How rows are read as records.  A word that is in no list, or a weight out of range, makes a row
unreadable.

Main definitions:

* `Column.word`, `Column.weight` — the value of a column;
* `TeamRow.read`, `GoalRow.read`, … — the record of a row;
* `Session.readKeyResult` — a key result with its measurement, which lies in other relations.

Main results:

* `GoalRow.read_ofGoal`, `ShareRow.read_ofShare` — a written record is read back.
-/

import Objectives.Collection.Sorting
import Objectives.Database.State
import Objectives.Period.Basic

set_option relaxedAutoImplicit false
set_option autoImplicit false

namespace Objectives

/-! ### Columns -/

namespace Column

/-- The value of a word in a column. -/
def word (α : Type) [Vocabulary α] (column text : String) : Except Failure α :=
  match Vocabulary.read α text with
  | .ok a => .ok a
  | .error v => .error (.unreadableColumn column v)

/-- A weight in a column. -/
def weight (column : String) (value : Int) : Except Failure Weight :=
  match Weight.ofInt value with
  | .ok w => .ok w
  | .error v => .error (.unreadableColumn column v)

@[simp] theorem weight_value (column : String) (w : Weight) : weight column w.value = .ok w := by
  simp [weight]

/-- A word that names a value is read as that value. -/
theorem word_of_find? {α : Type} [Vocabulary α] (column : String) {text : String} {a : α}
    (h : Vocabulary.find? text = some a) : word α column text = .ok a := by
  simp [word, Vocabulary.read, h]

end Column

/-! ### Rows -/

/-- The team of a row. -/
def TeamRow.read (id : TeamId) (row : TeamRow) : Except Failure Team := do
  let type ← Column.word TeamType "type" row.type
  return ⟨id, row.name, type, row.parent⟩

/-- The period of a row. -/
def PeriodRow.read (id : PeriodId) (row : PeriodRow) : Period :=
  ⟨id, row.name, row.startDate, row.endDate, row.sortOrder⟩

namespace GoalRow

/-- The row of a goal. -/
def ofGoal (g : Goal) : GoalRow :=
  ⟨g.team, g.period, g.title, g.description, g.priority.name, g.weight.value, g.workType.name,
    g.focusType.name, g.ownerText, g.sortOrder⟩

/-- The goal of a row. -/
def read (id : GoalId) (row : GoalRow) : Except Failure Goal := do
  let priority ← Column.word Priority "priority" row.priority
  let weight ← Column.weight "weight" row.weight
  let workType ← Column.word WorkType "work_type" row.workType
  let focusType ← Column.word FocusType "focus_type" row.focusType
  return ⟨id, row.team, row.period, row.title, row.description, priority, weight, workType,
    focusType, row.ownerText, row.sortOrder⟩

/-- A written goal is read back. -/
@[simp] theorem read_ofGoal (g : Goal) : (ofGoal g).read g.id = .ok g := by
  simp only [read, ofGoal, Column.weight_value, Column.word_of_find? _ (Priority.find?_name _),
    Column.word_of_find? _ (WorkType.find?_name _), Column.word_of_find? _ (FocusType.find?_name _)]
  rfl

end GoalRow

namespace ShareRow

/-- The row of a share. -/
def ofShare (s : Share) : ShareRow := ⟨s.weight.value, s.sortOrder⟩

/-- The share of a row. -/
def read (key : GoalId × TeamId) (row : ShareRow) : Except Failure Share := do
  let weight ← Column.weight "weight" row.weight
  return ⟨key.1, key.2, weight, row.sortOrder⟩

/-- A written share is read back. -/
@[simp] theorem read_ofShare (s : Share) : (ofShare s).read (s.goal, s.team) = .ok s := by
  simp only [read, ofShare, Column.weight_value]
  rfl

end ShareRow

/-- The status in a column. -/
def readStatus (text : String) : Except Failure Status := Column.word Status "status" text

/-- The stage of a row. -/
def StageRow.read (id : StageId) (row : StageRow) : Except Failure Stage := do
  let weight ← Column.weight "weight" row.weight
  return ⟨id, row.title, weight, row.done, row.sortOrder⟩

/-- The checkpoint of a row. -/
def CheckpointRow.read (id : CheckpointId) (row : CheckpointRow) : Except Failure Checkpoint :=
  match Percentage.ofInt row.percent with
  | .ok percent => .ok ⟨id, row.value, percent⟩
  | .error v => .error (.unreadablePayload row.keyResult (.refused v))

/-! ### Order -/

/-- The first row is not after the second: by key, then by identifier. -/
def orderedBefore {ν : Type} (order : ν → Int) (a b : Int × ν) : Bool :=
  order a.2 < order b.2 || (order a.2 == order b.2 && a.1 ≤ b.1)

/-- The first checkpoint is not after the second, as the database sorts. -/
def checkpointBefore (a b : CheckpointId × CheckpointRow) : Bool :=
  orderedBefore (fun row => row.value.sortRank) a b

/-! ### Key results -/

namespace Session

/-- The range of a key result in one of the relations that hold ranges. -/
def readRange (relation : Relation) (ranges : Rows → Table KeyResultId (MetricRange Double))
    (id : KeyResultId) : Session (MetricRange Double) := do
  let rows ← query "Failed to fetch metric range" [relation]
  let range ← expect (.unreadablePayload id (.rowMissing relation)) ((ranges rows).get? id)
  match MetricRange.make range.start range.target range.current with
  | .ok range => pure range
  | .error v => throw (.unreadablePayload id (.refused v))

/-- The stages of a key result, in their order. -/
def readStages (id : KeyResultId) : Session (List Stage) := do
  let rows ← query "Failed to fetch project stages" [.projectStages]
  let own := rows.stages.entries.filter fun e => e.2.keyResult == id
  collect (fun e => lift (e.2.read e.1)) (sortBy (orderedBefore StageRow.sortOrder) own)

/-- The checkpoints of a key result, in their order. -/
def readCheckpoints (id : KeyResultId) : Session (List Checkpoint) := do
  let rows ← query "Failed to fetch checkpoints" [.percentCheckpoints]
  let own := rows.checkpoints.entries.filter fun e => e.2.keyResult == id
  collect (fun e => lift (e.2.read e.1)) (sortBy checkpointBefore own)

/-- The measurement of a key result of some kind. -/
def readMeasurement (id : KeyResultId) : Kind → Session Measurement
  | .project => do
    return .project (← readStages id)
  | .percent => do
    let range ← readRange .percentRanges Rows.percentRanges id
    return .percent range (← readCheckpoints id)
  | .linear => do
    return .linear (← readRange .linearRanges Rows.linearRanges id)
  | .boolean => do
    let rows ← query "Failed to fetch boolean payload" [.booleanFlags]
    return .boolean (← expect (.unreadablePayload id .flagMissing) (rows.flags.get? id))

/-- The key result of a row. -/
def readKeyResult (id : KeyResultId) (row : KeyResultRow) : Session KeyResult := do
  let kind ← lift (Column.word Kind "kind" row.kind)
  let weight ← lift (Column.weight "weight" row.weight)
  let measurement ← readMeasurement id kind
  return ⟨id, row.goal, row.title, row.description, weight, row.sortOrder, measurement⟩

/-- The key result of an identifier. -/
def loadKeyResult (id : KeyResultId) : Session (Option KeyResult) := do
  let rows ← query "Failed to fetch key result" [.keyResults]
  match rows.keyResults.get? id with
  | some row => return some (← readKeyResult id row)
  | none => return none

end Session

end Objectives
