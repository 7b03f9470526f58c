/- # Measurements

How far a key result has come is measured in one of four ways: by the stages of a project, by a
metric between two values, with or without checkpoints that shape the way, or by a plain yes or no.

Main definitions:

* `MetricRange` — where a metric starts, where it should end and where it is;
* `Stage`, `Checkpoint`, `ControlPoint` — the parts of the other measurements;
* `Measurement`, `MeasurementDraft` — a measurement as stored and as submitted;
* `ProgressUpdate` — a report of progress;
* `Measurement.report`, `Measurement.record` — a report, taken in place or by itself;
* `Measurement.Takes` — a report that a measurement takes, and what it makes of it.

Main results:

* `Measurement.report_cases` — a report is taken, or it is refused and the measurement stays as it is;
* `Measurement.takes_of_record` — no other report is accepted;
* `Measurement.Takes.kind` — a report never changes the kind;
* `MetricRange.make_eq_ok_iff` — which three values make a range.
-/

import Objectives.Failure
import Objectives.Weight
import Objectives.Percentage
import Objectives.Text.Blank

set_option relaxedAutoImplicit false
set_option autoImplicit false

namespace Objectives

/-! ### Ranges of a metric -/

/-- The start, the target and the present value of a metric.  The target may lie below the start.
-/
structure MetricRange (α : Type) where
  start : α
  target : α
  current : α
  deriving DecidableEq, Repr

namespace MetricRange

/-- Refuses a value that is infinite or no number. -/
def requireFinite (field : String) (value : Double) : Except Violation Unit :=
  if value.isFinite then .ok () else .error (.notFinite field)

/-- The range of three finite values of which the first two differ. -/
def make (start target current : Double) : Except Violation (MetricRange Double) :=
  if !start.isFinite then .error (.notFinite "start")
  else if !target.isFinite then .error (.notFinite "target")
  else if !current.isFinite then .error (.notFinite "current")
  else if start.equal target then
    .error (.malformed "target" "start and target must differ")
  else .ok ⟨start, target, current⟩

/-- Three values make a range if they are finite and the first two differ. -/
theorem make_eq_ok_iff {start target current : Double} {range : MetricRange Double} :
    make start target current = .ok range ↔
      (start.isFinite = true ∧ target.isFinite = true ∧ current.isFinite = true ∧
        start.equal target = false) ∧ range = ⟨start, target, current⟩ := by
  unfold make
  cases start.isFinite <;> cases target.isFinite <;> cases current.isFinite <;>
    cases start.equal target <;> simp [eq_comm]

/-- The range with another present value. -/
def withCurrent (range : MetricRange Double) (current : Double) :
    Except Violation (MetricRange Double) :=
  make range.start range.target current

theorem eq_of_withCurrent {range range' : MetricRange Double} {current : Double}
    (h : range.withCurrent current = .ok range') : range' = { range with current } :=
  (make_eq_ok_iff.1 h).2

end MetricRange

/-! ### Stages and checkpoints -/

/-- A stage of a project. -/
structure Stage where
  id : StageId
  title : String
  weight : Weight
  done : Bool
  sortOrder : Int
  deriving DecidableEq, Repr

/-- A stage as submitted. -/
structure StageDraft where
  title : String
  weight : Weight
  done : Bool
  deriving DecidableEq, Repr

namespace StageDraft

/-- The draft of a stage with a title and a positive weight. -/
def make (title : String) (weight : Int) (done : Bool) : Except Violation StageDraft :=
  let title := Text.trim title
  if title.isEmpty then .error (.empty "stage_title")
  else (Weight.ofStage weight).map fun weight => ⟨title, weight, done⟩

end StageDraft

/-- A point that the curve of a percent key result goes through. -/
structure ControlPoint (α : Type) where
  value : α
  percent : Percentage
  deriving DecidableEq, Repr

/-- A stored checkpoint of a percent key result. -/
structure Checkpoint where
  id : CheckpointId
  value : Double
  percent : Percentage
  deriving DecidableEq, Repr

namespace Checkpoint

/-- The point of the curve that a checkpoint marks. -/
def point (c : Checkpoint) : ControlPoint Double := ⟨c.value, c.percent⟩

/-- The order in which checkpoints are kept: by value, then by identifier. -/
def le (a b : Checkpoint) : Bool :=
  a.value.totalRank < b.value.totalRank ||
    (a.value.totalRank == b.value.totalRank && a.id ≤ b.id)

theorem le_iff {a b : Checkpoint} : a.le b = true ↔
    a.value.totalRank < b.value.totalRank ∨
      (a.value.totalRank = b.value.totalRank ∧ a.id ≤ b.id) := by
  simp only [le, Bool.or_eq_true, Bool.and_eq_true, decide_eq_true_eq, beq_iff_eq]

theorem le_trans (a b c : Checkpoint) (hab : a.le b = true) (hbc : b.le c = true) :
    a.le c = true := by
  rw [le_iff] at hab hbc ⊢
  rcases hab with hab | ⟨hab, hid⟩ <;> rcases hbc with hbc | ⟨hbc, hid'⟩
  · exact .inl (Int.lt_trans hab hbc)
  · exact .inl (hbc ▸ hab)
  · exact .inl (hab ▸ hbc)
  · exact .inr ⟨hab.trans hbc, Int.le_trans hid hid'⟩

theorem le_total (a b : Checkpoint) : a.le b = true ∨ b.le a = true := by
  rw [le_iff, le_iff]
  rcases Int.lt_trichotomy a.value.totalRank b.value.totalRank with hlt | heq | hgt
  · exact .inl (.inl hlt)
  · exact (Int.le_total a.id b.id).imp (fun h => .inr ⟨heq, h⟩) fun h => .inr ⟨heq.symm, h⟩
  · exact .inr (.inl hgt)

end Checkpoint

/-- A checkpoint as submitted. -/
structure CheckpointDraft where
  value : Double
  percent : Percentage
  deriving DecidableEq, Repr

namespace CheckpointDraft

/-- The draft of a checkpoint at a finite value. -/
def make (value : Double) (percent : Int) : Except Violation CheckpointDraft :=
  if value.isFinite then (Percentage.ofInt percent).map fun percent => ⟨value, percent⟩
  else .error (.notFinite "metric_value")

/-- The draft as a stored checkpoint. -/
def store (draft : CheckpointDraft) (id : CheckpointId) : Checkpoint :=
  ⟨id, draft.value, draft.percent⟩

end CheckpointDraft

/-! ### Measurements -/

/-- A stored measurement. -/
inductive Measurement
  | project (stages : List Stage)
  | percent (range : MetricRange Double) (checkpoints : List Checkpoint)
  | linear (range : MetricRange Double)
  | boolean (done : Bool)
  deriving DecidableEq, Repr

/-- A measurement as submitted.  It replaces the stored one; checkpoints are added one by one. -/
inductive MeasurementDraft
  | project (stages : List StageDraft)
  | percent (range : MetricRange Double)
  | linear (range : MetricRange Double)
  | boolean (done : Bool)
  deriving DecidableEq, Repr

/-- A report of progress. -/
inductive ProgressUpdate
  | stage (stage : StageId) (done : Bool)
  | percentCurrent (value : Double)
  | linearCurrent (value : Double)
  | boolean (done : Bool)
  deriving DecidableEq, Repr

namespace ProgressUpdate

/-- The kind of key result that a report is for. -/
def kind : ProgressUpdate → Kind
  | stage .. => .project
  | percentCurrent _ => .percent
  | linearCurrent _ => .linear
  | boolean _ => .boolean

end ProgressUpdate

namespace MeasurementDraft

/-- The kind of a submitted measurement. -/
def kind : MeasurementDraft → Kind
  | project _ => .project
  | percent _ => .percent
  | linear _ => .linear
  | boolean _ => .boolean

/-- The measurement of a project, which needs a stage. -/
def ofStages (stages : List StageDraft) : Except Violation MeasurementDraft :=
  if stages.isEmpty then .error (.empty "stages") else .ok (project stages)

/-- Refuses the first stage whose weight is not positive. -/
def checkStages : List StageDraft → Except Violation Unit
  | [] => .ok ()
  | stage :: rest =>
    match Weight.ofStage stage.weight.value with
    | .ok _ => checkStages rest
    | .error v => .error v

/-- Checks what the types of a draft leave open: a project has stages, each of positive weight. -/
def validate : MeasurementDraft → Except Violation Unit
  | project stages => if stages.isEmpty then .error (.empty "stages") else checkStages stages
  | _ => .ok ()

end MeasurementDraft

namespace Measurement

/-- The kind of a stored measurement. -/
def kind : Measurement → Kind
  | project _ => .project
  | percent .. => .percent
  | linear _ => .linear
  | boolean _ => .boolean

/-- Sets the first stage of that identifier to done or not done, if there is one. -/
def setStage (id : StageId) (done : Bool) : List Stage → Option (List Stage)
  | [] => none
  | stage :: rest =>
    if stage.id = id then some ({ stage with done } :: rest)
    else (setStage id done rest).map (stage :: ·)

/-- Takes a report of progress in place: the answer, and the measurement afterwards. -/
def report : Measurement → ProgressUpdate → Except Failure Unit × Measurement
  | project stages, .stage id done =>
    match setStage id done stages with
    | some stages => (.ok (), project stages)
    | none => (.error (.stageMissing id), project stages)
  | percent range checkpoints, .percentCurrent value =>
    match range.withCurrent value with
    | .ok range => (.ok (), percent range checkpoints)
    | .error v => (.error (.invalid v), percent range checkpoints)
  | linear range, .linearCurrent value =>
    match range.withCurrent value with
    | .ok range => (.ok (), linear range)
    | .error v => (.error (.invalid v), linear range)
  | boolean _, .boolean done => (.ok (), boolean done)
  | measurement, update => (.error (.progressMismatch update.kind measurement.kind), measurement)

/-- The measurement after a report that it takes. -/
def record (measurement : Measurement) (update : ProgressUpdate) : Except Failure Measurement :=
  match measurement.report update with
  | (.ok _, measurement) => .ok measurement
  | (.error e, _) => .error e

/-- What a report of progress makes of a measurement that takes it. -/
inductive Takes : Measurement → ProgressUpdate → Measurement → Prop where
  | stage {stages set : List Stage} {s : StageId} {done : Bool}
      (h : setStage s done stages = some set) : Takes (.project stages) (.stage s done) (.project set)
  | percentCurrent {range range' : MetricRange Double} {value : Double}
      (checkpoints : List Checkpoint) (h : range.withCurrent value = .ok range') :
      Takes (.percent range checkpoints) (.percentCurrent value) (.percent range' checkpoints)
  | linearCurrent {range range' : MetricRange Double} {value : Double}
      (h : range.withCurrent value = .ok range') :
      Takes (.linear range) (.linearCurrent value) (.linear range')
  | boolean (flag done : Bool) : Takes (.boolean flag) (.boolean done) (.boolean done)

variable {m m' : Measurement} {u : ProgressUpdate} {e : Failure}

/-- **A report is taken, or it is refused and the measurement stays as it is.** -/
theorem report_cases (m : Measurement) (u : ProgressUpdate) :
    (∃ m', m.Takes u m' ∧ m.report u = (.ok (), m')) ∨ ∃ e, m.report u = (.error e, m) := by
  unfold report
  split
  case h_1 stages id done =>
    cases hset : setStage id done stages with
    | some set => exact .inl ⟨_, .stage hset, rfl⟩
    | none => exact .inr ⟨_, rfl⟩
  case h_2 range checkpoints value =>
    cases hrange : range.withCurrent value with
    | ok range' => exact .inl ⟨_, .percentCurrent checkpoints hrange, rfl⟩
    | error v => exact .inr ⟨_, rfl⟩
  case h_3 range value =>
    cases hrange : range.withCurrent value with
    | ok range' => exact .inl ⟨_, .linearCurrent hrange, rfl⟩
    | error v => exact .inr ⟨_, rfl⟩
  case h_4 flag done => exact .inl ⟨_, .boolean flag done, rfl⟩
  case h_5 => exact .inr ⟨_, rfl⟩

theorem record_eq_ok_iff : m.record u = .ok m' ↔ m.report u = (.ok (), m') := by
  rcases m.report_cases u with ⟨taken, -, hreport⟩ | ⟨e, hreport⟩ <;> simp [record, hreport]

/-- A report that is refused leaves the measurement as it is. -/
theorem report_of_error (h : (m.report u).1 = .error e) : (m.report u).2 = m := by
  rcases m.report_cases u with ⟨taken, -, hreport⟩ | ⟨e, hreport⟩
  · rw [hreport] at h
    cases h
  · rw [hreport]

theorem takes_of_record (h : m.record u = .ok m') : m.Takes u m' := by
  rw [record_eq_ok_iff] at h
  rcases m.report_cases u with ⟨taken, htakes, hreport⟩ | ⟨e, hreport⟩
  · rw [h] at hreport
    cases hreport
    exact htakes
  · rw [h] at hreport
    cases hreport

/-- A report never changes the kind. -/
theorem Takes.kind (h : m.Takes u m') : m'.kind = m.kind := by
  cases h <;> rfl

end Measurement

end Objectives
