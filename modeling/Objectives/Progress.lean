/- # Progress

How far a key result, a goal or a team has come, in percent.  Nothing of it is stored; it is
computed from the measurements whenever it is asked for.

Main definitions:

* `Progress.ofStages`, `Progress.ofFlag` — finished stages, and yes or no;
* `Progress.linear` — the part of the way from start to target;
* `Progress.percent` — the height, at the present value, of the curve through the checkpoints;
* `Progress.ofMeasurement` — the progress of a measurement;
* `Progress.average` — the weighted average of a group.
-/

import Objectives.KeyResult.Basic
import Objectives.Collection.Sorting

set_option relaxedAutoImplicit false
set_option autoImplicit false

namespace Objectives.Progress

/-- The sum of some numbers. -/
def total (values : List Nat) : Nat := values.foldr (· + ·) 0

/-! ### Stages and flags -/

/-- The sum of the weights of the finished stages, at most 100. -/
def ofStages (stages : List Stage) : Percentage :=
  Percentage.clamp (total ((stages.filter (·.done)).map (·.weight.value)))

/-- All or nothing. -/
def ofFlag (done : Bool) : Percentage :=
  if done then Percentage.hundred else Percentage.zero

/-! ### Metrics -/

section Metrics

variable {α : Type} [Metric α]

/-- The part of the way from the start to the target, in percent and not yet rounded. -/
def linearShare (range : MetricRange α) : α :=
  if Metric.equal range.start range.target then Metric.ofNat 0
  else Metric.mul
    (Metric.div (Metric.sub range.current range.start) (Metric.sub range.target range.start))
    (Metric.ofNat 100)

/-- The part of the way from the start to the target; upwards and downwards alike. -/
def linear (range : MetricRange α) : Percentage :=
  Percentage.ofMetric (linearShare range)

/-- The points of the curve in the order of their values: nothing done at the start, the
checkpoints, and all done at the target. -/
def controlPoints (range : MetricRange α) (checkpoints : List (ControlPoint α)) :
    List (ControlPoint α) :=
  sortBy (fun a b => Metric.before a.value b.value)
    (⟨range.start, Percentage.zero⟩ :: (checkpoints ++ [⟨range.target, Percentage.hundred⟩]))

/-- The height of the line from one point to the next at a value between them. -/
def interpolate (left right : ControlPoint α) (value : α) : α :=
  let low : α := Metric.ofNat left.percent.value
  let high : α := Metric.ofNat right.percent.value
  if Metric.equal right.value left.value then low
  else
    let position := Metric.div (Metric.sub value left.value) (Metric.sub right.value left.value)
    Metric.add low (Metric.mul position (Metric.sub high low))

/-- The height at a value of the lines that join the points, on the first line that reaches over
the value; none if no line does. -/
def heightAt? (value : α) : List (ControlPoint α) → Option α
  | left :: right :: rest =>
    if Metric.atMost left.value value && Metric.atMost value right.value then
      some (interpolate left right value)
    else heightAt? value (right :: rest)
  | _ => none

/-- The progress along a list of points in order: none up to the first, all from the last on, and
the height of the lines between. -/
def alongCurve (value : α) (points : List (ControlPoint α)) : Percentage :=
  match points.head?, points.getLast? with
  | some first, some last =>
    if Metric.atMost value first.value then Percentage.zero
    else if Metric.atMost last.value value then Percentage.hundred
    else
      match heightAt? value points with
      | some height => Percentage.ofMetric height
      | none => Percentage.zero
  | _, _ => Percentage.zero

/-- The progress along the curve through the checkpoints; a straight line without any. -/
def percent (range : MetricRange α) (checkpoints : List (ControlPoint α)) : Percentage :=
  if checkpoints.isEmpty then linear range
  else alongCurve range.current (controlPoints range checkpoints)

end Metrics

/-! ### Measurements and groups -/

/-- The progress of a measurement. -/
def ofMeasurement : Measurement → Percentage
  | .project stages => ofStages stages
  | .percent range checkpoints => percent range (checkpoints.map Checkpoint.point)
  | .linear range => linear range
  | .boolean done => ofFlag done

/-- The progress of a key result. -/
def ofKeyResult (k : KeyResult) : Percentage := ofMeasurement k.measurement

/-- The sum of the weights of a group. -/
def totalWeight (items : List (Percentage × Weight)) : Nat :=
  total (items.map fun item => item.2.value)

/-- The sum of the progress of a group, each item counted by its weight. -/
def weightedSum (items : List (Percentage × Weight)) : Nat :=
  total (items.map fun item => item.1.value * item.2.value)

/-- The weighted average of a group, divided in the numbers of `α`; nothing if no item has a
weight. -/
def averageIn (α : Type) [Metric α] (items : List (Percentage × Weight)) : Percentage :=
  if totalWeight items = 0 then Percentage.zero
  else Percentage.ofMetric
    (Metric.div (Metric.ofNat (weightedSum items)) (Metric.ofNat (totalWeight items)) : α)

/-- The weighted average of a group. -/
def average (items : List (Percentage × Weight)) : Percentage := averageIn Double items

/-- The progress of a goal with these key results. -/
def ofKeyResults (keyResults : List KeyResult) : Percentage :=
  average (keyResults.map fun k => (ofKeyResult k, k.weight))

end Objectives.Progress
