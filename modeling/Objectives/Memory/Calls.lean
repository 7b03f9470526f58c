/- # The calls of the store in memory

Each call as a change of the tables.

Main definitions:

* `Memory.setOwner` — a goal with another owner;
* `Memory.measure` — a measurement made of a submitted one;
* `Memory.moveAmong` — an exchange of keys between neighbours;
* `Memory.carry` — how the store carries out a call.
-/

import Objectives.Memory.State

set_option relaxedAutoImplicit false
set_option autoImplicit false

namespace Objectives.Memory

/-! ### Periods -/

/-- Adds a period after all others.  The identifier is given before the name and the dates are
checked. -/
def createPeriod (m : Memory) (name : String) (startDate endDate : Date) :
    Except Failure Period × Memory :=
  let order := orderAfter (m.periods.values.map Period.sortOrder)
  let m := m.takeId
  match Period.make m.lastId name startDate endDate order with
  | .ok period => (.ok period, { m with periods := m.periods.insert period.id period })
  | .error v => (.error (.invalid v), m)

/-- All periods by key, then by identifier. -/
def listPeriods (m : Memory) : List Period :=
  sortBy (fun a b => a.sortOrder < b.sortOrder || (a.sortOrder == b.sortOrder && a.id ≤ b.id))
    m.periods.values

/-- The first period is not after the second: by key, then by the last day. -/
def periodBefore (a b : Period) : Bool :=
  a.sortOrder < b.sortOrder || (a.sortOrder == b.sortOrder && a.endDate.le b.endDate)

/-- The last of the periods of a day; of two alike, the one of the greater identifier. -/
def periodOn (m : Memory) (day : Date) : Option Period :=
  (m.periods.values.filter fun p => p.contains day).foldl
    (fun best p =>
      match best with
      | none => some p
      | some q => if periodBefore q p then some p else some q)
    none

/-! ### Goals -/

/-- The goals that a team owns in a period. -/
def goalsOwned (m : Memory) (team : TeamId) (period : PeriodId) : List Goal :=
  m.goals.values.filter fun g => g.team == team && g.period == period

/-- Adds a goal after the others of its team and period. -/
def createGoal (m : Memory) (team : TeamId) (period : PeriodId) (draft : GoalDraft) :
    Goal × Memory :=
  let order := orderAfter ((m.goalsOwned team period).map Goal.sortOrder)
  let m := m.takeId
  let goal := Goal.ofDraft m.lastId team period order draft
  (goal, { m with goals := m.goals.insert goal.id goal })

/-- Sets the editable fields of a goal. -/
def updateGoal (m : Memory) (id : GoalId) (draft : GoalDraft) : Except Failure Unit × Memory :=
  match m.goals.get? id with
  | none => (.error (.goalMissing id), m)
  | some goal => (.ok (), { m with goals := m.goals.insert id (goal.apply draft) })

/-- Whether a comment is on a goal or on one of its key results. -/
def isCommentOn (m : Memory) (goal : GoalId) (c : Comment) : Bool :=
  match c.target with
  | .goal id => id == goal
  | .keyResult id =>
    match m.keyResults.get? id with
    | some keyResult => keyResult.goal == goal
    | none => false

/-- Removes a goal with its shares, its key results and all comments on either. -/
def deleteGoal (m : Memory) (id : GoalId) : Except Failure Unit × Memory :=
  if m.goals.contains id then
    (.ok (),
      { m with
        goals := m.goals.erase id
        shares := m.shares.filter fun key _ => key.1 != id
        keyResults := m.keyResults.filter fun _ keyResult => keyResult.goal != id
        comments := m.comments.filter fun _ comment => !m.isCommentOn id comment })
  else (.error (.goalMissing id), m)

/-- A goal in the list of a team, if the team carries it.  A share decides over the weight and the
key. -/
def listed (m : Memory) (team : TeamId) (goal : Goal) : Option TeamGoal :=
  match m.shares.get? (goal.id, team) with
  | some share => some ⟨team, goal, share.weight, share.sortOrder⟩
  | none => if goal.isOwnedBy team then some ⟨team, goal, goal.weight, goal.sortOrder⟩ else none

/-- The first goal is not after the second in a team's list: by key, then by identifier. -/
def listedBefore (a b : TeamGoal) : Bool :=
  a.sortOrder < b.sortOrder || (a.sortOrder == b.sortOrder && a.goal.id ≤ b.goal.id)

/-- The goals that a team carries in a period. -/
def goalsOf (m : Memory) (team : TeamId) (period : PeriodId) : List TeamGoal :=
  let goals := m.goals.values.filter fun g => g.period == period
  sortBy listedBefore (goals.filterMap (m.listed team))

/-! ### Shares -/

/-- The shares in a goal, by team. -/
def listShares (m : Memory) (goal : GoalId) : List Share :=
  (m.shares.filter fun key _ => key.1 == goal).values

/-- Sets the owner of a goal and the owner's weight.  A new owner gets the goal after its others in
that period. -/
def setOwner (m : Memory) (id : GoalId) (owner : ShareTarget) : Except Failure Goal × Memory :=
  match m.goals.get? id with
  | none => (.error (.goalMissing id), m)
  | some goal =>
    let order :=
      if goal.team == owner.team then goal.sortOrder
      else orderAfter (((m.goalsOwned owner.team goal.period).filter fun g => g.id != id).map
        Goal.sortOrder)
    let goal := { goal with team := owner.team, weight := owner.weight, sortOrder := order }
    (.ok goal, { m with goals := m.goals.insert id goal })

/-- Sets the weight of a team's share in a goal; a new share takes over the key of the goal. -/
def setShare (goal : GoalId) (order : Int) (shares : Table (GoalId × TeamId) Share)
    (target : ShareTarget) : Table (GoalId × TeamId) Share :=
  let key := (goal, target.team)
  match shares.get? key with
  | some share => shares.insert key { share with weight := target.weight }
  | none => shares.insert key ⟨goal, target.team, target.weight, order⟩

/-- Sets the owner of a goal and the teams with a share. -/
def replaceShares (m : Memory) (plan : SharePlan) : Except Failure Unit × Memory :=
  match m.setOwner plan.goal plan.owner with
  | (.error e, m) => (.error e, m)
  | (.ok goal, m) =>
    let kept := m.shares.filter fun key _ =>
      key.1 != plan.goal || plan.shares.any fun s => s.team == key.2
    (.ok (), { m with shares := plan.shares.foldl (setShare plan.goal goal.sortOrder) kept })

/-- Removes the share of a team, if there is one. -/
def removeShare (m : Memory) (goal : GoalId) (team : TeamId) : Memory :=
  { m with shares := m.shares.erase (goal, team) }

/-- Makes the team of a share the owner, and removes the share. -/
def promote (m : Memory) (share : Share) : Except Failure Unit × Memory :=
  match m.setOwner share.goal ⟨share.team, share.weight⟩ with
  | (.error e, m) => (.error e, m)
  | (.ok _, m) => (.ok (), m.removeShare share.goal share.team)

/-- Sets the weight of a team's share in a goal. -/
def setShareWeight (m : Memory) (goal : GoalId) (team : TeamId) (weight : Weight) :
    Except Failure Unit × Memory :=
  match m.shares.get? (goal, team) with
  | some share =>
    (.ok (), { m with shares := m.shares.insert (goal, team) { share with weight } })
  | none => (.error (.notCarried goal team), m)

/-- Sets the weight of a goal for a team: that of the goal for the owner, that of the share for any
other team. -/
def setTeamWeight (m : Memory) (id : GoalId) (team : TeamId) (weight : Weight) :
    Except Failure Unit × Memory :=
  match m.goals.get? id with
  | some goal =>
    if goal.isOwnedBy team then
      (.ok (), { m with goals := m.goals.insert id { goal with weight } })
    else m.setShareWeight id team weight
  | none => m.setShareWeight id team weight

/-! ### Statuses -/

/-- The statuses of a period, by team. -/
def listStatuses (m : Memory) (period : PeriodId) : Table TeamId Status :=
  .ofList ((m.statuses.entries.filter fun e => e.1.2 == period).map fun e => (e.1.1, e.2))

/-! ### Key results -/

/-- The stages of a project, numbered from a place on, with identifiers from the next on. -/
def numberStages (lastId place : Int) : List StageDraft → List Stage
  | [] => []
  | draft :: rest =>
    ⟨lastId + 1, draft.title, draft.weight, draft.done, place⟩
      :: numberStages (lastId + 1) (place + 1) rest

/-- The measurement made of a submitted one, with the checkpoints that are kept; stages take
identifiers. -/
def measure (m : Memory) (draft : MeasurementDraft) (kept : List Checkpoint) :
    Measurement × Memory :=
  match draft with
  | .project stages =>
    (.project (numberStages m.lastId 1 stages), { m with lastId := m.lastId + stages.length })
  | .percent range => (.percent range kept, m)
  | .linear range => (.linear range, m)
  | .boolean done => (.boolean done, m)

/-- The key results of a goal, by identifier. -/
def keyResultsIn (m : Memory) (goal : GoalId) : List KeyResult :=
  m.keyResults.values.filter fun k => k.goal == goal

/-- The key results of a goal by key, then by identifier. -/
def listKeyResults (m : Memory) (goal : GoalId) : List KeyResult :=
  sortBy (fun a b => a.sortOrder < b.sortOrder || (a.sortOrder == b.sortOrder && a.id ≤ b.id))
    (m.keyResultsIn goal)

/-- Adds a key result after the others of its goal. -/
def createKeyResult (m : Memory) (goal : GoalId) (draft : KeyResultDraft) :
    Except Failure KeyResult × Memory :=
  if m.goals.contains goal then
    let order := orderAfter ((m.keyResultsIn goal).map KeyResult.sortOrder)
    -- The key result takes its identifier before its stages take theirs.
    let m := m.takeId
    let id := m.lastId
    let (measurement, m) := m.measure draft.measurement []
    let keyResult : KeyResult :=
      ⟨id, goal, draft.title, draft.description, draft.weight, order, measurement⟩
    (.ok keyResult, { m with keyResults := m.keyResults.insert id keyResult })
  else (.error (.goalMissing goal), m)

/-- The checkpoints that a key result keeps when it gets a measurement: all of them if it was and is
of the kind that has them. -/
def keptCheckpoints : Measurement → MeasurementDraft → List Checkpoint
  | .percent _ checkpoints, .percent _ => checkpoints
  | _, _ => []

/-- Sets the editable fields of a key result. -/
def updateKeyResult (m : Memory) (id : KeyResultId) (draft : KeyResultDraft) :
    Except Failure KeyResult × Memory :=
  match m.keyResults.get? id with
  | none => (.error (.keyResultMissing id), m)
  | some current =>
    let (measurement, m) :=
      m.measure draft.measurement (keptCheckpoints current.measurement draft.measurement)
    let keyResult : KeyResult :=
      { current with
        title := draft.title
        description := draft.description
        weight := draft.weight
        measurement }
    (.ok keyResult, { m with keyResults := m.keyResults.insert id keyResult })

/-- The first listed key result that is none of the goal. -/
def strangerIn (m : Memory) (goal : GoalId) (weights : List (KeyResultId × Weight)) :
    Option KeyResultId :=
  (weights.map Prod.fst).find? fun id => (m.keyResults.get? id).map KeyResult.goal != some goal

/-- Sets one weight. -/
def setWeight (keyResults : Table KeyResultId KeyResult) (item : KeyResultId × Weight) :
    Table KeyResultId KeyResult :=
  keyResults.modify item.1 fun k => { k with weight := item.2 }

/-- Sets the weights of key results of one goal, once all of them are known to be of that goal. -/
def setWeights (m : Memory) (goal : GoalId) (weights : List (KeyResultId × Weight)) :
    Except Failure Unit × Memory :=
  match m.strangerIn goal weights with
  | some id => (.error (.keyResultMissing id), m)
  | none => (.ok (), { m with keyResults := weights.foldl setWeight m.keyResults })

/-- Takes a report of progress, in place. -/
def recordProgress (m : Memory) (id : KeyResultId) (update : ProgressUpdate) :
    Except Failure Unit × Memory :=
  match m.keyResults.get? id with
  | none => (.error (.keyResultMissing id), m)
  | some keyResult =>
    let taken := keyResult.measurement.report update
    let keyResult : KeyResult := { keyResult with measurement := taken.2 }
    (taken.1, { m with keyResults := m.keyResults.insert id keyResult })

/-- Adds a checkpoint among the others.  The identifier is given first, also when there is no key
result that could take the checkpoint. -/
def addCheckpoint (m : Memory) (id : KeyResultId) (draft : CheckpointDraft) :
    Except Failure Checkpoint × Memory :=
  let m := m.takeId
  match m.keyResults.get? id with
  | some keyResult =>
    match keyResult.measurement with
    | .percent range checkpoints =>
      let checkpoint := draft.store m.lastId
      let measurement := .percent range (sortBy Checkpoint.le (checkpoints ++ [checkpoint]))
      (.ok checkpoint,
        { m with keyResults := m.keyResults.insert id { keyResult with measurement } })
    | _ => (.error (.keyResultMissing id), m)
  | none => (.error (.keyResultMissing id), m)

/-- Removes a key result with the comments on it. -/
def deleteKeyResult (m : Memory) (id : KeyResultId) : Except Failure Unit × Memory :=
  if m.keyResults.contains id then
    (.ok (),
      { m with
        keyResults := m.keyResults.erase id
        comments := m.comments.filter fun _ comment => comment.target != .keyResult id })
  else (.error (.keyResultMissing id), m)

/-! ### Comments -/

/-- Why a target cannot be commented, if so. -/
def missingTarget (m : Memory) : CommentTarget → Option Failure
  | .goal id => if m.goals.contains id then none else some (.goalMissing id)
  | .keyResult id => if m.keyResults.contains id then none else some (.keyResultMissing id)

/-- Adds a comment. -/
def addComment (m : Memory) (target : CommentTarget) (text : String) :
    Except Failure Comment × Memory :=
  match m.missingTarget target with
  | some e => (.error e, m)
  | none =>
    let m := m.takeId
    let comment : Comment := ⟨m.lastId, target, text⟩
    (.ok comment, { m with comments := m.comments.insert comment.id comment })

/-- The comments on a target, the newest first. -/
def listComments (m : Memory) (target : CommentTarget) : List Comment :=
  (m.comments.values.filter fun c => c.target == target).reverse

/-! ### Order -/

/-- The outcome of a move, and the changes of keys that it takes: for the item and for its
neighbour. -/
def moveAmong (siblings : List Sibling) (item order : Int) (direction : Direction) :
    MoveOutcome × List (Int × Int) :=
  match nearestSibling siblings order direction with
  | some (neighbor, neighborOrder) =>
    (.swapped neighbor, [(item, neighborOrder), (neighbor, order)])
  | none => (.atBoundary, [])

/-- Sets the keys of some records, one after the other. -/
def setOrders {ν : Type} (set : Int → ν → ν) (table : Table Int ν) (orders : List (Int × Int)) :
    Table Int ν :=
  orders.foldl (fun t change => t.modify change.1 (set change.2)) table

/-- Moves an item by one place among its siblings. -/
def move (m : Memory) (item : SequencedItem) (direction : Direction) :
    Except Failure MoveOutcome × Memory :=
  match item with
  | .goal id asTeam =>
    match m.goals.get? id with
    | none => (.error (.goalMissing id), m)
    | some goal =>
      if asTeam.any fun team => team != goal.team then (.ok .notOwner, m)
      else
        let siblings := (m.goalsOwned goal.team goal.period).map fun g => (g.id, g.sortOrder)
        let (outcome, orders) := moveAmong siblings id goal.sortOrder direction
        let goals :=
          setOrders (fun order (g : Goal) => { g with sortOrder := order }) m.goals orders
        (.ok outcome, { m with goals })
  | .keyResult id =>
    match m.keyResults.get? id with
    | none => (.error (.keyResultMissing id), m)
    | some keyResult =>
      let siblings := (m.keyResultsIn keyResult.goal).map fun k => (k.id, k.sortOrder)
      let (outcome, orders) := moveAmong siblings id keyResult.sortOrder direction
      let keyResults :=
        setOrders (fun order (k : KeyResult) => { k with sortOrder := order }) m.keyResults orders
      (.ok outcome, { m with keyResults })
  | .period id =>
    match m.periods.get? id with
    | none => (.error (.periodMissing id), m)
    | some period =>
      let siblings := m.periods.values.map fun p => (p.id, p.sortOrder)
      let (outcome, orders) := moveAmong siblings id period.sortOrder direction
      let periods :=
        setOrders (fun order (p : Period) => { p with sortOrder := order }) m.periods orders
      (.ok outcome, { m with periods })

/-! ### All calls -/

/-- How the store carries out a call. -/
def carry : Carries Memory
  | .teams, m => (.ok m.teams.values, m)
  | .team id, m => (.ok (m.teams.get? id), m)
  | .createPeriod name startDate endDate, m => m.createPeriod name startDate endDate
  | .periods, m => (.ok m.listPeriods, m)
  | .period id, m => (.ok (m.periods.get? id), m)
  | .periodOn day, m => (.ok (m.periodOn day), m)
  | .status team period, m => (.ok ((m.statuses.get? (team, period)).getD .noGoals), m)
  | .setStatus team period status, m =>
    (.ok (), { m with statuses := m.statuses.insert (team, period) status })
  | .statuses period, m => (.ok (m.listStatuses period), m)
  | .createGoal team period draft, m =>
    let (goal, m) := m.createGoal team period draft
    (.ok goal, m)
  | .goal id, m => (.ok (m.goals.get? id), m)
  | .updateGoal id draft, m => m.updateGoal id draft
  | .deleteGoal id, m => m.deleteGoal id
  | .goalsOf team period, m => (.ok (m.goalsOf team period), m)
  | .shares goal, m => (.ok (m.listShares goal), m)
  | .replaceShares plan, m => m.replaceShares plan
  | .removeShare goal team, m => (.ok (), m.removeShare goal team)
  | .promote share, m => m.promote share
  | .setTeamWeight goal team weight, m => m.setTeamWeight goal team weight
  | .createKeyResult goal draft, m => m.createKeyResult goal draft
  | .keyResult id, m => (.ok (m.keyResults.get? id), m)
  | .keyResultsOf goal, m => (.ok (m.listKeyResults goal), m)
  | .updateKeyResult id draft, m => m.updateKeyResult id draft
  | .setWeights goal weights, m => m.setWeights goal weights
  | .recordProgress id update, m => m.recordProgress id update
  | .addCheckpoint id draft, m => m.addCheckpoint id draft
  | .deleteKeyResult id, m => m.deleteKeyResult id
  | .addComment target text, m => m.addComment target text
  | .comments target, m => (.ok (m.listComments target), m)
  | .move item direction, m => m.move item direction

end Objectives.Memory
