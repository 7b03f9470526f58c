/- # The calls of the database

The remaining calls, and all of them together as a store.

Main definitions:

* `Session.createPeriod`, `Session.addComment`, … — the calls on teams, periods and comments;
* `Session.ofCall` — how a call is carried out, as a session;
* `Contents.carry` — the database as a store.
-/

import Objectives.Database.Goals
import Objectives.Database.KeyResults
import Objectives.Database.Order
import Objectives.Store.Call

set_option relaxedAutoImplicit false
set_option autoImplicit false

namespace Objectives

namespace Session

open Statement (reach plainTexts takeId orderAfter refer change)

/-! ### Teams -/

/-- The first team is not after the second in a listing: by name, then by identifier. -/
def teamBefore (a b : TeamId × TeamRow) : Bool :=
  a.2.name < b.2.name || (a.2.name == b.2.name && a.1 ≤ b.1)

/-- All teams. -/
def listTeams : Session (List Team) := do
  let rows ← query "Failed to fetch teams" [.teams]
  collect (fun e => lift (e.2.read e.1)) (sortBy teamBefore rows.teams.entries)

/-- The team of an identifier. -/
def findTeam (id : TeamId) : Session (Option Team) := do
  let rows ← query "Failed to fetch team" [.teams]
  match rows.teams.get? id with
  | some row => return some (← lift (row.read id))
  | none => return none

/-! ### Periods -/

/-- The insertion of a period after all others. -/
def insertPeriod (draft : Period) : Statement Period := do
  reach [.periods]
  plainTexts [draft.name]
  let id ← takeId .periods
  let order ← orderAfter ((← Statement.rows).periods.values.map PeriodRow.sortOrder)
  let row : PeriodRow := ⟨draft.name, draft.startDate, draft.endDate, order⟩
  change fun rows => { rows with periods := rows.periods.insert id row }
  return row.read id

/-- Adds a period after all others, once its name and its dates are checked. -/
def createPeriod (name : String) (startDate endDate : Date) : Session Period := do
  let draft ← lift (Violation.lift (Period.make 0 name startDate endDate 0))
  execute "Failed to insert period" (insertPeriod draft)

/-- All periods, in their order. -/
def listPeriods : Session (List Period) := do
  let rows ← query "Failed to fetch periods" [.periods]
  return (sortBy (orderedBefore PeriodRow.sortOrder) rows.periods.entries).map fun e => e.2.read e.1

/-- The period of an identifier. -/
def findPeriod (id : PeriodId) : Session (Option Period) := do
  let rows ← query "Failed to fetch period" [.periods]
  return (rows.periods.get? id).map fun row => row.read id

/-- The first period is not before the second: by key, then by the last day. -/
def laterPeriod (a b : Period) : Bool :=
  b.sortOrder < a.sortOrder || (a.sortOrder == b.sortOrder && b.endDate.le a.endDate)

/-- The last of the periods of a day. -/
def periodOn (day : Date) : Session (Option Period) := do
  let rows ← query "Failed to find period for date" [.periods]
  let periods := rows.periods.entries.map fun e => e.2.read e.1
  return (sortBy laterPeriod (periods.filter fun p => p.contains day)).head?

/-! ### Comments -/

/-- The insertion of a comment into one of the relations that hold comments, if there is what it is
on. -/
def insertCommentRow (relation : Relation) (column : String) (isThere : Rows → Bool)
    (add : CommentId → Rows → Rows) (text : String) : Statement CommentId := do
  reach [relation]
  plainTexts [text]
  let id ← takeId relation
  refer relation column (isThere (← Statement.rows))
  change (add id)
  return id

/-- The insertion of a comment on a target. -/
def insertComment (target : CommentTarget) (text : String) : Statement CommentId :=
  match target with
  | .goal goal => insertCommentRow .goalComments "goal_id" (fun rows => rows.goals.contains goal)
    (fun id rows => { rows with goalComments := rows.goalComments.insert id ⟨goal, text⟩ }) text
  | .keyResult keyResult => insertCommentRow .keyResultComments "key_result_id"
    (fun rows => rows.keyResults.contains keyResult)
    (fun id rows => { rows with
      keyResultComments := rows.keyResultComments.insert id ⟨keyResult, text⟩ }) text

/-- Why a comment on a target is refused. -/
def commentFailure (target : CommentTarget) : StorageFault → Failure
  | .foreignKey .. =>
    match target with
    | .goal id => .commentedGoalMissing id
    | .keyResult id => .commentedKeyResultMissing id
  | fault => .storage "Failed to insert comment" fault

/-- Adds a comment. -/
def addComment (target : CommentTarget) (text : String) : Session Comment := do
  let id ← (insertComment target text).adapt (commentFailure target)
  return ⟨id, target, text⟩

/-- The comments on a target, the newest first. -/
def listComments (target : CommentTarget) : Session (List Comment) := do
  let (relation, comments, owner) := match target with
    | .goal id => (Relation.goalComments, Rows.goalComments, id)
    | .keyResult id => (Relation.keyResultComments, Rows.keyResultComments, id)
  let rows ← query "Failed to fetch comments" [relation]
  let own := (comments rows).entries.filter fun e => e.2.owner == owner
  return (own.map fun e => ⟨e.1, target, e.2.text⟩).reverse

end Session

/-! ### The store -/

/-- How a call is carried out. -/
def Session.ofCall : (c : Call) → Session c.Reply
  | .teams => Session.listTeams
  | .team id => Session.findTeam id
  | .createPeriod name startDate endDate => Session.createPeriod name startDate endDate
  | .periods => Session.listPeriods
  | .period id => Session.findPeriod id
  | .periodOn day => Session.periodOn day
  | .status team period => Session.findStatus team period
  | .setStatus team period status => Session.setStatus team period status
  | .statuses period => Session.listStatuses period
  | .createGoal team period draft => Session.createGoal team period draft
  | .goal id => Session.findGoal id
  | .updateGoal id draft => Session.updateGoal id draft
  | .deleteGoal id => Session.deleteGoal id
  | .goalsOf team period => Session.goalsOf team period
  | .shares goal => Session.listShares goal
  | .replaceShares plan => Session.replaceShares plan
  | .removeShare goal team => Session.removeShare goal team
  | .promote share => Session.promote share
  | .setTeamWeight goal team weight => Session.setTeamWeight goal team weight
  | .createKeyResult goal draft => Session.createKeyResult goal draft
  | .keyResult id => Session.loadKeyResult id
  | .keyResultsOf goal => Session.listKeyResults goal
  | .updateKeyResult id draft => Session.updateKeyResult id draft
  | .setWeights goal weights => Session.setWeights goal weights
  | .recordProgress id update => Session.recordProgress id update
  | .addCheckpoint id draft => Session.addCheckpoint id draft
  | .deleteKeyResult id => Session.deleteKeyResult id
  | .addComment target text => Session.addComment target text
  | .comments target => Session.listComments target
  | .move item direction => Session.move item direction

/-- The database as a store, under the schema of the program. -/
def Contents.carry : Carries Contents := fun c db => Session.ofCall c .standard db

end Objectives
