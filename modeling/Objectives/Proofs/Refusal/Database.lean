/- # Refused commands over the database

Every call of the database does all or nothing: a statement that is refused changes no row, a call of
several statements is a transaction or writes with its last statement.  A command that writes with two
calls can still stop between them, and there is one that does: an edit on behalf of a team with a share
sets the weight of the share first, and the texts of the goal can be refused after that.

Main definitions:

* `Rows.reweigh` — rows with another weight of one share.

Main results:

* `Contents.allOrNothing` — every call does all or nothing;
* `Contents.rows_of_refused` — **a command that fails changes no row, except for the weight of the
  share if an edit of the goal is refused for its texts**.
-/

import Objectives.Proofs.Changes
import Objectives.Proofs.Reach
import Objectives.Proofs.Refusal

set_option relaxedAutoImplicit false
set_option autoImplicit false

namespace Objectives

namespace Session

open Effect (Leaves Keeps Undone Tells)

/-! ### Calls that write -/

open Statement (keeps_reach keeps_plainTexts keeps_takeId keeps_rows keeps_orderAfter keeps_refer
  undone_change)

theorem undone_createPeriod (name : String) (startDate endDate : Date) :
    Undone (createPeriod name startDate endDate) := by
  refine .bind (.of_leaves (leaves_lift _)) fun draft => .adapt ?_ _
  refine .bind (keeps_reach _) fun _ => .bind (keeps_plainTexts _) fun _ => ?_
  refine .bind (keeps_takeId _) fun id => .bind keeps_rows fun rows => ?_
  refine .bind (keeps_orderAfter _) fun order => ?_
  exact .bind_total (undone_change _) fun _ => .pure _

theorem undone_setStatus (team : TeamId) (period : PeriodId) (status : Status) :
    Undone (setStatus team period status) := by
  refine .adapt ?_ _
  refine .bind (keeps_reach _) fun _ => .bind keeps_rows fun rows => ?_
  exact .bind (keeps_refer _ _ _) fun _ => .bind (keeps_refer _ _ _) fun _ => undone_change _

theorem undone_createGoal (team : TeamId) (period : PeriodId) (draft : GoalDraft) :
    Undone (createGoal team period draft) := by
  refine .adapt ?_ _
  refine .bind (keeps_reach _) fun _ => .bind (keeps_plainTexts _) fun _ => ?_
  refine .bind (keeps_takeId _) fun id => .bind keeps_rows fun rows => ?_
  refine .bind (keeps_orderAfter _) fun order => ?_
  refine .bind (keeps_refer _ _ _) fun _ => .bind (keeps_refer _ _ _) fun _ => ?_
  exact .bind_total (undone_change _) fun _ => .pure _

theorem undone_removeShare (goal : GoalId) (team : TeamId) : Undone (removeShare goal team) :=
  .adapt (.bind (keeps_reach _) fun _ => undone_change _) _

/-- What is done if some rows are there, and a failure if not. -/
theorem undone_of_tells {x : Session Bool} (hx : Tells id x) (reason : Failure) :
    Undone (x >>= fun found => if found then pure () else throw reason) := by
  refine .bind_tells hx ?_ ?_
  · rintro _ rfl
    exact .pure _
  · rintro _ rfl
    exact .of_keeps (.throw _)

/-- The edit of a goal that is not there changes nothing. -/
theorem tells_editGoal (goal : GoalId) (draft : GoalDraft) : Tells id (editGoal goal draft) := by
  refine .bind (keeps_reach _) fun _ => .bind (keeps_plainTexts _) fun _ => ?_
  intro db hdb
  have hmissing : db.rows.goals.contains goal = false := hdb _ rfl
  show { db.rows with goals := db.rows.goals.modify goal (editGoalRow draft) } = db.rows
  rw [Table.modify_of_not_contains hmissing]

theorem undone_updateGoal (goal : GoalId) (draft : GoalDraft) : Undone (updateGoal goal draft) :=
  undone_of_tells ((tells_editGoal goal draft).adapt _) _

theorem tells_changeGoalWeight (goal : GoalId) (team : TeamId) (weight : Weight) :
    Tells id (changeGoalWeight goal team weight) := by
  refine .bind (keeps_reach _) fun _ => .bind keeps_rows fun rows => ?_
  split
  · split
    · exact .of_found fun db => ⟨true, rfl, rfl⟩
    · exact .of_keeps (.pure _)
  · exact .of_keeps (.pure _)

theorem tells_changeShareWeight (goal : GoalId) (team : TeamId) (weight : Weight) :
    Tells id (changeShareWeight goal team weight) := by
  refine .bind (keeps_reach _) fun _ => .bind keeps_rows fun rows => ?_
  split
  · exact .of_found fun db => ⟨true, rfl, rfl⟩
  · exact .of_keeps (.pure _)

/-- The weight of a share is only looked for if the team is not the owner. -/
theorem undone_setTeamWeight (goal : GoalId) (team : TeamId) (weight : Weight) :
    Undone (setTeamWeight goal team weight) := by
  refine .bind_tells ((tells_changeGoalWeight goal team weight).adapt _) ?_ ?_
  · rintro _ rfl
    exact .pure _
  · rintro _ rfl
    exact undone_of_tells ((tells_changeShareWeight goal team weight).adapt _) _

theorem tells_insertCheckpoint (id : KeyResultId) (draft : CheckpointDraft) :
    Tells Option.isSome (insertCheckpoint id draft) := by
  refine .bind (keeps_reach _) fun _ => .bind keeps_rows fun rows => ?_
  split
  · split
    · exact .of_found fun db => ⟨some _, rfl, rfl⟩
    · exact .of_keeps (.pure _)
  · exact .of_keeps (.pure _)

theorem undone_addCheckpoint (id : KeyResultId) (draft : CheckpointDraft) :
    Undone (addCheckpoint id draft) := by
  refine .bind_tells ((tells_insertCheckpoint id draft).adapt _) ?_ ?_
  · intro checkpoint hfound
    obtain ⟨checkpoint, rfl⟩ := Option.isSome_iff_exists.1 hfound
    exact .pure _
  · intro checkpoint hmissing
    rw [Option.isSome_eq_false_iff, Option.isNone_iff_eq_none] at hmissing
    subst hmissing
    exact .of_keeps (.throw _)

theorem undone_insertCommentRow (relation : Relation) (column : String) (isThere : Rows → Bool)
    (add : CommentId → Rows → Rows) (text : String) :
    Undone (insertCommentRow relation column isThere add text) := by
  refine .bind (keeps_reach _) fun _ => .bind (keeps_plainTexts _) fun _ => ?_
  refine .bind (keeps_takeId _) fun id => .bind keeps_rows fun rows => ?_
  exact .bind (keeps_refer _ _ _) fun _ => .bind_total (undone_change _) fun _ => .pure _

theorem undone_addComment (target : CommentTarget) (text : String) :
    Undone (addComment target text) := by
  refine .bind_total (.adapt ?_ _) fun _ => .pure _
  cases target with
  | goal id => exact undone_insertCommentRow _ _ _ _ _
  | keyResult id => exact undone_insertCommentRow _ _ _ _ _

/-- A call that writes and is refused changes no row; a call that removes a record is left out. -/
theorem undone_session {c : Call} (hreads : c.subject ≠ .nothing) (h : c.removes = false) :
    Undone (Session.ofCall c) := by
  cases c with
  | createPeriod name startDate endDate => exact undone_createPeriod name startDate endDate
  | setStatus team period status => exact undone_setStatus team period status
  | createGoal team period draft => exact undone_createGoal team period draft
  | updateGoal id draft => exact undone_updateGoal id draft
  | replaceShares plan => exact undone_transaction _
  | removeShare goal team => exact undone_removeShare goal team
  | promote share => exact undone_transaction _
  | setTeamWeight goal team weight => exact undone_setTeamWeight goal team weight
  | createKeyResult goal draft => exact undone_transaction _
  | updateKeyResult id draft => exact undone_transaction _
  | setWeights goal weights => exact undone_transaction _
  | recordProgress id update => exact undone_transaction _
  | addCheckpoint id draft => exact undone_addCheckpoint id draft
  | addComment target text => exact undone_addComment target text
  | move item direction => exact undone_transaction _
  | deleteGoal id => cases h
  | deleteKeyResult id => cases h
  | _ => exact absurd rfl hreads

end Session

/-! ### The commands -/

/-- The rows with another weight of the share of a team in a goal, if there is such a share. -/
def Rows.reweigh (rows : Rows) (goal : GoalId) (team : TeamId) (weight : Weight) : Rows :=
  { rows with shares := rows.shares.modify (goal, team) fun share =>
    { share with weight := weight.value } }

namespace Contents

section Calls

variable {db : Contents}

/-- A goal that is answered is the one in the row under its identifier. -/
theorem row_of_goal {id : GoalId} {g : Goal} (hgoal : (carry (.goal id) db).1 = .ok (some g)) :
    g.id = id ∧ db.rows.goals.get? id = some (.ofGoal g) := by
  have hfind : (db.rows.goals.get? id).mapM (fun row => row.read id) = .ok (some g) :=
    (congrArg Prod.fst (Session.findGoal_run id)).symm.trans hgoal
  cases hrow : db.rows.goals.get? id with
  | none =>
    rw [hrow] at hfind
    cases hfind
  | some row =>
    rw [hrow, Option.mapM_some] at hfind
    cases hread : row.read id with
    | error e =>
      rw [hread] at hfind
      cases hfind
    | ok g' =>
      rw [hread] at hfind
      cases hfind
      obtain ⟨hid, hrow⟩ := GoalRow.eq_of_read hread
      exact ⟨hid, congrArg some hrow⟩

/-- A key result that is answered is in the row under its identifier. -/
theorem row_of_keyResult {id : KeyResultId} {k : KeyResult}
    (hkeyResult : (carry (.keyResult id) db).1 = .ok (some k)) :
    k.id = id ∧ db.rows.keyResults.contains id = true := by
  have hload : (db.rows.keyResults.get? id).mapM (fun row => db.rows.keyResultOf id row) =
      .ok (some k) := (congrArg Prod.fst (Session.loadKeyResult_run id)).symm.trans hkeyResult
  cases hrow : db.rows.keyResults.get? id with
  | none =>
    rw [hrow] at hload
    cases hload
  | some row =>
    rw [hrow, Option.mapM_some] at hload
    cases hread : db.rows.keyResultOf id row with
    | error e =>
      rw [hread] at hload
      cases hload
    | ok k' =>
      rw [hread] at hload
      cases hload
      exact ⟨Rows.id_of_keyResultOf hread, Table.contains_of_get? hrow⟩

/-- Every call of the database does all or nothing. -/
theorem allOrNothing (db : Contents) : AllOrNothing carry Contents.rows db where
  reads c hc := Session.session_run_snd hc
  undone c hc e he := by
    by_cases hreads : c.subject = .nothing
    · exact congrArg Contents.rows (Session.session_run_snd hreads)
    · exact Session.undone_session hreads hc db e he
  deleteGoal id g hgoal e he := by
    obtain ⟨rfl, hrow⟩ := row_of_goal hgoal
    have hrun := congrArg Prod.fst (Session.deleteGoal_run g.id db)
    rw [if_pos (Table.contains_of_get? hrow)] at hrun
    cases hrun.symm.trans he
  deleteKeyResult id k hkeyResult e he := by
    obtain ⟨rfl, hthere⟩ := row_of_keyResult hkeyResult
    have hrun := congrArg Prod.fst (Session.deleteKeyResult_run k.id db)
    rw [if_pos hthere] at hrun
    cases hrun.symm.trans he
  createGoal team period draft g db' hcreate status e he := by
    obtain ⟨hteam, hperiod⟩ := Session.references_of_createGoal hcreate
    have hrun := congrArg Prod.fst (Session.setStatus_run hteam hperiod status)
    cases hrun.symm.trans he

/-- A weight that is set for a team that is not the owner is that of its share. -/
theorem reweigh_of_setTeamWeight {db' : Contents} {id : GoalId} {row : GoalRow} {team : TeamId}
    {weight : Weight} (hrow : db.rows.goals.get? id = some row) (hteam : row.team ≠ team)
    (hrun : carry (.setTeamWeight id team weight) db = (.ok (), db')) :
    db.rows.shares.contains (id, team) = true ∧
      db' = { db with rows := db.rows.reweigh id team weight } := by
  have hset := (Session.setTeamWeight_run hrow team weight).symm.trans hrun
  rw [if_neg hteam] at hset
  cases hshare : db.rows.shares.get? (id, team) with
  | none =>
    rw [hshare] at hset
    cases hset
  | some share =>
    rw [hshare] at hset
    cases hset
    refine ⟨Table.contains_of_get? hshare, ?_⟩
    rw [Rows.reweigh, Table.modify_eq_insert hshare]

/-- An edit that stops between its two writes has a text that the database does not take; the weight
of the share is set by then, and nothing else. -/
theorem rows_of_edit (id : GoalId) (asTeam : Option TeamId) (draft : GoalDraft) {e : Failure}
    (he : ((Goals.update id asTeam draft).run carry db).1 = .error e) :
    ((Goals.update id asTeam draft).run carry db).2.rows = db.rows ∨
    ∃ team row, asTeam = some team ∧ ¬ draft.Plain ∧
      db.rows.goals.get? id = some row ∧ row.team ≠ team ∧
      db.rows.shares.contains (id, team) = true ∧
      e = .storage "Failed to update goal" .nulCharacter ∧
      ((Goals.update id asTeam draft).run carry db).2.rows =
        db.rows.reweigh id team draft.weight := by
  rcases refused_update (allOrNothing db) id asTeam draft e he with
    hsame | ⟨draft', goal, db', hdraft, hgoal, howner, hweight, hedit⟩
  · exact .inl hsame
  right
  obtain ⟨rfl, hrow⟩ := row_of_goal hgoal
  obtain ⟨hdraftWeight, hdraftPlain⟩ := GoalDraft.of_normalized hdraft
  -- the owner edits with one write, so it is another team that is named
  cases asTeam with
  | none => simp [Goal.isOwnedBy] at howner
  | some team =>
    have hteam : goal.team ≠ team := by simpa [Goal.isOwnedBy] using howner
    obtain ⟨hshare, hdb'⟩ := reweigh_of_setTeamWeight hrow hteam hweight
    have hthere : db'.rows.goals.contains goal.id = true := by
      rw [hdb']
      exact Table.contains_of_get? hrow
    have hplain : ¬ GoalDraft.Plain { draft' with weight := goal.weight } := by
      intro hplain
      have hupdate := Session.updateGoal_run hplain goal.id db'
      rw [if_pos hthere] at hupdate
      cases hupdate.symm.trans hedit
    have hrefused := (Session.updateGoal_run_of_not_plain hplain goal.id db').symm.trans hedit
    obtain ⟨hcause, hleft⟩ := Prod.mk.inj hrefused
    refine ⟨team, .ofGoal goal, rfl, fun hdraft => hplain (hdraftPlain hdraft), hrow, hteam, hshare,
      ?_, ?_⟩
    · exact (Except.error.inj hcause).symm
    · rw [← hleft, hdb', hdraftWeight]

end Calls

/-- **A command that fails changes no row, but for one case**, whatever is in the database.  The case is
the edit of a goal, with a text that the database does not take, on behalf of a team with a share: the
weight of its share is changed all the same. -/
theorem rows_of_refused (db : Contents) (c : Command) {e : Failure}
    (he : (c.program.run carry db).1 = .error e) :
    (c.program.run carry db).2.rows = db.rows ∨
    ∃ id team draft row, c = .updateGoal id (some team) draft ∧ ¬ draft.Plain ∧
      db.rows.goals.get? id = some row ∧ row.team ≠ team ∧
      db.rows.shares.contains (id, team) = true ∧
      e = .storage "Failed to update goal" .nulCharacter ∧
      (c.program.run carry db).2.rows = db.rows.reweigh id team draft.weight := by
  by_cases hedit : ∃ id asTeam draft, c = .updateGoal id asTeam draft
  · obtain ⟨id, asTeam, draft, rfl⟩ := hedit
    generalize hrun : (Command.updateGoal id asTeam draft).program.run carry db = result at he ⊢
    have hrun : (Goals.update id asTeam draft).run carry db = result := hrun
    have hcases := rows_of_edit id asTeam draft (e := e) (by rw [hrun]; exact he)
    rw [hrun] at hcases
    rcases hcases with hsame | ⟨team, row, rfl, hcase⟩
    · exact .inl hsame
    · exact .inr ⟨id, team, draft, row, rfl, hcase⟩
  · refine .inl (Command.undone (allOrNothing db) c (fun id asTeam draft hc => ?_) e he)
    exact absurd ⟨id, asTeam, draft, hc⟩ hedit

/-- A database with two teams and a goal of the first in which the second has a share. -/
def sharedGoal : Contents :=
  let teams := ((empty.addTeam "Alpha" .team none).2.addTeam "Beta" .team none).2
  let start := (carry (.createPeriod "H1" ⟨2025, 1, 1⟩ ⟨2025, 6, 30⟩) teams).2
  let draft : GoalDraft := ⟨"Goal", "", .p1, ⟨20, by decide⟩, .delivery, .stability, ""⟩
  let created := ((Command.createGoal 1 1 draft).program.run carry start).2
  ((Command.shareGoal 1 [⟨1, ⟨20, by decide⟩⟩, ⟨2, ⟨5, by decide⟩⟩]).program.run carry created).2

theorem reachable_sharedGoal : sharedGoal.Reachable :=
  ((((Reachable.empty.addTeam _ _ _).addTeam _ _ _).carry _).run _).run _

/-- A draft whose title the database does not take. -/
def nulDraft : GoalDraft :=
  ⟨String.ofList ['a', Char.ofNat 0, 'b'], "", .p1, ⟨35, by decide⟩, .delivery, .stability, ""⟩

/-- The second team edits the goal with such a title: the command is refused, and its share has another
weight after that. -/
theorem share_reweighed_by_refused :
    let after := (Command.updateGoal 1 (some 2) nulDraft).program.run carry sharedGoal
    sharedGoal.Reachable ∧
      after.1 = .error (.storage "Failed to update goal" .nulCharacter) ∧
      (sharedGoal.rows.shares.get? (1, 2)).map ShareRow.weight = some 5 ∧
      (after.2.rows.shares.get? (1, 2)).map ShareRow.weight = some 35 ∧
      after.2.rows ≠ sharedGoal.rows := by
  intro after
  exact ⟨reachable_sharedGoal, by decide +kernel, by decide +kernel, by decide +kernel,
    by decide +kernel⟩

/-- That edit is the case in which not all rows are what they were. -/
theorem rows_of_refused_nul_title :
    let after := (Command.updateGoal 1 (some 2) nulDraft).program.run carry sharedGoal
    after.1 = .error (.storage "Failed to update goal" .nulCharacter) ∧
      ∃ id team draft row, Command.updateGoal 1 (some 2) nulDraft = .updateGoal id (some team) draft ∧
        ¬ draft.Plain ∧ sharedGoal.rows.goals.get? id = some row ∧ row.team ≠ team ∧
        sharedGoal.rows.shares.contains (id, team) = true ∧
        Failure.storage "Failed to update goal" .nulCharacter =
          .storage "Failed to update goal" .nulCharacter ∧
        after.2.rows = sharedGoal.rows.reweigh id team draft.weight := by
  intro after
  have hfails : after.1 = .error (.storage "Failed to update goal" .nulCharacter) := by
    decide +kernel
  have hchanged : after.2.rows ≠ sharedGoal.rows := by decide +kernel
  exact ⟨hfails, (rows_of_refused sharedGoal _ hfails).resolve_left hchanged⟩

end Contents

end Objectives
