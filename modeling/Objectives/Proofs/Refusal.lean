/- # Refused commands

A command first reads and checks, and writes last; most write once.  Over a store whose calls each
do all or nothing, a command that fails has therefore written nothing.  The argument is the same for
every store; what differs is what a store has to be asked for.

Main definitions:

* `Program.Reads` — a program all of whose calls only read;
* `Program.Refused` — what a program tells and leaves when it fails;
* `Call.Undone`, `Program.Undone` — a call or a program that leaves what is seen of a store as it was
  whenever it fails;
* `AllOrNothing` — what is asked of a store.

Main results:

* `Program.Undone.of_reads` — a program that reads first can only fail as what follows does;
* `Command.undone` — **over such a store a command that fails leaves all as it was**, provided that
  the edit of a goal, which writes twice, does.
-/

import Objectives.Command.Basic
import Objectives.Proofs.Subject

set_option relaxedAutoImplicit false
set_option autoImplicit false

namespace Objectives

/-! ### Programs that read -/

namespace Program

variable {α β σ τ : Type}

/-- Every call of the program only reads. -/
def Reads : Program α → Prop
  | done _ => True
  | fail _ => True
  | call c next => c.subject = .nothing ∧ ∀ reply, (next reply).Reads

namespace Reads

theorem bind {p : Program α} {f : α → Program β} (hp : p.Reads) (hf : ∀ a, (f a).Reads) :
    (p.bind f).Reads := by
  induction p with
  | done a => exact hf a
  | fail e => trivial
  | call c next ih => exact ⟨hp.1, fun reply => ih reply (hp.2 reply)⟩

theorem ask {c : Call} (hc : c.subject = .nothing) : (Program.ask c).Reads :=
  ⟨hc, fun _ => trivial⟩

theorem expect (reason : Failure) (found : Option α) : (Program.expect reason found).Reads := by
  cases found <;> trivial

theorem lift (result : Except Failure α) : (Program.lift result).Reads := by
  cases result <;> trivial

theorem each {f : α → Program β} (hf : ∀ a, (f a).Reads) (list : List α) :
    (Program.each f list).Reads := by
  induction list with
  | nil => trivial
  | cons a rest ih => exact (hf a).bind fun _ => ih.bind fun _ => trivial

/-- Over a store whose reading calls change nothing a program that reads changes nothing. -/
theorem run_snd {carry : Carries σ} {s : σ} (hcarry : ∀ c, c.subject = .nothing → (carry c s).2 = s)
    {p : Program α} (hp : p.Reads) : (p.run carry s).2 = s := by
  induction p with
  | done a => rfl
  | fail e => rfl
  | call c next ih =>
    obtain ⟨hc, hnext⟩ := hp
    have hs := hcarry c hc
    rw [run]
    split
    · rename_i reply s' hcall
      rw [hcall] at hs
      subst hs
      exact ih reply (hnext reply)
    · rename_i e s' hcall
      rw [hcall] at hs
      exact hs

end Reads

end Program

section Checks

open Program (Reads)

theorem reads_requireTeam (id : TeamId) : (requireTeam id).Reads :=
  (Reads.ask rfl).bind fun _ => .expect _ _

theorem reads_requirePeriod (id : PeriodId) : (requirePeriod id).Reads :=
  (Reads.ask rfl).bind fun _ => .expect _ _

theorem reads_requireGoal (id : GoalId) : (requireGoal id).Reads :=
  (Reads.ask rfl).bind fun _ => .expect _ _

theorem reads_requireKeyResult (id : KeyResultId) : (requireKeyResult id).Reads := by
  refine (Reads.ask rfl).bind fun found => (Reads.expect _ found).bind fun keyResult => ?_
  exact (reads_requireGoal keyResult.goal).bind fun _ => trivial

theorem reads_requireOpen (team : TeamId) (period : PeriodId) (action : Action) :
    (requireOpen team period action).Reads := by
  refine (Reads.ask rfl).bind fun status => ?_
  split
  · trivial
  · trivial

theorem reads_checkTarget (goal : Goal) (shares : List Share) (statuses : Table TeamId Status)
    (team : TeamId) : (Goals.checkTarget goal shares statuses team).Reads := by
  refine (reads_requireTeam team).bind fun _ => ?_
  split
  · trivial
  · show Program.Reads (if _ then _ else _)
    split <;> trivial

theorem reads_goalOf (target : CommentTarget) : (Comments.goalOf target).Reads := by
  cases target with
  | goal id => exact reads_requireGoal id
  | keyResult id => exact (reads_requireKeyResult id).bind fun _ => trivial

end Checks

/-! ### What a failure leaves -/

variable {α β σ τ : Type}

/-- If the call fails, it leaves what is seen of the store as it was. -/
def Call.Undone (carry : Carries σ) (view : σ → τ) (s : σ) (c : Call) : Prop :=
  ∀ e, (carry c s).1 = .error e → view (carry c s).2 = view s

namespace Program

/-- If the program fails, then for a reason and with a store that have a property. -/
def Refused (carry : Carries σ) (s : σ) (post : Failure → σ → Prop) (p : Program α) : Prop :=
  ∀ e, (p.run carry s).1 = .error e → post e (p.run carry s).2

/-- If the program fails, it leaves what is seen of the store as it was. -/
def Undone (carry : Carries σ) (view : σ → τ) (s : σ) (p : Program α) : Prop :=
  p.Refused carry s fun _ s' => view s' = view s

/-- The program does not fail. -/
def Succeeds (carry : Carries σ) (s : σ) (p : Program α) : Prop :=
  ∀ e, (p.run carry s).1 ≠ .error e

namespace Refused

variable {carry : Carries σ} {s : σ} {post : Failure → σ → Prop}

theorem done (a : α) : (done a : Program α).Refused carry s post :=
  fun _ h => by cases h

/-- After a program that reads, a program fails as what follows does on the same store. -/
theorem of_reads {p : Program α} {f : α → Program β} (hp : p.Reads)
    (hcarry : ∀ c, c.subject = .nothing → (carry c s).2 = s) (hs : ∀ e, post e s)
    (hf : ∀ a, p.run carry s = (.ok a, s) → (f a).Refused carry s post) :
    (p.bind f).Refused carry s post := by
  have hsame := hp.run_snd hcarry
  intro e he
  rw [run_bind] at he ⊢
  cases hrun : p.run carry s with
  | mk answer s' =>
    rw [hrun] at hsame
    subst hsame
    simp only [hrun] at he ⊢
    cases answer with
    | ok a => exact hf a hrun e he
    | error e' => exact hs e

/-- After a check a program fails because of it, or as what follows does. -/
theorem of_check {result : Except Violation α} {f : α → Program β} (hs : ∀ e, post e s)
    (hf : ∀ a, result = .ok a → (f a).Refused carry s post) :
    ((Program.check result).bind f).Refused carry s post := by
  cases result with
  | ok a => exact hf a rfl
  | error v => exact fun e _ => hs e

/-- Two programs fail as the first does, or as the second does where the first has ended. -/
theorem bind {p : Program α} {f : α → Program β} (hp : p.Refused carry s post)
    (hf : ∀ a s', p.run carry s = (.ok a, s') → (f a).Refused carry s' post) :
    (p.bind f).Refused carry s post := by
  intro e he
  have hpe := hp e
  rw [run_bind] at he ⊢
  cases hrun : p.run carry s with
  | mk answer s' =>
    rw [hrun] at hpe he
    cases answer with
    | ok a => exact hf a s' hrun e he
    | error e' =>
      cases he
      exact hpe rfl

theorem mono {p : Program α} {post' : Failure → σ → Prop} (h : p.Refused carry s post)
    (hpost : ∀ e s', post e s' → post' e s') : p.Refused carry s post' :=
  fun e he => hpost e _ (h e he)

end Refused

namespace Succeeds

variable {carry : Carries σ} {s : σ}

theorem done (a : α) : (done a : Program α).Succeeds carry s := by
  intro e he
  cases he

/-- To succeed is to fail for no reason. -/
theorem bind {p : Program α} {f : α → Program β} (hp : p.Succeeds carry s)
    (hf : ∀ a s', (f a).Succeeds carry s') : (p.bind f).Succeeds carry s :=
  show (p.bind f).Refused carry s fun _ _ => False from Refused.bind hp fun a s' _ => hf a s'

/-- A call that does not fail, as a program. -/
theorem ask {c : Call} (h : ∀ e, (carry c s).1 ≠ .error e) :
    (Program.ask c).Succeeds carry s := by
  intro e
  have he := h e
  simp only [Program.ask, run]
  split
  · intro hdone
    cases hdone
  · rename_i e' s' hcall
    rw [hcall] at he
    exact he

end Succeeds

namespace Undone

variable {carry : Carries σ} {view : σ → τ} {s : σ}

theorem fail (e : Failure) : (fail e : Program α).Undone carry view s :=
  fun _ _ => rfl

theorem ask {c : Call} (h : c.Undone carry view s) : (Program.ask c).Undone carry view s := by
  intro e he
  have hc := h e
  simp only [Program.ask, run] at he ⊢
  split at he
  · cases he
  · rename_i e' s' hcall
    simp only [hcall] at hc ⊢
    exact hc he

/-- After a program that reads, a program is undone if what follows is. -/
theorem of_reads {p : Program α} {f : α → Program β} (hp : p.Reads)
    (hcarry : ∀ c, c.subject = .nothing → (carry c s).2 = s)
    (hf : ∀ a, p.run carry s = (.ok a, s) → (f a).Undone carry view s) :
    (p.bind f).Undone carry view s :=
  Refused.of_reads hp hcarry (fun _ => rfl) hf

/-- After a check a program is undone if what follows is. -/
theorem of_check {result : Except Violation α} {f : α → Program β}
    (hf : ∀ a, result = .ok a → (f a).Undone carry view s) :
    ((Program.check result).bind f).Undone carry view s :=
  Refused.of_check (fun _ => rfl) hf

/-- What cannot fail may follow. -/
theorem bind {p : Program α} {f : α → Program β} (hp : p.Undone carry view s)
    (hf : ∀ a s', p.run carry s = (.ok a, s') → (f a).Succeeds carry s') :
    (p.bind f).Undone carry view s :=
  Refused.bind hp fun a s' hrun e he => absurd he (hf a s' hrun e)

/-- A call with its reply put into an answer. -/
theorem ask_map {c : Call} {f : c.Reply → Program α} (h : c.Undone carry view s)
    (hf : ∀ reply, ∃ a, f reply = .done a) : ((Program.ask c).bind f).Undone carry view s := by
  refine (Undone.ask h).bind fun reply s' _ e he => ?_
  obtain ⟨a, ha⟩ := hf reply
  rw [ha, run_done] at he
  cases he

end Undone

end Program

/-! ### Stores that do all or nothing -/

/-- Whether a call removes a record with all that hangs on it. -/
def Call.removes : Call → Bool
  | deleteGoal _ | deleteKeyResult _ => true
  | _ => false

/-- What is asked of a store: reading changes nothing; a call that fails leaves what is seen as it was,
where a removal is only asked for after the record has been read; and the status of the team can be
set once a goal has been created. -/
structure AllOrNothing (carry : Carries σ) (view : σ → τ) (s : σ) : Prop where
  reads : ∀ c, c.subject = .nothing → (carry c s).2 = s
  undone : ∀ c : Call, c.removes = false → c.Undone carry view s
  deleteGoal : ∀ id g, (carry (.goal id) s).1 = .ok (some g) →
    (Call.deleteGoal g.id).Undone carry view s
  deleteKeyResult : ∀ id k, (carry (.keyResult id) s).1 = .ok (some k) →
    (Call.deleteKeyResult k.id).Undone carry view s
  createGoal : ∀ team period draft g s', carry (.createGoal team period draft) s = (.ok g, s') →
    ∀ status e, (carry (.setStatus team period status) s').1 ≠ .error e

section Lookups

variable {carry : Carries σ} {s : σ}

/-- A call is run as a program by carrying it out. -/
theorem run_ask (c : Call) : (Program.ask c).run carry s = carry c s := by
  simp only [Program.ask, Program.run]
  split <;> rename_i hcall <;> rw [hcall]

/-- What is made of an answer leaves the store as the answer has found it. -/
theorem run_map_snd (p : Program α) (f : α → β) :
    ((p.bind fun a => .done (f a)).run carry s).2 = (p.run carry s).2 := by
  rw [Program.run_bind]
  cases p.run carry s with
  | mk answer s' => cases answer <;> rfl

/-- A sequence that is finished has finished its parts. -/
theorem run_bind_eq_ok {p : Program α} {f : α → Program β} {b : β} {s' : σ}
    (h : (p.bind f).run carry s = (.ok b, s')) :
    ∃ a s₁, p.run carry s = (.ok a, s₁) ∧ (f a).run carry s₁ = (.ok b, s') := by
  rw [Program.run_bind] at h
  split at h
  · rename_i a s₁ hrun
    exact ⟨a, s₁, hrun, h⟩
  · cases h

/-- What has to be there is there. -/
theorem run_expect_eq_ok {reason : Failure} {found : Option α} {a : α} {s' : σ}
    (h : (Program.expect reason found).run carry s = (.ok a, s')) : found = some a ∧ s' = s := by
  cases found with
  | none => cases h
  | some b =>
    cases h
    exact ⟨rfl, rfl⟩

/-- A goal that is required is the one that the store gives. -/
theorem goal_of_requireGoal {id : GoalId} {g : Goal} {s' : σ}
    (h : (requireGoal id).run carry s = (.ok g, s')) :
    (carry (.goal id) s).1 = .ok (some g) := by
  obtain ⟨found, s₁, hask, hexpect⟩ := run_bind_eq_ok h
  obtain ⟨rfl, -⟩ := run_expect_eq_ok hexpect
  rw [run_ask] at hask
  rw [hask]

/-- A key result that is required is the one that the store gives. -/
theorem keyResult_of_requireKeyResult {id : KeyResultId} {found : KeyResult × Goal} {s' : σ}
    (h : (requireKeyResult id).run carry s = (.ok found, s')) :
    (carry (.keyResult id) s).1 = .ok (some found.1) := by
  obtain ⟨reply, s₁, hask, hrest⟩ := run_bind_eq_ok h
  obtain ⟨k, s₂, hexpect, hrest⟩ := run_bind_eq_ok hrest
  obtain ⟨g, s₃, -, hdone⟩ := run_bind_eq_ok hrest
  obtain ⟨rfl, -⟩ := run_expect_eq_ok hexpect
  cases hdone
  rw [run_ask] at hask
  rw [hask]

end Lookups

section Commands

open Program (Reads Undone Succeeds)

variable {carry : Carries σ} {view : σ → τ} {s : σ}

/-- The goal is created before the status is set, which cannot fail then. -/
theorem undone_create (h : AllOrNothing carry view s) (team : TeamId) (period : PeriodId)
    (draft : GoalDraft) : (Goals.create team period draft).Undone carry view s := by
  refine .of_check fun draft _ => ?_
  refine .of_reads (reads_requireTeam team) h.reads fun _ _ => ?_
  refine .of_reads (reads_requirePeriod period) h.reads fun _ _ => ?_
  refine .of_reads (reads_requireOpen team period _) h.reads fun status _ => ?_
  refine (Undone.ask (h.undone (.createGoal ..) rfl)).bind fun goal s' hgoal => ?_
  rw [run_ask] at hgoal
  show Program.Succeeds carry s' (if _ then _ else _)
  split
  · refine .bind (.ask ?_) fun _ _ => .done _
    exact h.createGoal team period draft goal s' hgoal status.afterGoalCreated
  · exact .done _

/-- An edit that fails has changed nothing, or it has stopped between its two writes: for a team that
is not the owner the weight of the goal for that team was set, and the edit of the goal refused. -/
theorem refused_update (h : AllOrNothing carry view s) (id : GoalId) (asTeam : Option TeamId)
    (draft : GoalDraft) :
    (Goals.update id asTeam draft).Refused carry s fun e s'' =>
      view s'' = view s ∨ ∃ draft' goal s', draft.normalized = .ok draft' ∧
        (carry (.goal id) s).1 = .ok (some goal) ∧
        goal.isOwnedBy (asTeam.getD goal.team) = false ∧
        carry (.setTeamWeight goal.id (asTeam.getD goal.team) draft'.weight) s = (.ok (), s') ∧
        carry (.updateGoal goal.id { draft' with weight := goal.weight }) s' = (.error e, s'') := by
  refine .of_check (fun _ => .inl rfl) fun draft' hdraft => ?_
  refine .of_reads (reads_requireGoal id) h.reads (fun _ => .inl rfl) fun goal hgoal => ?_
  refine .of_reads (reads_requireOpen _ goal.period _) h.reads (fun _ => .inl rfl) fun _ _ => ?_
  split
  · have howner : (Program.ask (.updateGoal goal.id draft')).Undone carry view s :=
      .ask (h.undone (.updateGoal ..) rfl)
    exact .bind (howner.mono fun _ _ => .inl) fun _ _ _ => .done _
  · rename_i howner
    have hweight : (Program.ask (.setTeamWeight goal.id (asTeam.getD goal.team)
        draft'.weight)).Undone carry view s := .ask (h.undone (.setTeamWeight ..) rfl)
    refine .bind (hweight.mono fun _ _ => .inl) fun _ s' hweight => ?_
    refine .bind (fun e he => .inr ?_) fun _ _ _ => .done _
    rw [run_ask] at hweight he ⊢
    refine ⟨draft', goal, s', hdraft, goal_of_requireGoal hgoal, ?_, hweight, ?_⟩
    · simpa using howner
    · exact Prod.ext he rfl

/-- What is asked of a store for an edit is that the second write does not fail after the first. -/
theorem undone_update (h : AllOrNothing carry view s) {id : GoalId} {asTeam : Option TeamId}
    {draft : GoalDraft}
    (second : ∀ draft' goal s', draft.normalized = .ok draft' →
      (carry (.goal id) s).1 = .ok (some goal) →
      carry (.setTeamWeight goal.id (asTeam.getD goal.team) draft'.weight) s = (.ok (), s') →
      ∀ e, (carry (.updateGoal goal.id { draft' with weight := goal.weight }) s').1 ≠ .error e) :
    (Goals.update id asTeam draft).Undone carry view s := by
  refine (refused_update h id asTeam draft).mono fun e s'' hrefused => ?_
  rcases hrefused with hsame | ⟨draft', goal, s', hdraft, hgoal, -, hweight, hedit⟩
  · exact hsame
  · exact absurd (congrArg Prod.fst hedit) (second draft' goal s' hdraft hgoal hweight e)

theorem undone_delete (h : AllOrNothing carry view s) (id : GoalId) (asTeam : Option TeamId) :
    (Goals.delete id asTeam).Undone carry view s := by
  refine .of_reads (reads_requireGoal id) h.reads fun goal hgoal => ?_
  refine .of_reads (reads_requireOpen _ goal.period _) h.reads fun _ _ => ?_
  split
  · refine .of_reads (.ask rfl) h.reads fun shares _ => ?_
    cases shares with
    | cons heir rest => exact .ask_map (h.undone (.promote heir) rfl) fun _ => ⟨_, rfl⟩
    | nil =>
      have hdelete := h.deleteGoal id goal (goal_of_requireGoal hgoal)
      exact .ask_map hdelete fun _ => ⟨_, rfl⟩
  · exact .ask_map (h.undone (.removeShare ..) rfl) fun _ => ⟨_, rfl⟩

theorem undone_share (h : AllOrNothing carry view s) (id : GoalId) (targets : List ShareTarget) :
    (Goals.share id targets).Undone carry view s := by
  refine .of_reads (reads_requireGoal id) h.reads fun goal _ => ?_
  refine .of_check fun plan _ => ?_
  refine .of_reads (.ask rfl) h.reads fun shares _ => ?_
  refine .of_reads (.ask rfl) h.reads fun statuses _ => ?_
  refine .of_reads (.each (reads_checkTarget goal shares statuses) plan.teams) h.reads fun _ _ => ?_
  exact .ask_map (h.undone (.replaceShares plan) rfl) fun _ => ⟨_, rfl⟩

theorem undone_createKeyResult (h : AllOrNothing carry view s) (id : GoalId)
    (draft : KeyResultDraft) : (KeyResults.create id draft).Undone carry view s := by
  refine .of_check fun draft _ => ?_
  refine .of_reads (reads_requireGoal id) h.reads fun goal _ => ?_
  refine .of_reads (reads_requireOpen goal.team goal.period _) h.reads fun _ _ => ?_
  exact .ask (h.undone (.createKeyResult ..) rfl)

theorem undone_updateKeyResult (h : AllOrNothing carry view s) (id : KeyResultId)
    (draft : KeyResultDraft) : (KeyResults.update id draft).Undone carry view s := by
  refine .of_check fun draft _ => ?_
  refine .of_reads (reads_requireKeyResult id) h.reads fun (current, goal) _ => ?_
  refine .of_reads (reads_requireOpen goal.team goal.period _) h.reads fun _ _ => ?_
  exact .ask (h.undone (.updateKeyResult ..) rfl)

theorem undone_setWeights (h : AllOrNothing carry view s) (id : GoalId)
    (weights : List (KeyResultId × Weight)) :
    (KeyResults.setWeights id weights).Undone carry view s := by
  refine .of_reads (reads_requireGoal id) h.reads fun goal _ => ?_
  refine .of_reads (reads_requireOpen goal.team goal.period _) h.reads fun _ _ => ?_
  exact .ask (h.undone (.setWeights ..) rfl)

theorem undone_deleteKeyResult (h : AllOrNothing carry view s) (id : KeyResultId) :
    (KeyResults.delete id).Undone carry view s := by
  refine .of_reads (reads_requireKeyResult id) h.reads fun (k, goal) hk => ?_
  refine .of_reads (reads_requireOpen goal.team goal.period _) h.reads fun _ _ => ?_
  exact .ask (h.deleteKeyResult id k (keyResult_of_requireKeyResult hk))

/-- A report is checked against the stored measurement before it is written. -/
theorem undone_recordProgress (h : AllOrNothing carry view s) (id : KeyResultId)
    (update : ProgressUpdate) : (KeyResults.recordProgress id update).Undone carry view s := by
  refine .of_reads (reads_requireKeyResult id) h.reads fun (k, goal) _ => ?_
  refine .of_reads (reads_requireOpen goal.team goal.period _) h.reads fun _ _ => ?_
  refine .of_reads (.lift _) h.reads fun measurement _ => ?_
  exact .ask_map (h.undone (.recordProgress ..) rfl) fun _ => ⟨_, rfl⟩

theorem undone_addCheckpoint (h : AllOrNothing carry view s) (id : KeyResultId)
    (draft : CheckpointDraft) : (KeyResults.addCheckpoint id draft).Undone carry view s := by
  refine .of_reads (reads_requireKeyResult id) h.reads fun (k, goal) _ => ?_
  show Undone carry view s (if _ then _ else _)
  split
  · exact .fail _
  · refine .of_reads (reads_requireOpen goal.team goal.period _) h.reads fun _ _ => ?_
    exact .ask (h.undone (.addCheckpoint ..) rfl)

theorem undone_addComment (h : AllOrNothing carry view s) (target : CommentTarget)
    (text : String) : (Comments.add target text).Undone carry view s := by
  refine .of_check fun text _ => ?_
  refine .of_reads (reads_goalOf target) h.reads fun goal _ => ?_
  refine .of_reads (reads_requireOpen goal.team goal.period _) h.reads fun _ _ => ?_
  exact .ask (h.undone (.addComment ..) rfl)

theorem undone_setStatus (h : AllOrNothing carry view s) (team : TeamId) (period : PeriodId)
    (status : Status) : (Statuses.set team period status).Undone carry view s := by
  refine .of_reads (reads_requireTeam team) h.reads fun _ _ => ?_
  refine .of_reads (reads_requirePeriod period) h.reads fun _ _ => ?_
  refine .of_reads (.ask rfl) h.reads fun previous _ => ?_
  refine .of_check fun status _ => ?_
  exact .ask_map (h.undone (.setStatus ..) rfl) fun _ => ⟨_, rfl⟩

/-- **A command that fails leaves all as it was**, over a store that does all or nothing; of the edit
of a goal, which writes twice, this is to be shown for each store. -/
theorem Command.undone (h : AllOrNothing carry view s) (c : Command)
    (edit : ∀ id asTeam draft, c = .updateGoal id asTeam draft →
      (Goals.update id asTeam draft).Undone carry view s) : c.program.Undone carry view s := by
  unfold Command.program
  cases c with
  | createGoal team period draft => exact undone_create h team period draft
  | updateGoal goal asTeam draft => exact edit goal asTeam draft rfl
  | deleteGoal goal asTeam => exact undone_delete h goal asTeam
  | shareGoal goal targets => exact undone_share h goal targets
  | createKeyResult goal draft => exact undone_createKeyResult h goal draft
  | updateKeyResult keyResult draft => exact undone_updateKeyResult h keyResult draft
  | setWeights goal weights => exact undone_setWeights h goal weights
  | recordProgress keyResult update => exact undone_recordProgress h keyResult update
  | addCheckpoint keyResult draft => exact undone_addCheckpoint h keyResult draft
  | deleteKeyResult keyResult => exact undone_deleteKeyResult h keyResult
  | addComment target text => exact undone_addComment h target text
  | setStatus team period status => exact undone_setStatus h team period status
  | move item direction => exact .ask (h.undone (.move item direction) rfl)

end Commands

end Objectives
