/- # The calls of commands

A program can be known by the calls that it may make.  What a command may call is said once, for
whatever it reads on the way and whatever others do meanwhile; what is known of the calls is then known
of the command.  Only four commands make calls that bear on how a key result is measured.

Main definitions:

* `Program.Makes` — a program all of whose calls are of a sort;
* `Command.MayMake` — the calls that a command may make;
* `Call.Unmeasuring`, `Command.Unmeasuring` — the calls, and the commands, that leave measurements
  alone.

Main results:

* `Program.Makes.step` — what calls of a sort keep is kept by the next step of such a program;
* `Command.makes` — **a command makes no call but those that it may make**;
* `Command.Unmeasuring.makes` — a command that is not about a measurement makes no call that is.
-/

import Objectives.Proofs.Refusal

set_option relaxedAutoImplicit false
set_option autoImplicit false

namespace Objectives

/-! ### The calls of a program -/

namespace Program

variable {α β σ : Type} {P Q : Call → Prop}

/-- Every call that the program may make is of a sort, whatever the replies are. -/
inductive Makes (P : Call → Prop) : Program α → Prop
  | done {a : α} : Makes P (.done a)
  | fail {e : Failure} : Makes P (.fail e)
  | call {c : Call} {next : c.Reply → Program α} (hc : P c) (hnext : ∀ reply, Makes P (next reply)) :
      Makes P (.call c next)

namespace Makes

theorem of_reads (hP : ∀ c, c.subject = .nothing → P c) {p : Program α} (hp : p.Reads) :
    p.Makes P := by
  induction p with
  | done a => exact .done
  | fail e => exact .fail
  | call c next ih => exact .call (hP c hp.1) fun reply => ih reply (hp.2 reply)

theorem mono {p : Program α} (hp : p.Makes P) (hPQ : ∀ c, P c → Q c) : p.Makes Q := by
  induction hp with
  | done => exact .done
  | fail => exact .fail
  | call hc _ ih => exact .call (hPQ _ hc) ih

theorem bind {p : Program α} {f : α → Program β} (hp : p.Makes P) (hf : ∀ a, (f a).Makes P) :
    (p.bind f).Makes P := by
  induction hp with
  | @done a => exact hf a
  | fail => exact .fail
  | call hc _ ih => exact .call hc ih

theorem ask {c : Call} (hc : P c) : (Program.ask c).Makes P := .call hc fun _ => .done

theorem ask_bind {c : Call} (hc : P c) {f : c.Reply → Program α} (hf : ∀ reply, (f reply).Makes P) :
    ((Program.ask c).bind f).Makes P := .call hc hf

/-- What follows a check may rely on it. -/
theorem check_bind {result : Except Violation α} {f : α → Program β}
    (hf : ∀ a, result = .ok a → (f a).Makes P) : ((check result).bind f).Makes P := by
  cases result with
  | ok a => exact hf a rfl
  | error v => exact .fail

theorem lift_bind {result : Except Failure α} {f : α → Program β}
    (hf : ∀ a, result = .ok a → (f a).Makes P) : ((lift result).bind f).Makes P := by
  cases result with
  | ok a => exact hf a rfl
  | error e => exact .fail

/-- What calls of that sort keep is kept by the next step, and the calls that are left are of it. -/
theorem step {carry : Carries σ} {I : σ → Prop} (hI : ∀ c s, P c → I s → I (carry c s).2)
    {p : Program α} (hp : p.Makes P) {s : σ} (hs : I s) :
    I (p.step carry s).2 ∧ (p.step carry s).1.Makes P := by
  cases hp with
  | done => exact ⟨hs, .done⟩
  | fail => exact ⟨hs, .fail⟩
  | @call c next hc hnext =>
    have hcall := hI c s hc hs
    rw [Program.step]
    cases hcarry : carry c s with
    | mk answer s' =>
      rw [hcarry] at hcall
      cases answer with
      | ok reply => exact ⟨hcall, hnext reply⟩
      | error e => exact ⟨hcall, .fail⟩

end Makes

end Program

/-! ### The calls that commands may make -/

/-- The calls that a command may make, whatever it reads on the way. -/
inductive Command.MayMake : Command → Call → Prop
  | read (c : Command) {call : Call} (hread : call.subject = .nothing) : MayMake c call
  | createGoal (team : TeamId) (period : PeriodId) {draft tidy : GoalDraft}
      (hdraft : draft.normalized = .ok tidy) :
      MayMake (.createGoal team period draft) (.createGoal team period tidy)
  | moveOn (team : TeamId) (period : PeriodId) (draft : GoalDraft) (status : Status) :
      MayMake (.createGoal team period draft) (.setStatus team period status)
  | updateGoal (id found : GoalId) (asTeam : Option TeamId) (draft edited : GoalDraft) :
      MayMake (.updateGoal id asTeam draft) (.updateGoal found edited)
  | setTeamWeight (id found : GoalId) (asTeam : Option TeamId) (draft : GoalDraft) (team : TeamId)
      (weight : Weight) :
      MayMake (.updateGoal id asTeam draft) (.setTeamWeight found team weight)
  | promote (id : GoalId) (asTeam : Option TeamId) (heir : Share) :
      MayMake (.deleteGoal id asTeam) (.promote heir)
  | deleteGoal (id found : GoalId) (asTeam : Option TeamId) :
      MayMake (.deleteGoal id asTeam) (.deleteGoal found)
  | removeShare (id found : GoalId) (asTeam : Option TeamId) (team : TeamId) :
      MayMake (.deleteGoal id asTeam) (.removeShare found team)
  | replaceShares (id : GoalId) (targets : List ShareTarget) (plan : SharePlan) :
      MayMake (.shareGoal id targets) (.replaceShares plan)
  | createKeyResult (id found : GoalId) {draft tidy : KeyResultDraft}
      (hdraft : draft.normalized = .ok tidy) :
      MayMake (.createKeyResult id draft) (.createKeyResult found tidy)
  | updateKeyResult (id found : KeyResultId) {draft tidy : KeyResultDraft}
      (hdraft : draft.normalized = .ok tidy) :
      MayMake (.updateKeyResult id draft) (.updateKeyResult found tidy)
  | setWeights (id found : GoalId) (weights : List (KeyResultId × Weight)) :
      MayMake (.setWeights id weights) (.setWeights found weights)
  | recordProgress (id found : KeyResultId) {update : ProgressUpdate} {μ μ' : Measurement}
      (htakes : μ.Takes update μ') :
      MayMake (.recordProgress id update) (.recordProgress found update)
  | addCheckpoint (id found : KeyResultId) (draft : CheckpointDraft) :
      MayMake (.addCheckpoint id draft) (.addCheckpoint found draft)
  | deleteKeyResult (id found : KeyResultId) : MayMake (.deleteKeyResult id) (.deleteKeyResult found)
  | addComment (target : CommentTarget) {text tidy : String} (htext : commentText text = .ok tidy) :
      MayMake (.addComment target text) (.addComment target tidy)
  | setStatus (team : TeamId) (period : PeriodId) (status next : Status) :
      MayMake (.setStatus team period status) (.setStatus team period next)
  | move (item : SequencedItem) (direction : Direction) :
      MayMake (.move item direction) (.move item direction)

section Commands

/-- A command may read before it goes on. -/
theorem makes_reads_bind {α β : Type} {c : Command} {p : Program α} {f : α → Program β}
    (hp : p.Reads) (hf : ∀ a, (f a).Makes c.MayMake) : (p.bind f).Makes c.MayMake :=
  (Program.Makes.of_reads (fun _ => .read c) hp).bind hf

theorem makes_create (team : TeamId) (period : PeriodId) (draft : GoalDraft) :
    (Goals.create team period draft).Makes (Command.createGoal team period draft).MayMake := by
  refine .check_bind fun tidy hdraft => makes_reads_bind (reads_requireTeam team) fun _ => ?_
  refine makes_reads_bind (reads_requirePeriod period) fun _ => ?_
  refine makes_reads_bind (reads_requireOpen _ _ _) fun status => ?_
  refine .ask_bind (.createGoal team period hdraft) fun goal => ?_
  dsimp only
  split
  · exact .ask_bind (.moveOn ..) fun _ => .done
  · exact .done

theorem makes_update (id : GoalId) (asTeam : Option TeamId) (draft : GoalDraft) :
    (Goals.update id asTeam draft).Makes (Command.updateGoal id asTeam draft).MayMake := by
  refine .check_bind fun tidy _ => makes_reads_bind (reads_requireGoal id) fun goal => ?_
  refine makes_reads_bind (reads_requireOpen _ _ _) fun _ => ?_
  split
  · exact .ask_bind (.updateGoal ..) fun _ => .done
  · refine .ask_bind (.setTeamWeight ..) fun _ => ?_
    exact .ask_bind (.updateGoal ..) fun _ => .done

theorem makes_delete (id : GoalId) (asTeam : Option TeamId) :
    (Goals.delete id asTeam).Makes (Command.deleteGoal id asTeam).MayMake := by
  refine makes_reads_bind (reads_requireGoal id) fun goal => ?_
  refine makes_reads_bind (reads_requireOpen _ _ _) fun _ => ?_
  split
  · refine .ask_bind (.read _ rfl) fun shares => ?_
    split
    · exact .ask_bind (.promote ..) fun _ => .done
    · exact .ask_bind (.deleteGoal ..) fun _ => .done
  · exact .ask_bind (.removeShare ..) fun _ => .done

theorem makes_share (id : GoalId) (targets : List ShareTarget) :
    (Goals.share id targets).Makes (Command.shareGoal id targets).MayMake := by
  refine makes_reads_bind (reads_requireGoal id) fun goal => .check_bind fun plan _ => ?_
  refine .ask_bind (.read _ rfl) fun shares => .ask_bind (.read _ rfl) fun statuses => ?_
  refine makes_reads_bind (.each (fun team => reads_checkTarget _ _ _ team) _) fun _ => ?_
  exact .ask_bind (.replaceShares ..) fun _ => .done

theorem makes_createKeyResult (id : GoalId) (draft : KeyResultDraft) :
    (KeyResults.create id draft).Makes (Command.createKeyResult id draft).MayMake := by
  refine .check_bind fun tidy hdraft => makes_reads_bind (reads_requireGoal id) fun goal => ?_
  refine makes_reads_bind (reads_requireOpen _ _ _) fun _ => ?_
  exact .ask (.createKeyResult id goal.id hdraft)

theorem makes_updateKeyResult (id : KeyResultId) (draft : KeyResultDraft) :
    (KeyResults.update id draft).Makes (Command.updateKeyResult id draft).MayMake := by
  refine .check_bind fun tidy hdraft => makes_reads_bind (reads_requireKeyResult id) fun found => ?_
  refine makes_reads_bind (reads_requireOpen _ _ _) fun _ => ?_
  exact .ask (.updateKeyResult id found.1.id hdraft)

theorem makes_setWeights (id : GoalId) (weights : List (KeyResultId × Weight)) :
    (KeyResults.setWeights id weights).Makes (Command.setWeights id weights).MayMake := by
  refine makes_reads_bind (reads_requireGoal id) fun goal => ?_
  exact makes_reads_bind (reads_requireOpen _ _ _) fun _ => .ask (.setWeights ..)

/-- A report is only passed on if the measurement that was read takes it. -/
theorem makes_recordProgress (id : KeyResultId) (update : ProgressUpdate) :
    (KeyResults.recordProgress id update).Makes (Command.recordProgress id update).MayMake := by
  refine makes_reads_bind (reads_requireKeyResult id) fun found => ?_
  refine makes_reads_bind (reads_requireOpen _ _ _) fun _ => .lift_bind fun μ hμ => ?_
  have htakes := Measurement.takes_of_record hμ
  exact .ask_bind (.recordProgress id found.1.id htakes) fun _ => .done

theorem makes_addCheckpoint (id : KeyResultId) (draft : CheckpointDraft) :
    (KeyResults.addCheckpoint id draft).Makes (Command.addCheckpoint id draft).MayMake := by
  refine makes_reads_bind (reads_requireKeyResult id) fun found => ?_
  dsimp only
  split
  · exact .fail
  · exact makes_reads_bind (reads_requireOpen _ _ _) fun _ => .ask (.addCheckpoint ..)

theorem makes_deleteKeyResult (id : KeyResultId) :
    (KeyResults.delete id).Makes (Command.deleteKeyResult id).MayMake := by
  refine makes_reads_bind (reads_requireKeyResult id) fun found => ?_
  exact makes_reads_bind (reads_requireOpen _ _ _) fun _ => .ask (.deleteKeyResult ..)

theorem makes_addComment (target : CommentTarget) (text : String) :
    (Comments.add target text).Makes (Command.addComment target text).MayMake := by
  refine .check_bind fun tidy htext => makes_reads_bind (reads_goalOf target) fun goal => ?_
  exact makes_reads_bind (reads_requireOpen _ _ _) fun _ => .ask (.addComment target htext)

theorem makes_setStatus (team : TeamId) (period : PeriodId) (status : Status) :
    (Statuses.set team period status).Makes (Command.setStatus team period status).MayMake := by
  refine makes_reads_bind (reads_requireTeam team) fun _ => ?_
  refine makes_reads_bind (reads_requirePeriod period) fun _ => ?_
  refine .ask_bind (.read _ rfl) fun previous => ?_
  refine .check_bind fun next _ => ?_
  exact .ask_bind (.setStatus ..) fun _ => .done

/-- **A command makes no call but those that it may make.** -/
theorem Command.makes (c : Command) : c.program.Makes c.MayMake := by
  cases c with
  | createGoal team period draft => exact makes_create team period draft
  | updateGoal id asTeam draft => exact makes_update id asTeam draft
  | deleteGoal id asTeam => exact makes_delete id asTeam
  | shareGoal id targets => exact makes_share id targets
  | createKeyResult id draft => exact makes_createKeyResult id draft
  | updateKeyResult id draft => exact makes_updateKeyResult id draft
  | setWeights id weights => exact makes_setWeights id weights
  | recordProgress id update => exact makes_recordProgress id update
  | addCheckpoint id draft => exact makes_addCheckpoint id draft
  | deleteKeyResult id => exact makes_deleteKeyResult id
  | addComment target text => exact makes_addComment target text
  | setStatus team period status => exact makes_setStatus team period status
  | move item direction => exact .ask (.move item direction)

end Commands

/-! ### Calls that bear on a measurement -/

/-- The call gives no key result a measurement, and changes none. -/
def Call.Unmeasuring : Call → Prop
  | createKeyResult .. | updateKeyResult .. | recordProgress .. | addCheckpoint .. => False
  | _ => True

/-- The command is not about the measurement of a key result. -/
def Command.Unmeasuring : Command → Prop
  | createKeyResult .. | updateKeyResult .. | recordProgress .. | addCheckpoint .. => False
  | _ => True

/-- A call that reads leaves measurements alone. -/
theorem Call.unmeasuring_of_reads {c : Call} (hc : c.subject = .nothing) : c.Unmeasuring := by
  cases c with
  | createKeyResult goal draft => cases hc
  | updateKeyResult id draft => cases hc
  | recordProgress id update => cases hc
  | addCheckpoint id draft => cases hc
  | _ => trivial

/-- **A command that is not about a measurement makes no call that is.** -/
theorem Command.Unmeasuring.makes {c : Command} (h : c.Unmeasuring) :
    c.program.Makes Call.Unmeasuring := by
  refine c.makes.mono fun call hcall => ?_
  cases hcall with
  | read _ hread => exact Call.unmeasuring_of_reads hread
  | createKeyResult | updateKeyResult | recordProgress | addCheckpoint => cases h
  | _ => trivial

end Objectives
