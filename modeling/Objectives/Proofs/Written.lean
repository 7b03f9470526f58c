/- # What commands write

A command that runs without interference reads and checks, and writes last.  What it has found when it
comes to write is all that its calls depend on; a command that finds anything else fails.  A team whose
period is closed is turned away before anything is written.

Main definitions:

* `Program.Refuses`, `Program.Finds`, `Program.Leaves` — programs that are turned away, that read, and
  that write;
* `Command.acting`, `Command.Open` — the team that a command acts for, and the period, which must not be
  closed for that team;
* `Command.Writes` — the calls by which a command changes a store, with what it has found there.

Main results:

* `Command.refuses_of_closed` — **a command for a team whose period is closed fails and changes
  nothing**;
* `Command.leaves_writes` — **a command that succeeds has found what it needs, and has made its calls**;
* `Command.same_or_writes` — a command does so, or it changes no record.
-/

import Objectives.Proofs.Candidates
import Objectives.Proofs.Refusal.Memory

set_option relaxedAutoImplicit false
set_option autoImplicit false

namespace Objectives

/-! ### Programs that read and programs that write -/

namespace Program

variable {α β : Type} {m : Memory}

/-- The program fails and leaves the store as it is. -/
def Refuses (p : Program α) (m : Memory) : Prop :=
  ∃ e, p.run Memory.carry m = (.error e, m)

/-- The program is turned away, or it answers something that has been found. -/
def Finds (p : Program α) (m : Memory) (found : α → Prop) : Prop :=
  p.Refuses m ∨ ∃ a, found a ∧ p.Answers m a

/-- If the program succeeds, the store that it leaves has a property. -/
def Leaves (p : Program α) (m : Memory) (post : Memory → Prop) : Prop :=
  ∀ a, (p.run Memory.carry m).1 = .ok a → post (p.run Memory.carry m).2

theorem Refuses.bind {p : Program α} (h : p.Refuses m) (f : α → Program β) :
    (p.bind f).Refuses m := by
  obtain ⟨e, hrun⟩ := h
  exact ⟨e, by rw [run_bind, hrun]⟩

theorem Refuses.leaves {p : Program α} (h : p.Refuses m) (post : Memory → Prop) :
    p.Leaves m post := by
  obtain ⟨e, hrun⟩ := h
  intro a ha
  rw [hrun] at ha
  cases ha

namespace Finds

variable {p : Program α} {f : α → Program β} {found : α → Prop} {post : Memory → Prop}

/-- After a program that reads, a program is turned away if what follows is. -/
theorem bind_refuses (h : p.Finds m found) (hf : ∀ a, found a → (f a).Refuses m) :
    (p.bind f).Refuses m := by
  rcases h with h | ⟨a, ha, hrun⟩
  · exact h.bind f
  · obtain ⟨e, he⟩ := hf a ha
    exact ⟨e, by rw [hrun.run_bind, he]⟩

/-- What is found by one program after the other. -/
theorem bind {found' : β → Prop} (h : p.Finds m found)
    (hf : ∀ a, found a → (f a).Finds m found') : (p.bind f).Finds m found' := by
  rcases h with h | ⟨a, ha, hrun⟩
  · exact .inl (h.bind f)
  · rcases hf a ha with ⟨e, he⟩ | ⟨b, hb, hrun'⟩
    · exact .inl ⟨e, by rw [hrun.run_bind, he]⟩
    · exact .inr ⟨b, hb, hrun.bind hrun'⟩

/-- After a program that reads, what follows leaves the store. -/
theorem bind_leaves (h : p.Finds m found) (hf : ∀ a, found a → (f a).Leaves m post) :
    (p.bind f).Leaves m post := by
  rcases h with h | ⟨a, ha, hrun⟩
  · exact (h.bind f).leaves post
  · rw [Leaves, hrun.run_bind]
    exact hf a ha

theorem done {a : α} (ha : found a) : (Program.done a).Finds m found :=
  .inr ⟨a, ha, .done a⟩

theorem fail (e : Failure) : (Program.fail e : Program α).Finds m found :=
  .inl ⟨e, rfl⟩

theorem ask {c : Call} {reply : c.Reply} (h : Memory.carry c m = (.ok reply, m)) :
    (Program.ask c).Finds m fun r => r = reply :=
  .inr ⟨reply, rfl, .ask h⟩

theorem expect (reason : Failure) (value : Option α) :
    (Program.expect reason value).Finds m fun a => value = some a := by
  cases value with
  | none => exact .fail reason
  | some a => exact .done rfl

theorem check (result : Except Violation α) :
    (Program.check result).Finds m fun a => result = .ok a := by
  cases result with
  | ok a => exact .done rfl
  | error v => exact .fail (.invalid v)

theorem lift (result : Except Failure α) :
    (Program.lift result).Finds m fun a => result = .ok a := by
  cases result with
  | ok a => exact .done rfl
  | error e => exact .fail e

/-- What is found for each element of a list is found for all of them. -/
theorem each {f : α → Program β} {holds : α → Prop} {list : List α}
    (h : ∀ a ∈ list, (f a).Finds m fun _ => holds a) :
    (Program.each f list).Finds m fun _ => ∀ a ∈ list, holds a := by
  induction list with
  | nil => exact .done (by simp)
  | cons a rest ih =>
    refine (h a (by simp)).bind fun b hb => ?_
    refine (ih fun a' ha' => h a' (by simp [ha'])).bind fun bs hbs => .done ?_
    exact List.forall_mem_cons.2 ⟨hb, hbs⟩

end Finds

namespace Leaves

variable {post : Memory → Prop}

theorem done {a : α} (h : post m) : (Program.done a).Leaves m post :=
  fun _ _ => h

/-- A call, and what follows its reply on the store after it. -/
theorem ask_bind {c : Call} {f : c.Reply → Program α}
    (h : ∀ reply, (Memory.carry c m).1 = .ok reply → (f reply).Leaves (Memory.carry c m).2 post) :
    ((Program.ask c).bind f).Leaves m post := by
  intro a ha
  rw [run_bind, run_ask] at ha ⊢
  split at ha
  · rename_i reply m' hcall
    have hf := h reply
    rw [hcall] at hf
    exact hf rfl a ha
  · cases ha

/-- A last call. -/
theorem ask {c : Call} (h : post (Memory.carry c m).2) : (Program.ask c).Leaves m post := by
  intro a _
  rw [run_ask]
  exact h

end Leaves

end Program

/-! ### What the checks find -/

namespace Memory

/-- The goal that a key result is of. -/
def goalUnder (m : Memory) (id : KeyResultId) : Option Goal :=
  (m.keyResults.get? id).bind fun k => m.goals.get? k.goal

/-- The goal that a comment on a target is about in the end. -/
def goalOn (m : Memory) : CommentTarget → Option Goal
  | .goal id => m.goals.get? id
  | .keyResult id => m.goalUnder id

end Memory

theorem Goal.isOwnedBy_iff {g : Goal} {team : TeamId} : g.isOwnedBy team = true ↔ team = g.team :=
  beq_iff_eq.trans eq_comm

section Checks

open Program (Finds)

variable {m : Memory}

theorem requireTeam_finds (id : TeamId) :
    (requireTeam id).Finds m fun t => m.teams.get? id = some t :=
  (Finds.ask rfl).bind fun _ hfound => hfound ▸ .expect _ _

theorem requirePeriod_finds (id : PeriodId) :
    (requirePeriod id).Finds m fun p => m.periods.get? id = some p :=
  (Finds.ask rfl).bind fun _ hfound => hfound ▸ .expect _ _

theorem requireGoal_finds (id : GoalId) :
    (requireGoal id).Finds m fun g => m.goals.get? id = some g :=
  (Finds.ask rfl).bind fun _ hfound => hfound ▸ .expect _ _

theorem requireKeyResult_finds (id : KeyResultId) :
    (requireKeyResult id).Finds m fun found =>
      m.keyResults.get? id = some found.1 ∧ m.goalUnder id = some found.2 := by
  refine (Finds.ask rfl).bind fun value hvalue => ?_
  refine (Finds.expect _ value).bind fun k hk => (requireGoal_finds k.goal).bind fun g hg => .done ?_
  have hget : m.keyResults.get? id = some k := hvalue ▸ hk
  exact ⟨hget, by simp [Memory.goalUnder, hget, hg]⟩

theorem goalOf_finds (target : CommentTarget) :
    (Comments.goalOf target).Finds m fun g => m.goalOn target = some g := by
  cases target with
  | goal id => exact requireGoal_finds id
  | keyResult id => exact (requireKeyResult_finds id).bind fun _ hfound => .done hfound.2

theorem requireOpen_finds (team : TeamId) (period : PeriodId) (action : Action) :
    (requireOpen team period action).Finds m fun status => status = m.statusOf team period := by
  refine (Finds.ask rfl).bind fun status hstatus => ?_
  split
  · exact .fail _
  · exact .done hstatus

/-- Whatever follows, a team whose period is closed does not pass. -/
theorem requireOpen_refuses {α : Type} {team : TeamId} {period : PeriodId}
    (hclosed : m.statusOf team period = .closed) (action : Action) (f : Status → Program α) :
    ((requireOpen team period action).bind f).Refuses m := by
  refine Program.Refuses.bind ?_ f
  refine (Finds.ask rfl).bind_refuses fun status hstatus => ?_
  have hclosed : status.isClosed = true := by
    rw [hstatus]
    exact congrArg Status.isClosed hclosed
  rw [if_pos hclosed]
  exact ⟨_, rfl⟩

/-- A target of a request to share is let through if it may carry the goal. -/
theorem checkTarget_finds (h : m.Ledger) (g : Goal) (team : TeamId) :
    (Goals.checkTarget g (m.listShares g.id) (m.listStatuses g.period) team).Finds m
      fun _ => m.mayCarry g team = true := by
  cases hmay : m.mayCarry g team with
  | true => exact .inr ⟨(), rfl, Memory.checkTarget_answers h hmay⟩
  | false =>
    obtain ⟨e, hrun, -⟩ := Memory.checkTarget_refuses h hmay
    exact .inl ⟨e, hrun⟩

end Checks

/-! ### Whom a command acts for -/

namespace Command

/-- The team that a command acts for, and the period: what is done to a goal is done for the named team
or else for the owner, and what is done to its key results and comments for the owner.  Sharing, setting
a status and moving are open to all. -/
def acting (m : Memory) : Command → Option (TeamId × PeriodId)
  | createGoal team period _ => some (team, period)
  | updateGoal id asTeam _ | deleteGoal id asTeam =>
    (m.goals.get? id).map fun g => (asTeam.getD g.team, g.period)
  | createKeyResult id _ | setWeights id _ => (m.goals.get? id).map fun g => (g.team, g.period)
  | updateKeyResult id _ | recordProgress id _ | addCheckpoint id _ | deleteKeyResult id =>
    (m.goalUnder id).map fun g => (g.team, g.period)
  | addComment target _ => (m.goalOn target).map fun g => (g.team, g.period)
  | shareGoal .. | setStatus .. | move .. => none

/-- The period is not closed for the team that the command acts for. -/
def Open (m : Memory) (c : Command) : Prop :=
  ∀ team period, c.acting m = some (team, period) → m.statusOf team period ≠ .closed

variable {m : Memory} {team : TeamId} {period : PeriodId}

/-- The goal that has been found says whom a command acts for. -/
theorem closed_of_acting {found : Option Goal} {f : Goal → TeamId}
    (hacting : found.map (fun g => (f g, g.period)) = some (team, period))
    (hclosed : m.statusOf team period = .closed) {g : Goal} (hg : found = some g) :
    m.statusOf (f g) g.period = .closed := by
  subst hg
  cases hacting
  exact hclosed

open Program (Finds) in
/-- **A command for a team whose period is closed fails and changes nothing**, not even the counter of
identifiers. -/
theorem refuses_of_closed {c : Command} (hacting : c.acting m = some (team, period))
    (hclosed : m.statusOf team period = .closed) : c.program.Refuses m := by
  cases c with
  | createGoal owner p draft =>
    cases hacting
    refine (Finds.check _).bind_refuses fun tidy _ => ?_
    refine (requireTeam_finds team).bind_refuses fun _ _ => ?_
    refine (requirePeriod_finds period).bind_refuses fun _ _ => ?_
    exact requireOpen_refuses hclosed _ _
  | updateGoal id asTeam draft =>
    refine (Finds.check _).bind_refuses fun tidy _ => ?_
    refine (requireGoal_finds id).bind_refuses fun g hg => ?_
    exact requireOpen_refuses (closed_of_acting hacting hclosed hg) _ _
  | deleteGoal id asTeam =>
    refine (requireGoal_finds id).bind_refuses fun g hg => ?_
    exact requireOpen_refuses (closed_of_acting hacting hclosed hg) _ _
  | createKeyResult id draft =>
    refine (Finds.check _).bind_refuses fun tidy _ => ?_
    refine (requireGoal_finds id).bind_refuses fun g hg => ?_
    exact requireOpen_refuses (closed_of_acting hacting hclosed hg) _ _
  | updateKeyResult id draft =>
    refine (Finds.check _).bind_refuses fun tidy _ => ?_
    refine (requireKeyResult_finds id).bind_refuses fun found hfound => ?_
    exact requireOpen_refuses (closed_of_acting hacting hclosed hfound.2) _ _
  | setWeights id weights =>
    refine (requireGoal_finds id).bind_refuses fun g hg => ?_
    exact requireOpen_refuses (closed_of_acting hacting hclosed hg) _ _
  | recordProgress id update =>
    refine (requireKeyResult_finds id).bind_refuses fun found hfound => ?_
    exact requireOpen_refuses (closed_of_acting hacting hclosed hfound.2) _ _
  | addCheckpoint id draft =>
    -- the kind of the key result is asked for before the status
    refine (requireKeyResult_finds id).bind_refuses fun found hfound => ?_
    show Program.Refuses (if _ then _ else _) m
    split
    · exact ⟨_, rfl⟩
    · exact requireOpen_refuses (closed_of_acting hacting hclosed hfound.2) _ _
  | deleteKeyResult id =>
    refine (requireKeyResult_finds id).bind_refuses fun found hfound => ?_
    exact requireOpen_refuses (closed_of_acting hacting hclosed hfound.2) _ _
  | addComment target text =>
    refine (Finds.check _).bind_refuses fun tidy _ => ?_
    refine (goalOf_finds target).bind_refuses fun g hg => ?_
    exact requireOpen_refuses (closed_of_acting hacting hclosed hg) _ _
  | shareGoal id targets => cases hacting
  | setStatus owner p status => cases hacting
  | move item direction => cases hacting

/-! ### The calls that change a store -/

/-- The calls by which a command changes a store, with what it has found there. -/
inductive Writes (m : Memory) : Command → List Call → Prop
  | createFirst {team : TeamId} {period : PeriodId} {draft tidy : GoalDraft}
      (hdraft : draft.normalized = .ok tidy) (hteam : m.teams.contains team = true)
      (hperiod : m.periods.contains period = true)
      (hstatus : m.statusOf team period = .noGoals) :
      Writes m (.createGoal team period draft)
        [.createGoal team period tidy, .setStatus team period .forming]
  | createNext {team : TeamId} {period : PeriodId} {draft tidy : GoalDraft}
      (hdraft : draft.normalized = .ok tidy) (hteam : m.teams.contains team = true)
      (hperiod : m.periods.contains period = true)
      (hstatus : m.statusOf team period ≠ .noGoals) :
      Writes m (.createGoal team period draft) [.createGoal team period tidy]
  | editOwn {id : GoalId} {asTeam : Option TeamId} {draft tidy : GoalDraft} {g : Goal}
      (hdraft : draft.normalized = .ok tidy) (hget : m.goals.get? id = some g)
      (howner : asTeam.getD g.team = g.team) :
      Writes m (.updateGoal id asTeam draft) [.updateGoal id tidy]
  | editShared {id : GoalId} {asTeam : Option TeamId} {draft tidy : GoalDraft} {g : Goal}
      (hdraft : draft.normalized = .ok tidy) (hget : m.goals.get? id = some g)
      (hother : asTeam.getD g.team ≠ g.team)
      (hshare : m.shares.contains (id, asTeam.getD g.team) = true) :
      Writes m (.updateGoal id asTeam draft)
        [.setTeamWeight id (asTeam.getD g.team) tidy.weight,
          .updateGoal id { tidy with weight := g.weight }]
  | handOver {id : GoalId} {asTeam : Option TeamId} {g : Goal} {heir : Share} {rest : List Share}
      (hget : m.goals.get? id = some g) (howner : asTeam.getD g.team = g.team)
      (hshares : m.listShares id = heir :: rest) :
      Writes m (.deleteGoal id asTeam) [.promote heir]
  | remove {id : GoalId} {asTeam : Option TeamId} {g : Goal}
      (hget : m.goals.get? id = some g) (howner : asTeam.getD g.team = g.team)
      (hshares : m.listShares id = []) :
      Writes m (.deleteGoal id asTeam) [.deleteGoal id]
  | giveUp {id : GoalId} {asTeam : Option TeamId} {g : Goal}
      (hget : m.goals.get? id = some g) (hother : asTeam.getD g.team ≠ g.team) :
      Writes m (.deleteGoal id asTeam) [.removeShare id (asTeam.getD g.team)]
  | share {id : GoalId} {targets : List ShareTarget} {g : Goal} {plan : SharePlan}
      (hget : m.goals.get? id = some g)
      (hplan : SharePlan.resolve id g.team targets = .ok plan)
      (hteams : ∀ team ∈ plan.teams, m.mayCarry g team = true) :
      Writes m (.shareGoal id targets) [.replaceShares plan]
  | createKeyResult {id : GoalId} {draft tidy : KeyResultDraft} {g : Goal}
      (hdraft : draft.normalized = .ok tidy) (hget : m.goals.get? id = some g) :
      Writes m (.createKeyResult id draft) [.createKeyResult id tidy]
  | updateKeyResult {id : KeyResultId} {draft tidy : KeyResultDraft} {g : Goal}
      (hdraft : draft.normalized = .ok tidy) (hget : m.goalUnder id = some g) :
      Writes m (.updateKeyResult id draft) [.updateKeyResult id tidy]
  | setWeights {id : GoalId} {weights : List (KeyResultId × Weight)} {g : Goal}
      (hget : m.goals.get? id = some g) :
      Writes m (.setWeights id weights) [.setWeights id weights]
  | recordProgress {id : KeyResultId} {update : ProgressUpdate} {g : Goal}
      (hget : m.goalUnder id = some g) :
      Writes m (.recordProgress id update) [.recordProgress id update]
  | addCheckpoint {id : KeyResultId} {draft : CheckpointDraft} {g : Goal}
      (hget : m.goalUnder id = some g) :
      Writes m (.addCheckpoint id draft) [.addCheckpoint id draft]
  | deleteKeyResult {id : KeyResultId} {g : Goal} (hget : m.goalUnder id = some g) :
      Writes m (.deleteKeyResult id) [.deleteKeyResult id]
  | addComment {target : CommentTarget} {text tidy : String} {g : Goal}
      (htext : commentText text = .ok tidy) (hget : m.goalOn target = some g) :
      Writes m (.addComment target text) [.addComment target tidy]
  | setStatus {team : TeamId} {period : PeriodId} {status : Status}
      (hteam : m.teams.contains team = true) (hperiod : m.periods.contains period = true) :
      Writes m (.setStatus team period status) [.setStatus team period status]
  | move {item : SequencedItem} {direction : Direction} :
      Writes m (.move item direction) [.move item direction]

/-- The store has been changed by the calls of the command. -/
def Written (m : Memory) (c : Command) (m' : Memory) : Prop :=
  ∃ calls, c.Writes m calls ∧ m' = m.after calls

section Writing

open Program (Finds Leaves)

theorem create_leaves (team : TeamId) (period : PeriodId) (draft : GoalDraft) :
    (Goals.create team period draft).Leaves m (Written m (.createGoal team period draft)) := by
  refine (Finds.check _).bind_leaves fun tidy hdraft => ?_
  refine (requireTeam_finds team).bind_leaves fun t ht => ?_
  refine (requirePeriod_finds period).bind_leaves fun p hp => ?_
  have hteam := Table.contains_of_get? ht
  have hperiod := Table.contains_of_get? hp
  refine (requireOpen_finds team period _).bind_leaves fun status hstatus => ?_
  refine .ask_bind fun goal _ => ?_
  show Leaves (if status.afterGoalCreated ≠ status then _ else _) _ _
  by_cases hfirst : status = .noGoals
  · rw [hfirst] at hstatus
    have hmoves : status.afterGoalCreated ≠ status := by rw [hfirst]; decide
    rw [if_pos hmoves, hfirst]
    exact .ask_bind fun _ _ => .done ⟨_, .createFirst hdraft hteam hperiod hstatus.symm, rfl⟩
  · have hstays : ¬ status.afterGoalCreated ≠ status := by
      cases status with
      | noGoals => exact absurd rfl hfirst
      | _ => simp [Status.afterGoalCreated]
    rw [if_neg hstays]
    exact .done ⟨_, .createNext hdraft hteam hperiod (hstatus ▸ hfirst), rfl⟩

/-- The weight of a goal can be set for a team that does not own it only if it has a share. -/
theorem contains_of_setTeamWeight {id : GoalId} {g : Goal} {weight : Weight}
    (hget : m.goals.get? id = some g) (hother : team ≠ g.team)
    (h : (m.setTeamWeight id team weight).1 = .ok ()) : m.shares.contains (id, team) = true := by
  have howner : ¬ g.isOwnedBy team = true := mt Goal.isOwnedBy_iff.1 hother
  simp only [Memory.setTeamWeight, hget, if_neg howner, Memory.setShareWeight] at h
  split at h
  · rename_i s hs
    exact Table.contains_of_get? hs
  · cases h

theorem update_leaves (h : m.Ledger) (id : GoalId) (asTeam : Option TeamId) (draft : GoalDraft) :
    (Goals.update id asTeam draft).Leaves m (Written m (.updateGoal id asTeam draft)) := by
  refine (Finds.check _).bind_leaves fun tidy hdraft => ?_
  refine (requireGoal_finds id).bind_leaves fun g hget => ?_
  obtain rfl := h.goalKeyed id g hget
  refine (requireOpen_finds _ g.period _).bind_leaves fun _ _ => ?_
  split
  · rename_i howner
    have howner : asTeam.getD g.team = g.team := Goal.isOwnedBy_iff.1 howner
    exact .ask_bind fun _ _ => .done ⟨_, .editOwn hdraft hget howner, rfl⟩
  · rename_i hother
    have hother : asTeam.getD g.team ≠ g.team := mt Goal.isOwnedBy_iff.2 hother
    refine .ask_bind fun _ hweight => .ask_bind fun _ _ => .done ?_
    have hshare := contains_of_setTeamWeight hget hother hweight
    exact ⟨_, .editShared hdraft hget hother hshare, rfl⟩

theorem delete_leaves (h : m.Ledger) (id : GoalId) (asTeam : Option TeamId) :
    (Goals.delete id asTeam).Leaves m (Written m (.deleteGoal id asTeam)) := by
  refine (requireGoal_finds id).bind_leaves fun g hget => ?_
  obtain rfl := h.goalKeyed id g hget
  refine (requireOpen_finds _ g.period _).bind_leaves fun _ _ => ?_
  split
  · rename_i howner
    have howner : asTeam.getD g.team = g.team := Goal.isOwnedBy_iff.1 howner
    refine (Finds.ask rfl).bind_leaves fun shares hshares => ?_
    cases shares with
    | cons heir rest => exact .ask_bind fun _ _ => .done ⟨_, .handOver hget howner hshares.symm, rfl⟩
    | nil => exact .ask_bind fun _ _ => .done ⟨_, .remove hget howner hshares.symm, rfl⟩
  · rename_i hother
    have hother : asTeam.getD g.team ≠ g.team := mt Goal.isOwnedBy_iff.2 hother
    exact .ask_bind fun _ _ => .done ⟨_, .giveUp hget hother, rfl⟩

theorem share_leaves (h : m.Ledger) (id : GoalId) (targets : List ShareTarget) :
    (Goals.share id targets).Leaves m (Written m (.shareGoal id targets)) := by
  refine (requireGoal_finds id).bind_leaves fun g hget => ?_
  obtain rfl := h.goalKeyed id g hget
  refine (Finds.check _).bind_leaves fun plan hplan => ?_
  refine (Finds.ask rfl).bind_leaves fun shares hshares => ?_
  refine (Finds.ask rfl).bind_leaves fun statuses hstatuses => ?_
  subst hshares hstatuses
  refine (Finds.each fun team _ => checkTarget_finds h g team).bind_leaves fun _ hteams => ?_
  exact .ask_bind fun _ _ => .done ⟨_, .share hget hplan hteams, rfl⟩

theorem createKeyResult_leaves (h : m.Ledger) (id : GoalId) (draft : KeyResultDraft) :
    (KeyResults.create id draft).Leaves m (Written m (.createKeyResult id draft)) := by
  refine (Finds.check _).bind_leaves fun tidy hdraft => ?_
  refine (requireGoal_finds id).bind_leaves fun g hget => ?_
  obtain rfl := h.goalKeyed id g hget
  refine (requireOpen_finds g.team g.period _).bind_leaves fun _ _ => ?_
  exact .ask ⟨_, .createKeyResult hdraft hget, rfl⟩

theorem setWeights_leaves (h : m.Ledger) (id : GoalId) (weights : List (KeyResultId × Weight)) :
    (KeyResults.setWeights id weights).Leaves m (Written m (.setWeights id weights)) := by
  refine (requireGoal_finds id).bind_leaves fun g hget => ?_
  obtain rfl := h.goalKeyed id g hget
  refine (requireOpen_finds g.team g.period _).bind_leaves fun _ _ => ?_
  exact .ask ⟨_, .setWeights hget, rfl⟩

variable {id : KeyResultId}

theorem updateKeyResult_leaves (h : m.OwnKeys) (draft : KeyResultDraft) :
    (KeyResults.update id draft).Leaves m (Written m (.updateKeyResult id draft)) := by
  refine (Finds.check _).bind_leaves fun tidy hdraft => ?_
  refine (requireKeyResult_finds id).bind_leaves fun (k, g) ⟨hk, hg⟩ => ?_
  obtain rfl := h.keyResults id k hk
  refine (requireOpen_finds g.team g.period _).bind_leaves fun _ _ => ?_
  exact .ask ⟨_, .updateKeyResult hdraft hg, rfl⟩

theorem deleteKeyResult_leaves (h : m.OwnKeys) :
    (KeyResults.delete id).Leaves m (Written m (.deleteKeyResult id)) := by
  refine (requireKeyResult_finds id).bind_leaves fun (k, g) ⟨hk, hg⟩ => ?_
  obtain rfl := h.keyResults id k hk
  refine (requireOpen_finds g.team g.period _).bind_leaves fun _ _ => ?_
  exact .ask ⟨_, .deleteKeyResult hg, rfl⟩

theorem recordProgress_leaves (h : m.OwnKeys) (update : ProgressUpdate) :
    (KeyResults.recordProgress id update).Leaves m (Written m (.recordProgress id update)) := by
  refine (requireKeyResult_finds id).bind_leaves fun (k, g) ⟨hk, hg⟩ => ?_
  obtain rfl := h.keyResults id k hk
  refine (requireOpen_finds g.team g.period _).bind_leaves fun _ _ => ?_
  refine (Finds.lift _).bind_leaves fun _ _ => ?_
  exact .ask_bind fun _ _ => .done ⟨_, .recordProgress hg, rfl⟩

theorem addCheckpoint_leaves (h : m.OwnKeys) (draft : CheckpointDraft) :
    (KeyResults.addCheckpoint id draft).Leaves m (Written m (.addCheckpoint id draft)) := by
  refine (requireKeyResult_finds id).bind_leaves fun (k, g) ⟨hk, hg⟩ => ?_
  obtain rfl := h.keyResults id k hk
  show Leaves (if _ then _ else _) m _
  split
  · exact Program.Refuses.leaves ⟨_, rfl⟩ _
  · refine (requireOpen_finds g.team g.period _).bind_leaves fun _ _ => ?_
    exact .ask ⟨_, .addCheckpoint hg, rfl⟩

theorem addComment_leaves (target : CommentTarget) (text : String) :
    (Comments.add target text).Leaves m (Written m (.addComment target text)) := by
  refine (Finds.check _).bind_leaves fun tidy htext => ?_
  refine (goalOf_finds target).bind_leaves fun g hg => ?_
  refine (requireOpen_finds g.team g.period _).bind_leaves fun _ _ => ?_
  exact .ask ⟨_, .addComment htext hg, rfl⟩

/-- The status that is set is the one that is asked for. -/
theorem setStatus_leaves (team : TeamId) (period : PeriodId) (status : Status) :
    (Statuses.set team period status).Leaves m (Written m (.setStatus team period status)) := by
  refine (requireTeam_finds team).bind_leaves fun t ht => ?_
  refine (requirePeriod_finds period).bind_leaves fun p hp => ?_
  refine (Finds.ask rfl).bind_leaves fun previous _ => ?_
  refine (Finds.check _).bind_leaves fun next hmove => ?_
  obtain rfl : next = status := by
    unfold Lifecycle.move at hmove
    split at hmove
    · cases hmove
      rfl
    · cases hmove
  have hteam := Table.contains_of_get? ht
  have hperiod := Table.contains_of_get? hp
  exact .ask_bind fun _ _ => .done ⟨_, .setStatus hteam hperiod, rfl⟩

/-- **A command that succeeds has found what it needs, and has made exactly its calls.** -/
theorem leaves_writes (h : m.Reachable) (c : Command) : c.program.Leaves m (Written m c) := by
  have hledger := h.sound.ledger
  have hkeys := h.ownKeys
  cases c with
  | createGoal team period draft => exact create_leaves team period draft
  | updateGoal id asTeam draft => exact update_leaves hledger id asTeam draft
  | deleteGoal id asTeam => exact delete_leaves hledger id asTeam
  | shareGoal id targets => exact share_leaves hledger id targets
  | createKeyResult id draft => exact createKeyResult_leaves hledger id draft
  | updateKeyResult id draft => exact updateKeyResult_leaves hkeys draft
  | setWeights id weights => exact setWeights_leaves hledger id weights
  | recordProgress id update => exact recordProgress_leaves hkeys update
  | addCheckpoint id draft => exact addCheckpoint_leaves hkeys draft
  | deleteKeyResult id => exact deleteKeyResult_leaves hkeys
  | addComment target text => exact addComment_leaves target text
  | setStatus team period status => exact setStatus_leaves team period status
  | move item direction => exact .ask ⟨_, .move, rfl⟩

/-- A command is let in, has found what it needs and has made exactly its calls, or it has changed no
record. -/
theorem same_or_writes (h : m.Reachable) (c : Command) :
    (c.program.run Memory.carry m).2.records = m.records ∨
      c.Open m ∧ Written m c (c.program.run Memory.carry m).2 := by
  cases hrun : (c.program.run Memory.carry m).1 with
  | error e =>
    refine .inl (Command.undone m.allOrNothing c ?_ e hrun)
    intro id asTeam draft _
    exact Memory.undone_edit h.ownKeys id asTeam draft
  | ok a =>
    refine .inr ⟨fun team period hacting hclosed => ?_, leaves_writes h c a hrun⟩
    obtain ⟨e, hrefused⟩ := refuses_of_closed hacting hclosed
    rw [hrefused] at hrun
    cases hrun

end Writing

end Command

end Objectives
