/- # What has been answered

Commands that are carried out side by side answer one after the other.  What is done to the measurement
of a key result is done by the last call of a command, and the command answers as soon as that call has
been replied to.  So the answers tell, in their order, all that has been done to measurements.

Main definitions:

* `Answered` — a command with its answer;
* `Deed`, `Answered.deed`, `Call.deed` — what is done to a measurement, as told by the answer to a
  command and by the reply to a call;
* `Program.Faithful` — a program whose answer tells what its calls have done;
* `System.Journal` — the answers on the way to a state of a system.

Main results:

* `Command.faithful` — a command answers what it has done;
* `System.exists_journal` — every state that can come about has a journal;
* `System.Journal.induction` — **a journal tells what the calls have done, one after the other**.
-/

import Objectives.Proofs.Calls
import Objectives.Proofs.Changes
import Objectives.Proofs.Refusal.Memory

set_option relaxedAutoImplicit false
set_option autoImplicit false

namespace Objectives

/-! ### Deeds -/

/-- What can be done to the measurement of a key result. -/
inductive Deed
  | created (draft : MeasurementDraft)
  | changed (draft : MeasurementDraft)
  | reported (update : ProgressUpdate)
  | added (checkpoint : Checkpoint)
  deriving DecidableEq

/-- A command that has been carried out, and what it has answered. -/
structure Answered where
  command : Command
  answer : command.Outcome

/-- What an answered command has done, and to which key result. -/
def Answered.deed : Answered → Option (KeyResultId × Deed)
  | ⟨.createKeyResult _ draft, k⟩ => some (k.id, .created draft.measurement)
  | ⟨.updateKeyResult id draft, _⟩ => some (id, .changed draft.measurement)
  | ⟨.recordProgress id update, _⟩ => some (id, .reported update)
  | ⟨.addCheckpoint id _, checkpoint⟩ => some (id, .added checkpoint)
  | _ => none

/-- What a call has done when it is replied to, and to which key result. -/
def Call.deed : (c : Call) → c.Reply → Option (KeyResultId × Deed)
  | createKeyResult _ draft, k => some (k.id, .created draft.measurement)
  | updateKeyResult id draft, _ => some (id, .changed draft.measurement)
  | recordProgress id update, _ => some (id, .reported update)
  | addCheckpoint id _, checkpoint => some (id, .added checkpoint)
  | _, _ => none

theorem Call.Unmeasuring.deed {c : Call} (hc : c.Unmeasuring) (reply : c.Reply) :
    c.deed reply = none := by
  cases c with
  | createKeyResult goal draft => cases hc
  | updateKeyResult id draft => cases hc
  | recordProgress id update => cases hc
  | addCheckpoint id draft => cases hc
  | _ => rfl

theorem Command.Unmeasuring.deed {c : Command} (hc : c.Unmeasuring) (answer : c.Outcome) :
    (Answered.mk c answer).deed = none := by
  cases c with
  | createKeyResult goal draft => cases hc
  | updateKeyResult id draft => cases hc
  | recordProgress id update => cases hc
  | addCheckpoint id draft => cases hc
  | _ => rfl

/-! ### Programs that answer what they have done -/

/-- A key result that is found has the identifier that it was looked for by. -/
def Call.Honest : (c : Call) → c.Reply → Prop
  | keyResult id, found => ∀ k, found = some k → k.id = id
  | _, _ => True

namespace Program

variable {α β : Type} {tells : α → Option (KeyResultId × Deed)}

/-- What the answer tells has been done by the last call of the program, and nothing by those before it,
as long as replies are honest. -/
inductive Faithful (tells : α → Option (KeyResultId × Deed)) : Program α → Prop
  | done {a : α} (h : tells a = none) : Faithful tells (.done a)
  | fail {e : Failure} : Faithful tells (.fail e)
  | call {c : Call} {next : c.Reply → Program α} (silent : ∀ reply, c.deed reply = none)
      (hnext : ∀ reply, c.Honest reply → Faithful tells (next reply)) : Faithful tells (.call c next)
  | last {c : Call} {next : c.Reply → Program α}
      (h : ∀ reply, ∃ a, next reply = .done a ∧ tells a = c.deed reply) : Faithful tells (.call c next)

namespace Faithful

/-- A program that reads has nothing to tell before what follows. -/
theorem reads_bind {p : Program β} {f : β → Program α} (hp : p.Reads)
    (hf : ∀ b, (f b).Faithful tells) : (p.bind f).Faithful tells := by
  have hmakes : p.Makes Call.Unmeasuring := .of_reads (fun _ => Call.unmeasuring_of_reads) hp
  induction hmakes with
  | done => exact hf _
  | fail => exact .fail
  | call hc _ ih => exact .call hc.deed fun reply _ => ih reply (hp.2 reply)

theorem of_makes {p : Program α} (hp : p.Makes Call.Unmeasuring) (h : ∀ a, tells a = none) :
    p.Faithful tells := by
  induction hp with
  | done => exact .done (h _)
  | fail => exact .fail
  | call hc _ ih => exact .call hc.deed fun reply _ => ih reply

theorem check_bind {result : Except Violation β} {f : β → Program α}
    (hf : ∀ b, result = .ok b → (f b).Faithful tells) : ((check result).bind f).Faithful tells := by
  cases result with
  | ok b => exact hf b rfl
  | error v => exact .fail

theorem lift_bind {result : Except Failure β} {f : β → Program α}
    (hf : ∀ b, (f b).Faithful tells) : ((lift result).bind f).Faithful tells := by
  cases result with
  | ok b => exact hf b
  | error e => exact .fail

/-- What follows the reading of a key result may rely on its identifier. -/
theorem requireKeyResult_bind {id : KeyResultId} {f : KeyResult × Goal → Program α}
    (hf : ∀ found, found.1.id = id → (f found).Faithful tells) :
    ((requireKeyResult id).bind f).Faithful tells := by
  refine .call (fun _ => rfl) fun found hfound => ?_
  cases found with
  | none => exact .fail
  | some k =>
    refine .call (fun _ => rfl) fun goal _ => ?_
    cases goal with
    | none => exact .fail
    | some goal => exact hf (k, goal) (hfound k rfl)

end Faithful

end Program

section Commands

open Program (Faithful)

theorem faithful_createKeyResult (goal : GoalId) (draft : KeyResultDraft) :
    (KeyResults.create goal draft).Faithful fun k =>
      (Answered.mk (.createKeyResult goal draft) k).deed := by
  refine .check_bind fun draft' hdraft => ?_
  refine .reads_bind (reads_requireGoal goal) fun goal => ?_
  refine .reads_bind (reads_requireOpen _ _ _) fun _ => .last fun k => ⟨k, rfl, ?_⟩
  show some (k.id, Deed.created draft.measurement) = some (k.id, .created draft'.measurement)
  rw [(KeyResultDraft.of_normalized hdraft).1]

theorem faithful_updateKeyResult (id : KeyResultId) (draft : KeyResultDraft) :
    (KeyResults.update id draft).Faithful fun k =>
      (Answered.mk (.updateKeyResult id draft) k).deed := by
  refine .check_bind fun draft' hdraft => .requireKeyResult_bind fun found hid => ?_
  refine .reads_bind (reads_requireOpen _ _ _) fun _ => .last fun k => ⟨k, rfl, ?_⟩
  show some (id, Deed.changed draft.measurement) = some (found.1.id, .changed draft'.measurement)
  rw [(KeyResultDraft.of_normalized hdraft).1, hid]

theorem faithful_recordProgress (id : KeyResultId) (update : ProgressUpdate) :
    (KeyResults.recordProgress id update).Faithful fun recorded =>
      (Answered.mk (.recordProgress id update) recorded).deed := by
  refine .requireKeyResult_bind fun found hid => ?_
  refine .reads_bind (reads_requireOpen _ _ _) fun _ => .lift_bind fun μ => ?_
  refine .last fun reply => ⟨_, rfl, ?_⟩
  show some (id, Deed.reported update) = some (found.1.id, .reported update)
  rw [hid]

theorem faithful_addCheckpoint (id : KeyResultId) (draft : CheckpointDraft) :
    (KeyResults.addCheckpoint id draft).Faithful fun checkpoint =>
      (Answered.mk (.addCheckpoint id draft) checkpoint).deed := by
  refine .requireKeyResult_bind fun found hid => ?_
  dsimp only
  split
  · exact .fail
  · refine .reads_bind (reads_requireOpen _ _ _) fun _ =>
      .last fun checkpoint => ⟨checkpoint, rfl, ?_⟩
    show some (id, Deed.added checkpoint) = some (found.1.id, .added checkpoint)
    rw [hid]

theorem Command.Unmeasuring.faithful {c : Command} (hc : c.Unmeasuring) :
    c.program.Faithful fun a => (Answered.mk c a).deed := .of_makes hc.makes hc.deed

/-- **A command answers what it has done.** -/
theorem Command.faithful (c : Command) : c.program.Faithful fun a => (Answered.mk c a).deed := by
  cases c with
  | createKeyResult goal draft => exact faithful_createKeyResult goal draft
  | updateKeyResult id draft => exact faithful_updateKeyResult id draft
  | recordProgress id update => exact faithful_recordProgress id update
  | addCheckpoint id draft => exact faithful_addCheckpoint id draft
  | _ => exact Command.Unmeasuring.faithful trivial

end Commands

/-- Replies of a store whose records are under their own keys are honest. -/
theorem Memory.OwnKeys.honest {m : Memory} (h : m.OwnKeys) {c : Call} {reply : c.Reply}
    {m' : Memory} (hcarry : Memory.carry c m = (.ok reply, m')) : c.Honest reply := by
  cases c with
  | keyResult id =>
    intro k hk
    cases hcarry
    exact h.keyResults id k hk
  | _ => trivial

/-! ### Journals -/

/-- What has been answered when a command has come as far as a program: its answer, if that is all. -/
def Answered.ofProgram (c : Command) : Program c.Outcome → List Answered
  | .done a => [⟨c, a⟩]
  | _ => []

/-- What a command answers when it is carried out without interference: nothing, if it fails. -/
def Answered.ofResult (c : Command) : Except Failure c.Outcome → List Answered
  | .ok a => [⟨c, a⟩]
  | .error _ => []

/-- The answers to commands that are carried out one after the other, and the store after them. -/
def Memory.answers (m : Memory) : List Command → List Answered × Memory
  | [] => ([], m)
  | c :: rest =>
    let first := c.program.run Memory.carry m
    let others := first.2.answers rest
    (Answered.ofResult c first.1 ++ others.1, others.2)

/-- What has come so far without a deed has none to tell. -/
theorem Answered.deeds_ofProgram {c : Command} {p : Program c.Outcome}
    (hp : p.Faithful fun a => (Answered.mk c a).deed) :
    (ofProgram c p).filterMap Answered.deed = [] := by
  cases hp with
  | done h => exact List.filterMap_cons_none h
  | fail | call | last => rfl

namespace System

variable {answered : List Answered} {s : System}

/-- The commands that have been answered on the way to a state, in the order of their answers, since the
store had no records. -/
inductive Journal : List Answered → System → Prop
  | start : Journal [] ⟨Memory.empty, []⟩
  | addTeam {answered : List Answered} {s : System} (h : Journal answered s) (name : String)
      (type : TeamType) (parent : Option TeamId) :
      Journal answered { s with store := (s.store.addTeam name type parent).2 }
  | setTeamParent {answered : List Answered} {s : System} (h : Journal answered s) (team : TeamId)
      (parent : Option TeamId) : Journal answered { s with store := s.store.setTeamParent team parent }
  | createPeriod {answered : List Answered} {s : System} (h : Journal answered s) (name : String)
      (startDate endDate : Date) :
      Journal answered { s with store := (s.store.createPeriod name startDate endDate).2 }
  | submit {answered : List Answered} {s : System} (h : Journal answered s) (c : Command) :
      Journal (answered ++ Answered.ofProgram c c.program)
        { s with running := s.running ++ [⟨c, c.program⟩] }
  | advance {answered : List Answered} {m : Memory}
      {before after : List ((c : Command) × Program c.Outcome)} {c : Command} {call : Call}
      {next : call.Reply → Program c.Outcome}
      (h : Journal answered ⟨m, before ++ ⟨c, .call call next⟩ :: after⟩) :
      Journal (answered ++ Answered.ofProgram c ((Program.call call next).step Memory.carry m).1)
        ⟨((Program.call call next).step Memory.carry m).2,
          before ++ ⟨c, ((Program.call call next).step Memory.carry m).1⟩ :: after⟩

/-- What has a journal can come about. -/
theorem Journal.steps (h : Journal answered s) :
    Relation.ReflTransGen Step ⟨Memory.empty, []⟩ s := by
  induction h with
  | start => exact .refl
  | addTeam _ name type parent ih => exact ih.tail (.addTeam _ name type parent)
  | setTeamParent _ team parent ih => exact ih.tail (.setTeamParent _ team parent)
  | createPeriod _ name startDate endDate ih => exact ih.tail (.createPeriod _ name startDate endDate)
  | submit _ c ih => exact ih.tail (.submit _ c)
  | @advance _ m before after c call next _ ih =>
    exact ih.tail (.advance m before after c (.call call next))

theorem Journal.reachable (h : Journal answered s) : s.store.Reachable := ⟨s.running, h.steps⟩

/-- **Every state that can come about has a journal.** -/
theorem exists_journal (h : Relation.ReflTransGen Step ⟨Memory.empty, []⟩ s) :
    ∃ answered, Journal answered s := by
  induction h with
  | refl => exact ⟨[], .start⟩
  | tail _ step ih =>
    obtain ⟨answered, hjournal⟩ := ih
    cases step with
    | addTeam s name type parent => exact ⟨_, hjournal.addTeam name type parent⟩
    | setTeamParent s team parent => exact ⟨_, hjournal.setTeamParent team parent⟩
    | createPeriod s name startDate endDate =>
      exact ⟨_, hjournal.createPeriod name startDate endDate⟩
    | submit s c => exact ⟨_, hjournal.submit c⟩
    | advance m before after c p =>
      cases p with
      | done a => exact ⟨answered, hjournal⟩
      | fail e => exact ⟨answered, hjournal⟩
      | call call next => exact ⟨_, hjournal.advance⟩

/-- A running command can be carried through without interference, and then has its answer. -/
theorem Journal.exists_run {c : Command} {p : Program c.Outcome} {m : Memory}
    {before : List ((c : Command) × Program c.Outcome)}
    (h : Journal (answered ++ Answered.ofProgram c p) ⟨m, before ++ [⟨c, p⟩]⟩) :
    ∃ running, Journal (answered ++ Answered.ofResult c (p.run Memory.carry m).1)
      ⟨(p.run Memory.carry m).2, running⟩ := by
  induction p generalizing m with
  | done a => exact ⟨_, h⟩
  | fail e => exact ⟨_, h⟩
  | call call next ih =>
    rw [Answered.ofProgram, List.append_nil] at h
    · have hstep := h.advance
      rw [Program.run_eq_step]
      rw [Program.step] at hstep ⊢
      cases hcarry : Memory.carry call m with
      | mk answer m' =>
        simp only [hcarry] at hstep ⊢
        cases answer with
        | ok reply => exact ih reply hstep
        | error e => exact ⟨_, hstep⟩
    · exact fun a ha => by cases ha

/-- Commands can be carried out one after the other, and then have their answers. -/
theorem Journal.exists_answers (h : Journal answered s) (commands : List Command) :
    ∃ running, Journal (answered ++ (s.store.answers commands).1)
      ⟨(s.store.answers commands).2, running⟩ := by
  induction commands generalizing answered s with
  | nil => exact ⟨s.running, by rwa [Memory.answers, List.append_nil]⟩
  | cons c rest ih =>
    obtain ⟨running, hrun⟩ := (h.submit c).exists_run
    obtain ⟨running', hrest⟩ := ih hrun
    exact ⟨running', by rwa [List.append_assoc] at hrest⟩

/-- A running command has been answered, or will answer what its calls to come will have done. -/
theorem Journal.faithful (h : Journal answered s) :
    ∀ r ∈ s.running, (∃ a, r.2 = .done a) ∨ r.2.Faithful fun a => (Answered.mk r.1 a).deed := by
  induction h with
  | start => exact fun _ hr => absurd hr List.not_mem_nil
  | addTeam _ _ _ _ ih | setTeamParent _ _ _ ih | createPeriod _ _ _ _ ih => exact ih
  | submit _ c ih =>
    intro r hr
    rcases List.mem_append.1 hr with hr | hr
    · exact ih r hr
    · rw [List.mem_singleton.1 hr]
      exact .inr c.faithful
  | @advance _ m before after c call next hjournal ih =>
    intro r hr
    rcases List.mem_append.1 hr with hr | hr
    · exact ih r (by simp [hr])
    rcases List.mem_cons.1 hr with rfl | hr
    · -- only this command has other calls left than before
      have hown := hjournal.reachable.ownKeys
      rcases ih ⟨c, .call call next⟩ (by simp) with ⟨_, hdone⟩ | hfaithful
      · cases hdone
      rw [Program.step]
      cases hcarry : Memory.carry call m with
      | mk answer m' =>
        cases answer with
        | error e => exact .inr .fail
        | ok reply =>
          cases hfaithful with
          | call _ hnext => exact .inr (hnext reply (hown.honest hcarry))
          | last hlast =>
            obtain ⟨a, hdone, -⟩ := hlast reply
            exact .inl ⟨a, hdone⟩
    · exact ih r (by simp [hr])

/-- **A journal tells what the calls have done, one after the other.**  What holds at the start, with
nothing done, and is kept by looking after teams, by calls that fail and, with what they do, by calls
that are replied to, holds of all that the journal tells. -/
theorem Journal.induction {P : List (KeyResultId × Deed) → Memory → Prop} (h : Journal answered s)
    (start : P [] Memory.empty)
    (addTeam : ∀ deeds m name type parent, P deeds m → P deeds (m.addTeam name type parent).2)
    (setTeamParent : ∀ deeds m team parent, P deeds m → P deeds (m.setTeamParent team parent))
    (refused : ∀ deeds m c e m', m.Reachable → Memory.carry c m = (.error e, m') → P deeds m →
      P deeds m')
    (replied : ∀ deeds m c reply m', m.Reachable → Memory.carry c m = (.ok reply, m') → P deeds m →
      P (deeds ++ (c.deed reply).toList) m') :
    P (answered.filterMap Answered.deed) s.store := by
  induction h with
  | start => exact start
  | addTeam _ name type parent ih => exact addTeam _ _ name type parent ih
  | setTeamParent _ team parent ih => exact setTeamParent _ _ team parent ih
  | @createPeriod _ s hjournal name startDate endDate ih =>
    cases hcarry : Memory.carry (.createPeriod name startDate endDate) s.store with
    | mk answer m' =>
      have hstore : (s.store.createPeriod name startDate endDate).2 = m' := congrArg Prod.snd hcarry
      rw [hstore]
      cases answer with
      | error e => exact refused _ _ _ e m' hjournal.reachable hcarry ih
      | ok period =>
        have hnext := replied _ _ _ period m' hjournal.reachable hcarry ih
        have hdeed : (Call.createPeriod name startDate endDate).deed period = none :=
          Call.Unmeasuring.deed (c := .createPeriod name startDate endDate) trivial period
        rwa [hdeed, Option.toList_none, List.append_nil] at hnext
  | submit _ c ih =>
    rw [List.filterMap_append, Answered.deeds_ofProgram c.faithful, List.append_nil]
    exact ih
  | @advance _ m before after c call next hjournal ih =>
    rw [List.filterMap_append, Program.step]
    cases hcarry : Memory.carry call m with
    | mk answer m' =>
      cases answer with
      | error e =>
        simpa [Answered.ofProgram] using refused _ _ _ e m' hjournal.reachable hcarry ih
      | ok reply =>
        have hnext := replied _ _ _ reply m' hjournal.reachable hcarry ih
        rcases hjournal.faithful ⟨c, .call call next⟩ (by simp) with ⟨_, hdone⟩ | hfaithful
        · cases hdone
        cases hfaithful with
        | call silent hrest =>
          rw [silent reply] at hnext
          rw [Answered.deeds_ofProgram (hrest reply (hjournal.reachable.ownKeys.honest hcarry))]
          exact hnext
        | last hlast =>
          obtain ⟨a, hdone, htells⟩ := hlast reply
          have hanswer : (Answered.ofProgram c (next reply)).filterMap Answered.deed =
              (call.deed reply).toList := by
            rw [hdone, Answered.ofProgram, List.filterMap_cons, List.filterMap_nil, htells]
            cases call.deed reply <;> rfl
          rw [hanswer]
          exact hnext

end System

end Objectives
