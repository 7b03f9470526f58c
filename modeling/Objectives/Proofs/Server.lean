/- # Commands on one database

Any number of commands run on one database, and their calls come in any order, one call after the other.
A call may be a session of several statements.  Here it is one step: nothing is said of the statements of
two sessions that interleave.  Whatever calls have been made since there were no key results, the rows of
every measurement fit the row of its key result: what a call does not check has been checked by the
command that makes it.

Main definitions:

* `Command.Ranged` — the ranges that a command submits are ranges;
* `Server`, `Server.Step` — a database with the commands that run on it, and what can happen next, a
  whole call at a time.

Main results:

* `Command.checked` — a command makes checked calls only;
* `Server.Safe.step`, `Server.Safe.steps` — whatever call comes next, the database stays intact;
* `Server.measured_of_steps` — **the rows of every measurement fit the row of its key result, and key
  results can be read**.
-/

import Objectives.Proofs.Calls
import Objectives.Proofs.Intact
import Objectives.Proofs.Reachable
import Objectives.Proofs.Refusal.Database

set_option relaxedAutoImplicit false
set_option autoImplicit false

namespace Objectives

/-! ### The calls of commands -/

/-- A call that leaves measurements alone submits and reports nothing. -/
theorem Call.Unmeasuring.checked {c : Call} (hc : c.Unmeasuring) : c.Checked := by
  cases c with
  | createKeyResult goal draft => cases hc
  | updateKeyResult id draft => cases hc
  | recordProgress id update => cases hc
  | _ => trivial

/-- The ranges that the command submits are ranges. -/
def Command.Ranged : Command → Prop
  | createKeyResult _ draft | updateKeyResult _ draft => draft.measurement.Ranged
  | _ => True

/-- A value that a measurement takes is finite. -/
theorem Measurement.Takes.finite {μ μ' : Measurement} {update : ProgressUpdate}
    (h : μ.Takes update μ') : update.Finite := by
  cases h with
  | stage _ => trivial
  | percentCurrent _ hrange => exact (MetricRange.make_eq_ok_iff.1 hrange).1.2.2.1
  | linearCurrent hrange => exact (MetricRange.make_eq_ok_iff.1 hrange).1.2.2.1
  | boolean _ _ => trivial

/-- The draft of a key result is checked before anything is read. -/
theorem complete_of_normalized {draft draft' : KeyResultDraft} (h : draft.normalized = .ok draft')
    (hranged : draft.measurement.Ranged) : draft'.measurement.Complete := by
  obtain ⟨hmeasurement, hvalid, -⟩ := KeyResultDraft.of_normalized h
  rw [hmeasurement]
  exact ⟨hranged, hvalid⟩

/-- **A command makes checked calls only.** -/
theorem Command.checked {c : Command} (h : c.Ranged) : c.program.Makes Call.Checked := by
  refine c.makes.mono fun call hcall => ?_
  cases hcall with
  | read _ hread => exact (Call.unmeasuring_of_reads hread).checked
  | createKeyResult _ _ hdraft | updateKeyResult _ _ hdraft => exact complete_of_normalized hdraft h
  | recordProgress _ _ htakes => exact htakes.finite
  | _ => trivial

/-! ### One call after the other -/

/-- A database, and the commands that are being carried out on it. -/
structure Server where
  database : Contents
  running : List ((c : Command) × Program c.Outcome)

namespace Server

/-- What can happen next: a team is added or moved, a period is created, a command with proper ranges
is submitted, or one of the running commands makes its next call.  Each is a single step, also where it
is a session of several statements: no other session comes in between. -/
inductive Step : Server → Server → Prop
  | addTeam (s : Server) (name : String) (type : TeamType) (parent : Option TeamId) :
      Step s { s with database := (s.database.addTeam name type parent).2 }
  | setTeamParent (s : Server) (team : TeamId) (parent : Option TeamId) :
      Step s { s with database := (s.database.setTeamParent team parent).2 }
  | createPeriod (s : Server) (name : String) (startDate endDate : Date) :
      Step s { s with
        database := (Contents.carry (.createPeriod name startDate endDate) s.database).2 }
  | submit (s : Server) (c : Command) (h : c.Ranged) :
      Step s { s with running := s.running ++ [⟨c, c.program⟩] }
  | advance (db : Contents) (before after : List ((c : Command) × Program c.Outcome)) (c : Command)
      (p : Program c.Outcome) :
      Step ⟨db, before ++ ⟨c, p⟩ :: after⟩
        ⟨(p.step Contents.carry db).2, before ++ ⟨c, (p.step Contents.carry db).1⟩ :: after⟩

/-- The database is intact, and all that runs on it makes checked calls. -/
structure Safe (s : Server) : Prop where
  intact : s.database.Intact
  checked : ∀ r ∈ s.running, r.2.Makes Call.Checked

variable {s s' : Server}

/-- Whatever step comes next, the database stays intact. -/
theorem Safe.step (h : s.Safe) (hs : Step s s') : s'.Safe := by
  cases hs with
  | addTeam s name type parent =>
    have hteam := Contents.course_onward.along_insertTeam name type parent
    exact ⟨(Contents.along_attempt hteam _).2 h.intact, h.checked⟩
  | setTeamParent s team parent =>
    have hteam := Contents.course_onward.along_changeParent team parent
    exact ⟨(Contents.along_attempt hteam _).2 h.intact, h.checked⟩
  | createPeriod s name startDate endDate =>
    have hperiod : (Call.createPeriod name startDate endDate).Checked := trivial
    refine ⟨?_, h.checked⟩
    dsimp only
    exact h.intact.carry hperiod
  | submit s c hc =>
    refine ⟨h.intact, ?_⟩
    intro r hr
    rcases List.mem_append.1 hr with hr | hr
    · exact h.checked r hr
    · rw [List.mem_singleton.1 hr]
      exact Command.checked hc
  | advance db before after c p =>
    obtain ⟨hintact, hp⟩ := (h.checked ⟨c, p⟩ (by simp)).step (I := Contents.Intact)
      (fun _ _ hc hdb => hdb.carry hc) h.intact
    refine ⟨hintact, ?_⟩
    intro r hr
    rcases List.mem_append.1 hr with hr | hr
    · exact h.checked r (by simp [hr])
    · -- only this command has other calls left than before
      rcases List.mem_cons.1 hr with rfl | hr
      · exact hp
      · exact h.checked r (by simp [hr])

theorem Safe.steps (h : s.Safe) (hs : Relation.ReflTransGen Step s s') : s'.Safe := by
  induction hs with
  | refl => exact h
  | tail _ hstep ih => exact ih.step hstep

end Server

/-- There are no key results and no rows of measurements. -/
structure Rows.Unmeasured (rows : Rows) : Prop where
  keyResults : rows.keyResults = .empty
  stages : rows.stages = .empty
  percentRanges : rows.percentRanges = .empty
  checkpoints : rows.checkpoints = .empty
  linearRanges : rows.linearRanges = .empty
  flags : rows.flags = .empty

/-- A database without key results is intact. -/
theorem Contents.Intact.of_unmeasured {db : Contents} (h : db.rows.Unmeasured) : db.Intact where
  measured id := by
    have hpayload : db.rows.payload id = .empty := by
      rw [Rows.payload, h.stages, h.percentRanges, h.checkpoints, h.linearRanges, h.flags]
      rfl
    rw [hpayload, h.keyResults]
    rfl
  keyResults id hid := by
    rw [h.keyResults] at hid
    cases hid
  stages e he := by
    rw [h.stages] at he
    cases he

namespace Server

variable {s : Server}

/-- **The rows of every measurement fit the row of its key result, and key results can be read**,
whatever calls of any number of commands have been made, one after the other, since there were no key
results. -/
theorem measured_of_steps {db : Contents} (unmeasured : db.rows.Unmeasured)
    (h : Relation.ReflTransGen Step ⟨db, []⟩ s) : s.database.rows.Measured ∧ s.database.Legible := by
  have hstart : Safe ⟨db, []⟩ :=
    ⟨.of_unmeasured unmeasured, fun _ hr => absurd hr List.not_mem_nil⟩
  have hsafe := hstart.steps h
  exact ⟨hsafe.intact.measured, hsafe.intact.legible⟩

/-- The database after some commands, one after the other. -/
def after (commands : List Command) (db : Contents) : Contents :=
  commands.foldl (fun db c => (c.program.run Contents.carry db).2) db

/-- Commands can be submitted and carried through one after the other. -/
theorem exists_steps_after {commands : List Command} (h : ∀ c ∈ commands, c.Ranged) (db : Contents)
    (running : List ((c : Command) × Program c.Outcome)) :
    ∃ running', Relation.ReflTransGen Step ⟨db, running⟩ ⟨after commands db, running'⟩ := by
  induction commands generalizing db running with
  | nil => exact ⟨running, .refl⟩
  | cons c rest ih =>
    obtain ⟨q, hsteps⟩ := Program.exists_steps_run Contents.carry
      (fun p db => (⟨db, running ++ [⟨c, p⟩]⟩ : Server))
      (fun p db => Step.advance db running [] c p) c.program db
    obtain ⟨running', hrest⟩ := ih (fun c hc => h c (List.mem_cons_of_mem _ hc))
      (c.program.run Contents.carry db).2 (running ++ [⟨c, q⟩])
    have hsubmit := Step.submit ⟨db, running⟩ c (h c (List.mem_cons_self ..))
    exact ⟨running', (Relation.ReflTransGen.head hsubmit hsteps).trans hrest⟩

/-- A range from 0 to 10. -/
def tenfold : MetricRange Double :=
  ⟨.ofDecimal false 0 0, .ofDecimal false 10 0, .ofDecimal false 4 0⟩

/-- A percentage is created, and a checkpoint is added to it. -/
def marking : List Command :=
  [.createKeyResult 1 ⟨"Ship", "", ⟨75, by decide⟩, .percent tenfold⟩,
    .addCheckpoint 1 ⟨.ofDecimal false 5 0, ⟨85, by decide⟩⟩]

/-- The key result becomes a project, and its first stage is done. -/
def restaging : List Command :=
  [.updateKeyResult 1 ⟨"Ship", "", ⟨75, by decide⟩,
      .project [⟨"Build", ⟨90, by decide⟩, false⟩, ⟨"Test", ⟨10, by decide⟩, false⟩]⟩,
    .recordProgress 1 (.stage 1 true)]

theorem ranged_of_mem_restaging {c : Command} (hc : c ∈ marking ++ restaging) : c.Ranged := by
  simp only [marking, restaging, List.cons_append, List.nil_append, List.mem_cons,
    List.not_mem_nil, or_false] at hc
  have hrange : tenfold.Valid := MetricRange.valid_iff.2 (by decide +kernel)
  rcases hc with rfl | rfl | rfl | rfl
  · exact hrange
  · trivial
  · trivial
  · trivial

/-- Nothing is left of a percentage once its key result has become a project. -/
theorem measured_of_steps_restaged :
    Contents.sharedGoal.rows.Unmeasured ∧
      (after marking Contents.sharedGoal).rows.checkpoints.values.length = 1 ∧
      ∃ db, ∃ running, Relation.ReflTransGen Step ⟨Contents.sharedGoal, []⟩ ⟨db, running⟩ ∧
        db = after (marking ++ restaging) Contents.sharedGoal ∧
        db.rows.keyResults.values.map KeyResultRow.kind = ["PROJECT"] ∧
        db.rows.stages.values.map StageRow.done = [true, false] ∧
        db.rows.checkpoints.values.length = 0 ∧ db.rows.Measured ∧ db.Legible := by
  have hunmeasured : Contents.sharedGoal.rows.Unmeasured := ⟨rfl, rfl, rfl, rfl, rfl, rfl⟩
  obtain ⟨running, hsteps⟩ := exists_steps_after (fun _ => ranged_of_mem_restaging)
    Contents.sharedGoal []
  generalize hdb : after (marking ++ restaging) Contents.sharedGoal = db at hsteps ⊢
  obtain ⟨hmeasured, hlegible⟩ := measured_of_steps hunmeasured hsteps
  refine ⟨hunmeasured, ?_, db, running, hsteps, rfl, ?_, ?_, ?_, hmeasured, hlegible⟩
  · decide +kernel
  · rw [← hdb]
    decide +kernel
  · rw [← hdb]
    decide +kernel
  · rw [← hdb]
    decide +kernel

end Server

end Objectives
