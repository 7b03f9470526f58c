/- # The two stores agree

The store in memory and the database cannot be told apart by their answers: from stores that hold the
same, requests made of both of them have the same outcomes, one after the other, up to the identifiers
that the stores give to new records.

Main definitions:

* `SameStart` — stores with the same teams, periods, goals, shares and statuses, and nothing else;
* `Service` — a kind of requests, with what it means for two of them, or two answers, to be the same;
* `Service.Agree` — a list of requests has the same outcomes over both stores;
* `goalService`, `keyResultService` — the requests on goals and those on key results.

Main results:

* `Service.agree` — requests that keep mirrors and have the same outcome do so in any number;
* `SameStart.goals_agree`, `SameStart.keyResults_agree` — **the stores agree on goals, and on key
  results**.
-/

import Objectives.Proofs.Mirror.Goals
import Objectives.Proofs.Mirror.KeyResults

set_option relaxedAutoImplicit false
set_option autoImplicit false

namespace Objectives

/-! ### Requests of both stores -/

/-- A kind of requests. -/
structure Service where
  Request : Type
  Answer : Type
  program : Request → Program Answer
  /-- The values in the request are such as both stores take, and order in the same way. -/
  Storable : Request → Prop
  /-- The requests differ in identifiers at most, and these stand for the same records, or for none. -/
  Same : Renaming → Memory → Contents → Request → Request → Prop
  /-- The answers differ in identifiers at most, and these are paired with each other. -/
  Like : Renaming → Answer → Answer → Prop

namespace Service

variable (S : Service)

/-- Pairs of requests, one for each store, are made one after the other.  As long as they ask for the
same, and no key that orders records passes the greatest of the database, they have the same outcome,
up to a renaming that goes on from the one before. -/
def Agree : Renaming → Memory → Contents → List (S.Request × S.Request) → Prop
  | _, _, _, [] => True
  | ρ, m, db, (r, r') :: rest =>
    S.Storable r → S.Same ρ m db r r' → ((S.program r).run Memory.carry m).2.Fits →
      ∃ ρ', ρ.Le ρ' ∧
        SameOutcome (S.Like ρ') ((S.program r).run Memory.carry m).1
          ((S.program r').run Contents.carry db).1 ∧
        Agree ρ' ((S.program r).run Memory.carry m).2 ((S.program r').run Contents.carry db).2 rest

/-- One pair of requests, made of stores that mirror each other. -/
def ActsAlike : Prop :=
  ∀ {ρ m db r r'}, Mirror ρ m db → S.Storable r → S.Same ρ m db r r' →
    Objectives.ActsAlike ρ m db S.Like (S.program r) (S.program r')

variable {S}

/-- **Requests agree in any number if each pair acts alike.** -/
theorem agree (hS : S.ActsAlike) {ρ : Renaming} {m : Memory} {db : Contents} (h : Mirror ρ m db)
    (requests : List (S.Request × S.Request)) : S.Agree ρ m db requests := by
  induction requests generalizing ρ m db with
  | nil => exact trivial
  | cons pair rest ih =>
    intro hstorable hsame hfits
    obtain ⟨ρ', hle, hmirror, houtcome⟩ := hS h hstorable hsame hfits
    exact ⟨ρ', hle, houtcome, ih hmirror⟩

end Service

/-! ### Where the stores start -/

/-- The stores hold the same teams, periods, statuses, goals and shares, and nothing else. -/
structure SameStart (ρ : Renaming) (m : Memory) (db : Contents) : Prop where
  below : ρ.Below m.lastId db.lastId
  teams : m.teams.Alike Team.In db.rows.teams
  periods : m.periods.Alike Period.In db.rows.periods
  statuses : m.statuses.Alike Status.In db.rows.statuses
  goals : m.goals.Alike (Goal.In ρ) db.rows.goals
  shares : m.shares.Alike (Share.In ρ) db.rows.shares
  /-- The teams with a share are there. -/
  staffed : ∀ goal team, m.shares.contains (goal, team) = true → m.teams.contains team = true
  keyResults : m.keyResults = .empty
  comments : m.comments = .empty
  rows : db.rows = { Rows.empty with
    teams := db.rows.teams
    periods := db.rows.periods
    statuses := db.rows.statuses
    goals := db.rows.goals
    shares := db.rows.shares }

namespace SameStart

variable {ρ : Renaming} {m : Memory} {db : Contents}

/-- Stores that start with the same mirror each other. -/
theorem mirror (h : SameStart ρ m db) : Mirror ρ m db where
  below := h.below
  teams := h.teams
  periods := h.periods
  statuses := h.statuses
  goals := h.goals
  shares := h.shares
  keyResults := by
    rw [h.keyResults, h.rows]
    exact .empty
  comments := h.comments
  goalComments := by rw [h.rows]; rfl
  keyResultComments := by rw [h.rows]; rfl
  staffed := h.staffed
  stages := by
    rw [h.rows]
    exact fun _ he => absurd he List.not_mem_nil
  checkpoints := by
    rw [h.rows]
    exact fun _ he => absurd he List.not_mem_nil

/-! Two teams, a period and a goal of the first team, which has the identifier 4 in memory and 8 in the
database. -/

def someGoal (id : GoalId) : Goal :=
  .ofDraft id 1 3 1 ⟨"Faster search", "", .p1, ⟨55, by decide⟩, .delivery, .stability, ""⟩

def someMemory : Memory :=
  { Memory.empty with
    lastId := 4
    teams := .ofList [(1, ⟨1, "Products", .unit, none⟩), (2, ⟨2, "Search", .team, some 1⟩)]
    periods := .ofList [(3, ⟨3, "H1", ⟨2025, 1, 1⟩, ⟨2025, 6, 30⟩, 1⟩)]
    goals := .ofList [(4, someGoal 4)] }

def someDatabase : Contents :=
  { Contents.empty with
    rows := { Rows.empty with
      teams := .ofList [(1, ⟨"Products", "unit", none⟩), (2, ⟨"Search", "team", some 1⟩)]
      periods := .ofList [(3, ⟨"H1", ⟨2025, 1, 1⟩, ⟨2025, 6, 30⟩, 1⟩)]
      goals := .ofList [(8, .ofGoal (someGoal 8))] }
    lastId := fun _ => 8 }

def someRenaming : Renaming :=
  { Renaming.empty with goals := Pairing.extend (Pairing.Below.empty : Pairing.empty.Below 3 7) 1 }

theorem some_start : SameStart someRenaming someMemory someDatabase where
  below := ⟨Pairing.extend_below .empty 1, .empty, .empty, .empty⟩
  teams := .cons ⟨rfl, rfl, rfl⟩ (.cons ⟨rfl, rfl, rfl⟩ .nil)
  periods := .cons ⟨rfl, rfl⟩ .nil
  statuses := .nil
  goals := .cons ⟨Pairing.extend_next .empty, rfl, rfl⟩ .nil
  shares := .nil
  staffed := nofun
  keyResults := rfl
  comments := rfl
  rows := rfl

end SameStart

/-! ### Goals -/

/-- A request on goals. -/
inductive GoalRequest
  | create (team : TeamId) (period : PeriodId) (draft : GoalDraft)
  | update (id : GoalId) (asTeam : Option TeamId) (draft : GoalDraft)
  | delete (id : GoalId) (asTeam : Option TeamId)
  | share (id : GoalId) (targets : List ShareTarget)
  | setStatus (team : TeamId) (period : PeriodId) (status : Status)
  | candidates (indentUnit : Nat) (id : GoalId)
  | ofTeam (team : TeamId) (period : PeriodId)

/-- What a request on goals answers. -/
inductive GoalAnswer
  | created (result : GoalCreated)
  | updated (goal : Goal)
  | deleted (result : GoalDeletion)
  | shared (result : GoalShared)
  | statusChanged (result : StatusChanged)
  | candidates (list : List ShareCandidate)
  | ofTeam (summary : TeamSummary)

namespace GoalRequest

/-- What the request does. -/
def program : GoalRequest → Program GoalAnswer
  | create team period draft => (Goals.create team period draft).bind fun a => .done (.created a)
  | update id asTeam draft => (Goals.update id asTeam draft).bind fun a => .done (.updated a)
  | delete id asTeam => (Goals.delete id asTeam).bind fun a => .done (.deleted a)
  | share id targets => (Goals.share id targets).bind fun a => .done (.shared a)
  | setStatus team period status =>
    (Statuses.set team period status).bind fun a => .done (.statusChanged a)
  | candidates indentUnit id =>
    (Rollup.shareCandidates indentUnit id).bind fun a => .done (.candidates a)
  | ofTeam team period => (Rollup.ofTeam team period).bind fun a => .done (.ofTeam a)

/-- The database takes the texts of the request. -/
def Storable : GoalRequest → Prop
  | create _ _ draft | update _ _ draft => draft.Plain
  | _ => True

/-- The requests are the same but for the goals that they name. -/
def Same (ρ : Renaming) (m : Memory) (db : Contents) : GoalRequest → GoalRequest → Prop
  | update i asTeam draft, r' => ∃ j, ρ.SameGoal m db i j ∧ r' = update j asTeam draft
  | delete i asTeam, r' => ∃ j, ρ.SameGoal m db i j ∧ r' = delete j asTeam
  | share i targets, r' => ∃ j, ρ.SameGoal m db i j ∧ r' = share j targets
  | candidates indentUnit i, r' => ∃ j, ρ.SameGoal m db i j ∧ r' = candidates indentUnit j
  | r, r' => r' = r

end GoalRequest

/-- The answers differ in the identifiers of goals at most. -/
def GoalAnswer.Like (ρ : Renaming) : GoalAnswer → GoalAnswer → Prop
  | created c, created c' => c.Like ρ c'
  | updated g, updated g' => g.Like ρ g'
  | shared s, shared s' => s.Like ρ s'
  | ofTeam t, ofTeam t' => t.Like ρ t'
  | deleted d, a' => a' = deleted d
  | statusChanged s, a' => a' = statusChanged s
  | candidates l, a' => a' = candidates l
  | _, _ => False

/-- A request on goals acts alike. -/
theorem GoalRequest.actsAlike {ρ : Renaming} {m : Memory} {db : Contents} {r r' : GoalRequest}
    (h : Mirror ρ m db) (hstorable : r.Storable) (hsame : r.Same ρ m db r') :
    ActsAlike ρ m db GoalAnswer.Like r.program r'.program := by
  cases r with
  | create team period draft =>
    cases hsame
    simp only [program]
    exact (h.goals_create team period hstorable).map fun _ _ _ _ hc => hc
  | update i asTeam draft =>
    obtain ⟨j, hij, rfl⟩ := hsame
    simp only [program]
    exact (h.goals_update hij asTeam hstorable).map fun _ _ _ _ hg => hg
  | delete i asTeam =>
    obtain ⟨j, hij, rfl⟩ := hsame
    simp only [program]
    exact (h.goals_delete hij asTeam).map fun _ _ _ _ hd => congrArg GoalAnswer.deleted hd
  | share i targets =>
    obtain ⟨j, hij, rfl⟩ := hsame
    simp only [program]
    exact (h.goals_share hij targets).map fun _ _ _ _ hs => hs
  | setStatus team period status =>
    cases hsame
    simp only [program]
    exact (h.statuses_set team period status).map fun _ _ _ _ hs =>
      congrArg GoalAnswer.statusChanged hs
  | candidates indentUnit i =>
    obtain ⟨j, hij, rfl⟩ := hsame
    simp only [program]
    refine ReadsAlike.acts ?_ h
    exact (h.shareCandidates indentUnit hij).bind fun _ _ hl _ =>
      .done (congrArg GoalAnswer.candidates hl)
  | ofTeam team period =>
    cases hsame
    simp only [program]
    exact ReadsAlike.acts ((h.ofTeam team period).bind fun _ _ ht _ => .done ht) h

/-- The requests on goals. -/
def goalService : Service where
  Request := GoalRequest
  Answer := GoalAnswer
  program := GoalRequest.program
  Storable := GoalRequest.Storable
  Same := GoalRequest.Same
  Like := GoalAnswer.Like

/-- **The stores agree on goals**: on what is answered to any requests one after the other, from any
stores with the same teams, periods, goals, shares and statuses. -/
theorem SameStart.goals_agree {ρ : Renaming} {m : Memory} {db : Contents} (h : SameStart ρ m db)
    (requests : List (GoalRequest × GoalRequest)) : goalService.Agree ρ m db requests :=
  Service.agree (S := goalService) GoalRequest.actsAlike h.mirror requests

namespace GoalRequest

/-- Creates a second goal of the first team. -/
def someCreation : GoalRequest :=
  .create 1 3 ⟨"Faster index", "", .p2, ⟨45, by decide⟩, .delivery, .stability, ""⟩

/-- Hands the goal to the second team, and leaves the first one a share. -/
def someHandover (id : GoalId) : GoalRequest :=
  .share id [⟨2, ⟨25, by decide⟩⟩, ⟨1, ⟨15, by decide⟩⟩]

end GoalRequest

open GoalRequest in
/-- A goal is created, and then shared under the identifier that each store has given to it. -/
theorem SameStart.goals_agree_handover :
    SameStart someRenaming someMemory someDatabase ∧
      ∃ ρ, ρ.goals.Pairs 5 9 ∧
        SameOutcome (GoalAnswer.Like ρ)
          ((someHandover 5).program.run Memory.carry
            (someCreation.program.run Memory.carry someMemory).2).1
          ((someHandover 9).program.run Contents.carry
            (someCreation.program.run Contents.carry someDatabase).2).1 := by
  have hagree := goals_agree some_start
    [(someCreation, someCreation), (someHandover 5, someHandover 9)]
  have hplain : someCreation.Storable := by
    show GoalDraft.Plain _
    decide
  obtain ⟨ρ, -, hcreated, hagree⟩ := hagree hplain rfl (by decide +kernel)
  have hpair : ρ.goals.Pairs 5 9 := by
    obtain ⟨c, hm, hc⟩ : ∃ c, (someCreation.program.run Memory.carry someMemory).1 =
        .ok (.created c) ∧ c.goal.id = 5 := ⟨_, rfl, rfl⟩
    obtain ⟨c', hdb, hc'⟩ : ∃ c', (someCreation.program.run Contents.carry someDatabase).1 =
        .ok (.created c') ∧ c'.goal.id = 9 := ⟨_, rfl, rfl⟩
    have hcreated : SameOutcome (GoalAnswer.Like ρ)
      (someCreation.program.run Memory.carry someMemory).1
      (someCreation.program.run Contents.carry someDatabase).1 := hcreated
    rw [hm, hdb] at hcreated
    obtain ⟨hlike⟩ := hcreated
    rw [← hc, ← hc']
    exact hlike.1.1
  obtain ⟨ρ', hle, hshared, -⟩ := hagree trivial ⟨9, .of_pairs hpair, rfl⟩ (by decide +kernel)
  exact ⟨some_start, ρ', hle.goals _ _ hpair, hshared⟩

/-! ### Key results -/

/-- A request on key results. -/
inductive KeyResultRequest
  | create (goal : GoalId) (draft : KeyResultDraft)
  | update (id : KeyResultId) (draft : KeyResultDraft)
  | delete (id : KeyResultId)
  | recordProgress (id : KeyResultId) (report : ProgressUpdate)
  | setWeights (goal : GoalId) (weights : List (KeyResultId × Weight))
  | addCheckpoint (id : KeyResultId) (draft : CheckpointDraft)
  | ofGoal (id : GoalId)

/-- What a request on key results answers. -/
inductive KeyResultAnswer
  | created (keyResult : KeyResult)
  | updated (keyResult : KeyResult)
  | deleted
  | recorded (result : ProgressRecorded)
  | weightsSet
  | checkpoint (added : Checkpoint)
  | ofGoal (detail : GoalDetail)

namespace KeyResultRequest

/-- What the request does. -/
def program : KeyResultRequest → Program KeyResultAnswer
  | create goal draft => (KeyResults.create goal draft).bind fun a => .done (.created a)
  | update id draft => (KeyResults.update id draft).bind fun a => .done (.updated a)
  | delete id => (KeyResults.delete id).bind fun _ => .done .deleted
  | recordProgress id report =>
    (KeyResults.recordProgress id report).bind fun a => .done (.recorded a)
  | setWeights goal weights => (KeyResults.setWeights goal weights).bind fun _ => .done .weightsSet
  | addCheckpoint id draft => (KeyResults.addCheckpoint id draft).bind fun a => .done (.checkpoint a)
  | ofGoal id => (Rollup.goalDetail id).bind fun a => .done (.ofGoal a)

/-- The database takes the texts of the request, its ranges are ranges, and a checkpoint that it adds
has a place of its own among the numbers. -/
def Storable : KeyResultRequest → Prop
  | .create _ draft | .update _ draft => draft.Plain ∧ draft.measurement.Ranged
  | .addCheckpoint _ draft => draft.value.Sortable
  | _ => True

/-- The requests are the same but for the goals, key results and stages that they name. -/
def Same (ρ : Renaming) (m : Memory) (db : Contents) : KeyResultRequest → KeyResultRequest → Prop
  | create i draft, r' => ∃ j, ρ.SameGoal m db i j ∧ r' = create j draft
  | update i draft, r' => ∃ j, ρ.SameKeyResult m db i j ∧ r' = update j draft
  | delete i, r' => ∃ j, ρ.SameKeyResult m db i j ∧ r' = delete j
  | recordProgress i u, r' => ∃ j u', ρ.SameKeyResult m db i j ∧ u.Like (ρ.SameStage m db) u' ∧
      r' = recordProgress j u'
  | setWeights i weights, r' => ∃ j weights', ρ.SameGoal m db i j ∧
      List.Forall₂ (fun a b => ρ.SameKeyResult m db a.1 b.1 ∧ b.2 = a.2) weights weights' ∧
      r' = setWeights j weights'
  | addCheckpoint i draft, r' => ∃ j, ρ.SameKeyResult m db i j ∧ r' = addCheckpoint j draft
  | ofGoal i, r' => ∃ j, ρ.SameGoal m db i j ∧ r' = ofGoal j

end KeyResultRequest

/-- The answers differ in identifiers at most. -/
def KeyResultAnswer.Like (ρ : Renaming) : KeyResultAnswer → KeyResultAnswer → Prop
  | created k, created k' => k.Like ρ k'
  | updated k, updated k' => k.Like ρ k'
  | recorded r, recorded r' => r.Like ρ r'
  | checkpoint c, checkpoint c' => c.Like ρ c'
  | ofGoal d, ofGoal d' => d.Like ρ d'
  | deleted, a' => a' = deleted
  | weightsSet, a' => a' = weightsSet
  | _, _ => False

/-- A request on key results acts alike. -/
theorem KeyResultRequest.actsAlike {ρ : Renaming} {m : Memory} {db : Contents}
    {r r' : KeyResultRequest} (h : Mirror ρ m db) (hstorable : r.Storable)
    (hsame : r.Same ρ m db r') :
    ActsAlike ρ m db KeyResultAnswer.Like r.program r'.program := by
  cases r with
  | create i draft =>
    obtain ⟨j, hij, rfl⟩ := hsame
    simp only [program]
    exact (h.keyResults_create hij hstorable.1 hstorable.2).map fun _ _ _ _ hk => hk
  | update i draft =>
    obtain ⟨j, hij, rfl⟩ := hsame
    simp only [program]
    exact (h.keyResults_update hij hstorable.1 hstorable.2).map fun _ _ _ _ hk => hk
  | delete i =>
    obtain ⟨j, hij, rfl⟩ := hsame
    simp only [program]
    exact (h.keyResults_delete hij).map fun _ _ _ _ _ => rfl
  | recordProgress i u =>
    obtain ⟨j, u', hij, hu, rfl⟩ := hsame
    simp only [program]
    exact (h.keyResults_recordProgress hij hu).map fun _ _ _ _ hr => hr
  | setWeights i weights =>
    obtain ⟨j, weights', hij, hweights, rfl⟩ := hsame
    simp only [program]
    exact (h.keyResults_setWeights hij hweights).map fun _ _ _ _ _ => rfl
  | addCheckpoint i draft =>
    obtain ⟨j, hij, rfl⟩ := hsame
    simp only [program]
    exact (h.keyResults_addCheckpoint hij hstorable).map fun _ _ _ _ hc => hc
  | ofGoal i =>
    obtain ⟨j, hij, rfl⟩ := hsame
    simp only [program]
    exact ReadsAlike.acts ((h.goalDetail hij).bind fun _ _ hd _ => .done hd) h

/-- The requests on key results. -/
def keyResultService : Service where
  Request := KeyResultRequest
  Answer := KeyResultAnswer
  program := KeyResultRequest.program
  Storable := KeyResultRequest.Storable
  Same := KeyResultRequest.Same
  Like := KeyResultAnswer.Like

/-- **The stores agree on key results**: on what is answered to any requests one after the other, from
any stores with the same teams, periods, goals, shares and statuses, and no key results. -/
theorem SameStart.keyResults_agree {ρ : Renaming} {m : Memory} {db : Contents}
    (h : SameStart ρ m db) (requests : List (KeyResultRequest × KeyResultRequest)) :
    keyResultService.Agree ρ m db requests :=
  Service.agree (S := keyResultService) KeyResultRequest.actsAlike h.mirror requests

namespace KeyResultRequest

/-- Creates a key result with two stages. -/
def someCreation (goal : GoalId) : KeyResultRequest :=
  .create goal ⟨"Move", "", ⟨50, by decide⟩,
    .project [⟨"Copy", ⟨70, by decide⟩, false⟩, ⟨"Switch", ⟨30, by decide⟩, false⟩]⟩

/-- Reports that a stage is done. -/
def someReport (id : KeyResultId) (stage : StageId) : KeyResultRequest :=
  .recordProgress id (.stage stage true)

/-- The key result that is created. -/
def someKeyResult (id : KeyResultId) (goal : GoalId) (first second : StageId) : KeyResult :=
  ⟨id, goal, "Move", "", ⟨50, by decide⟩, 1,
    .project [⟨first, "Copy", ⟨70, by decide⟩, false, 1⟩, ⟨second, "Switch", ⟨30, by decide⟩, false, 2⟩]⟩

end KeyResultRequest

open KeyResultRequest in
/-- A key result with stages is created, and then its second stage is reported on under the identifiers
that each store has given. -/
theorem SameStart.keyResults_agree_report :
    SameStart someRenaming someMemory someDatabase ∧
      ∃ ρ, ρ.keyResults.Pairs 5 9 ∧ ρ.stages.Pairs 7 10 ∧
        SameOutcome (KeyResultAnswer.Like ρ)
          ((someReport 5 7).program.run Memory.carry
            ((someCreation 4).program.run Memory.carry someMemory).2).1
          ((someReport 9 10).program.run Contents.carry
            ((someCreation 8).program.run Contents.carry someDatabase).2).1 := by
  have hagree := keyResults_agree some_start
    [(someCreation 4, someCreation 8), (someReport 5 7, someReport 9 10)]
  have hgoal : someRenaming.SameGoal someMemory someDatabase 4 8 :=
    .of_pairs (Pairing.extend_next .empty)
  have hstorable : (someCreation 4).Storable := by
    refine ⟨?_, trivial⟩
    decide
  obtain ⟨ρ, -, hcreated, hagree⟩ := hagree hstorable ⟨8, hgoal, rfl⟩ (by decide +kernel)
  have hm : ((someCreation 4).program.run Memory.carry someMemory).1 =
      .ok (.created (someKeyResult 5 4 6 7)) := rfl
  have hdb : ((someCreation 8).program.run Contents.carry someDatabase).1 =
      .ok (.created (someKeyResult 9 8 9 10)) := rfl
  have hcreated : SameOutcome (KeyResultAnswer.Like ρ)
    ((someCreation 4).program.run Memory.carry someMemory).1
    ((someCreation 8).program.run Contents.carry someDatabase).1 := hcreated
  rw [hm, hdb] at hcreated
  obtain ⟨hlike⟩ := hcreated
  have hlike : (someKeyResult 5 4 6 7).Like ρ (someKeyResult 9 8 9 10) := hlike
  obtain ⟨-, hstages⟩ := List.forall₂_cons.1 hlike.measurement
  have hstage : ρ.stages.Pairs 7 10 := (List.forall₂_cons.1 hstages).1.1
  obtain ⟨ρ', hle, hreported, -⟩ := hagree trivial
    ⟨9, .stage 10 true, .of_pairs hlike.id, ⟨.inl hstage, rfl⟩, rfl⟩ (by decide +kernel)
  exact ⟨some_start, ρ', hle.keyResults _ _ hlike.id, hle.stages _ _ hstage, hreported⟩

end Objectives
