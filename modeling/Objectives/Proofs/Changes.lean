/- # Changes of the database

What the calls that write do, as long as nothing that is asked of their values is broken.

Main results:

* `Session.setStatus_run`, `Session.updateGoal_run`, `Session.deleteGoal_run`, … — the changes of goals,
  shares and statuses;
* `Session.insertKeyResult_run`, … — those of key results.
-/

import Objectives.Memory.State
import Objectives.Proofs.Queries

set_option relaxedAutoImplicit false
set_option autoImplicit false

namespace Objectives

/-! ### Texts -/

/-- A text does not gain characters by being trimmed. -/
theorem Text.mem_of_mem_trim {text : String} {c : Char} (h : c ∈ (Text.trim text).toList) :
    c ∈ text.toList := by
  rw [trim, String.toList_ofList, List.mem_reverse] at h
  have h := (List.dropWhile_suffix isBlank).subset h
  rw [List.mem_reverse] at h
  exact (List.dropWhile_suffix isBlank).subset h

/-- A text that the database takes is taken after being trimmed. -/
theorem Text.Plain.trim {text : String} (h : Plain text) : Plain (Text.trim text) :=
  fun c hc => h c (mem_of_mem_trim hc)

namespace GoalDraft

/-- The texts that are stored with a goal. -/
def texts (draft : GoalDraft) : List String := [draft.title, draft.description, draft.ownerText]

/-- The database takes the texts of the draft. -/
def Plain (draft : GoalDraft) : Prop := ∀ text ∈ draft.texts, Text.Plain text

instance (draft : GoalDraft) : Decidable draft.Plain :=
  List.decidableBAll Text.Plain draft.texts

/-- A draft keeps its weight when its texts are trimmed, and they stay texts that the database takes.
-/
theorem of_normalized {draft draft' : GoalDraft} (h : draft.normalized = .ok draft') :
    draft'.weight = draft.weight ∧ (draft.Plain → draft'.Plain) := by
  unfold normalized at h
  dsimp only at h
  split at h
  · cases h
  · cases h
    refine ⟨rfl, fun hplain text htext => ?_⟩
    simp only [texts, List.mem_cons, List.not_mem_nil, or_false] at htext
    rcases htext with rfl | rfl | rfl
    · exact (hplain draft.title (by simp [texts])).trim
    · exact (hplain draft.description (by simp [texts])).trim
    · exact (hplain draft.ownerText (by simp [texts])).trim

end GoalDraft

/-- The stages of a submitted measurement, if it has any. -/
def MeasurementDraft.stages : MeasurementDraft → List StageDraft
  | .project stages => stages
  | _ => []

namespace KeyResultDraft

/-- The texts that are stored with a key result. -/
def texts (draft : KeyResultDraft) : List String :=
  [draft.title, draft.description] ++ draft.measurement.stages.map StageDraft.title

/-- The database takes the texts of the draft. -/
def Plain (draft : KeyResultDraft) : Prop := ∀ text ∈ draft.texts, Text.Plain text

instance (draft : KeyResultDraft) : Decidable draft.Plain :=
  List.decidableBAll Text.Plain draft.texts

theorem Plain.stage {draft : KeyResultDraft} (h : draft.Plain) {stage : StageDraft}
    (hstage : stage ∈ draft.measurement.stages) : Text.Plain stage.title :=
  h stage.title (List.mem_append_right _ (List.mem_map_of_mem hstage))

/-- A draft keeps its measurement when its texts are trimmed, and they stay texts that the database
takes. -/
theorem of_normalized {draft draft' : KeyResultDraft} (h : draft.normalized = .ok draft') :
    draft'.measurement = draft.measurement ∧ draft.measurement.validate = .ok () ∧
      (draft.Plain → draft'.Plain) := by
  unfold normalized at h
  dsimp only at h
  split at h
  · cases h
  · cases hvalid : draft.measurement.validate with
    | error v =>
      rw [hvalid] at h
      cases h
    | ok _ =>
      rw [hvalid] at h
      cases h
      refine ⟨rfl, rfl, fun hplain text htext => ?_⟩
      simp only [texts, List.mem_append, List.mem_cons, List.not_mem_nil, or_false] at htext
      rcases htext with (rfl | rfl) | hstage
      · exact (hplain draft.title (by simp [texts])).trim
      · exact (hplain draft.description (by simp [texts])).trim
      · exact hplain text (List.mem_append_right _ hstage)

end KeyResultDraft

/-- The stages of a valid project have positive weights. -/
theorem MeasurementDraft.one_le_of_checkStages {stages : List StageDraft}
    (h : checkStages stages = .ok ()) : ∀ stage ∈ stages, 1 ≤ stage.weight.value := by
  induction stages with
  | nil => exact fun _ hs => absurd hs List.not_mem_nil
  | cons stage rest ih =>
    unfold checkStages Weight.ofStage at h
    by_cases hweight : (1 : Int) ≤ stage.weight.value ∧ (stage.weight.value : Int) ≤ 100
    · rw [dif_pos hweight] at h
      intro s hs
      rcases List.mem_cons.1 hs with rfl | hs
      · omega
      · exact ih h s hs
    · rw [dif_neg hweight] at h
      cases h

/-- The database after the next identifiers of a relation have been given. -/
def Contents.withIds (db : Contents) (relation : Relation) (n : Nat) : Contents :=
  { db with lastId := fun r => if r = relation then db.lastId relation + n else db.lastId r }

theorem Contents.withIds_zero (db : Contents) (relation : Relation) : db.withIds relation 0 = db := by
  have hlast : (db.withIds relation 0).lastId = db.lastId := by
    funext r
    by_cases hr : r = relation
    · simp [withIds, hr]
    · simp [withIds, hr]
  show { db with lastId := (db.withIds relation 0).lastId } = db
  rw [hlast]

theorem Contents.lastId_le_withIds (db : Contents) (relation : Relation) (n : Nat) (r : Relation) :
    db.lastId r ≤ (db.withIds relation n).lastId r := by
  by_cases hr : r = relation
  · subst hr
    simp only [withIds, if_true]
    omega
  · simp only [withIds, hr, if_false]
    omega

theorem Contents.lastId_withIds_withIds (db : Contents) (relation : Relation) (m n : Nat) :
    ((db.withIds relation m).withIds relation n).lastId = (db.withIds relation (m + n)).lastId := by
  funext r
  by_cases hr : r = relation
  · simp [withIds, hr, Int.add_assoc]
  · simp [withIds, hr]

/-- The rows without those of the measurement of a key result, checkpoints only if they are not kept.
-/
def Rows.clearPayload (rows : Rows) (id : KeyResultId) (keepCheckpoints : Bool) : Rows :=
  { rows with
    stages := rows.stages.filter fun _ row => row.keyResult != id
    percentRanges := rows.percentRanges.erase id
    linearRanges := rows.linearRanges.erase id
    flags := rows.flags.erase id
    checkpoints :=
      if keepCheckpoints then rows.checkpoints
      else rows.checkpoints.filter fun _ row => row.keyResult != id }

/-- The rows of stages, numbered from a place on, under the next identifiers. -/
def stageRows (keyResult : KeyResultId) (lastId place : Int) :
    List StageDraft → List (StageId × StageRow)
  | [] => []
  | draft :: rest =>
    (lastId + 1, ⟨keyResult, draft.title, draft.weight.value, draft.done, place⟩)
      :: stageRows keyResult (lastId + 1) (place + 1) rest

/-- The rows with those of a measurement added; stages take the next identifiers. -/
def Rows.withMeasurement (rows : Rows) (id : KeyResultId) (lastId : Int) (draft : MeasurementDraft) :
    Rows :=
  { rows with
    stages := rows.stages.insertAll (stageRows id lastId 1 draft.stages)
    percentRanges :=
      match draft with
      | .percent range => rows.percentRanges.insert id range
      | _ => rows.percentRanges
    linearRanges :=
      match draft with
      | .linear range => rows.linearRanges.insert id range
      | _ => rows.linearRanges
    flags :=
      match draft with
      | .boolean done => rows.flags.insert id done
      | _ => rows.flags }

/-- The database with the rows of a measurement added. -/
def Contents.withMeasurement (db : Contents) (id : KeyResultId) (draft : MeasurementDraft) :
    Contents :=
  { db.withIds .projectStages draft.stages.length with
    rows := db.rows.withMeasurement id (db.lastId .projectStages) draft }

namespace Session

/-- A goal can only be created for a team and a period that are there. -/
theorem references_of_createGoal {team : TeamId} {period : PeriodId} {draft : GoalDraft} {g : Goal}
    {db db' : Contents} (h : createGoal team period draft .standard db = (.ok g, db')) :
    db'.rows.teams.contains team = true ∧ db'.rows.periods.contains period = true := by
  obtain ⟨_, db₁, -, h₁⟩ := Effect.of_bind_run_ok (of_execute_run_ok h)
  obtain ⟨_, db₂, -, h₂⟩ := Effect.of_bind_run_ok h₁
  obtain ⟨id, db₃, -, h₃⟩ := Effect.of_bind_run_ok h₂
  obtain ⟨rows, db₄, hrows, h₄⟩ := Effect.of_bind_run_ok h₃
  obtain ⟨order, db₅, horder, h₅⟩ := Effect.of_bind_run_ok h₄
  obtain ⟨_, db₆, hrefer, h₆⟩ := Effect.of_bind_run_ok h₅
  obtain ⟨_, db₇, hrefer', h₇⟩ := Effect.of_bind_run_ok h₆
  obtain ⟨hteam, rfl⟩ := Statement.of_refer_run_ok hrefer
  obtain ⟨hperiod, rfl⟩ := Statement.of_refer_run_ok hrefer'
  have hsame := Statement.leaves_orderAfter
    ((goalsOwned rows team period).map fun e => e.2.sortOrder) db₄
  rw [horder] at hsame
  clear h h₁ h₂ h₃ h₄ h₅ h₆ hrefer hrefer'
  cases hrows
  cases hsame
  cases h₇
  exact ⟨hteam, hperiod⟩

open Statement (reach_run plainTexts_run rows_run change_run refer_run)

variable {db : Contents}

/-! ### Statuses -/

theorem setStatus_run {team : TeamId} {period : PeriodId}
    (hteam : db.rows.teams.contains team = true)
    (hperiod : db.rows.periods.contains period = true) (status : Status) :
    setStatus team period status .standard db =
      (.ok (), { db with rows :=
        { db.rows with statuses := db.rows.statuses.insert (team, period) status.name } }) := by
  simp only [setStatus, execute, upsertStatus, Effect.adapt_run, Effect.bind_run, reach_run,
    rows_run, hteam, hperiod, Bool.or_true, refer_run, change_run]

/-! ### Goals -/

theorem createGoal_run {team : TeamId} {period : PeriodId} {draft : GoalDraft} {order : Int}
    (hplain : draft.Plain)
    (horder : Memory.orderAfter ((goalsOwned db.rows team period).map fun e => e.2.sortOrder) = order)
    (hfits : order ≤ Statement.maxOrder) (hteam : db.rows.teams.contains team = true)
    (hperiod : db.rows.periods.contains period = true) :
    createGoal team period draft .standard db =
      (.ok (.ofDraft (db.lastId .goals + 1) team period order draft),
        { db.withIds .goals 1 with
          rows := { db.rows with
            goals := db.rows.goals.insert (db.lastId .goals + 1)
              (.ofGoal (.ofDraft (db.lastId .goals + 1) team period order draft)) } }) := by
  have hplain : Statement.plainTexts [draft.title, draft.description, draft.ownerText] .standard db =
    (.ok (), db) := plainTexts_run hplain db
  subst horder
  simp only [createGoal, execute, insertGoal, Effect.adapt_run, Effect.bind_run, reach_run, hplain,
    Statement.takeId_run, rows_run, Statement.orderAfter_run hfits, hteam, hperiod, refer_run,
    change_run]
  rfl

theorem updateGoal_run {draft : GoalDraft} (hplain : draft.Plain) (id : GoalId) (db : Contents) :
    updateGoal id draft .standard db =
      (if db.rows.goals.contains id then .ok () else .error (.goalMissing id), { db with rows :=
        { db.rows with goals := db.rows.goals.modify id (editGoalRow draft) } }) := by
  have hplain : Statement.plainTexts [draft.title, draft.description, draft.ownerText] .standard db =
    (.ok (), db) := plainTexts_run hplain db
  simp only [updateGoal, execute, editGoal, Effect.adapt_run, Effect.bind_run, reach_run, hplain,
    rows_run, change_run, Effect.pure_run]
  cases db.rows.goals.contains id <;> rfl

/-- An edit with a text that the database does not take is refused. -/
theorem updateGoal_run_of_not_plain {draft : GoalDraft} (hplain : ¬ draft.Plain) (id : GoalId)
    (db : Contents) :
    updateGoal id draft .standard db =
      (.error (.storage "Failed to update goal" .nulCharacter), db) := by
  have hplain : Statement.plainTexts [draft.title, draft.description, draft.ownerText] .standard db =
    (.error .nulCharacter, db) := Statement.plainTexts_run_of_not hplain db
  simp only [updateGoal, execute, editGoal, Effect.adapt_run, Effect.bind_run, reach_run, hplain]

theorem deleteGoal_run (id : GoalId) (db : Contents) :
    deleteGoal id .standard db =
      (if db.rows.goals.contains id then .ok () else .error (.goalMissing id),
        { db with rows := db.rows.deleteGoals (· == id) }) := by
  simp only [deleteGoal, execute, Effect.adapt_run, Effect.bind_run, reach_run, rows_run,
    change_run, Effect.pure_run]
  cases db.rows.goals.contains id <;> rfl

/-! ### Owners and shares -/

/-- The owner keeps the goal, at another weight. -/
theorem setOwner_run_of_eq {id : GoalId} {owner : ShareTarget} {row : GoalRow}
    (hrow : db.rows.goals.get? id = some row) (hteam : row.team = owner.team) :
    setOwner id owner .standard db =
      (.ok (), { db with rows :=
        { db.rows with goals := db.rows.goals.insert id { row with weight := owner.weight.value } } })
    := by
  have hteam : (row.team == owner.team) = true := by simpa using hteam
  simp only [setOwner, execute, changeOwner, Effect.adapt_run, Effect.bind_run, reach_run, rows_run,
    hrow, hteam]
  rfl

/-- The goal goes to another team that is there, after the others of that team. -/
theorem setOwner_run_of_ne {id : GoalId} {owner : ShareTarget} {row : GoalRow} {order : Int}
    (hrow : db.rows.goals.get? id = some row) (hteam : row.team ≠ owner.team)
    (horder : Memory.orderAfter (((goalsOwned db.rows owner.team row.period).filter fun e =>
      e.1 != id).map fun e => e.2.sortOrder) = order)
    (hfits : order ≤ Statement.maxOrder) (hthere : db.rows.teams.contains owner.team = true) :
    setOwner id owner .standard db =
      (.ok (), { db with
        rows := { db.rows with
          goals := db.rows.goals.insert id
            { row with team := owner.team, weight := owner.weight.value, sortOrder := order } } }) := by
  have hteam : (row.team == owner.team) = false := by simpa using hteam
  subst horder
  simp only [setOwner, execute, changeOwner, Effect.adapt_run, Effect.bind_run, reach_run, rows_run,
    hrow, hteam, Bool.false_eq_true, if_false, Statement.orderAfter_run hfits, hthere, refer_run,
    change_run]
  rfl

theorem dropShare_run (goal : GoalId) (team : TeamId) (db : Contents) :
    dropShare goal team .standard db =
      (.ok (), { db with rows := { db.rows with shares := db.rows.shares.erase (goal, team) } }) := by
  simp only [dropShare, Effect.bind_run, reach_run, change_run]

theorem pruneShares_run (goal : GoalId) (kept : List TeamId) (db : Contents) :
    pruneShares goal kept .standard db =
      (.ok (), { db with
        rows := { db.rows with
          shares := db.rows.shares.filter fun key _ =>
            key.1 != goal || kept.contains key.2 } }) := by
  simp only [pruneShares, Effect.bind_run, reach_run, change_run]

/-- The share of a team in a goal gets a weight; a new share takes over the key of the goal. -/
theorem upsertShare_run {goal : GoalId} {target : ShareTarget} {row : GoalRow}
    (hrow : db.rows.goals.get? goal = some row)
    (hthere : db.rows.teams.contains target.team = true) :
    upsertShare goal target .standard db =
      (.ok (), { db with
        rows := { db.rows with
          shares := db.rows.shares.insert (goal, target.team)
            { weight := target.weight.value
              sortOrder := ((db.rows.shares.get? (goal, target.team)).map
                ShareRow.sortOrder).getD row.sortOrder } } }) := by
  simp only [upsertShare, Effect.bind_run, reach_run, rows_run, hrow, hthere]
  cases db.rows.shares.get? (goal, target.team) <;> rfl

/-! ### Weights of goals -/

theorem changeGoalWeight_run {id : GoalId} {row : GoalRow}
    (hrow : db.rows.goals.get? id = some row) (team : TeamId) (weight : Weight) :
    changeGoalWeight id team weight .standard db =
      if row.team = team then
        (.ok true, { db with rows :=
          { db.rows with goals :=
            db.rows.goals.insert id { row with weight := weight.value } } })
      else (.ok false, db) := by
  simp only [changeGoalWeight, Effect.bind_run, reach_run, rows_run, hrow, beq_iff_eq]
  split <;> rfl

theorem changeShareWeight_run (goal : GoalId) (team : TeamId) (weight : Weight) (db : Contents) :
    changeShareWeight goal team weight .standard db =
      match db.rows.shares.get? (goal, team) with
      | some row => (.ok true, { db with rows :=
          { db.rows with shares :=
            db.rows.shares.insert (goal, team) { row with weight := weight.value } } })
      | none => (.ok false, db) := by
  simp only [changeShareWeight, Effect.bind_run, reach_run, rows_run]
  cases db.rows.shares.get? (goal, team) <;> rfl

/-- For the owner it is the weight of the goal that is set, for any other team that of its share. -/
theorem setTeamWeight_run {id : GoalId} {row : GoalRow} (hrow : db.rows.goals.get? id = some row)
    (team : TeamId) (weight : Weight) :
    setTeamWeight id team weight .standard db =
      if row.team = team then
        (.ok (), { db with rows :=
          { db.rows with goals :=
            db.rows.goals.insert id { row with weight := weight.value } } })
      else
        match db.rows.shares.get? (id, team) with
        | some share => (.ok (), { db with rows :=
            { db.rows with shares :=
              db.rows.shares.insert (id, team) { share with weight := weight.value } } })
        | none => (.error (.notCarried id team), db) := by
  rw [setTeamWeight, Effect.bind_run, execute_run, changeGoalWeight_run hrow]
  by_cases hteam : row.team = team
  · rw [if_pos hteam, if_pos hteam]
    rfl
  · rw [if_neg hteam, if_neg hteam]
    simp only [Bool.false_eq_true, if_false, Effect.bind_run, execute_run, changeShareWeight_run]
    cases db.rows.shares.get? (id, team) <;> rfl

/-! ### Key results -/

theorem insertKeyResult_run {goal : GoalId} {draft : KeyResultDraft} {order : Int}
    (hplain : draft.Plain)
    (horder : Memory.orderAfter ((db.rows.keyResults.values.filter fun row =>
      row.goal == goal).map KeyResultRow.sortOrder) = order)
    (hfits : order ≤ Statement.maxOrder) :
    insertKeyResult goal draft .standard db =
      (.ok (db.lastId .keyResults + 1), { db.withIds .keyResults 1 with
        rows := { db.rows with
          keyResults := db.rows.keyResults.insert (db.lastId .keyResults + 1)
            ⟨goal, draft.title, draft.description, draft.weight.value,
              draft.measurement.kind.name, order⟩ } }) := by
  have hplain : Statement.plainTexts [draft.title, draft.description] .standard db = (.ok (), db) :=
    plainTexts_run (fun text htext => hplain text (List.mem_append_left _ htext)) db
  subst horder
  simp only [insertKeyResult, Effect.bind_run, reach_run, hplain, Statement.takeId_run, rows_run,
    Statement.orderAfter_run hfits, change_run]
  rfl

theorem editKeyResult_run {draft : KeyResultDraft} (hplain : draft.Plain) (id : KeyResultId)
    (db : Contents) :
    editKeyResult id draft .standard db =
      (.ok (), { db with
        rows := { db.rows with
          keyResults := db.rows.keyResults.modify id (editKeyResultRow draft) } }) := by
  have hplain : Statement.plainTexts [draft.title, draft.description] .standard db = (.ok (), db) :=
    plainTexts_run (fun text htext => hplain text (List.mem_append_left _ htext)) db
  simp only [editKeyResult, Effect.bind_run, reach_run, hplain, change_run]

theorem changeWeight_run (goal : GoalId) (id : KeyResultId) (weight : Weight) (db : Contents) :
    changeWeight goal id weight .standard db =
      match db.rows.keyResults.get? id with
      | some row =>
        if row.goal = goal then
          (.ok true, { db with
            rows := { db.rows with
              keyResults := db.rows.keyResults.insert id { row with weight := weight.value } } })
        else (.ok false, db)
      | none => (.ok false, db) := by
  simp only [changeWeight, Effect.bind_run, reach_run, rows_run]
  cases db.rows.keyResults.get? id with
  | none => rfl
  | some row =>
    by_cases hgoal : row.goal = goal
    · simp only [hgoal, beq_self_eq_true, if_pos]
      rfl
    · simp only [beq_iff_eq, hgoal, if_false]
      rfl

theorem deleteKeyResult_run (id : KeyResultId) (db : Contents) :
    deleteKeyResult id .standard db =
      (if db.rows.keyResults.contains id then .ok () else .error (.keyResultMissing id),
        { db with rows := db.rows.deleteKeyResults (· == id) }) := by
  simp only [deleteKeyResult, execute, Effect.adapt_run, Effect.bind_run, reach_run, rows_run,
    change_run, Effect.pure_run]
  cases db.rows.keyResults.contains id <;> rfl

/-! ### Measurements -/

theorem clear_run (relation : Relation) (f : Rows → Rows) (db : Contents) :
    clear relation f .standard db = (.ok (), { db with rows := f db.rows }) := by
  simp only [clear, execute, Effect.adapt_run, Effect.bind_run, reach_run, change_run]

/-- After rows have been deleted things go on without them. -/
theorem bind_clear_run {α : Type} (relation : Relation) (f : Rows → Rows) (g : Unit → Session α)
    (db : Contents) :
    (clear relation f >>= g) .standard db = g () .standard { db with rows := f db.rows } := by
  rw [Effect.bind_run, clear_run]

theorem clearMeasurement_run (id : KeyResultId) (keep : Bool) (db : Contents) :
    clearMeasurement id keep .standard db =
      (.ok (), { db with rows := db.rows.clearPayload id keep }) := by
  unfold clearMeasurement
  rw [bind_clear_run, bind_clear_run, bind_clear_run, bind_clear_run]
  cases keep
  · exact clear_run ..
  · rfl

/-- Stages are numbered by the relation and put in from a place on. -/
theorem insertStages_run {id : KeyResultId} {stages : List StageDraft}
    (hstages : ∀ stage ∈ stages, Text.Plain stage.title ∧ 1 ≤ stage.weight.value) {place : Int}
    {db : Contents} :
    insertStages id place stages .standard db =
      (.ok (), { db.withIds .projectStages stages.length with
        rows := { db.rows with
          stages := db.rows.stages.insertAll
            (stageRows id (db.lastId .projectStages) place stages) } }) := by
  induction stages generalizing place db with
  | nil =>
    rw [List.length_nil, Contents.withIds_zero]
    rfl
  | cons stage rest ih =>
    obtain ⟨hplain, hweight⟩ := hstages stage (List.mem_cons_self ..)
    have hplain : Statement.plainTexts [stage.title] .standard db = (.ok (), db) :=
      plainTexts_run (by simpa using hplain) db
    have hrun : execute "Failed to insert project stage" (insertStage id place stage) .standard db =
        (.ok (), { db.withIds .projectStages 1 with
          rows := { db.rows with
            stages := db.rows.stages.insert (db.lastId .projectStages + 1)
              ⟨id, stage.title, stage.weight.value, stage.done, place⟩ } }) := by
      simp only [execute, insertStage, Effect.adapt_run, Effect.bind_run, reach_run, hplain,
        Statement.takeId_run, Statement.require, hweight, decide_true, Bool.true_or, if_true,
        change_run]
      rfl
    rw [insertStages, Effect.bind_run, hrun]
    dsimp only
    rw [ih (fun s hs => hstages s (List.mem_cons_of_mem _ hs)), List.length_cons,
      Nat.add_comm rest.length 1]
    refine congrArg (Prod.mk _) ?_
    have hlast := db.lastId_withIds_withIds .projectStages 1 rest.length
    simp only [Contents.withIds] at hlast ⊢
    rw [← hlast]
    rfl

/-- The rows of a complete measurement are put in. -/
theorem insertMeasurement_run {id : KeyResultId} {draft : MeasurementDraft}
    (hstages : ∀ stage ∈ draft.stages, Text.Plain stage.title ∧ 1 ≤ stage.weight.value) :
    insertMeasurement id draft .standard db = (.ok (), db.withMeasurement id draft) := by
  -- A measurement without stages takes no identifiers.
  have hnone : db.withIds .projectStages ([] : List StageDraft).length = db := db.withIds_zero _
  cases draft with
  | project stages => exact insertStages_run hstages
  | percent range =>
    simp only [insertMeasurement, execute, Effect.adapt_run, Effect.bind_run, reach_run, change_run,
      Contents.withMeasurement, MeasurementDraft.stages, hnone]
    rfl
  | linear range =>
    have hread : (read : Statement Schema) .standard db = (.ok .standard, db) := rfl
    have hvanishing : Schema.standard.vanishing = false := rfl
    simp only [insertMeasurement, upsertLinearRange, execute, Effect.adapt_run, Effect.bind_run,
      reach_run, hread, rows_run, change_run, hvanishing, Bool.false_and, Bool.false_eq_true,
      if_false, Effect.pure_run, Contents.withMeasurement, MeasurementDraft.stages, hnone]
    rfl
  | boolean done =>
    simp only [insertMeasurement, execute, Effect.adapt_run, Effect.bind_run, reach_run, change_run,
      Contents.withMeasurement, MeasurementDraft.stages, hnone]
    rfl

/-! ### Progress -/

theorem changeCurrent_run (relation : Relation)
    (ranges : Rows → Table KeyResultId (MetricRange Double))
    (set : Table KeyResultId (MetricRange Double) → Rows → Rows) (id : KeyResultId)
    (value : Double) (db : Contents) :
    changeCurrent relation ranges set id value .standard db =
      (.ok ((ranges db.rows).contains id), { db with
        rows := set ((ranges db.rows).modify id fun range => { range with current := value })
          db.rows }) := by
  simp only [changeCurrent, Effect.bind_run, reach_run, rows_run, change_run, Effect.pure_run]

theorem changeFlag_run (id : KeyResultId) (done : Bool) (db : Contents) :
    changeFlag id done .standard db =
      (.ok (db.rows.flags.contains id), { db with
        rows := { db.rows with flags := db.rows.flags.modify id fun _ => done } }) := by
  simp only [changeFlag, Effect.bind_run, reach_run, rows_run, change_run, Effect.pure_run]

/-- A stage of the key result is changed. -/
theorem changeStage_run {id : KeyResultId} {stage : StageId} {row : StageRow}
    (hrow : db.rows.stages.get? stage = some row) (hown : row.keyResult = id) (done : Bool) :
    changeStage id stage done .standard db =
      (.ok true, { db with
        rows := { db.rows with stages := db.rows.stages.insert stage { row with done } } }) := by
  simp only [changeStage, Effect.bind_run, reach_run, rows_run, hrow, hown, beq_self_eq_true,
    if_true, change_run]
  rfl

/-- Rows that take a report are all that it needs. -/
theorem recordProgress_run {id : KeyResultId} {update : ProgressUpdate} {rows : Rows}
    (hwrite : writeProgress id update .standard db = (.ok true, { db with rows })) :
    recordProgress id update .standard db = (.ok (), { db with rows }) := by
  refine transaction_run_ok ?_
  rw [Effect.bind_run, hwrite]
  exact execute_run_ok (reach_run ..) _

theorem insertCheckpoint_run {id : KeyResultId} {row : KeyResultRow}
    (hrow : db.rows.keyResults.get? id = some row) (hkind : row.kind = Kind.percent.name)
    (draft : CheckpointDraft) :
    insertCheckpoint id draft .standard db =
      (.ok (some (db.lastId .percentCheckpoints + 1)), { db.withIds .percentCheckpoints 1 with
        rows := { db.rows with
          checkpoints := db.rows.checkpoints.insert (db.lastId .percentCheckpoints + 1)
            ⟨id, draft.value, draft.percent.value⟩ } }) := by
  simp only [insertCheckpoint, Effect.bind_run, reach_run, rows_run, hrow, hkind,
    beq_self_eq_true, if_true, Statement.takeId_run, change_run]
  rfl

/-! ### Weights of key results -/

/-- The weight of a key result of the goal is set. -/
theorem setWeight_run {goal : GoalId} {id : KeyResultId} {row : KeyResultRow}
    (hrow : db.rows.keyResults.get? id = some row) (hgoal : row.goal = goal) (weight : Weight) :
    setWeight goal (id, weight) .standard db =
      (.ok (), { db with
        rows := { db.rows with
          keyResults := db.rows.keyResults.insert id { row with weight := weight.value } } }) := by
  have hrun := changeWeight_run goal id weight db
  simp only [hrow, if_pos hgoal] at hrun
  rw [setWeight, Effect.bind_run, execute_run_ok hrun]
  rfl

/-- A key result that is none of the goal is refused. -/
theorem setWeight_run_of_ne {goal : GoalId} {id : KeyResultId}
    (hgoal : (db.rows.keyResults.get? id).map KeyResultRow.goal ≠ some goal) (weight : Weight) :
    setWeight goal (id, weight) .standard db = (.error (.keyResultMissing id), db) := by
  have hrun := changeWeight_run goal id weight db
  have hfalse : changeWeight goal id weight .standard db = (.ok false, db) := by
    rw [hrun]
    cases hrow : db.rows.keyResults.get? id with
    | none => rfl
    | some row =>
      rw [hrow] at hgoal
      exact if_neg fun hsame => hgoal (congrArg some hsame)
  rw [setWeight, Effect.bind_run, execute_run_ok hfalse]
  rfl

end Session

end Objectives
