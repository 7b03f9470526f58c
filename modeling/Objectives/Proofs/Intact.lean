/- # Intact databases

In an intact database the rows of every measurement fit the row of its key result.  Every call keeps it
intact, so long as the measurements that are submitted are complete and the values that are reported are
finite: nothing else is checked once a call has come to the database.

Main definitions:

* `Contents.Intact` — the rows of every measurement fit, and their identifiers have been given;
* `Contents.Later` — what becomes of a database, whatever is done with rows;
* `Effect.Ends` — what an effect leaves when it succeeds, and for which reasons it is refused;
* `Call.Checked` — calls with complete measurements and finite values.

Main results:

* `Contents.Intact.ends_createKeyResult`, `Contents.Intact.ends_updateKeyResult` — a key result that is
  written is read back;
* `Contents.Intact.carry` — **a checked call keeps a database intact**;
* `Contents.Intact.loadKeyResult`, `Contents.Intact.listKeyResults` — **in an intact database every key
  result is read**.
-/

import Objectives.Proofs.Payloads

set_option relaxedAutoImplicit false
set_option autoImplicit false

namespace Objectives

/-! ### How effects end -/

namespace Effect

variable {ε ε' α β : Type} {post : α → Contents → Prop} {mid : β → Contents → Prop}
  {fails : ε → Prop} {db : Contents}

/-- If the effect succeeds on this database, it answers and leaves what is said; if it is refused, then
for one of these reasons. -/
def Ends (post : α → Contents → Prop) (fails : ε → Prop) (x : Effect ε α) (db : Contents) : Prop :=
  match x .standard db with
  | (.ok a, db') => post a db'
  | (.error e, _) => fails e

namespace Ends

theorem of_ok {x : Effect ε α} {a : α} {db' : Contents} (hx : x .standard db = (.ok a, db'))
    (hpost : post a db') : Ends post fails x db := by
  rw [Ends, hx]
  exact hpost

theorem throw {e : ε} (he : fails e) : Ends post fails (throw e : Effect ε α) db := he

theorem of_error {x : Effect ε α} (hx : Ends post fails x db) {e : ε}
    (he : (x .standard db).1 = .error e) : fails e := by
  unfold Ends at hx
  cases hrun : x .standard db with
  | mk answer db' =>
    rw [hrun] at hx he
    cases he
    exact hx

theorem bind {x : Effect ε β} {f : β → Effect ε α} (hx : Ends mid fails x db)
    (hf : ∀ b db', mid b db' → Ends post fails (f b) db') : Ends post fails (x >>= f) db := by
  unfold Ends at hx ⊢
  rw [bind_run]
  cases hrun : x .standard db with
  | mk answer db' =>
    rw [hrun] at hx
    cases answer with
    | ok b => exact hf b db' hx
    | error e => exact hx

theorem bind_ok {x : Effect ε β} {f : β → Effect ε α} {b : β} {db' : Contents}
    (hx : x .standard db = (.ok b, db')) (hf : Ends post fails (f b) db') :
    Ends post fails (x >>= f) db := by
  rw [Ends, bind_run, hx]
  exact hf

theorem mono {post' : α → Contents → Prop} {x : Effect ε α} (hx : Ends post' fails x db)
    (hpost : ∀ a db', post' a db' → post a db') : Ends post fails x db := by
  unfold Ends at hx ⊢
  cases hrun : x .standard db with
  | mk answer db' =>
    rw [hrun] at hx
    cases answer with
    | ok a => exact hpost a db' hx
    | error e => exact hx

end Ends

/-- An effect that leaves the database as it is leaves it so when it succeeds. -/
theorem of_leaves_run_ok {x : Effect ε α} (hx : x.Leaves) {a : α} {db' : Contents}
    (h : x .standard db = (.ok a, db')) : db' = db := by
  have hdb := hx db
  rw [h] at hdb
  exact hdb

end Effect

/-- A row that was to be read could not be, or was gone as soon as it was written. -/
def Failure.ofReading : Failure → Bool
  | unreadableColumn .. | unreadablePayload .. | vanished _ => true
  | _ => false

namespace Session

open Effect (Ends)

variable {α : Type} {db : Contents}

/-- A statement is refused by the database, not for what is read. -/
theorem ends_execute {post : α → Contents → Prop} {context : String} {statement : Statement α}
    (h : ∀ a db', statement .standard db = (.ok a, db') → post a db') :
    Ends post (fun e => e.ofReading = false) (execute context statement) db := by
  unfold Ends
  rw [execute_run]
  cases hrun : statement .standard db with
  | mk answer db' =>
    cases answer with
    | ok a => exact h a db' hrun
    | error e => rfl

theorem ends_transaction {post : α → Contents → Prop} {fails : Failure → Prop} {session : Session α}
    (h : Ends post fails session db) : Ends post fails (transaction session) db := by
  unfold Ends transaction at *
  cases hrun : session .standard db with
  | mk answer db' =>
    rw [hrun] at h
    cases answer <;> exact h

end Session

/-! ### Writing measurements -/

theorem Statement.plain_of_plainTexts_run_ok {texts : List String} {db db' : Contents}
    (h : plainTexts texts .standard db = (.ok (), db')) : ∀ text ∈ texts, Text.Plain text := by
  by_contra hplain
  rw [plainTexts_run_of_not hplain] at h
  cases h

/-- The database with another key result, under the next identifier. -/
def Contents.withKeyResult (db : Contents) (row : KeyResultRow) : Contents :=
  { db.withIds .keyResults 1 with
    rows := { db.rows with
      keyResults := db.rows.keyResults.insert (db.lastId .keyResults + 1) row } }

/-- The database with the editable fields of a key result taken from a draft. -/
def Contents.withEdit (db : Contents) (id : KeyResultId) (draft : KeyResultDraft) : Contents :=
  { db with
    rows := { db.rows with
      keyResults := db.rows.keyResults.modify id (Session.editKeyResultRow draft) } }

namespace Session

open Effect (Ends of_bind_run_ok of_leaves_run_ok)

open Statement (leaves_reach leaves_plainTexts leaves_orderAfter plain_of_plainTexts_run_ok)

variable {db db' : Contents}

/-- The key result that is inserted takes the next identifier. -/
theorem of_insertKeyResult_run_ok {goal : GoalId} {draft : KeyResultDraft} {id : KeyResultId}
    (h : insertKeyResult goal draft .standard db = (.ok id, db')) :
    id = db.lastId .keyResults + 1 ∧ ∃ order,
      db' = db.withKeyResult ⟨goal, draft.title, draft.description, draft.weight.value,
        draft.measurement.kind.name, order⟩ := by
  obtain ⟨_, db₁, hreach, h₁⟩ := of_bind_run_ok h
  obtain ⟨_, db₂, hplain, h₂⟩ := of_bind_run_ok h₁
  obtain ⟨next, db₃, htake, h₃⟩ := of_bind_run_ok h₂
  obtain ⟨rows, db₄, hrows, h₄⟩ := of_bind_run_ok h₃
  obtain ⟨order, db₅, horder, h₅⟩ := of_bind_run_ok h₄
  obtain rfl := of_leaves_run_ok (leaves_reach _) hreach
  obtain rfl := of_leaves_run_ok (leaves_plainTexts _) hplain
  obtain rfl := of_leaves_run_ok Statement.leaves_rows hrows
  obtain rfl := of_leaves_run_ok (leaves_orderAfter _) horder
  clear hreach hplain hrows horder h h₁ h₂ h₃ h₄
  cases htake
  cases h₅
  exact ⟨rfl, order, rfl⟩

theorem of_editKeyResult_run_ok {id : KeyResultId} {draft : KeyResultDraft}
    (h : editKeyResult id draft .standard db = (.ok (), db')) : db' = db.withEdit id draft := by
  obtain ⟨_, db₁, hreach, h₁⟩ := of_bind_run_ok h
  obtain ⟨_, db₂, hplain, h₂⟩ := of_bind_run_ok h₁
  obtain rfl := of_leaves_run_ok (leaves_reach _) hreach
  obtain rfl := of_leaves_run_ok (leaves_plainTexts _) hplain
  clear hreach hplain h h₁
  cases h₂
  rfl

/-- Stages that are inserted have titles that the database takes. -/
theorem ends_insertStages (id : KeyResultId) (place : Int) (stages : List StageDraft) (db : Contents) :
    Ends (fun _ _ => ∀ stage ∈ stages, Text.Plain stage.title) (fun e => e.ofReading = false)
      (insertStages id place stages) db := by
  induction stages generalizing place db with
  | nil => exact .of_ok rfl fun _ hs => absurd hs List.not_mem_nil
  | cons stage rest ih =>
    have hfirst : Ends (fun _ _ => Text.Plain stage.title) (fun e => e.ofReading = false)
        (execute "Failed to insert project stage" (insertStage id place stage)) db := by
      refine ends_execute fun _ _ h => ?_
      obtain ⟨_, db₁, -, h₁⟩ := of_bind_run_ok h
      obtain ⟨_, db₂, hplain, -⟩ := of_bind_run_ok h₁
      exact plain_of_plainTexts_run_ok hplain stage.title (List.mem_singleton_self _)
    refine hfirst.bind fun _ db₁ htitle => (ih (place + 1) db₁).mono fun _ _ hrest s hs => ?_
    rcases List.mem_cons.1 hs with rfl | hs
    · exact htitle
    · exact hrest s hs

/-- A complete measurement is put in, unless the title of a stage is refused. -/
theorem ends_insertMeasurement (id : KeyResultId) {draft : MeasurementDraft}
    (hdraft : draft.Complete) (db : Contents) :
    Ends (fun _ db' => db' = db.withMeasurement id draft) (fun e => e.ofReading = false)
      (insertMeasurement id draft) db := by
  -- Titles are all that can be refused here, and only those of stages are put in.
  by_cases hplain : ∀ stage ∈ draft.stages, Text.Plain stage.title
  · have hstages : ∀ stage ∈ draft.stages, Text.Plain stage.title ∧ 1 ≤ stage.weight.value :=
      fun stage hs => ⟨hplain stage hs, hdraft.stages.2 stage hs⟩
    exact .of_ok (insertMeasurement_run hstages) rfl
  · cases draft with
    | project stages =>
      exact (ends_insertStages id 1 stages db).mono fun _ _ htitles => absurd htitles hplain
    | _ => exact absurd (fun _ hs => absurd hs List.not_mem_nil) hplain

end Session

/-- If the call submits a measurement, it is complete; if it reports a value, it is finite. -/
def Call.Checked : Call → Prop
  | createKeyResult _ draft | updateKeyResult _ draft => draft.measurement.Complete
  | recordProgress _ update => update.Finite
  | _ => True

/-! ### Intact databases -/

namespace Contents

open Effect (Along Ends)

open Session

/-- What becomes of a database, whatever is done with its rows: identifiers that have been given stay
given. -/
def Later (db db' : Contents) : Prop := ∀ relation, db.lastId relation ≤ db'.lastId relation

theorem later_takeId (relation : Relation) (db : Contents) :
    db.Later (Statement.takeId relation .standard db).2 := by
  intro r
  rw [Statement.takeId_run]
  dsimp only
  split
  · rename_i hr
    subst hr
    omega
  · exact Int.le_refl _

theorem course_later : Course Later fun _ => True where
  refl _ _ := Int.le_refl _
  trans h h' r := Int.le_trans (h r) (h' r)
  takeId := later_takeId
  change _ _ _ := Int.le_refl _
  undo h := h

/-- The rows of every measurement fit the row of its key result. -/
structure Intact (db : Contents) : Prop where
  measured : db.rows.Measured
  /-- The identifiers of key results have been given. -/
  keyResults : ∀ id, db.rows.keyResults.contains id = true → id ≤ db.lastId .keyResults
  /-- The identifiers of stages have been given. -/
  stages : ∀ e ∈ db.rows.stages.entries, e.1 ≤ db.lastId .projectStages

namespace Intact

variable {db db' : Contents} (h : db.Intact)

include h

/-- Whatever else is done, a database stays intact so long as measurements are spared. -/
theorem of_measures (hlater : db.Later db') (hrows : db'.rows.measures = db.rows.measures) :
    db'.Intact where
  measured := h.measured.of_measures hrows
  keyResults id hid := by
    have hsame := congrArg Option.isSome (congrFun (congrArg Prod.fst hrows) id)
    simp only [Rows.measures, Option.isSome_map] at hsame
    exact Int.le_trans (h.keyResults id (hsame.symm.trans hid)) (hlater _)
  stages e he := by
    have hsame : db'.rows.stages = db.rows.stages := congrArg (fun view => view.2.1) hrows
    rw [hsame] at he
    exact Int.le_trans (h.stages e he) (hlater _)

/-- Other key results and stages under identifiers that have been given. -/
theorem of_rows {rows : Rows} (hmeasured : rows.Measured)
    (keyResults : ∀ id, rows.keyResults.contains id = true → db.rows.keyResults.contains id = true)
    (stages : ∀ e ∈ rows.stages.entries, ∃ row, (e.1, row) ∈ db.rows.stages.entries) :
    { db with rows }.Intact where
  measured := hmeasured
  keyResults id hid := h.keyResults id (keyResults id hid)
  stages e he := by
    obtain ⟨row, hrow⟩ := stages e he
    exact h.stages (e.1, row) hrow

end Intact

/-- What becomes of a database that stays intact if it is. -/
def Onward (db db' : Contents) : Prop := db.Later db' ∧ (db.Intact → db'.Intact)

theorem course_onward : Course Onward Rows.Sparing where
  refl db := ⟨course_later.refl db, id⟩
  trans h h' := ⟨course_later.trans h.1 h'.1, fun hdb => h'.2 (h.2 hdb)⟩
  takeId relation db :=
    ⟨later_takeId relation db, fun h => h.of_measures (later_takeId relation db) rfl⟩
  change hf db :=
    ⟨course_later.change trivial db, fun h => h.of_measures (course_later.change trivial db) (hf _)⟩
  undo h := ⟨course_later.undo h.1, fun hdb => hdb.of_measures (course_later.undo h.1) rfl⟩

/-- Rows are changed in a way that keeps an intact database intact. -/
theorem onward_of_rows {db : Contents} {rows : Rows} (h : db.Intact → { db with rows }.Intact) :
    db.Onward { db with rows } :=
  ⟨fun _ => Int.le_refl _, h⟩

/-! ### Deletion and weights -/

/-- Key results are deleted with their measurements. -/
theorem Intact.deleteKeyResults {db : Contents} (h : db.Intact) (gone : KeyResultId → Bool) :
    { db with rows := db.rows.deleteKeyResults gone }.Intact :=
  h.of_rows (h.measured.deleteKeyResults gone) (fun _ hid => Table.contains_of_filter hid)
    fun e he => ⟨e.2, (List.mem_filter.1 he).1⟩

theorem onward_deleteKeyResult (id : KeyResultId) : Along Onward (deleteKeyResult id) := by
  intro db
  rw [deleteKeyResult_run]
  exact onward_of_rows fun h => h.deleteKeyResults (· == id)

/-- With a goal go its key results; the other tables have nothing to do with measurements. -/
theorem onward_deleteGoal (id : GoalId) : Along Onward (deleteGoal id) := by
  intro db
  rw [deleteGoal_run]
  refine onward_of_rows fun h => ?_
  have hdeleted := h.deleteKeyResults (db.rows.isUnder (· == id))
  exact hdeleted.of_measures (fun _ => Int.le_refl _) rfl

theorem onward_changeWeight (goal : GoalId) (id : KeyResultId) (weight : Weight) :
    Along Onward (changeWeight goal id weight) := by
  intro db
  rw [changeWeight_run]
  split
  · rename_i row hrow
    split
    · refine onward_of_rows fun h => h.of_rows (h.measured.setWeight hrow weight) ?_
        fun e he => ⟨e.2, he⟩
      intro other hother
      obtain ⟨row', hget⟩ := Table.contains_iff.1 hother
      rw [Table.get?_insert] at hget
      split at hget
      · rename_i hid
        exact hid ▸ Table.contains_of_get? hrow
      · exact Table.contains_of_get? hget
    · exact course_onward.refl db
  · exact course_onward.refl db

theorem onward_setWeights (goal : GoalId) (weights : List (KeyResultId × Weight)) :
    Along Onward (setWeights goal weights) := by
  refine course_onward.transaction (course_onward.forEach (fun item => ?_) _)
  exact course_onward.unlessFound (Course.adapt (onward_changeWeight goal item.1 item.2) _) _

/-! ### Progress and checkpoints -/

/-- A report of a finite value changes rows without adding or removing any. -/
theorem onward_writeProgress (id : KeyResultId) {update : ProgressUpdate} (hupdate : update.Finite) :
    Along Onward (writeProgress id update) := by
  cases update with
  | stage stage done =>
    refine Course.adapt (fun db => ?_) _
    cases hrow : db.rows.stages.get? stage with
    | none =>
      simp only [changeStage, Effect.bind_run, Statement.reach_run, Statement.rows_run, hrow]
      exact course_onward.refl db
    | some row =>
      by_cases hown : row.keyResult = id
      · rw [changeStage_run hrow hown,
          ← Table.modify_eq_insert hrow fun row => { row with done }]
        refine onward_of_rows fun h => h.of_rows (h.measured.progress rfl fun other => ?_)
          (fun _ hid => hid) fun e he => ?_
        · exact similar_stage db.rows other stage done
        · obtain ⟨e', he', rfl⟩ := List.mem_map.1 he
          exact ⟨e'.2, he'⟩
      · have hown : (row.keyResult == id) = false := beq_false_of_ne hown
        simp only [changeStage, Effect.bind_run, Statement.reach_run, Statement.rows_run, hrow,
          hown]
        exact course_onward.refl db
  | percentCurrent value =>
    refine Course.adapt (fun db => ?_) _
    rw [changeCurrent_run]
    refine onward_of_rows fun h => h.of_rows (h.measured.progress rfl fun other => ?_)
      (fun _ hid => hid) fun e he => ⟨e.2, he⟩
    exact similar_percentCurrent db.rows id other hupdate
  | linearCurrent value =>
    refine Course.adapt (fun db => ?_) _
    rw [changeCurrent_run]
    refine onward_of_rows fun h => h.of_rows (h.measured.progress rfl fun other => ?_)
      (fun _ hid => hid) fun e he => ⟨e.2, he⟩
    exact similar_linearCurrent db.rows id other hupdate
  | boolean done =>
    refine Course.adapt (fun db => ?_) _
    rw [changeFlag_run]
    refine onward_of_rows fun h => h.of_rows (h.measured.progress rfl fun other => ?_)
      (fun _ hid => hid) fun e he => ⟨e.2, he⟩
    exact similar_flag db.rows id other done

theorem onward_recordProgress (id : KeyResultId) {update : ProgressUpdate} (hupdate : update.Finite) :
    Along Onward (recordProgress id update) := by
  refine course_onward.transaction (course_onward.bind (onward_writeProgress id hupdate) fun found => ?_)
  split
  · exact Course.adapt (course_onward.along_reach _) _
  · exact course_onward.throw _

/-- A checkpoint is only added to a percentage. -/
theorem onward_insertCheckpoint (id : KeyResultId) (draft : CheckpointDraft) :
    Along Onward (insertCheckpoint id draft) := by
  intro db
  cases hrow : db.rows.keyResults.get? id with
  | none =>
    simp only [insertCheckpoint, Effect.bind_run, Statement.reach_run, Statement.rows_run, hrow]
    exact course_onward.refl db
  | some row =>
    by_cases hkind : row.kind = Kind.percent.name
    · rw [insertCheckpoint_run hrow hkind]
      have htaken := later_takeId .percentCheckpoints db
      refine ⟨htaken, fun h => ?_⟩
      have hadded := h.of_rows
        (h.measured.addCheckpoint hrow hkind (db.lastId .percentCheckpoints + 1) draft)
        (fun _ hid => hid) fun e he => ⟨e.2, he⟩
      exact hadded.of_measures htaken rfl
    · have hkind : (row.kind == Kind.percent.name) = false := beq_false_of_ne hkind
      simp only [insertCheckpoint, Effect.bind_run, Statement.reach_run, Statement.rows_run, hrow,
        hkind]
      exact course_onward.refl db

theorem onward_addCheckpoint (id : KeyResultId) (draft : CheckpointDraft) :
    Along Onward (addCheckpoint id draft) := by
  refine course_onward.bind (Course.adapt (onward_insertCheckpoint id draft) _) fun checkpoint => ?_
  exact course_onward.bind (course_onward.along_expect _ _) fun _ => course_onward.pure _

/-! ### Reading -/

namespace Intact

variable {db db' : Contents} (h : db.Intact)

include h

/-- **A key result that is there is found, as one of the kind that its row names.** -/
theorem loadKeyResult (id : KeyResultId) :
    ∃ found, Session.loadKeyResult id .standard db = (.ok found, db) ∧
      found.map (fun k => k.measurement.kind.name) =
        (db.rows.keyResults.get? id).map KeyResultRow.kind := by
  rw [loadKeyResult_run]
  cases hrow : db.rows.keyResults.get? id with
  | none => exact ⟨none, rfl, rfl⟩
  | some row =>
    obtain ⟨k, hread, hkind⟩ := h.measured.keyResultOf hrow
    refine ⟨some k, ?_, congrArg some hkind⟩
    rw [Option.mapM_some, hread]
    rfl

/-- The key results of a goal are listed. -/
theorem listKeyResults (goal : GoalId) :
    ∃ list, Session.listKeyResults goal .standard db = (.ok list, db) := by
  rw [listKeyResults_run]
  obtain ⟨list, hlist⟩ : ∃ list, (sortBy (orderedBefore KeyResultRow.sortOrder)
      (db.rows.keyResults.entries.filter fun e => e.2.goal == goal)).mapM
        (fun e => db.rows.keyResultOf e.1 e.2) = .ok list := by
    refine Rows.exists_mapM_ok fun e he => ?_
    have hrow := Table.get?_eq_some_iff.2 (List.mem_filter.1 (mem_sortBy.1 he)).1
    obtain ⟨k, hread, -⟩ := h.measured.keyResultOf hrow
    exact ⟨k, hread⟩
  exact ⟨list, by rw [hlist]⟩

/-- A key result that has just been written is read. -/
theorem ends_loadWritten {id : KeyResultId} (hid : db.rows.keyResults.contains id = true) :
    Ends (fun _ db' => db'.Intact) (fun e => e.ofReading = false) (loadWritten id) db := by
  obtain ⟨row, hrow⟩ := Table.contains_iff.1 hid
  obtain ⟨found, hload, hfound⟩ := h.loadKeyResult id
  rw [hrow, Option.map_some, Option.map_eq_some_iff] at hfound
  obtain ⟨k, rfl, -⟩ := hfound
  have hrun : loadWritten id .standard db = (.ok k, db) := by
    rw [loadWritten, Effect.bind_run, hload]
    rfl
  exact .of_ok hrun h

/-! ### Key results that are written -/

omit h in
/-- A database whose rows fit once a measurement has been added is intact then. -/
theorem withMeasurement {id : KeyResultId} {draft : MeasurementDraft}
    (hmeasured : (db.rows.withMeasurement id (db.lastId .projectStages) draft).Measured)
    (hkeyResults : ∀ id, db.rows.keyResults.contains id = true → id ≤ db.lastId .keyResults)
    (hstages : ∀ e ∈ db.rows.stages.entries, e.1 ≤ db.lastId .projectStages) :
    (db.withMeasurement id draft).Intact where
  measured := hmeasured
  keyResults := hkeyResults
  stages e he := by
    have hlast : (db.withMeasurement id draft).lastId .projectStages =
      db.lastId .projectStages + draft.stages.length := rfl
    rw [hlast]
    rw [Contents.withMeasurement, db.rows.stages_withMeasurement hstages] at he
    rcases List.mem_append.1 he with he | he
    · exact Int.le_trans (hstages e he) (Int.le_add_of_nonneg_right (Int.natCast_nonneg _))
    · exact (of_mem_stageRows he).2.2

/-- A complete measurement is added to a key result under a new identifier. -/
theorem withKeyResult {row : KeyResultRow} (hweight : 0 ≤ row.weight ∧ row.weight ≤ 100)
    {draft : MeasurementDraft} (hdraft : draft.Complete) (hkind : row.kind = draft.kind.name) :
    ((db.withKeyResult row).withMeasurement (db.lastId .keyResults + 1) draft).Intact := by
  have hfresh : db.rows.keyResults.get? (db.lastId .keyResults + 1) = none := by
    by_contra hsome
    have hold := h.keyResults _ (Option.isSome_iff_ne_none.2 hsome)
    exact absurd hold (Int.not_le.2 (Int.lt_succ _))
  have hlast : (db.withKeyResult row).lastId .projectStages = db.lastId .projectStages := rfl
  refine .withMeasurement ?_ ?_ ?_
  · rw [hlast]
    exact h.measured.addKeyResult hfresh h.stages hweight hdraft hkind
  · intro id hid
    obtain ⟨row', hrow⟩ := Table.contains_iff.1 hid
    have hnext : (db.withKeyResult row).lastId .keyResults = db.lastId .keyResults + 1 := rfl
    rw [hnext]
    rw [Contents.withKeyResult, Table.get?_insert] at hrow
    split at hrow
    · rename_i hsame
      exact hsame ▸ Int.le_refl _
    · have hold := h.keyResults id (Table.contains_of_get? hrow)
      exact Int.le_trans hold (Int.le_of_lt (Int.lt_succ _))
  · rw [hlast]
    exact h.stages

/-- A complete measurement takes the place of another one. -/
theorem withEdit {id : KeyResultId} {row : KeyResultRow} (hrow : db.rows.keyResults.get? id = some row)
    {draft : KeyResultDraft} (hdraft : draft.measurement.Complete) {keep : Bool}
    (hkeep : keep = true → draft.measurement.kind = .percent) :
    (Contents.withMeasurement { db.withEdit id draft with
      rows := (db.withEdit id draft).rows.clearPayload id keep } id draft.measurement).Intact := by
  refine .withMeasurement ?_ ?_ ?_
  · exact h.measured.editKeyResult hrow h.stages hdraft hkeep
  · intro other hother
    refine h.keyResults other ?_
    rwa [← Table.contains_modify db.rows.keyResults id other (editKeyResultRow draft)]
  · exact fun e he => h.stages e (List.mem_filter.1 he).1

/-- **A key result that is created with a complete measurement is read back, and the database stays
intact.** -/
theorem ends_createKeyResult (goal : GoalId) {draft : KeyResultDraft}
    (hdraft : draft.measurement.Complete) :
    Ends (fun _ db' => db'.Intact) (fun e => e.ofReading = false) (createKeyResult goal draft) db := by
  refine ends_transaction (.bind_ok (query_run ..) ?_)
  split
  · refine .bind (ends_execute fun _ _ => of_insertKeyResult_run_ok) ?_
    rintro id db₁ ⟨rfl, order, rfl⟩
    refine .bind (ends_insertMeasurement _ hdraft _) ?_
    rintro - db₂ rfl
    refine (h.withKeyResult draft.weight.bounds hdraft rfl).ends_loadWritten ?_
    exact Table.contains_of_get? (Table.get?_insert_self ..)
  · exact .throw rfl

/-- **A key result that is given another complete measurement is read back, and the database stays
intact.** -/
theorem ends_updateKeyResult (id : KeyResultId) {draft : KeyResultDraft}
    (hdraft : draft.measurement.Complete) :
    Ends (fun _ db' => db'.Intact) (fun e => e.ofReading = false) (updateKeyResult id draft) db := by
  refine ends_transaction (.bind_ok (query_run ..) ?_)
  cases hrow : db.rows.keyResults.get? id with
  | none => exact (rfl : Failure.ofReading (.keyResultMissing id) = false)
  | some row =>
    obtain ⟨-, kind, hkind, -⟩ : (db.rows.payload id).Fits (some row) := hrow ▸ h.measured id
    have hword : Column.word Kind "kind" row.kind = .ok kind :=
      Column.word_of_find? "kind" (hkind ▸ Kind.find?_name kind)
    refine .bind_ok (expect_run_some ..) (.bind_ok ((lift_run ..).trans (by rw [hword])) ?_)
    refine .bind (ends_execute fun _ _ => of_editKeyResult_run_ok) ?_
    rintro - db₁ rfl
    -- All rows are cleared, but the checkpoints of a percentage that stays one.
    refine .bind_ok (clearMeasurement_run ..) ?_
    refine .bind (ends_insertMeasurement id hdraft _) ?_
    rintro - db₂ rfl
    have hkeep : (kind == .percent && draft.measurement.kind == .percent) = true →
        draft.measurement.kind = .percent := by
      intro hkeep
      rw [Bool.and_eq_true, beq_iff_eq, beq_iff_eq] at hkeep
      exact hkeep.2
    refine (h.withEdit hrow hdraft hkeep).ends_loadWritten ?_
    exact (Table.contains_modify ..).trans (Table.contains_of_get? hrow)

end Intact

/-! ### Calls -/

/-- A transaction that is refused leaves measurements as they were. -/
theorem Intact.transaction {α : Type} {fails : Failure → Prop} {session : Session α} {db : Contents}
    (h : db.Intact)
    (hends : Ends (fun _ db' => db'.Intact) fails (Session.transaction session) db)
    (hlater : db.Later (Session.transaction session .standard db).2) :
    (Session.transaction session .standard db).2.Intact := by
  have hundone := undone_transaction session db
  unfold Ends at hends
  cases hrun : Session.transaction session .standard db with
  | mk answer db' =>
    rw [hrun] at hends hlater hundone
    cases answer with
    | ok a => exact hends
    | error e => exact h.of_measures hlater (congrArg Rows.measures (hundone e rfl))

/-- **A checked call keeps a database intact.** -/
theorem Intact.carry {db : Contents} (h : db.Intact) {c : Call} (hc : c.Checked) :
    (carry c db).2.Intact := by
  -- Only seven calls do anything to measurements.
  cases hsparing : c.sparing with
  | true => exact (course_onward.along_sparing hsparing db).2 h
  | false =>
    have hlater := course_later.along_session c db
    cases c with
    | deleteGoal id => exact (onward_deleteGoal id db).2 h
    | createKeyResult goal draft => exact h.transaction (h.ends_createKeyResult goal hc) hlater
    | updateKeyResult id draft => exact h.transaction (h.ends_updateKeyResult id hc) hlater
    | setWeights goal weights => exact (onward_setWeights goal weights db).2 h
    | recordProgress id update => exact (onward_recordProgress id hc db).2 h
    | addCheckpoint id draft => exact (onward_addCheckpoint id draft db).2 h
    | deleteKeyResult id => exact (onward_deleteKeyResult id db).2 h
    | _ => cases hsparing

/-- Key results can be read: by themselves, in the list of their goal, and as soon as they have been
written. -/
structure Legible (db : Contents) : Prop where
  /-- A key result is found if it is there, and is of the kind that its row names. -/
  load : ∀ id, ∃ found, carry (.keyResult id) db = (.ok found, db) ∧
    found.map (fun k => k.measurement.kind.name) =
      (db.rows.keyResults.get? id).map KeyResultRow.kind
  list : ∀ goal, ∃ list, carry (.keyResultsOf goal) db = (.ok list, db)
  create : ∀ goal draft, draft.measurement.Complete → ∀ e,
    (carry (.createKeyResult goal draft) db).1 = .error e → e.ofReading = false
  update : ∀ id draft, draft.measurement.Complete → ∀ e,
    (carry (.updateKeyResult id draft) db).1 = .error e → e.ofReading = false

/-- **In an intact database key results can be read.** -/
theorem Intact.legible {db : Contents} (h : db.Intact) : db.Legible where
  load := h.loadKeyResult
  list := h.listKeyResults
  create goal _ hdraft _ he := (h.ends_createKeyResult goal hdraft).of_error he
  update id _ hdraft _ he := (h.ends_updateKeyResult id hdraft).of_error he

end Contents

end Objectives
