/- # Key results of mirrors

Each call that writes key results does the same to a store in memory and to a database that mirror each
other; and so do the commands on key results.

Main results:

* `Mirror.createKeyResult`, `Mirror.updateKeyResult`, `Mirror.setWeights`, … — the calls, one by one;
* `Mirror.keyResults_create`, `Mirror.keyResults_update`, `Mirror.keyResults_recordProgress`, … —
  **the commands**.
-/

import Objectives.Proofs.Links
import Objectives.Proofs.Mirror.Measurements
import Objectives.Proofs.Mirror.Reading

set_option relaxedAutoImplicit false
set_option autoImplicit false

namespace Objectives

namespace Memory

/-- What the creation of a key result does, in one piece. -/
theorem createKeyResult_eq {m : Memory} {goal : GoalId} (hgoal : m.goals.contains goal = true)
    (draft : KeyResultDraft) {k : KeyResult}
    (hk : k = ⟨m.lastId + 1, goal, draft.title, draft.description, draft.weight,
      orderAfter ((m.keyResultsIn goal).map KeyResult.sortOrder),
      (m.takeId.measure draft.measurement []).1⟩) :
    m.createKeyResult goal draft =
      (.ok k, { m with
        lastId := m.lastId + 1 + draft.measurement.stages.length
        keyResults := m.keyResults.insert (m.lastId + 1) k }) := by
  have hmeasure := m.takeId.lastId_measure draft.measurement []
  subst hk
  unfold createKeyResult
  rw [if_pos hgoal]
  dsimp only
  rw [hmeasure]
  rfl

/-- What an edit of a key result does, in one piece. -/
theorem updateKeyResult_eq {m : Memory} {id : KeyResultId} {current k : KeyResult}
    (hget : m.keyResults.get? id = some current) (draft : KeyResultDraft)
    (hk : k = { current with
      title := draft.title
      description := draft.description
      weight := draft.weight
      measurement := (m.measure draft.measurement
        (keptCheckpoints current.measurement draft.measurement)).1 }) :
    m.updateKeyResult id draft =
      (.ok k, { m with
        lastId := m.lastId + draft.measurement.stages.length
        keyResults := m.keyResults.insert id k }) := by
  have hmeasure := m.lastId_measure draft.measurement
    (keptCheckpoints current.measurement draft.measurement)
  subst hk
  unfold updateKeyResult
  rw [hget]
  dsimp only
  rw [hmeasure]

/-- The key results of a goal are the same after a weight has been set. -/
theorem strangerIn_setWeight (m : Memory) (item : KeyResultId × Weight) (goal : GoalId)
    (weights : List (KeyResultId × Weight)) :
    Memory.strangerIn { m with keyResults := setWeight m.keyResults item } goal weights =
      m.strangerIn goal weights := by
  have hgoal (id : KeyResultId) :
      ((setWeight m.keyResults item).get? id).map KeyResult.goal =
        (m.keyResults.get? id).map KeyResult.goal :=
    map_get?_setWeights (fun _ _ => rfl) m.keyResults [item] id
  simp only [strangerIn, hgoal]

end Memory

namespace Mirror

variable {ρ : Renaming} {m : Memory} {db : Contents} (h : Mirror ρ m db)

include h

/-! ### Changes of key results -/

/-- A new last key result of a goal gets the same key. -/
theorem orderAfter_keyResults {i j : GoalId} (hij : ρ.goals.Pairs i j) :
    Memory.orderAfter ((db.rows.keyResults.values.filter fun row => row.goal == j).map
        KeyResultRow.sortOrder) =
      Memory.orderAfter ((m.keyResultsIn i).map KeyResult.sortOrder) := by
  have hown := h.keyResults.filter (p := fun _ k => k.goal == i) (q := fun _ row => row.goal == j)
    fun {e e'} he => by rw [Bool.eq_iff_iff, beq_iff_eq, beq_iff_eq, ρ.goals.eq_iff he.goal hij]
  have hvalues : List.Forall₂ (fun (k : KeyResult) (row : KeyResultRow) => row.sortOrder = k.sortOrder)
      (m.keyResults.filter fun _ k => k.goal == i).values
      (db.rows.keyResults.filter fun _ row => row.goal == j).values :=
    List.forall₂_map_right_iff.2 (Table.Alike.values hown fun {e e'} he => by rw [he.row])
  rw [Memory.keyResultsIn, Table.filter_values, Table.filter_values,
    map_eq_of_alike hvalues fun k row hrow => hrow.symm]

/-- A key result is put into both stores, in place of the one there; the rows of all other
measurements stay. -/
theorem insert_keyResult {ρ' : Renaming} (hle : ρ.Le ρ') {rows : Rows} {i j : KeyResultId}
    (hothers : ∀ id, id ≠ j → rows.payload id = db.rows.payload id) {k : KeyResult}
    {row : KeyResultRow} (hin : KeyResult.In ρ' rows (i, k) (j, row)) :
    (m.keyResults.insert i k).Alike (KeyResult.In ρ' rows) (db.rows.keyResults.insert j row) := by
  have hrest : m.keyResults.Alike (fun e e' => ρ'.keyResults.Pairs e.1 e'.1 ∧
      (e'.1 ≠ j → KeyResult.In ρ' rows e e')) db.rows.keyResults :=
    h.keyResults.mono fun he => ⟨hle.keyResults _ _ he.key, fun hne => he.mono hle (hothers _ hne)⟩
  exact hrest.insert ρ'.keyResults.monotone hin.key hin

/-- A key result that has not been there yet has no rows. -/
theorem payload_of_new {id : KeyResultId} (hid : db.lastId .keyResults < id) :
    (db.rows.payload id).stages = [] ∧ (db.rows.payload id).checkpoints = [] := by
  constructor
  · refine List.filter_eq_nil_iff.2 fun e he => ?_
    rw [beq_iff_eq]
    exact Int.ne_of_lt (Int.lt_of_le_of_lt (h.stages e he).2 hid)
  · refine List.filter_eq_nil_iff.2 fun e he => ?_
    rw [beq_iff_eq]
    exact Int.ne_of_lt (Int.lt_of_le_of_lt (h.checkpoints e he).2 hid)

/-- A key result that has been written is read back. -/
theorem loadWritten {i j : KeyResultId} {k : KeyResult} (hget : m.keyResults.get? i = some k)
    (hij : ρ.keyResults.Pairs i j) :
    ∃ k', Session.loadWritten j .standard db = (.ok k', db) ∧ k.Like ρ k' := by
  obtain ⟨found, hload, hrel⟩ := h.keyResult (.of_pairs hij)
  rw [hget] at hrel
  cases hrel with
  | @some _ k' hk =>
    refine ⟨k', ?_, hk.1⟩
    rw [Session.loadWritten, Effect.bind_run, hload]
    rfl

/-- After a key result has been added with its measurement the stores mirror each other again. -/
theorem add_keyResult {i j : GoalId} (hij : ρ.goals.Pairs i j) {draft : KeyResultDraft}
    (hranged : draft.measurement.Ranged) (order : Int) :
    ∃ ρ' : Renaming, ρ.Le ρ' ∧ ρ'.keyResults.Pairs (m.lastId + 1) (db.lastId .keyResults + 1) ∧
      Mirror ρ'
        { m with
          lastId := m.lastId + 1 + draft.measurement.stages.length
          keyResults := m.keyResults.insert (m.lastId + 1)
            ⟨m.lastId + 1, i, draft.title, draft.description, draft.weight, order,
              (m.takeId.measure draft.measurement []).1⟩ }
        (Contents.withMeasurement { db.withIds .keyResults 1 with
          rows := { db.rows with
            keyResults := db.rows.keyResults.insert (db.lastId .keyResults + 1)
              ⟨j, draft.title, draft.description, draft.weight.value,
                draft.measurement.kind.name, order⟩ } }
          (db.lastId .keyResults + 1) draft.measurement) := by
  -- The new key result has the next identifier on both sides, and its stages have those after.
  have hkeys := h.below.keyResults
  have hle : ρ.Le { ρ with keyResults := Pairing.extend hkeys 1 } :=
    ⟨.refl, Pairing.le_extend hkeys 1, .refl, .refl⟩
  have hpair : (Pairing.extend hkeys 1).Pairs (m.lastId + 1) (db.lastId .keyResults + 1) :=
    Pairing.extend_next hkeys
  have hgrown : ρ.Below (m.lastId + 1) (db.withIds .keyResults 1).lastId :=
    h.below.mono (by omega) (db.lastId_le_withIds .keyResults 1)
  have hbelow : Renaming.Below { ρ with keyResults := Pairing.extend hkeys 1 } (m.lastId + 1)
      (db.withIds .keyResults 1).lastId :=
    { hgrown with keyResults := Pairing.extend_below hkeys 1 }
  have hle' := hle.trans (Renaming.le_withStages hbelow.stages draft.measurement.stages.length)
  obtain ⟨hnoStages, hnoCheckpoints⟩ := h.payload_of_new (Int.lt_succ (db.lastId .keyResults))
  have hholds := Payload.holds_measure m.takeId hbelow.stages db.rows
    (fun e he => (h.stages e he).1) hranged hnoStages [] (hnoCheckpoints ▸ .nil)
  have hgrows {id : KeyResultId} (hid : id ≤ db.lastId .keyResults) :
      id ≤ db.lastId .keyResults + 1 := Int.le_trans hid (Int.le_add_one (Int.le_refl _))
  have hothers (id : KeyResultId) (hid : id ≠ db.lastId .keyResults + 1) :=
    db.rows.payload_withMeasurement_of_ne hid (fun e he => (h.stages e he).1) draft.measurement
  have hstages := db.rows.stages_withMeasurement_bounds
    (fun e he => ⟨(h.stages e he).1, hgrows (h.stages e he).2⟩) (Int.le_refl _) draft.measurement
  refine ⟨_, hle', hpair, ?_⟩
  exact { h with
    below := Renaming.withStages_below hbelow draft.measurement.stages.length
    goals := h.goals_mono hle'
    shares := h.shares_mono hle'
    keyResults := by
      refine h.insert_keyResult hle' ?_ ?_
      · exact hothers
      · exact ⟨hpair, rfl, hle'.goals _ _ hij, by rw [Memory.kind_measure], hholds⟩
    stages := hstages
    checkpoints := fun e he => ⟨(h.checkpoints e he).1, hgrows (h.checkpoints e he).2⟩ }

theorem createKeyResult {i j : GoalId} (hij : ρ.goals.Pairs i j)
    (hgoal : m.goals.contains i = true) {draft : KeyResultDraft} (hplain : draft.Plain)
    (hstages : ∀ stage ∈ draft.measurement.stages, 1 ≤ stage.weight.value)
    (hranged : draft.measurement.Ranged) :
    ActsAlike ρ m db (fun ρ' k k' => k.Like ρ' k') (Program.ask (.createKeyResult i draft))
      (Program.ask (.createKeyResult j draft)) := by
  refine .ask _ _ (Memory.createKeyResult_eq hgoal draft rfl) fun hfits => ?_
  have hnew : Memory.orderAfter ((m.keyResultsIn i).map KeyResult.sortOrder) ≤ Statement.maxOrder :=
    hfits.keyResults (Table.get?_insert_self ..)
  have hinsert := Session.insertKeyResult_run hplain
    (h.orderAfter_keyResults hij) hnew
  obtain ⟨ρ', hle, hpair, hmirror⟩ := h.add_keyResult hij hranged
    (Memory.orderAfter ((m.keyResultsIn i).map KeyResult.sortOrder))
  obtain ⟨k', hload, hk⟩ := hmirror.loadWritten (Table.get?_insert_self ..) hpair
  refine ⟨k', _, ρ', ?_, hle, hmirror, hk⟩
  refine Session.transaction_run_ok ?_
  rw [Session.bind_query_run, (h.contains_goal hij).trans hgoal, if_pos rfl,
    Effect.bind_run, Session.execute_run_ok hinsert]
  dsimp only
  rw [Effect.bind_run, Session.insertMeasurement_run
    fun stage hstage => ⟨hplain.stage hstage, hstages stage hstage⟩]
  exact hload

section Present

variable {i j : KeyResultId} {k : KeyResult} (hget : m.keyResults.get? i = some k)
  (hij : ρ.keyResults.Pairs i j)

include hget hij

/-- A key result that is there is in a row of the database. -/
theorem row_of_keyResult :
    ∃ row, db.rows.keyResults.get? j = some row ∧ KeyResult.In ρ db.rows (i, k) (j, row) := by
  have hrel := h.keyResult_get? (.of_pairs hij)
  rw [hget] at hrel
  generalize db.rows.keyResults.get? j = found at hrel
  cases hrel with
  | @some _ row he => exact ⟨row, rfl, he⟩

/-- After a key result has been edited, its old measurement cleared and the new one put in, the stores
mirror each other again. -/
theorem edit_keyResult {draft : KeyResultDraft} (hranged : draft.measurement.Ranged) :
    ∃ ρ' : Renaming, ρ.Le ρ' ∧
      Mirror ρ'
        { m with
          lastId := m.lastId + draft.measurement.stages.length
          keyResults := m.keyResults.insert i { k with
            title := draft.title
            description := draft.description
            weight := draft.weight
            measurement := (m.measure draft.measurement
              (Memory.keptCheckpoints k.measurement draft.measurement)).1 } }
        (Contents.withMeasurement { db with
          rows := Rows.clearPayload { db.rows with
            keyResults := db.rows.keyResults.modify j (Session.editKeyResultRow draft) } j
            (k.measurement.kind == .percent && draft.measurement.kind == .percent) }
          j draft.measurement) := by
  obtain ⟨row, hrow, hin⟩ := h.row_of_keyResult hget hij
  obtain ⟨added, hadded, hkept⟩ := Payload.kept_checkpoints hin.payload draft.measurement
  have hle := Renaming.le_withStages h.below.stages draft.measurement.stages.length
  rw [Table.modify_eq_insert hrow, hadded]
  -- What has been cleared is of this key result, so that all bounds are as before.
  have hstages : ∀ e ∈ (db.rows.clearPayload j (k.measurement.kind == .percent &&
      draft.measurement.kind == .percent)).stages.entries,
      e.1 ≤ db.lastId .projectStages ∧ e.2.keyResult ≤ db.lastId .keyResults :=
    fun e he => h.stages e (List.mem_filter.1 he).1
  have hothers (id : KeyResultId) (hid : id ≠ j) :=
    (Rows.payload_withMeasurement_of_ne _ hid (fun e he => (hstages e he).1) draft.measurement).trans
      (db.rows.payload_clearPayload_of_ne hid _)
  have hnone : ((db.rows.clearPayload j (k.measurement.kind == .percent &&
      draft.measurement.kind == .percent)).payload j).stages = [] := by
    rw [Rows.payload_clearPayload]
  have hholds := Payload.holds_measure m h.below.stages _ (fun e he => (hstages e he).1) hranged hnone
    added hkept
  have hknown : j ≤ db.lastId .keyResults := (h.below.keyResults _ _ hij).2
  have horder : row.sortOrder = k.sortOrder := congrArg KeyResultRow.sortOrder hin.row
  refine ⟨_, hle, ?_⟩
  exact { h with
    below := Renaming.withStages_below h.below draft.measurement.stages.length
    goals := h.goals_mono hle
    shares := h.shares_mono hle
    keyResults := by
      refine h.insert_keyResult hle ?_ ?_
      · exact hothers
      · refine ⟨hij, hin.own, hle.goals _ _ hin.goal, ?_, hholds⟩
        rw [Memory.kind_measure, ← horder]
        rfl
    stages := Rows.stages_withMeasurement_bounds _ hstages hknown draft.measurement
    checkpoints := fun e he => h.checkpoints e (Rows.mem_checkpoints_of_clearPayload _ he) }

theorem updateKeyResult {draft : KeyResultDraft} (hplain : draft.Plain)
    (hstages : ∀ stage ∈ draft.measurement.stages, 1 ≤ stage.weight.value)
    (hranged : draft.measurement.Ranged) :
    ActsAlike ρ m db (fun ρ' k k' => k.Like ρ' k') (Program.ask (.updateKeyResult i draft))
      (Program.ask (.updateKeyResult j draft)) := by
  refine .ask _ _ (Memory.updateKeyResult_eq hget draft rfl) fun _ => ?_
  obtain ⟨row, hrow, hin⟩ := h.row_of_keyResult hget hij
  obtain ⟨ρ', hle, hmirror⟩ := h.edit_keyResult hget hij hranged
  obtain ⟨k', hload, hk⟩ := hmirror.loadWritten (Table.get?_insert_self ..)
    (hle.keyResults _ _ hij)
  refine ⟨k', _, ρ', ?_, hle, hmirror, hk⟩
  have hkind : Column.word Kind "kind" row.kind = .ok k.measurement.kind := by
    rw [hin.kind]
    exact Column.word_of_find? _ (Kind.find?_name _)
  refine Session.transaction_run_ok ?_
  rw [Session.bind_query_run, hrow, Effect.bind_run, Session.expect_run_some]
  dsimp only
  rw [hkind, Effect.bind_run, Session.lift_run]
  dsimp only
  rw [Effect.bind_run, Session.execute_run_ok (Session.editKeyResult_run hplain j _)]
  dsimp only
  rw [Effect.bind_run, Session.clearMeasurement_run]
  dsimp only
  rw [Effect.bind_run, Session.insertMeasurement_run
    fun stage hstage => ⟨hplain.stage hstage, hstages stage hstage⟩]
  exact hload

/-- A key result goes from both stores with what is on it. -/
theorem deleteKeyResult :
    ActsAlike ρ m db (fun _ _ _ => True) (Program.ask (.deleteKeyResult i))
      (Program.ask (.deleteKeyResult j)) := by
  obtain ⟨row, hrow, -⟩ := h.row_of_keyResult hget hij
  have hm : Memory.carry (.deleteKeyResult i) m = (.ok (), { m with
      keyResults := m.keyResults.erase i
      comments := m.comments.filter fun _ comment => comment.target != .keyResult i }) := by
    simp only [Memory.carry, Memory.deleteKeyResult, Table.contains_of_get? hget, if_true]
  refine .ask _ _ hm fun _ => ?_
  have hrun := Session.deleteKeyResult_run j db
  rw [Table.contains_of_get? hrow, if_pos rfl] at hrun
  refine ⟨(), _, ρ, hrun, .refl ρ, ?_, trivial⟩
  have hdeleted := h.delete_keyResults (p := fun id _ => decide (id ≠ i)) (q := (· == j))
    fun {e e'} he _ => by
      rw [Bool.eq_iff_iff, decide_eq_true_eq, ne_eq, ρ.keyResults.eq_iff he.key hij]
      simp
  exact { hdeleted with
    comments := by
      rw [h.comments]
      rfl }

/-- The rows of one measurement hold another of its kind; all other rows stay. -/
theorem replace_measurement {ρ' : Renaming} (hle : ρ.Le ρ') {μ : Measurement}
    (hkind : μ.kind = k.measurement.kind) {l : Int} {ls : Relation → Int} (hbelow : ρ'.Below l ls)
    {stages : Table StageId StageRow} {percents linears : Table KeyResultId (MetricRange Double)}
    {checkpoints : Table CheckpointId CheckpointRow} {flags : Table KeyResultId Bool} {rows : Rows}
    (hrows : rows = { db.rows with
      stages
      percentRanges := percents
      checkpoints
      linearRanges := linears
      flags })
    (hothers : ∀ id, id ≠ j → rows.payload id = db.rows.payload id)
    (hholds : (rows.payload j).Holds ρ' μ)
    (hstages : ∀ e ∈ stages.entries, e.1 ≤ ls .projectStages ∧ e.2.keyResult ≤ ls .keyResults)
    (hcheckpoints : ∀ e ∈ checkpoints.entries,
      e.1 ≤ ls .percentCheckpoints ∧ e.2.keyResult ≤ ls .keyResults) :
    Mirror ρ' { m with
        lastId := l
        keyResults := m.keyResults.insert i { k with measurement := μ } }
      { db with lastId := ls, rows } := by
  obtain ⟨row, hrow, hin⟩ := h.row_of_keyResult hget hij
  have hput := h.insert_keyResult hle hothers (k := { k with measurement := μ })
    ⟨hle.keyResults _ _ hij, hin.own, hle.goals _ _ hin.goal, by rw [hkind]; exact hin.row, hholds⟩
  -- The row of the key result itself is not changed.
  rw [Table.insert_get? hrow] at hput
  subst hrows
  exact { h with
    below := hbelow
    goals := h.goals_mono hle
    shares := h.shares_mono hle
    keyResults := hput
    stages := hstages
    checkpoints := hcheckpoints }

/-- A stage is set in both stores. -/
theorem report_stage {s s' : StageId} (hs : ρ.stages.Pairs s s') {done : Bool}
    {stages set : List Stage} (hk : k.measurement = .project stages)
    (hset : Measurement.setStage s done stages = some set) :
    ∃ rows, Session.writeProgress j (.stage s' done) .standard db = (.ok true, { db with rows }) ∧
      Mirror ρ { m with keyResults := m.keyResults.insert i { k with measurement := .project set } }
        { db with rows } := by
  obtain ⟨_, -, hin⟩ := h.row_of_keyResult hget hij
  have hholds : (db.rows.payload j).Holds ρ (.project stages) := hk ▸ hin.payload
  obtain ⟨row, hrow, hown, hholds', hothers⟩ := hholds.setStage hs hset
  have hrun := Session.execute_run_ok (Session.changeStage_run hrow hown done)
    "Failed to update project stage"
  refine ⟨_, hrun, h.replace_measurement hget hij (.refl ρ) (by rw [hk]; rfl) h.below rfl hothers
    hholds' (fun e he => ?_) h.checkpoints⟩
  rcases Table.mem_insertEntry he with rfl | he
  · exact h.stages (s', row) (Table.get?_eq_some_iff.1 hrow)
  · exact h.stages e he

/-- The present value of a percent key result is set in both stores. -/
theorem report_percent {range range' : MetricRange Double} {checkpoints : List Checkpoint}
    {value : Double} (hk : k.measurement = .percent range checkpoints)
    (hrange : range.withCurrent value = .ok range') :
    ∃ rows, Session.writeProgress j (.percentCurrent value) .standard db = (.ok true, { db with rows }) ∧
      Mirror ρ { m with
          keyResults := m.keyResults.insert i { k with
            measurement := .percent range' checkpoints } }
        { db with rows } := by
  obtain ⟨_, -, hin⟩ := h.row_of_keyResult hget hij
  have hholds : (db.rows.payload j).Holds ρ (.percent range checkpoints) := hk ▸ hin.payload
  obtain ⟨hstored, -, hcheckpoints⟩ := hholds
  have hstored : db.rows.percentRanges.get? j = some range := hstored
  obtain ⟨rfl, hvalid⟩ := MetricRange.of_withCurrent hrange
  have hrun := Session.execute_run_ok (Session.changeCurrent_run .percentRanges
    Rows.percentRanges (fun ranges rows => { rows with percentRanges := ranges }) j value db)
    "Failed to update percent value"
  rw [Table.contains_of_get? hstored] at hrun
  refine ⟨_, hrun, h.replace_measurement hget hij (.refl ρ) (by rw [hk]; rfl) h.below rfl
    (fun id hid => ?_) ⟨?_, hvalid, hcheckpoints⟩ h.stages h.checkpoints⟩
  · simp only [Rows.payload, Table.get?_modify, if_neg hid]
  · simp only [Rows.payload, Table.get?_modify, if_true, hstored, Option.map_some]

/-- The present value of a linear key result is set in both stores. -/
theorem report_linear {range range' : MetricRange Double} {value : Double}
    (hk : k.measurement = .linear range) (hrange : range.withCurrent value = .ok range') :
    ∃ rows, Session.writeProgress j (.linearCurrent value) .standard db = (.ok true, { db with rows }) ∧
      Mirror ρ { m with keyResults := m.keyResults.insert i { k with measurement := .linear range' } }
        { db with rows } := by
  obtain ⟨_, -, hin⟩ := h.row_of_keyResult hget hij
  have hholds : (db.rows.payload j).Holds ρ (.linear range) := hk ▸ hin.payload
  have hstored : db.rows.linearRanges.get? j = some range := hholds.1
  obtain ⟨rfl, hvalid⟩ := MetricRange.of_withCurrent hrange
  have hrun := Session.execute_run_ok (Session.changeCurrent_run .linearRanges
    Rows.linearRanges (fun ranges rows => { rows with linearRanges := ranges }) j value db)
    "Failed to update linear value"
  rw [Table.contains_of_get? hstored] at hrun
  refine ⟨_, hrun, h.replace_measurement hget hij (.refl ρ) (by rw [hk]; rfl) h.below rfl
    (fun id hid => ?_) ⟨?_, hvalid⟩ h.stages h.checkpoints⟩
  · simp only [Rows.payload, Table.get?_modify, if_neg hid]
  · simp only [Rows.payload, Table.get?_modify, if_true, hstored, Option.map_some]

/-- A flag is set in both stores. -/
theorem report_boolean {flag : Bool} (hk : k.measurement = .boolean flag) (done : Bool) :
    ∃ rows, Session.writeProgress j (.boolean done) .standard db = (.ok true, { db with rows }) ∧
      Mirror ρ { m with keyResults := m.keyResults.insert i { k with measurement := .boolean done } }
        { db with rows } := by
  obtain ⟨_, -, hin⟩ := h.row_of_keyResult hget hij
  have hholds : (db.rows.payload j).Holds ρ (.boolean flag) := hk ▸ hin.payload
  have hstored : db.rows.flags.get? j = some flag := hholds
  have hrun := Session.execute_run_ok (Session.changeFlag_run j done db)
    "Failed to update boolean value"
  rw [Table.contains_of_get? hstored] at hrun
  refine ⟨_, hrun, h.replace_measurement hget hij (.refl ρ) (by rw [hk]; rfl) h.below rfl
    (fun id hid => ?_) ?_ h.stages h.checkpoints⟩
  · simp only [Rows.payload, Table.get?_modify, if_neg hid]
  · show (db.rows.flags.modify j fun _ => done).get? j = some done
    rw [Table.get?_modify, if_pos rfl, hstored, Option.map_some]

/-- A report that the measurement takes finds its rows. -/
theorem writeProgress {u u' : ProgressUpdate} (hu : u.Like ρ.stages.Pairs u') {μ : Measurement}
    (hrecord : k.measurement.record u = .ok μ) :
    ∃ rows, Session.writeProgress j u' .standard db = (.ok true, { db with rows }) ∧
      Mirror ρ { m with keyResults := m.keyResults.insert i { k with measurement := μ } }
        { db with rows } := by
  generalize hk : k.measurement = μ₀ at hrecord
  cases Measurement.takes_of_record hrecord with
  | stage hset =>
    cases u' with
    | stage s' done' =>
      obtain ⟨hs, rfl⟩ := hu
      exact h.report_stage hget hij hs hk hset
    | _ => cases hu
  | percentCurrent checkpoints hrange =>
    cases u' with
    | percentCurrent value =>
      cases hu
      exact h.report_percent hget hij hk hrange
    | _ => cases hu
  | linearCurrent hrange =>
    cases u' with
    | linearCurrent value =>
      cases hu
      exact h.report_linear hget hij hk hrange
    | _ => cases hu
  | boolean flag done =>
    cases u' with
    | boolean done' =>
      cases hu
      exact h.report_boolean hget hij hk done
    | _ => cases hu

/-- A report that the measurement takes is taken by both stores. -/
theorem recordProgress {u u' : ProgressUpdate} (hu : u.Like ρ.stages.Pairs u') {μ : Measurement}
    (hrecord : k.measurement.record u = .ok μ) :
    ActsAlike ρ m db (fun _ _ _ => True) (Program.ask (.recordProgress i u))
      (Program.ask (.recordProgress j u')) := by
  have hm : Memory.carry (.recordProgress i u) m = (.ok (), { m with
      keyResults := m.keyResults.insert i { k with measurement := μ } }) := by
    simp only [Memory.carry, Memory.recordProgress, hget, Measurement.record_eq_ok_iff.1 hrecord]
  refine .ask _ _ hm fun _ => ?_
  obtain ⟨rows, hwrite, hmirror⟩ := h.writeProgress hget hij hu hrecord
  exact ⟨(), _, ρ, Session.recordProgress_run hwrite, .refl ρ, hmirror, trivial⟩

/-- A checkpoint is added in both stores. -/
theorem addCheckpoint {range : MetricRange Double} {checkpoints : List Checkpoint}
    (hk : k.measurement = .percent range checkpoints) {draft : CheckpointDraft}
    (hdraft : draft.value.Sortable) :
    ActsAlike ρ m db (fun ρ' c c' => c.Like ρ' c') (Program.ask (.addCheckpoint i draft))
      (Program.ask (.addCheckpoint j draft)) := by
  obtain ⟨row, hrow, hin⟩ := h.row_of_keyResult hget hij
  have hm : Memory.carry (.addCheckpoint i draft) m =
      (.ok (draft.store (m.lastId + 1)), { m with
        lastId := m.lastId + 1
        keyResults := m.keyResults.insert i { k with
          measurement := .percent range
            (sortBy Checkpoint.le (checkpoints ++ [draft.store (m.lastId + 1)])) } }) := by
    simp only [Memory.carry, Memory.addCheckpoint, Memory.takeId, hget, hk]
  refine .ask _ _ hm fun _ => ?_
  have hkind : row.kind = Kind.percent.name := by rw [hin.kind, hk]; rfl
  have hrun := Session.execute_run_ok (Session.insertCheckpoint_run hrow hkind draft)
    "Failed to insert checkpoint"
  -- The new checkpoint has the next identifier on both sides.
  have hcheckpoints := h.below.checkpoints
  have hle : ρ.Le { ρ with checkpoints := Pairing.extend hcheckpoints 1 } :=
    ⟨.refl, .refl, .refl, Pairing.le_extend hcheckpoints 1⟩
  have hgrown : ρ.Below (m.lastId + 1) (db.withIds .percentCheckpoints 1).lastId :=
    h.below.mono (by omega) (db.lastId_le_withIds .percentCheckpoints 1)
  have hholds : (db.rows.payload j).Holds ρ (.percent range checkpoints) := hk ▸ hin.payload
  obtain ⟨hholds', hothers⟩ := Payload.Holds.addCheckpoint hholds hcheckpoints
    (fun e he => (h.checkpoints e he).1) hdraft
  have hknown : j ≤ db.lastId .keyResults := (h.below.keyResults _ _ hij).2
  have hmirror := h.replace_measurement hget hij hle (by rw [hk]; rfl)
    { hgrown with checkpoints := Pairing.extend_below hcheckpoints 1 } rfl hothers hholds' h.stages
    fun e he => by
      rcases Table.mem_insertEntry he with rfl | he
      · exact ⟨Int.le_refl _, hknown⟩
      · obtain ⟨hkey, howner⟩ := h.checkpoints e he
        exact ⟨Int.le_trans hkey (Int.le_add_one (Int.le_refl _)), howner⟩
  refine ⟨draft.store (db.lastId .percentCheckpoints + 1), _, _, ?_, hle, hmirror,
    Pairing.extend_next hcheckpoints, rfl⟩
  show Session.addCheckpoint j draft .standard db = _
  rw [Session.addCheckpoint, Effect.bind_run, hrun]
  rfl

/-- The weight of a key result is set in both stores. -/
theorem set_weight {row : KeyResultRow} (hin : KeyResult.In ρ db.rows (i, k) (j, row))
    (weight : Weight) :
    Mirror ρ { m with keyResults := Memory.setWeight m.keyResults (i, weight) }
      { db with
        rows := { db.rows with
          keyResults := db.rows.keyResults.insert j { row with weight := weight.value } } } := by
  rw [Memory.setWeight, Table.modify_eq_insert hget]
  have hrow : row = ⟨row.goal, k.title, k.description, k.weight.value, k.measurement.kind.name,
    k.sortOrder⟩ := hin.row
  have hrow' := congrArg (fun row : KeyResultRow => { row with weight := weight.value }) hrow
  exact { h with
    keyResults := by
      refine h.insert_keyResult (.refl ρ) ?_ ?_
      · exact fun _ _ => rfl
      · exact ⟨hij, hin.own, hin.goal, hrow', hin.payload⟩ }

end Present

/-! ### Weights -/

/-- The first key result of a list is one of the goal in both stores, or in none. -/
theorem setWeights_first {i j : GoalId} (hij : ρ.goals.Pairs i j) {id id' : KeyResultId}
    (hsame : ρ.SameKeyResult m db id id') (weight : Weight) :
    ((m.keyResults.get? id).map KeyResult.goal ≠ some i ∧
      Session.setWeight j (id', weight) .standard db = (.error (.keyResultMissing id'), db)) ∨
    ((m.keyResults.get? id).map KeyResult.goal = some i ∧
      ∃ rows, Session.setWeight j (id', weight) .standard db = (.ok (), { db with rows }) ∧
        (∀ id, rows.keyResults.contains id = db.rows.keyResults.contains id) ∧
        Mirror ρ { m with keyResults := Memory.setWeight m.keyResults (id, weight) }
          { db with rows }) := by
  have hrel := h.keyResult_get? hsame
  generalize hget : m.keyResults.get? id = found, hrow : db.rows.keyResults.get? id' = found' at hrel
  cases hrel with
  | none =>
    refine .inl ⟨nofun, Session.setWeight_run_of_ne ?_ weight⟩
    rw [hrow]
    nofun
  | @some k row hin =>
    have hiff : k.goal = i ↔ row.goal = j := ρ.goals.eq_iff hin.goal hij
    by_cases hgoal : k.goal = i
    · refine .inr ⟨congrArg some hgoal, _, Session.setWeight_run hrow (hiff.1 hgoal) weight,
        fun other => ?_, h.set_weight hget hin.key hin weight⟩
      rw [← Table.modify_eq_insert hrow fun row => { row with weight := weight.value }]
      exact Table.contains_modify ..
    · refine .inl ⟨fun hsome => hgoal (Option.some.inj hsome),
        Session.setWeight_run_of_ne ?_ weight⟩
      rw [hrow]
      exact fun hsome => hgoal (hiff.2 (Option.some.inj hsome))

/-- Weights are set one after the other in both stores, or both come to a key result that is none of
the goal. -/
theorem setWeights_cases {i j : GoalId} (hij : ρ.goals.Pairs i j)
    {weights weights' : List (KeyResultId × Weight)}
    (hweights : List.Forall₂ (fun a b => ρ.SameKeyResult m db a.1 b.1 ∧ b.2 = a.2) weights weights') :
    (∃ id id' rows, m.strangerIn i weights = some id ∧
      Session.forEach (Session.setWeight j) weights' .standard db =
        (.error (.keyResultMissing id'), { db with rows })) ∨
    (m.strangerIn i weights = none ∧
      ∃ rows, Session.forEach (Session.setWeight j) weights' .standard db = (.ok (), { db with rows }) ∧
        Mirror ρ { m with keyResults := weights.foldl Memory.setWeight m.keyResults }
          { db with rows }) := by
  induction weights generalizing m db weights' with
  | nil =>
    cases hweights
    exact .inr ⟨rfl, db.rows, rfl, h⟩
  | cons item rest ih =>
    cases hweights with
    | @cons _ item' _ rest' hitem hrest =>
    obtain ⟨id, _⟩ := item
    obtain ⟨id', weight⟩ := item'
    obtain ⟨hsame, rfl⟩ := hitem
    rcases h.setWeights_first hij hsame weight with
      ⟨hgoal, hrun⟩ | ⟨hgoal, rows, hrun, hcontains, hset⟩
    · refine .inl ⟨id, id', db.rows, ?_, ?_⟩
      · exact List.find?_cons_of_pos (by simpa using hgoal)
      · rw [Session.forEach, Effect.bind_run, hrun]
    · -- The rest of the list names the same key results as before.
      have hfirst : m.strangerIn i ((id, weight) :: rest) = m.strangerIn i rest :=
        List.find?_cons_of_neg (by simpa using hgoal)
      have hrest' := hrest.imp fun (a b : KeyResultId × Weight) hab =>
        (⟨hab.1.imp_right fun habsent => ⟨(Table.contains_modify ..).trans habsent.1,
          (hcontains _).trans habsent.2⟩, hab.2⟩ :
          ρ.SameKeyResult { m with keyResults := Memory.setWeight m.keyResults (id, weight) }
            { db with rows } a.1 b.1 ∧ b.2 = a.2)
      rw [hfirst, Session.forEach, Effect.bind_run, hrun]
      have hnext := ih hset hrest'
      rw [Memory.strangerIn_setWeight] at hnext
      exact hnext

theorem setWeights {i j : GoalId} (hij : ρ.goals.Pairs i j)
    {weights weights' : List (KeyResultId × Weight)}
    (hweights : List.Forall₂ (fun a b => ρ.SameKeyResult m db a.1 b.1 ∧ b.2 = a.2) weights weights') :
    ActsAlike ρ m db (fun _ _ _ => True) (Program.ask (.setWeights i weights))
      (Program.ask (.setWeights j weights')) := by
  rcases h.setWeights_cases hij hweights with ⟨id, id', rows, hstranger, hrun⟩ |
    ⟨hstranger, rows, hrun, hmirror⟩
  · -- The database takes back what it has set before.
    have hm : Memory.carry (.setWeights i weights) m = (.error (.keyResultMissing id), m) := by
      simp only [Memory.carry, Memory.setWeights, hstranger]
    have hdb := Session.transaction_run_error hrun
    exact .ask_error h _ _ hm hdb rfl rfl
  · have hm : Memory.carry (.setWeights i weights) m =
        (.ok (), { m with keyResults := weights.foldl Memory.setWeight m.keyResults }) := by
      simp only [Memory.carry, Memory.setWeights, hstranger]
    exact .ask _ _ hm fun _ =>
      ⟨(), _, ρ, Session.transaction_run_ok hrun, .refl ρ, hmirror, trivial⟩

end Mirror

/-! ### The commands -/

/-- A draft that has been accepted is one that both stores take. -/
theorem KeyResultDraft.sound_of_normalized {draft draft' : KeyResultDraft}
    (h : draft.normalized = .ok draft') (hplain : draft.Plain) (hranged : draft.measurement.Ranged) :
    draft'.Plain ∧ (∀ stage ∈ draft'.measurement.stages, 1 ≤ stage.weight.value) ∧
      draft'.measurement.Ranged := by
  obtain ⟨hmeasurement, hvalid, hplain'⟩ := of_normalized h
  rw [hmeasurement]
  refine ⟨hplain' hplain, ?_, hranged⟩
  cases hdraft : draft.measurement with
  | project stages =>
    rw [hdraft, MeasurementDraft.validate] at hvalid
    split at hvalid
    · cases hvalid
    · exact MeasurementDraft.one_le_of_checkStages hvalid
  | _ => exact fun _ hs => absurd hs List.not_mem_nil

/-- The key results after reports of progress differ at most in identifiers. -/
def ProgressRecorded.Like (ρ : Renaming) (r r' : ProgressRecorded) : Prop :=
  r.keyResult.Like ρ r'.keyResult ∧ r' = { r with keyResult := r'.keyResult }

/-- No stage is set where none has the identifier. -/
theorem Measurement.setStage_eq_none {s : StageId} {stages : List Stage}
    (h : ∀ stage ∈ stages, stage.id ≠ s) (done : Bool) : setStage s done stages = none := by
  induction stages with
  | nil => rfl
  | cons stage rest ih =>
    rw [setStage, if_neg (h stage (List.mem_cons_self ..)),
      ih fun a ha => h a (List.mem_cons_of_mem _ ha)]
    rfl

namespace Mirror

variable {ρ : Renaming} {m : Memory} {db : Contents} (h : Mirror ρ m db)

include h

theorem requireOwnerOpen {g g' : Goal} (hg : g.Like ρ g') (action : Action) :
    ReadsAlike m db (fun s s' => s' = s) (requireOwnerOpen g action) (requireOwnerOpen g' action) := by
  unfold Objectives.requireOwnerOpen
  rw [hg.team, hg.period]
  exact h.requireOpen g.team g.period action

/-- **A key result is created alike.** -/
theorem keyResults_create {i j : GoalId} (hij : ρ.SameGoal m db i j) {draft : KeyResultDraft}
    (hplain : draft.Plain) (hranged : draft.measurement.Ranged) :
    ActsAlike ρ m db (fun ρ' k k' => k.Like ρ' k') (KeyResults.create i draft)
      (KeyResults.create j draft) := by
  unfold KeyResults.create
  refine (ReadsAlike.check draft.normalized).bind_acts h fun d d' hd _ => ?_
  obtain ⟨rfl, hnormal⟩ := hd
  obtain ⟨hplain, hstages, hranged⟩ := KeyResultDraft.sound_of_normalized hnormal hplain hranged
  refine (h.requireGoal hij).bind_acts h fun g g' hg _ => ?_
  obtain ⟨hg, hget⟩ := hg
  refine (h.requireOwnerOpen hg .createKeyResult).bind_acts h fun _ _ _ _ => ?_
  exact h.createKeyResult hg.1 (Table.contains_of_get? hget) hplain hstages hranged

section Present

variable {i j : KeyResultId} (hij : ρ.SameKeyResult m db i j)

include hij

/-- **A key result is changed alike.** -/
theorem keyResults_update {draft : KeyResultDraft} (hplain : draft.Plain)
    (hranged : draft.measurement.Ranged) :
    ActsAlike ρ m db (fun ρ' k k' => k.Like ρ' k') (KeyResults.update i draft)
      (KeyResults.update j draft) := by
  unfold KeyResults.update
  refine (ReadsAlike.check draft.normalized).bind_acts h fun d d' hd _ => ?_
  obtain ⟨rfl, hnormal⟩ := hd
  obtain ⟨hplain, hstages, hranged⟩ := KeyResultDraft.sound_of_normalized hnormal hplain hranged
  refine (h.requireKeyResult hij).bind_acts h fun found found' hfound _ => ?_
  obtain ⟨hk, hg, hget⟩ := hfound
  refine (h.requireOwnerOpen hg .updateKeyResult).bind_acts h fun _ _ _ _ => ?_
  exact h.updateKeyResult hget hk.id hplain hstages hranged

/-- **A key result is deleted alike.** -/
theorem keyResults_delete :
    ActsAlike ρ m db (fun _ _ _ => True) (KeyResults.delete i) (KeyResults.delete j) := by
  unfold KeyResults.delete
  refine (h.requireKeyResult hij).bind_acts h fun found found' hfound _ => ?_
  obtain ⟨hk, hg, hget⟩ := hfound
  refine (h.requireOwnerOpen hg .deleteKeyResult).bind_acts h fun _ _ _ _ => ?_
  exact h.deleteKeyResult hget hk.id

/-- **A checkpoint is added alike**, or refused because of the kind of the key result. -/
theorem keyResults_addCheckpoint {draft : CheckpointDraft} (hdraft : draft.value.Sortable) :
    ActsAlike ρ m db (fun ρ' c c' => c.Like ρ' c') (KeyResults.addCheckpoint i draft)
      (KeyResults.addCheckpoint j draft) := by
  unfold KeyResults.addCheckpoint
  refine (h.requireKeyResult hij).bind_acts h fun found found' hfound _ => ?_
  obtain ⟨k, g⟩ := found
  obtain ⟨k', g'⟩ := found'
  obtain ⟨hk, hg, hget⟩ := hfound
  dsimp only
  rw [hk.measurement.kind]
  split
  · exact ReadsAlike.acts (.fail rfl rfl) h
  · rename_i hkind
    refine (h.requireOwnerOpen hg .addCheckpoint).bind_acts h fun _ _ _ _ => ?_
    cases hmeasurement : k.measurement with
    | percent range checkpoints => exact h.addCheckpoint hget hk.id hmeasurement hdraft
    | _ => simp [hmeasurement, Measurement.kind] at hkind

end Present

/-- **Weights are set alike**, all or none. -/
theorem keyResults_setWeights {i j : GoalId} (hij : ρ.SameGoal m db i j)
    {weights weights' : List (KeyResultId × Weight)}
    (hweights : List.Forall₂ (fun a b => ρ.SameKeyResult m db a.1 b.1 ∧ b.2 = a.2) weights weights') :
    ActsAlike ρ m db (fun _ _ _ => True) (KeyResults.setWeights i weights)
      (KeyResults.setWeights j weights') := by
  unfold KeyResults.setWeights
  refine (h.requireGoal hij).bind_acts h fun g g' hg _ => ?_
  obtain ⟨hg, -⟩ := hg
  refine (h.requireOwnerOpen hg .updateKeyResultWeights).bind_acts h fun _ _ _ _ => ?_
  exact h.setWeights hg.1 hweights

section Reports

variable {k k' : KeyResult} (hk : k.Like ρ k') (hget : m.keyResults.get? k.id = some k)

include hk hget

/-- Identifiers that stand for the same stage do so in a key result that is there. -/
theorem sameStage {s s' : StageId} (hs : ρ.SameStage m db s s') :
    Measurement.SameStage ρ k.measurement k'.measurement s s' := by
  intro stages stages' hstages _ a ha b _ hab
  rcases hs with hs | ⟨hnone, hnone'⟩
  · exact ρ.stages.eq_iff hab hs
  · refine iff_of_false (hnone k.id k stages hget hstages a ha) fun hb => ?_
    -- The stage in the database has a row.
    obtain ⟨_, -, hin⟩ := h.row_of_keyResult hget hk.id
    have hholds : (db.rows.payload k'.id).Holds ρ (.project stages) := hstages ▸ hin.payload
    obtain ⟨e, he, hae⟩ := exists_right_of_alike hholds.1 ha
    have hkey : b.id = e.1 := (ρ.stages.eq_iff hab hae.1).1 rfl
    have hrow := Table.get?_eq_some_iff.2 (List.mem_filter.1 he).1
    rw [← hkey, hb] at hrow
    rw [Table.contains_of_get? hrow] at hnone'
    cases hnone'

omit h hk in
/-- A report that has been taken is one on a stage that is there in both stores. -/
theorem update_pairs {u u' : ProgressUpdate} (hu : u.Like (ρ.SameStage m db) u') {μ : Measurement}
    (hrecord : k.measurement.record u = .ok μ) : u.Like ρ.stages.Pairs u' := by
  generalize hk : k.measurement = μ₀ at hrecord
  cases Measurement.takes_of_record hrecord with
  | @stage stages set s done hset =>
    cases u' with
    | stage s' done' =>
      obtain ⟨hs | ⟨hnone, -⟩, hdone⟩ := hu
      · exact ⟨hs, hdone⟩
      · rw [Measurement.setStage_eq_none (hnone k.id k stages hget hk) done] at hset
        cases hset
    | _ => cases hu
  | _ => cases u' <;> exact hu

end Reports

/-- **A report of progress is taken alike**, or refused in the same way. -/
theorem keyResults_recordProgress {i j : KeyResultId} (hij : ρ.SameKeyResult m db i j)
    {u u' : ProgressUpdate} (hu : u.Like (ρ.SameStage m db) u') :
    ActsAlike ρ m db ProgressRecorded.Like (KeyResults.recordProgress i u)
      (KeyResults.recordProgress j u') := by
  unfold KeyResults.recordProgress
  refine (h.requireKeyResult hij).bind_acts h fun found found' hfound _ => ?_
  obtain ⟨k, g⟩ := found
  obtain ⟨k', g'⟩ := found'
  obtain ⟨hk, hg, hget⟩ := hfound
  refine (h.requireOwnerOpen hg .recordProgress).bind_acts h fun _ _ _ _ => ?_
  have hrecord := hk.measurement.record (hu.mono fun s s' hs => h.sameStage hk hget hs)
  -- What is written is what has been worked out before.
  have hrecord : SameOutcome (fun μ μ' => μ.Like ρ μ' ∧ k.measurement.record u = .ok μ)
      (k.measurement.record u) (k'.measurement.record u') := by
    generalize k.measurement.record u = x, k'.measurement.record u' = y at hrecord
    cases hrecord with
    | ok hμ => exact .ok ⟨hμ, rfl⟩
    | error code details => exact .error code details
  refine (ReadsAlike.lift hrecord).bind_acts h fun μ μ' hμ _ => ?_
  obtain ⟨hμ, htaken⟩ := hμ
  refine (h.recordProgress hget hk.id (update_pairs hget hu htaken) htaken).map
    fun ρ' _ _ hle _ => ?_
  have hlike : KeyResult.Like ρ' { k with measurement := μ } { k' with measurement := μ' } :=
    ⟨hle.keyResults _ _ hk.id, hle.goals _ _ hk.goal, hμ.mono hle,
      congrArg (fun k => { k with measurement := μ' }) hk.rest⟩
  refine ⟨hlike, ?_⟩
  rw [hlike.progress]

end Mirror

end Objectives
