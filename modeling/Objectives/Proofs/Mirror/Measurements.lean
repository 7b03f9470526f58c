/- # Measurements of mirrors

How the rows of one measurement are written, cleared and changed, and that the rows of all others stay
as they are.  What the rows hold afterwards is what the store in memory holds.

Main definitions:

* `ProgressUpdate.Like` — reports of progress that differ at most in the stage they name;
* `Measurement.SameStage` — stages of one place in a measurement and its mirror, or of none in either.

Main results:

* `Rows.payload_withMeasurement_of_ne`, `Rows.payload_clearPayload_of_ne`, … — other measurements stay;
* `Payload.holds_measure` — a submitted measurement is held by the rows written for it;
* `Measurement.Like.record` — measurements alike are reported on alike;
* `Payload.Holds.setStage`, `Payload.Holds.addCheckpoint` — a stage that is set, or a checkpoint that is
  added, is held by the rows afterwards.
-/

import Objectives.Proofs.Mirror.Acting

set_option relaxedAutoImplicit false
set_option autoImplicit false

namespace Objectives

/-! ### Rows of stages -/

section StageRows

variable {id : KeyResultId} {lastId place : Int} {drafts : List StageDraft}

theorem of_mem_stageRows {e : Int × StageRow} (he : e ∈ stageRows id lastId place drafts) :
    e.2.keyResult = id ∧ lastId < e.1 ∧ e.1 ≤ lastId + drafts.length := by
  induction drafts generalizing lastId place with
  | nil => cases he
  | cons draft rest ih =>
    rw [List.length_cons]
    rcases List.mem_cons.1 he with rfl | he
    · refine ⟨rfl, ?_, ?_⟩ <;> dsimp only <;> omega
    · obtain ⟨hid, hlow, hhigh⟩ := ih he
      refine ⟨hid, ?_, ?_⟩ <;> omega

theorem stageRows_sorted :
    (stageRows id lastId place drafts).Pairwise fun a b => Key.before a.1 b.1 = true := by
  induction drafts generalizing lastId place with
  | nil => exact .nil
  | cons draft rest ih =>
    refine List.pairwise_cons.2 ⟨fun e he => decide_eq_true ?_, ih⟩
    exact (of_mem_stageRows he).2.1

/-- The rows of stages numbered on both sides stand for each other. -/
theorem numberStages_in {ρ : Renaming} {lastId' : Int}
    (hpairs : ∀ i : Nat, i < drafts.length → ρ.stages.Pairs (lastId + 1 + i) (lastId' + 1 + i)) :
    List.Forall₂ (Stage.In ρ) (Memory.numberStages lastId place drafts)
      (stageRows id lastId' place drafts) := by
  induction drafts generalizing lastId lastId' place with
  | nil => exact .nil
  | cons draft rest ih =>
    have hfirst := hpairs 0 (Nat.zero_lt_succ _)
    refine .cons ⟨by simpa using hfirst, rfl⟩ (ih fun i hi => ?_)
    have hnext := hpairs (i + 1) (Nat.succ_lt_succ hi)
    rwa [show lastId + 1 + ((i + 1 : Nat) : Int) = lastId + 1 + 1 + i by omega,
      show lastId' + 1 + ((i + 1 : Nat) : Int) = lastId' + 1 + 1 + i by omega] at hnext

theorem numberStages_ordered :
    (Memory.numberStages lastId place drafts).Pairwise fun a b => a.sortOrder < b.sortOrder := by
  have hplaces {lastId place : Int} {drafts : List StageDraft} {s : Stage}
      (hs : s ∈ Memory.numberStages lastId place drafts) : place ≤ s.sortOrder := by
    induction drafts generalizing lastId place with
    | nil => cases hs
    | cons draft rest ih =>
      rcases List.mem_cons.1 hs with rfl | hs
      · exact Int.le_refl _
      · have := ih hs
        omega
  induction drafts generalizing lastId place with
  | nil => exact .nil
  | cons draft rest ih =>
    refine List.pairwise_cons.2 ⟨fun s hs => ?_, ih⟩
    have hplace := hplaces hs
    show place < s.sortOrder
    omega

end StageRows

/-! ### Payloads -/

namespace Rows

variable (rows : Rows) {id other : KeyResultId}

/-- New stages come after all others. -/
theorem stages_withMeasurement {lastId : Int} (hstages : ∀ e ∈ rows.stages.entries, e.1 ≤ lastId)
    (draft : MeasurementDraft) :
    (rows.withMeasurement id lastId draft).stages.entries =
      rows.stages.entries ++ stageRows id lastId 1 draft.stages := by
  refine Table.entries_insertAll stageRows_sorted fun e he e' he' => decide_eq_true ?_
  have hold : (e.1 : Int) ≤ lastId := hstages e he
  have hnew : lastId < (e'.1 : Int) := (of_mem_stageRows he').2.1
  exact Int.lt_of_le_of_lt hold hnew

/-- What is written for a measurement leaves the rows of all others. -/
theorem payload_withMeasurement_of_ne (hne : other ≠ id) {lastId : Int}
    (hstages : ∀ e ∈ rows.stages.entries, e.1 ≤ lastId) (draft : MeasurementDraft) :
    (rows.withMeasurement id lastId draft).payload other = rows.payload other := by
  have hnone : (stageRows id lastId 1 draft.stages).filter (fun e => e.2.keyResult == other) = [] := by
    refine List.filter_eq_nil_iff.2 fun e he => ?_
    rw [(of_mem_stageRows he).1, beq_iff_eq]
    exact hne.symm
  unfold payload
  rw [rows.stages_withMeasurement hstages, List.filter_append, hnone, List.append_nil]
  cases draft <;> simp only [withMeasurement, Table.get?_insert_of_ne _ _ hne.symm]

/-- The new stages are the next of the relation, and belong to the key result. -/
theorem stages_withMeasurement_bounds {lastId top : Int}
    (hstages : ∀ e ∈ rows.stages.entries, e.1 ≤ lastId ∧ e.2.keyResult ≤ top) (hid : id ≤ top)
    (draft : MeasurementDraft) :
    ∀ e ∈ (rows.withMeasurement id lastId draft).stages.entries,
      e.1 ≤ lastId + draft.stages.length ∧ e.2.keyResult ≤ top := by
  intro e he
  rw [rows.stages_withMeasurement fun e he => (hstages e he).1] at he
  rcases List.mem_append.1 he with he | he
  · obtain ⟨hkey, howner⟩ := hstages e he
    exact ⟨Int.le_trans hkey (Int.le_add_of_nonneg_right (Int.natCast_nonneg _)), howner⟩
  · obtain ⟨howner, -, hkey⟩ := of_mem_stageRows he
    exact ⟨hkey, howner ▸ hid⟩

/-- What is cleared for a key result leaves the rows of all others. -/
theorem payload_clearPayload_of_ne (hne : other ≠ id) (keep : Bool) :
    (rows.clearPayload id keep).payload other = rows.payload other := by
  have hkept : (other != id) = true := bne_iff_ne.2 hne
  unfold payload clearPayload
  cases keep <;> simp only [Table.filter, filter_owner_of_kept (p := (· != id)) hkept,
    Table.get?_erase_of_ne _ hne, if_true, Bool.false_eq_true, if_false]

/-- Nothing is left of the rows that are cleared, but checkpoints that are kept. -/
theorem payload_clearPayload (keep : Bool) :
    (rows.clearPayload id keep).payload id =
      ⟨[], none, if keep then (rows.payload id).checkpoints else [], none, none⟩ := by
  have hgone : (id != id) = false := bne_self_eq_false id
  unfold payload clearPayload
  cases keep <;> simp only [Table.filter, filter_owner_of_gone (p := (· != id)) hgone,
    Table.get?_erase_self, if_true, Bool.false_eq_true, if_false]

/-- Checkpoints are not changed by clearing, at most they go. -/
theorem mem_checkpoints_of_clearPayload {keep : Bool} {e : CheckpointId × CheckpointRow}
    (he : e ∈ (rows.clearPayload id keep).checkpoints.entries) : e ∈ rows.checkpoints.entries := by
  unfold clearPayload at he
  cases keep with
  | true => exact he
  | false => exact (List.mem_filter.1 he).1

end Rows

/-! ### Submitted measurements -/

namespace Renaming

variable {ρ : Renaming} {m : Memory} {db : Contents}

/-- The renaming that knows the next stages as well. -/
def withStages (ρ : Renaming) {bound bound' : Int} (h : ρ.stages.Below bound bound') (n : Nat) :
    Renaming :=
  { ρ with stages := Pairing.extend h n }

theorem le_withStages {bound bound' : Int} (h : ρ.stages.Below bound bound') (n : Nat) :
    ρ.Le (ρ.withStages h n) :=
  ⟨.refl, .refl, Pairing.le_extend h n, .refl⟩

theorem withStages_below {bound : Int} (h : ρ.Below bound db.lastId) (n : Nat) :
    (ρ.withStages h.stages n).Below (bound + n) (db.withIds .projectStages n).lastId :=
  { h.mono (by omega) (db.lastId_le_withIds .projectStages n) with
    stages := Pairing.extend_below h.stages n }

end Renaming

/-- The ranges of the measurement can be read back. -/
def MeasurementDraft.Ranged : MeasurementDraft → Prop
  | .percent range => range.Valid
  | .linear range => range.Valid
  | _ => True

/-- The store in memory gives as many identifiers as the relation of stages. -/
theorem Memory.lastId_measure (m : Memory) (draft : MeasurementDraft) (kept : List Checkpoint) :
    (m.measure draft kept).2 = { m with lastId := m.lastId + draft.stages.length } := by
  cases draft <;> simp [measure, MeasurementDraft.stages]

namespace Payload

variable {ρ : Renaming}

/-- A submitted measurement is held by the rows that are written for it, where no stages have been and
the checkpoints are those that are kept. -/
theorem holds_measure (m : Memory) {lastId : Int} (hbelow : ρ.stages.Below m.lastId lastId)
    (rows : Rows) {id : KeyResultId} (hstages : ∀ e ∈ rows.stages.entries, e.1 ≤ lastId)
    {draft : MeasurementDraft} (hranged : draft.Ranged) (hnone : (rows.payload id).stages = [])
    (added : List Checkpoint)
    (hadded : List.Forall₂ (Checkpoint.In ρ) added (rows.payload id).checkpoints) :
    ((rows.withMeasurement id lastId draft).payload id).Holds
      (ρ.withStages hbelow draft.stages.length)
      (m.measure draft (sortBy Checkpoint.le added)).1 := by
  cases draft with
  | project stages =>
    refine ⟨?_, numberStages_ordered⟩
    -- All stages of the key result are new.
    have hown : ((rows.withMeasurement id lastId (.project stages)).payload id).stages =
        stageRows id lastId 1 stages := by
      show (Rows.withMeasurement ..).stages.entries.filter _ = _
      rw [rows.stages_withMeasurement hstages, List.filter_append]
      have hold : rows.stages.entries.filter (fun e => e.2.keyResult == id) = [] := hnone
      rw [hold, List.nil_append]
      exact List.filter_eq_self.2 fun e he => beq_iff_eq.2 (of_mem_stageRows he).1
    rw [hown]
    exact numberStages_in fun i hi => Pairing.extend_pairs hbelow _ hi
  | percent range =>
    refine ⟨?_, hranged, added, rfl, hadded⟩
    exact Table.get?_insert_self ..
  | linear range => exact ⟨Table.get?_insert_self .., hranged⟩
  | boolean done => exact Table.get?_insert_self rows.flags id done

/-- The checkpoints that are kept in memory are those whose rows are kept. -/
theorem kept_checkpoints {rows : Rows} {id : KeyResultId} {μ : Measurement}
    (h : (rows.payload id).Holds ρ μ) (draft : MeasurementDraft) :
    ∃ added, Memory.keptCheckpoints μ draft = sortBy Checkpoint.le added ∧
      List.Forall₂ (Checkpoint.In ρ) added ((rows.clearPayload id
        (μ.kind == .percent && draft.kind == .percent)).payload id).checkpoints := by
  rw [Rows.payload_clearPayload]
  cases μ with
  | percent range checkpoints =>
    obtain ⟨-, -, added, hadded, hrows⟩ := h
    cases draft with
    | percent range' => exact ⟨added, hadded, hrows⟩
    | project stages => exact ⟨[], rfl, .nil⟩
    | linear range' => exact ⟨[], rfl, .nil⟩
    | boolean done => exact ⟨[], rfl, .nil⟩
  | project stages => exact ⟨[], rfl, .nil⟩
  | linear range => exact ⟨[], rfl, .nil⟩
  | boolean done => exact ⟨[], rfl, .nil⟩

end Payload

/-! ### Reports of progress -/

section Reports

variable {ρ : Renaming}

/-- The reports differ at most in the identifiers of stages, and these are related. -/
def ProgressUpdate.Like (S : StageId → StageId → Prop) : ProgressUpdate → ProgressUpdate → Prop
  | .stage s done, .stage s' done' => S s s' ∧ done' = done
  | .percentCurrent value, .percentCurrent value' => value' = value
  | .linearCurrent value, .linearCurrent value' => value' = value
  | .boolean done, .boolean done' => done' = done
  | _, _ => False

theorem ProgressUpdate.Like.mono {S T : StageId → StageId → Prop} {u u' : ProgressUpdate}
    (h : u.Like S u') (hST : ∀ s s', S s s' → T s s') : u.Like T u' := by
  cases u <;> cases u' <;> simp only [ProgressUpdate.Like] at h ⊢
  · exact ⟨hST _ _ h.1, h.2⟩
  · exact h
  · exact h
  · exact h

/-- The identifiers stand for the same stage of the two measurements, or for none. -/
def Measurement.SameStage (ρ : Renaming) (μ μ' : Measurement) (s s' : StageId) : Prop :=
  ∀ stages stages', μ = .project stages → μ' = .project stages' → ∀ a ∈ stages, ∀ b ∈ stages',
    ρ.stages.Pairs a.id b.id → (a.id = s ↔ b.id = s')

/-- Stages alike are reported on alike. -/
theorem setStage_like {s s' : StageId} (done : Bool) {stages stages' : List Stage}
    (h : List.Forall₂ (Stage.Like ρ) stages stages')
    (hs : ∀ a ∈ stages, ∀ b ∈ stages', ρ.stages.Pairs a.id b.id → (a.id = s ↔ b.id = s')) :
    Option.Rel (List.Forall₂ (Stage.Like ρ)) (Measurement.setStage s done stages)
      (Measurement.setStage s' done stages') := by
  induction h with
  | nil => exact .none
  | @cons a b rest rest' hab hrest ih =>
    obtain ⟨hpair, hb⟩ := hab
    have hiff := hs a (List.mem_cons_self ..) b (List.mem_cons_self ..) hpair
    have ih := ih fun c hc d hd => hs c (List.mem_cons_of_mem _ hc) d (List.mem_cons_of_mem _ hd)
    unfold Measurement.setStage
    by_cases ha : a.id = s
    · rw [if_pos ha, if_pos (hiff.1 ha)]
      exact .some (.cons ⟨hpair, by rw [hb]⟩ hrest)
    · rw [if_neg ha, if_neg (mt hiff.2 ha)]
      generalize Measurement.setStage s done rest = found, Measurement.setStage s' done rest' = found'
        at ih
      cases ih with
      | none => exact .none
      | some hl => exact .some (.cons ⟨hpair, hb⟩ hl)

/-- Measurements alike are reported on alike. -/
theorem Measurement.Like.record {μ μ' : Measurement} (h : μ.Like ρ μ') {u u' : ProgressUpdate}
    (hu : u.Like (Measurement.SameStage ρ μ μ') u') :
    SameOutcome (Measurement.Like ρ) (μ.record u) (μ'.record u') := by
  -- A report for another kind is refused on both sides.
  cases μ <;> cases μ' <;> simp only [Measurement.Like] at h <;>
    cases u <;> cases u' <;> simp only [ProgressUpdate.Like] at hu <;>
    try exact .error rfl rfl
  case project.project.stage.stage stages stages' s done s' done' =>
    obtain ⟨hs, rfl⟩ := hu
    have hset := setStage_like done' h (hs _ _ rfl rfl)
    simp only [Measurement.record, Measurement.report]
    generalize setStage s done' stages = found, setStage s' done' stages' = found' at hset
    cases hset with
    | none => exact .error rfl rfl
    | some hl => exact .ok hl
  case percent.percent.percentCurrent.percentCurrent range checkpoints range' checkpoints' v v' =>
    obtain ⟨rfl, hcheckpoints⟩ := h
    subst hu
    simp only [Measurement.record, Measurement.report]
    cases range'.withCurrent v' with
    | ok range => exact .ok ⟨rfl, hcheckpoints⟩
    | error v => exact .error rfl rfl
  case linear.linear.linearCurrent.linearCurrent range range' v v' =>
    subst h hu
    simp only [Measurement.record, Measurement.report]
    cases range'.withCurrent v' with
    | ok range => exact .ok rfl
    | error v => exact .error rfl rfl
  case boolean.boolean.boolean.boolean done done' flag flag' => exact .ok hu

/-! ### Reports in rows -/

/-- A range with a new present value is a range again. -/
theorem MetricRange.of_withCurrent {range range' : MetricRange Double} {value : Double}
    (h : range.withCurrent value = .ok range') :
    range' = { range with current := value } ∧ range'.Valid := by
  obtain rfl := eq_of_withCurrent h
  exact ⟨rfl, h⟩

/-- A stage in a list of rows is set by a change of its row. -/
theorem setStage_in {s s' : StageId} (hs : ρ.stages.Pairs s s') (done : Bool) {stages set : List Stage}
    {rows : List (Int × StageRow)} (h : List.Forall₂ (Stage.In ρ) stages rows)
    (hrows : rows.Pairwise fun a b => Key.before a.1 b.1 = true)
    (hset : Measurement.setStage s done stages = some set) :
    (∃ row, (s', row) ∈ rows) ∧ List.Forall₂ (Stage.In ρ) set
      (rows.map fun e => (e.1, if e.1 = s' then { e.2 with done } else e.2)) := by
  induction h generalizing set with
  | nil => cases hset
  | @cons a b rest rest' hab hrest ih =>
    obtain ⟨hpair, hb⟩ := hab
    obtain ⟨hfirst, hrows⟩ := List.pairwise_cons.1 hrows
    have hiff := ρ.stages.eq_iff hpair hs
    unfold Measurement.setStage at hset
    by_cases ha : a.id = s
    · rw [if_pos ha] at hset
      cases hset
      have hb' : b.1 = s' := hiff.1 ha
      refine ⟨⟨b.2, by rw [← hb']; exact List.mem_cons_self ..⟩, ?_⟩
      -- The rows after it are of other stages.
      have hsame : rest'.map (fun e => (e.1, if e.1 = s' then { e.2 with done } else e.2)) = rest' := by
        refine (List.map_congr_left fun e he => ?_).trans (List.map_id rest')
        have hne : e.1 ≠ s' := by
          rw [← hb']
          exact (Table.ne_of_before (hfirst e he)).symm
        rw [if_neg hne]
        rfl
      rw [List.map_cons, hsame]
      refine .cons ⟨hpair, ?_⟩ hrest
      dsimp only
      rw [if_pos hb', hb]
    · rw [if_neg ha] at hset
      cases hrest' : Measurement.setStage s done rest with
      | none =>
        rw [hrest'] at hset
        cases hset
      | some set' =>
        rw [hrest'] at hset
        cases hset
        obtain ⟨⟨row, hrow⟩, hlike⟩ := ih hrows hrest'
        refine ⟨⟨row, List.mem_cons_of_mem _ hrow⟩, .cons ⟨hpair, ?_⟩ hlike⟩
        dsimp only
        rw [if_neg (mt hiff.2 ha)]
        exact hb

/-- A report leaves the order of the stages. -/
theorem map_sortOrder_setStage {s : StageId} {done : Bool} {stages set : List Stage}
    (h : Measurement.setStage s done stages = some set) :
    set.map Stage.sortOrder = stages.map Stage.sortOrder := by
  induction stages generalizing set with
  | nil => cases h
  | cons stage rest ih =>
    unfold Measurement.setStage at h
    by_cases hs : stage.id = s
    · rw [if_pos hs] at h
      cases h
      rfl
    · rw [if_neg hs] at h
      cases hrest : Measurement.setStage s done rest with
      | none =>
        rw [hrest] at h
        cases h
      | some set' =>
        rw [hrest] at h
        cases h
        rw [List.map_cons, List.map_cons, ih hrest]

/-- The rows of stages when one of them is set. -/
theorem Rows.stages_payload_modify (rows : Rows) (s : StageId) (done : Bool) (id : KeyResultId) :
    (Rows.payload { rows with
      stages := rows.stages.modify s fun row => { row with done } } id).stages =
      (rows.payload id).stages.map fun e => (e.1, if e.1 = s then { e.2 with done } else e.2) := by
  simp only [payload, Table.modify, Table.mapValues, List.filter_map]
  congr 1
  refine List.filter_congr fun e _ => ?_
  dsimp only [Function.comp]
  split <;> rfl

namespace Payload.Holds

variable {rows : Rows} {id : KeyResultId}

/-- The stage that is set has a row, and the rows hold the stages after that. -/
theorem setStage {s s' : StageId} (hs : ρ.stages.Pairs s s') {done : Bool} {stages set : List Stage}
    (h : (rows.payload id).Holds ρ (.project stages))
    (hset : Measurement.setStage s done stages = some set) :
    ∃ row, rows.stages.get? s' = some row ∧ row.keyResult = id ∧
      (Rows.payload { rows with
        stages := rows.stages.insert s' { row with done } } id).Holds ρ (.project set) ∧
      ∀ other, other ≠ id → Rows.payload { rows with
        stages := rows.stages.insert s' { row with done } } other = rows.payload other := by
  obtain ⟨hrows, horder⟩ := h
  have hsorted := rows.stages.sorted.filter fun e => e.2.keyResult == id
  obtain ⟨⟨row, hrow⟩, hin⟩ := setStage_in hs done hrows hsorted hset
  obtain ⟨hmem, hown⟩ := List.mem_filter.1 hrow
  have hget := Table.get?_eq_some_iff.2 hmem
  have hown : row.keyResult = id := by simpa using hown
  refine ⟨row, hget, hown, ?_⟩
  rw [← Table.modify_eq_insert hget fun row => { row with done }]
  refine ⟨⟨?_, ?_⟩, fun other hother => ?_⟩
  · rw [Rows.stages_payload_modify]
    exact hin
  · have hkeys : (set.map Stage.sortOrder).Pairwise (· < ·) := by
      rw [map_sortOrder_setStage hset]
      exact List.pairwise_map.2 horder
    exact List.pairwise_map.1 hkeys
  · -- The stage is of this key result, so that it is none of another.
    have hstages := rows.stages_payload_modify s' done other
    have hsame : (rows.payload other).stages.map
        (fun e => (e.1, if e.1 = s' then { e.2 with done } else e.2)) = (rows.payload other).stages := by
      refine (List.map_congr_left fun e he => ?_).trans (List.map_id _)
      obtain ⟨hmem', hown'⟩ := List.mem_filter.1 he
      by_cases hkey : e.1 = s'
      · have hget' := Table.get?_eq_some_iff.2 hmem'
        rw [hkey, hget, Option.some_inj] at hget'
        rw [← hget', hown, beq_iff_eq] at hown'
        exact absurd hown'.symm hother
      · rw [if_neg hkey]
        rfl
    exact congrArg (fun list => { rows.payload other with stages := list }) (hstages.trans hsame)

end Payload.Holds

end Reports

/-! ### Checkpoints -/

namespace Checkpoint

/-- Checkpoints in rows are told apart by their identifiers. -/
theorem eq_of_id_eq {ρ : Renaming} {added : List Checkpoint} {t : Table CheckpointId CheckpointRow}
    {p : CheckpointId × CheckpointRow → Bool}
    (h : List.Forall₂ (Checkpoint.In ρ) added (t.entries.filter p)) {a b : Checkpoint}
    (ha : a ∈ added) (hb : b ∈ added) (hid : a.id = b.id) : a = b := by
  obtain ⟨e, he, hae⟩ := exists_right_of_alike h ha
  obtain ⟨f, hf, hbf⟩ := exists_right_of_alike h hb
  have hkey : e.1 = f.1 := (ρ.checkpoints.eq_iff hae.1 hbf.1).1 hid
  -- One key has one row.
  have hrow : e.2 = f.2 := by
    have hget := Table.get?_eq_some_iff.2 (List.mem_filter.1 he).1
    have hget' := Table.get?_eq_some_iff.2 (List.mem_filter.1 hf).1
    rw [hkey, hget', Option.some_inj] at hget
    exact hget.symm
  have hvalue : a.value = b.value := by
    have := congrArg CheckpointRow.value (hae.2.1.symm.trans (hrow.trans hbf.2.1))
    exact this
  have hpercent : (a.percent.value : Int) = b.percent.value := by
    have := congrArg CheckpointRow.percent (hae.2.1.symm.trans (hrow.trans hbf.2.1))
    exact this
  obtain ⟨id, value, percent⟩ := a
  obtain ⟨id', value', percent'⟩ := b
  cases hid
  cases hvalue
  have hsame : percent = percent' := Percentage.ext (by exact_mod_cast hpercent)
  rw [hsame]

/-- No two checkpoints in rows have the same place. -/
theorem eq_of_le {ρ : Renaming} {added : List Checkpoint} {t : Table CheckpointId CheckpointRow}
    {p : CheckpointId × CheckpointRow → Bool}
    (h : List.Forall₂ (Checkpoint.In ρ) added (t.entries.filter p)) {a b : Checkpoint}
    (ha : a ∈ added) (hb : b ∈ added) (hab : a.le b = true) (hba : b.le a = true) : a = b := by
  refine eq_of_id_eq h ha hb ?_
  rw [le_iff] at hab hba
  rcases hab with hlt | ⟨hsame, hle⟩ <;> rcases hba with hlt' | ⟨hsame', hle'⟩
  · exact absurd hlt hlt'.asymm
  · exact absurd hsame' hlt.ne'
  · exact absurd hsame hlt'.ne'
  · exact Int.le_antisymm hle hle'

end Checkpoint

/-- A checkpoint that is added has a row, and the rows hold the checkpoints after that. -/
theorem Payload.Holds.addCheckpoint {ρ : Renaming} {rows : Rows} {id : KeyResultId}
    {range : MetricRange Double} {checkpoints : List Checkpoint}
    (h : (rows.payload id).Holds ρ (.percent range checkpoints)) {bound bound' : Int}
    (hbelow : ρ.checkpoints.Below bound bound')
    (hrows : ∀ e ∈ rows.checkpoints.entries, e.1 ≤ bound') {draft : CheckpointDraft}
    (hdraft : draft.value.Sortable) :
    (Rows.payload { rows with
      checkpoints := rows.checkpoints.insert (bound' + 1) ⟨id, draft.value, draft.percent.value⟩ }
        id).Holds { ρ with checkpoints := Pairing.extend hbelow 1 }
      (.percent range (sortBy Checkpoint.le (checkpoints ++ [draft.store (bound + 1)]))) ∧
    ∀ other, other ≠ id → Rows.payload { rows with
      checkpoints := rows.checkpoints.insert (bound' + 1) ⟨id, draft.value, draft.percent.value⟩ }
        other = rows.payload other := by
  -- The new row stands after all others.
  have hentries := Table.entries_insert_last (t := rows.checkpoints) (k := bound' + 1)
    (fun e he => decide_eq_true (Int.lt_add_one_iff.2 (hrows e he)))
    ⟨id, draft.value, draft.percent.value⟩
  obtain ⟨hrange, hvalid, added, rfl, hadded⟩ := h
  have hlist : List.Forall₂ (Checkpoint.In { ρ with checkpoints := Pairing.extend hbelow 1 })
      (added ++ [draft.store (bound + 1)])
      ((rows.checkpoints.insert (bound' + 1) ⟨id, draft.value, draft.percent.value⟩).entries.filter
        fun e => e.2.keyResult == id) := by
    rw [hentries, List.filter_append]
    refine List.rel_append (hadded.imp fun c e hc => ⟨.inl hc.1, hc.2⟩) ?_
    rw [List.filter_cons_of_pos (by simp)]
    exact .cons ⟨Pairing.extend_next hbelow, rfl, hdraft⟩ .nil
  refine ⟨⟨hrange, hvalid, added ++ [draft.store (bound + 1)], ?_, hlist⟩, fun other hother => ?_⟩
  · -- The checkpoints that were there have been sorted before.
    have hperm := (sortBy_perm Checkpoint.le added).append_right [draft.store (bound + 1)]
    refine sortBy_eq_of_perm Checkpoint.le_trans Checkpoint.le_total (fun a ha b hb => ?_) hperm
    exact Checkpoint.eq_of_le hlist (hperm.mem_iff.1 ha) (hperm.mem_iff.1 hb)
  · have hsame : ((rows.checkpoints.insert (bound' + 1)
        ⟨id, draft.value, draft.percent.value⟩).entries.filter fun e => e.2.keyResult == other) =
        (rows.payload other).checkpoints := by
      rw [hentries, List.filter_append, List.filter_cons_of_neg (by simpa using hother.symm),
        List.filter_nil, List.append_nil]
      rfl
    exact congrArg (fun list => { rows.payload other with checkpoints := list }) hsame

end Objectives
