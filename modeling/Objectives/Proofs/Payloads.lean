/- # Payloads of key results

The row of a key result names a kind, and the rows of its measurement lie in other relations, where no
check of the database ties them to that kind.  What is written there is tied to it all the same: a
change of kind first clears what belongs to any kind, and a report of progress changes rows without
adding or removing any.

Main definitions:

* `Payload.IsOf` — the rows of a measurement are just those of a kind;
* `Payload.Fits`, `Rows.Measured` — they are those of the kind that the row of the key result names;
* `MeasurementDraft.Complete` — a submitted measurement that makes such rows;
* `Payload.Similar` — payloads that differ in values which may be reported.

Main results:

* `Rows.Measured.addKeyResult`, `Rows.Measured.editKeyResult` — a complete measurement fits the row
  that is written with it, whatever has been there before;
* `Rows.Measured.progress`, `Rows.Measured.addCheckpoint`, `Rows.Measured.deleteKeyResults`,
  `Rows.Measured.setWeight` — the other changes keep what fits;
* `Rows.Measured.keyResultOf` — **a key result whose rows fit is read**.
-/

import Objectives.Proofs.Mirror.Measurements
import Objectives.Proofs.Reach

set_option relaxedAutoImplicit false
set_option autoImplicit false

namespace Objectives

theorem Weight.bounds (w : Weight) : 0 ≤ (w.value : Int) ∧ (w.value : Int) ≤ 100 := by
  have h := w.le_hundred
  omega

theorem Percentage.bounds (p : Percentage) : 0 ≤ (p.value : Int) ∧ (p.value : Int) ≤ 100 := by
  have h := p.le_hundred
  omega

theorem Kind.name_injective : Function.Injective Kind.name := by
  intro k k' h
  have hfind := find?_name k
  rw [h, find?_name, Option.some_inj] at hfind
  exact hfind.symm

/-! ### Payloads of a kind -/

/-- Three values make a range if they are finite and the first two differ. -/
theorem MetricRange.valid_iff {range : MetricRange Double} :
    range.Valid ↔ range.start.isFinite = true ∧ range.target.isFinite = true ∧
      range.current.isFinite = true ∧ range.start.equal range.target = false := by
  rw [Valid, make_eq_ok_iff]
  exact and_iff_left rfl

/-- The rows of a measurement are just those of a kind. -/
structure Payload.IsOf (payload : Payload) (kind : Kind) : Prop where
  /-- A project has stages, and nothing else has. -/
  stages : payload.stages ≠ [] ↔ kind = .project
  /-- Stages are numbered from 1 on, in the order in which they were added. -/
  numbered : payload.stages.map (fun e => e.2.sortOrder) =
    (List.range payload.stages.length).map fun i : Nat => 1 + (i : Int)
  weighted : ∀ e ∈ payload.stages, 1 ≤ e.2.weight ∧ e.2.weight ≤ 100
  percentRange : payload.percentRange.isSome = true ↔ kind = .percent
  /-- Nothing but a percentage has checkpoints. -/
  checkpoints : payload.checkpoints ≠ [] → kind = .percent
  percents : ∀ e ∈ payload.checkpoints, 0 ≤ e.2.percent ∧ e.2.percent ≤ 100
  linearRange : payload.linearRange.isSome = true ↔ kind = .linear
  /-- Ranges are of finite values, and their ends differ. -/
  valid : ∀ range, payload.percentRange = some range ∨ payload.linearRange = some range → range.Valid
  flag : payload.flag.isSome = true ↔ kind = .boolean

/-- There are no rows of a measurement. -/
def Payload.empty : Payload := ⟨[], none, [], none, none⟩

/-- The rows of a measurement fit the row of its key result: that has a weight and a kind, and they are
just those of the kind.  Without a key result there are none. -/
def Payload.Fits (payload : Payload) : Option KeyResultRow → Prop
  | some row => (0 ≤ row.weight ∧ row.weight ≤ 100) ∧
      ∃ kind : Kind, row.kind = kind.name ∧ payload.IsOf kind
  | none => payload = .empty

/-- The rows of every measurement fit the row of its key result. -/
def Rows.Measured (rows : Rows) : Prop := ∀ id, (rows.payload id).Fits (rows.keyResults.get? id)

/-- The kind and the weight of a key result. -/
def KeyResultRow.measure (row : KeyResultRow) : String × Int := (row.kind, row.weight)

/-- Nothing but the kind and the weight of a key result matters for its measurement. -/
theorem Payload.Fits.of_measure {payload : Payload} {row row' : Option KeyResultRow}
    (h : payload.Fits row) (hrow : row'.map KeyResultRow.measure = row.map KeyResultRow.measure) :
    payload.Fits row' := by
  cases row with
  | none =>
    rw [Option.map_none, Option.map_eq_none_iff] at hrow
    rw [hrow]
    exact h
  | some r =>
    obtain ⟨hweight, kind, hkind, hpayload⟩ := h
    rw [Option.map_some, Option.map_eq_some_iff] at hrow
    obtain ⟨r', rfl, hsame⟩ := hrow
    obtain ⟨hkind', hweight'⟩ := Prod.mk.inj hsame
    rw [← hweight'] at hweight
    exact ⟨hweight, kind, hkind'.trans hkind, hpayload⟩

/-! ### Payloads that are written -/

section Written

variable {id : KeyResultId} {lastId place : Int} {drafts : List StageDraft}

theorem length_stageRows : (stageRows id lastId place drafts).length = drafts.length := by
  induction drafts generalizing lastId place with
  | nil => rfl
  | cons draft rest ih => rw [stageRows, List.length_cons, List.length_cons, ih]

theorem sortOrders_stageRows : (stageRows id lastId place drafts).map (fun e => e.2.sortOrder) =
    (List.range drafts.length).map fun i : Nat => place + (i : Int) := by
  induction drafts generalizing lastId place with
  | nil => rfl
  | cons draft rest ih =>
    rw [stageRows, List.map_cons, ih, List.length_cons, List.range_succ_eq_map, List.map_cons,
      List.map_map]
    refine congrArg₂ List.cons (by simp) (List.map_congr_left fun i _ => ?_)
    simp only [Function.comp, Nat.succ_eq_add_one, Int.natCast_add, Int.natCast_one]
    omega

theorem exists_draft_of_mem_stageRows {e : StageId × StageRow}
    (he : e ∈ stageRows id lastId place drafts) : ∃ draft ∈ drafts, e.2.weight = draft.weight.value := by
  induction drafts generalizing lastId place with
  | nil => cases he
  | cons draft rest ih =>
    rcases List.mem_cons.1 he with rfl | he
    · exact ⟨draft, List.mem_cons_self .., rfl⟩
    · obtain ⟨draft', hmem, hweight⟩ := ih he
      exact ⟨draft', List.mem_cons_of_mem _ hmem, hweight⟩

end Written

namespace MeasurementDraft

/-- The measurement is complete: its ranges are ranges, and a project has stages, each of positive
weight. -/
structure Complete (draft : MeasurementDraft) : Prop where
  ranged : draft.Ranged
  valid : draft.validate = .ok ()

theorem Complete.stages {draft : MeasurementDraft} (h : draft.Complete) :
    (draft.stages ≠ [] ↔ draft.kind = .project) ∧
      ∀ stage ∈ draft.stages, 1 ≤ stage.weight.value := by
  cases draft with
  | project stages =>
    have hvalid := h.valid
    rw [validate] at hvalid
    split at hvalid
    · cases hvalid
    · rename_i hstages
      have hsome : stages ≠ [] := fun hnil => hstages (List.isEmpty_iff.2 hnil)
      exact ⟨iff_of_true hsome rfl, one_le_of_checkStages hvalid⟩
  | percent range => exact ⟨iff_of_false (· rfl) nofun, fun _ hs => absurd hs List.not_mem_nil⟩
  | linear range => exact ⟨iff_of_false (· rfl) nofun, fun _ hs => absurd hs List.not_mem_nil⟩
  | boolean done => exact ⟨iff_of_false (· rfl) nofun, fun _ hs => absurd hs List.not_mem_nil⟩

end MeasurementDraft

namespace Rows

/-- Where there are at most checkpoints, which a percentage may have, a complete measurement makes the
rows of its kind. -/
theorem isOf_withMeasurement {rows : Rows} {id : KeyResultId} {lastId : Int}
    (hstages : ∀ e ∈ rows.stages.entries, e.1 ≤ lastId) {draft : MeasurementDraft}
    (hdraft : draft.Complete) {checkpoints : List (CheckpointId × CheckpointRow)}
    (hcleared : rows.payload id = ⟨[], none, checkpoints, none, none⟩)
    (hcheckpoints : checkpoints ≠ [] → draft.kind = .percent)
    (hpercents : ∀ e ∈ checkpoints, 0 ≤ e.2.percent ∧ e.2.percent ≤ 100) :
    ((rows.withMeasurement id lastId draft).payload id).IsOf draft.kind := by
  obtain ⟨hkind, hweights⟩ := hdraft.stages
  have hown : ((rows.withMeasurement id lastId draft).payload id).stages =
      stageRows id lastId 1 draft.stages := by
    have hold : rows.stages.entries.filter (fun e => e.2.keyResult == id) = [] :=
      congrArg Payload.stages hcleared
    show (Rows.withMeasurement ..).stages.entries.filter _ = _
    rw [rows.stages_withMeasurement hstages, List.filter_append, hold, List.nil_append]
    exact List.filter_eq_self.2 fun e he => beq_iff_eq.2 (of_mem_stageRows he).1
  have hkept : ((rows.withMeasurement id lastId draft).payload id).checkpoints = checkpoints :=
    congrArg Payload.checkpoints hcleared
  have hnone : rows.percentRanges.get? id = none := congrArg Payload.percentRange hcleared
  have hnone' : rows.linearRanges.get? id = none := congrArg Payload.linearRange hcleared
  have hnone'' : rows.flags.get? id = none := congrArg Payload.flag hcleared
  have hranged := hdraft.ranged
  refine
    { stages := ?_, numbered := ?_, weighted := ?_, percentRange := ?_, checkpoints := ?_
      percents := ?_, linearRange := ?_, valid := ?_, flag := ?_ }
  · rw [hown, ← List.length_pos_iff, length_stageRows, List.length_pos_iff]
    exact hkind
  · rw [hown, sortOrders_stageRows, length_stageRows]
  · intro e he
    rw [hown] at he
    obtain ⟨stage, hstage, hweight⟩ := exists_draft_of_mem_stageRows he
    have hlow := hweights stage hstage
    have hhigh := stage.weight.le_hundred
    omega
  · cases draft <;> simp [payload, withMeasurement, MeasurementDraft.kind, hnone]
  · rw [hkept]
    exact hcheckpoints
  · rw [hkept]
    exact hpercents
  · cases draft <;> simp [payload, withMeasurement, MeasurementDraft.kind, hnone']
  · intro range hrange
    cases draft <;> simp [payload, withMeasurement, hnone, hnone'] at hrange
    · exact hrange ▸ hranged
    · exact hrange ▸ hranged
  · cases draft <;> simp [payload, withMeasurement, MeasurementDraft.kind, hnone'']

end Rows

/-! ### Payloads that are changed -/

/-- The payloads differ at most in values that may be reported: whether stages are done, what the
present values of ranges are, and flags. -/
structure Payload.Similar (payload payload' : Payload) : Prop where
  stages : payload'.stages.map (fun e => (e.2.sortOrder, e.2.weight)) =
    payload.stages.map fun e => (e.2.sortOrder, e.2.weight)
  percentRange : payload'.percentRange.isSome = payload.percentRange.isSome
  checkpoints : payload'.checkpoints = payload.checkpoints
  linearRange : payload'.linearRange.isSome = payload.linearRange.isSome
  valid : (∀ range, payload.percentRange = some range ∨ payload.linearRange = some range →
      range.Valid) →
    ∀ range, payload'.percentRange = some range ∨ payload'.linearRange = some range → range.Valid
  flag : payload'.flag.isSome = payload.flag.isSome

namespace Payload

variable {payload payload' : Payload} {kind : Kind}

theorem Similar.refl (payload : Payload) : payload.Similar payload where
  stages := rfl
  percentRange := rfl
  checkpoints := rfl
  linearRange := rfl
  valid h := h
  flag := rfl

theorem IsOf.of_similar (h : payload.IsOf kind) (hsame : payload.Similar payload') :
    payload'.IsOf kind := by
  have hlength := congrArg List.length hsame.stages
  rw [List.length_map, List.length_map] at hlength
  refine
    { stages := ?_, numbered := ?_, weighted := ?_, percentRange := ?_, checkpoints := ?_
      percents := ?_, linearRange := ?_, valid := hsame.valid h.valid, flag := ?_ }
  · rw [← List.length_pos_iff, hlength, List.length_pos_iff]
    exact h.stages
  · have horders := congrArg (List.map Prod.fst) hsame.stages
    rw [List.map_map, List.map_map] at horders
    rw [hlength]
    exact horders.trans h.numbered
  · intro e he
    have hmem := List.mem_map_of_mem (f := fun e => (e.2.sortOrder, e.2.weight)) he
    rw [hsame.stages, List.mem_map] at hmem
    obtain ⟨e', he', heq⟩ := hmem
    have hweight := h.weighted e' he'
    rwa [(Prod.mk.inj heq).2] at hweight
  · rw [hsame.percentRange]
    exact h.percentRange
  · rw [hsame.checkpoints]
    exact h.checkpoints
  · rw [hsame.checkpoints]
    exact h.percents
  · rw [hsame.linearRange]
    exact h.linearRange
  · rw [hsame.flag]
    exact h.flag

/-- A report changes no rows where there are none. -/
theorem eq_empty_of_similar (h : empty.Similar payload) : payload = empty := by
  obtain ⟨stages, percentRange, checkpoints, linearRange, flag⟩ := payload
  obtain ⟨hstages, hpercent, hcheckpoints, hlinear, -, hflag⟩ := h
  simp only [empty, List.map_nil, List.map_eq_nil_iff, Option.isSome_none,
    Option.isSome_eq_false_iff, Option.isNone_iff_eq_none] at hstages hpercent hcheckpoints hlinear hflag
  rw [hstages, hpercent, hcheckpoints, hlinear, hflag]
  rfl

theorem Fits.of_similar {row : Option KeyResultRow} (h : payload.Fits row)
    (hsame : payload.Similar payload') : payload'.Fits row := by
  cases row with
  | none =>
    have hempty : payload = empty := h
    rw [hempty] at hsame
    exact eq_empty_of_similar hsame
  | some row =>
    obtain ⟨hweight, kind, hkind, hpayload⟩ := h
    exact ⟨hweight, kind, hkind, hpayload.of_similar hsame⟩

/-- Checkpoints may be added to a percentage. -/
theorem Fits.withCheckpoints {row : Option KeyResultRow} (h : payload.Fits row)
    {checkpoints : List (CheckpointId × CheckpointRow)}
    (hadded : ∀ e ∈ checkpoints,
      (∃ r, row = some r ∧ r.kind = Kind.percent.name ∧ 0 ≤ e.2.percent ∧ e.2.percent ≤ 100) ∨
        e ∈ payload.checkpoints) : Fits { payload with checkpoints } row := by
  cases row with
  | none =>
    have hempty : payload = empty := h
    subst hempty
    have hnil : checkpoints = [] := by
      refine List.eq_nil_iff_forall_not_mem.2 fun e he => ?_
      rcases hadded e he with ⟨r, hr, -⟩ | he
      · cases hr
      · cases he
    rw [hnil]
    rfl
  | some row =>
    obtain ⟨hweight, kind, hkind, hpayload⟩ := h
    refine ⟨hweight, kind, hkind, { hpayload with checkpoints := ?_, percents := ?_ }⟩
    · intro hsome
      obtain ⟨e, he⟩ := List.exists_mem_of_ne_nil _ hsome
      rcases hadded e he with ⟨r, hr, hpercent, -⟩ | he
      · rw [Option.some_inj] at hr
        subst hr
        exact Kind.name_injective (hkind.symm.trans hpercent)
      · exact hpayload.checkpoints (List.ne_nil_of_mem he)
    · intro e he
      rcases hadded e he with ⟨r, -, -, hbounds⟩ | he
      · exact hbounds
      · exact hpayload.percents e he

end Payload

/-! ### Reports of progress -/

/-- A range stays one when its present value is another finite number. -/
theorem MetricRange.Valid.withCurrent {range : MetricRange Double} (h : range.Valid) {value : Double}
    (hvalue : value.isFinite = true) : MetricRange.Valid { range with current := value } := by
  obtain ⟨hstart, htarget, -, hdiffer⟩ := valid_iff.1 h
  exact valid_iff.2 ⟨hstart, htarget, hvalue, hdiffer⟩

/-- The value of a report is finite, if it has one. -/
def ProgressUpdate.Finite : ProgressUpdate → Prop
  | .percentCurrent value | .linearCurrent value => value.isFinite = true
  | _ => True

section Reported

variable (rows : Rows) (id other : KeyResultId)

theorem valid_modify {ranges : Table KeyResultId (MetricRange Double)} {value : Double}
    (hvalue : value.isFinite = true)
    (hranges : ∀ range, ranges.get? other = some range → range.Valid) :
    ∀ range, (ranges.modify id fun range => { range with current := value }).get? other = some range →
      range.Valid := by
  intro range hrange
  rw [Table.get?_modify] at hrange
  split at hrange
  · rw [Option.map_eq_some_iff] at hrange
    obtain ⟨old, hold, rfl⟩ := hrange
    exact (hranges old hold).withCurrent hvalue
  · exact hranges range hrange

theorem similar_percentCurrent {value : Double} (hvalue : value.isFinite = true) :
    (rows.payload other).Similar (Rows.payload { rows with
      percentRanges := rows.percentRanges.modify id fun range => { range with current := value } }
        other) :=
  { Payload.Similar.refl (rows.payload other) with
    percentRange := Table.contains_modify ..
    valid := fun h range hrange => hrange.elim
      (valid_modify id other hvalue (fun range hget => h range (.inl hget)) range)
      fun hlinear => h range (.inr hlinear) }

theorem similar_linearCurrent {value : Double} (hvalue : value.isFinite = true) :
    (rows.payload other).Similar (Rows.payload { rows with
      linearRanges := rows.linearRanges.modify id fun range => { range with current := value } }
        other) :=
  { Payload.Similar.refl (rows.payload other) with
    linearRange := Table.contains_modify ..
    valid := fun h range hrange => hrange.elim (fun hpercent => h range (.inl hpercent))
      (valid_modify id other hvalue (fun range hget => h range (.inr hget)) range) }

theorem similar_flag (done : Bool) :
    (rows.payload other).Similar (Rows.payload { rows with
      flags := rows.flags.modify id fun _ => done } other) :=
  { Payload.Similar.refl (rows.payload other) with flag := Table.contains_modify .. }

theorem similar_stage (stage : StageId) (done : Bool) :
    (rows.payload other).Similar (Rows.payload { rows with
      stages := rows.stages.modify stage fun row => { row with done } } other) :=
  { Payload.Similar.refl (rows.payload other) with
    stages := by
      rw [Rows.stages_payload_modify, List.map_map]
      refine List.map_congr_left fun e _ => ?_
      simp only [Function.comp]
      split <;> rfl }

end Reported

/-! ### Rows that fit -/

namespace Rows

theorem payload_deleteKeyResults_of_gone {rows : Rows} {gone : KeyResultId → Bool}
    {id : KeyResultId} (hid : gone id = true) : (rows.deleteKeyResults gone).payload id = .empty := by
  have hgone : (!gone id) = false := by rw [hid, Bool.not_true]
  have hnone {ν : Type} (t : Table KeyResultId ν) :
      (t.filter fun k _ => !gone k).get? id = none := by
    rw [Table.get?_filter, hid]
    cases t.get? id <;> rfl
  simp only [payload, deleteKeyResults, hnone]
  simp only [Table.filter, filter_owner_of_gone (p := fun k => !gone k) hgone]
  rfl

namespace Measured

variable {rows rows' : Rows} (h : rows.Measured)

include h

/-- What spares measurements keeps what fits. -/
theorem of_measures (hsame : rows'.measures = rows.measures) : rows'.Measured := by
  simp only [measures, Prod.mk.injEq] at hsame
  obtain ⟨hkeyResults, hstages, hpercent, hcheckpoints, hlinear, hflags⟩ := hsame
  intro id
  have hpayload : rows'.payload id = rows.payload id := by
    simp only [payload, hstages, hpercent, hcheckpoints, hlinear, hflags]
  rw [hpayload]
  exact (h id).of_measure (congrFun hkeyResults id)

/-- **A key result under a new identifier, with a complete measurement.** -/
theorem addKeyResult {id : KeyResultId} (hid : rows.keyResults.get? id = none) {lastId : Int}
    (hstages : ∀ e ∈ rows.stages.entries, e.1 ≤ lastId) {row : KeyResultRow}
    (hweight : 0 ≤ row.weight ∧ row.weight ≤ 100) {draft : MeasurementDraft}
    (hdraft : draft.Complete) (hkind : row.kind = draft.kind.name) :
    (withMeasurement { rows with keyResults := rows.keyResults.insert id row } id lastId
      draft).Measured := by
  intro other
  show Payload.Fits _ ((rows.keyResults.insert id row).get? other)
  by_cases hother : other = id
  · subst hother
    have hempty : rows.payload other = ⟨[], none, [], none, none⟩ := by
      have hfits := h other
      rwa [hid] at hfits
    rw [Table.get?_insert_self]
    refine ⟨hweight, draft.kind, hkind, ?_⟩
    exact isOf_withMeasurement hstages hdraft hempty (absurd rfl) nofun
  · have hsame := payload_withMeasurement_of_ne
      { rows with keyResults := rows.keyResults.insert id row } hother hstages draft
    rw [hsame, Table.get?_insert_of_ne _ _ (Ne.symm hother)]
    exact h other

/-- **A key result with another complete measurement, after the old one has been cleared.** -/
theorem editKeyResult {id : KeyResultId} {row : KeyResultRow}
    (hrow : rows.keyResults.get? id = some row) {lastId : Int}
    (hstages : ∀ e ∈ rows.stages.entries, e.1 ≤ lastId) {draft : KeyResultDraft}
    (hdraft : draft.measurement.Complete) {keep : Bool}
    (hkeep : keep = true → draft.measurement.kind = .percent) :
    (withMeasurement (clearPayload { rows with
      keyResults := rows.keyResults.modify id (Session.editKeyResultRow draft) } id keep) id lastId
      draft.measurement).Measured := by
  intro other
  show Payload.Fits _ ((rows.keyResults.modify id (Session.editKeyResultRow draft)).get? other)
  have hkept : ∀ e ∈ (rows.stages.filter fun _ row => row.keyResult != id).entries, e.1 ≤ lastId :=
    fun e he => hstages e (List.mem_filter.1 he).1
  rw [Table.get?_modify]
  by_cases hother : other = id
  · subst hother
    obtain ⟨-, kind, hkind, hpayload⟩ : (rows.payload other).Fits (some row) := hrow ▸ h other
    rw [if_pos rfl, hrow]
    refine ⟨draft.weight.bounds, draft.measurement.kind, rfl, ?_⟩
    refine isOf_withMeasurement hkept hdraft (payload_clearPayload _ keep) ?_ ?_
    · intro hcheckpoints
      cases keep with
      | true => exact hkeep rfl
      | false => exact absurd rfl hcheckpoints
    · intro e he
      cases keep with
      | true => exact hpayload.percents e he
      | false => cases he
  · rw [payload_withMeasurement_of_ne _ hother hkept, payload_clearPayload_of_ne _ hother,
      if_neg hother]
    exact h other

/-- Rows with another weight of a key result. -/
theorem setWeight {id : KeyResultId} {row : KeyResultRow}
    (hrow : rows.keyResults.get? id = some row) (weight : Weight) :
    Measured { rows with
      keyResults := rows.keyResults.insert id { row with weight := weight.value } } := by
  intro other
  show (rows.payload other).Fits ((rows.keyResults.insert id _).get? other)
  rw [Table.get?_insert]
  split
  · rename_i hid
    subst hid
    obtain ⟨-, kind, hkind, hpayload⟩ : (rows.payload id).Fits (some row) := hrow ▸ h id
    exact ⟨weight.bounds, kind, hkind, hpayload⟩
  · exact h other

/-- Rows that differ in values that may be reported. -/
theorem progress (hrows : rows'.keyResults = rows.keyResults)
    (hsame : ∀ id, (rows.payload id).Similar (rows'.payload id)) : rows'.Measured := by
  intro id
  rw [hrows]
  exact (h id).of_similar (hsame id)

/-- Rows with another checkpoint of a percentage. -/
theorem addCheckpoint {id : KeyResultId} {row : KeyResultRow}
    (hrow : rows.keyResults.get? id = some row) (hkind : row.kind = Kind.percent.name)
    (checkpoint : CheckpointId) (draft : CheckpointDraft) :
    Measured { rows with
      checkpoints := rows.checkpoints.insert checkpoint ⟨id, draft.value, draft.percent.value⟩ } := by
  intro other
  refine (h other).withCheckpoints fun e he => ?_
  obtain ⟨he, hown⟩ := List.mem_filter.1 he
  rcases Table.mem_insertEntry he with rfl | he
  · have hother : id = other := beq_iff_eq.1 hown
    subst hother
    exact .inl ⟨row, hrow, hkind, draft.percent.bounds⟩
  · exact .inr (List.mem_filter.2 ⟨he, hown⟩)

/-- Rows without some key results. -/
theorem deleteKeyResults (gone : KeyResultId → Bool) : (rows.deleteKeyResults gone).Measured := by
  intro id
  show Payload.Fits _ ((rows.keyResults.filter fun id _ => !gone id).get? id)
  rw [Table.get?_filter]
  cases hid : gone id with
  | true =>
    rw [payload_deleteKeyResults_of_gone hid]
    cases rows.keyResults.get? id <;> rfl
  | false =>
    rw [payload_deleteKeyResults hid]
    have hfits := h id
    cases hget : rows.keyResults.get? id with
    | none => rwa [hget] at hfits
    | some row => rwa [hget] at hfits

end Measured

/-! ### Reading -/

/-- A list is read if each of its elements is. -/
theorem exists_mapM_ok {α β ε : Type} {f : α → Except ε β} {list : List α}
    (h : ∀ a ∈ list, ∃ b, f a = .ok b) : ∃ bs, list.mapM f = .ok bs := by
  have hlist : List.Forall₂ (fun _ a => a ∈ list) list list := List.forall₂_same.2 fun _ ha => ha
  obtain ⟨bs, hbs, -⟩ := mapM_alike (S := fun _ _ => True) hlist fun _ a ha => by
    obtain ⟨b, hb⟩ := h a ha
    exact ⟨b, hb, trivial⟩
  exact ⟨bs, hbs⟩

/-- The rows of a measurement are read as one of their kind. -/
theorem exists_measurementOf {rows : Rows} {id : KeyResultId} {kind : Kind}
    (h : (rows.payload id).IsOf kind) :
    ∃ μ, rows.measurementOf id kind = .ok μ ∧ μ.kind = kind := by
  have hrange (relation : Relation) {ranges : Rows → Table KeyResultId (MetricRange Double)}
      (hsome : ((ranges rows).get? id).isSome = true)
      (hvalid : ∀ range, (ranges rows).get? id = some range → range.Valid) :
      ∃ range, rows.rangeOf relation ranges id = .ok range := by
    obtain ⟨range, hget⟩ := Option.isSome_iff_exists.1 hsome
    exact ⟨range, Payload.Holds.read_range relation ranges hget (hvalid range hget)⟩
  cases kind with
  | project =>
    obtain ⟨stages, hstages⟩ : ∃ stages, rows.stagesOf id = .ok stages := by
      refine exists_mapM_ok fun e he => ?_
      obtain ⟨hlow, hhigh⟩ := h.weighted e (mem_sortBy.1 he)
      rw [StageRow.read, Column.weight, Weight.ofInt, dif_pos (by omega)]
      exact ⟨_, rfl⟩
    exact ⟨.project stages, by rw [measurementOf, hstages]; rfl, rfl⟩
  | percent =>
    obtain ⟨range, hread⟩ := hrange .percentRanges (h.percentRange.2 rfl)
      fun range hget => h.valid range (.inl hget)
    obtain ⟨checkpoints, hcheckpoints⟩ : ∃ list, rows.checkpointsOf id = .ok list := by
      refine exists_mapM_ok fun e he => ?_
      rw [CheckpointRow.read, Percentage.ofInt, dif_pos (h.percents e (mem_sortBy.1 he))]
      exact ⟨_, rfl⟩
    exact ⟨.percent range checkpoints, by rw [measurementOf, hread, hcheckpoints]; rfl, rfl⟩
  | linear =>
    obtain ⟨range, hread⟩ := hrange .linearRanges (h.linearRange.2 rfl)
      fun range hget => h.valid range (.inr hget)
    exact ⟨.linear range, by rw [measurementOf, hread]; rfl, rfl⟩
  | boolean =>
    obtain ⟨done, hget⟩ := Option.isSome_iff_exists.1 (h.flag.2 rfl)
    have hflag : rows.flags.get? id = some done := hget
    exact ⟨.boolean done, by rw [measurementOf, flagOf, hflag]; rfl, rfl⟩

/-- **A key result whose rows fit is read, as one of the kind that its row names.** -/
theorem Measured.keyResultOf {rows : Rows} (h : rows.Measured) {id : KeyResultId} {row : KeyResultRow}
    (hrow : rows.keyResults.get? id = some row) :
    ∃ k, rows.keyResultOf id row = .ok k ∧ k.measurement.kind.name = row.kind := by
  obtain ⟨hweight, kind, hkind, hpayload⟩ : (rows.payload id).Fits (some row) := hrow ▸ h id
  obtain ⟨μ, hread, hμ⟩ := exists_measurementOf hpayload
  have hword : Column.word Kind "kind" row.kind = .ok kind :=
    Column.word_of_find? "kind" (hkind ▸ Kind.find?_name kind)
  rw [Rows.keyResultOf, hword, Column.weight, Weight.ofInt, dif_pos hweight]
  simp only [Bind.bind, Except.bind, hread]
  exact ⟨_, rfl, by rw [hμ, hkind]⟩

end Rows

end Objectives
