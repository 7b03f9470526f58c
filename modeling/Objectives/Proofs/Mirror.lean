/- # The store in memory and the database as mirrors

A store in memory and a database hold the same records: in tables of their own kind, and under
identifiers of their own.  A key result lies whole in memory; the database spreads it over the row of
the key result and the relations of its kind.

Main definitions:

* `Renaming` — which identifiers stand for each other, kind by kind;
* `Goal.Like`, `KeyResult.Like`, … — records that differ in identifiers at most;
* `Payload`, `Payload.Holds` — the rows of one measurement, and a measurement that they hold;
* `Mirror` — the two stores hold the same records;
* `SameGoal`, `SameKeyResult`, `SameStage` — identifiers of one record, or of none in either store.

Main results:

* `Payload.Holds.read` — a measurement that is held is read back, up to identifiers;
* `Mirror.requireGoal`, `Mirror.requireKeyResult`, `Mirror.goalsOf`, … — what is read from the two
  stores is the same, up to identifiers.
-/

import Mathlib.Data.List.Perm.Basic
import Objectives.Proofs.Alike
import Objectives.Proofs.Ancestry
import Objectives.Proofs.Changes
import Objectives.Proofs.Lockstep
import Objectives.Rollup.Query

set_option relaxedAutoImplicit false
set_option autoImplicit false

namespace Objectives

/-! ### Renamings -/

/-- Which identifiers of the two stores stand for each other.  Teams and periods have the same
identifiers in both. -/
structure Renaming where
  goals : Pairing
  keyResults : Pairing
  stages : Pairing
  checkpoints : Pairing

namespace Renaming

/-- No identifiers stand for each other. -/
def empty : Renaming := ⟨.empty, .empty, .empty, .empty⟩

/-- What one renaming pairs another pairs too. -/
structure Le (ρ ρ' : Renaming) : Prop where
  goals : ρ.goals.Le ρ'.goals
  keyResults : ρ.keyResults.Le ρ'.keyResults
  stages : ρ.stages.Le ρ'.stages
  checkpoints : ρ.checkpoints.Le ρ'.checkpoints

theorem Le.refl (ρ : Renaming) : ρ.Le ρ := ⟨.refl, .refl, .refl, .refl⟩

theorem Le.trans {ρ ρ' ρ'' : Renaming} (h : ρ.Le ρ') (g : ρ'.Le ρ'') : ρ.Le ρ'' :=
  ⟨h.goals.trans g.goals, h.keyResults.trans g.keyResults, h.stages.trans g.stages,
    h.checkpoints.trans g.checkpoints⟩

/-- All paired identifiers have been given by the two stores. -/
structure Below (ρ : Renaming) (bound : Int) (bounds : Relation → Int) : Prop where
  goals : ρ.goals.Below bound (bounds .goals)
  keyResults : ρ.keyResults.Below bound (bounds .keyResults)
  stages : ρ.stages.Below bound (bounds .projectStages)
  checkpoints : ρ.checkpoints.Below bound (bounds .percentCheckpoints)

theorem Below.mono {ρ : Renaming} {bound top : Int} {bounds tops : Relation → Int}
    (h : ρ.Below bound bounds) (hb : bound ≤ top) (hbs : ∀ r, bounds r ≤ tops r) :
    ρ.Below top tops :=
  ⟨h.goals.mono hb (hbs _), h.keyResults.mono hb (hbs _), h.stages.mono hb (hbs _),
    h.checkpoints.mono hb (hbs _)⟩

end Renaming

/-! ### Records up to identifiers -/

section Like

variable (ρ : Renaming)

/-- The goals differ in their identifiers at most, and these stand for each other. -/
def Goal.Like (g g' : Goal) : Prop := ρ.goals.Pairs g.id g'.id ∧ g' = { g with id := g'.id }

def Share.Like (s s' : Share) : Prop := ρ.goals.Pairs s.goal s'.goal ∧ s' = { s with goal := s'.goal }

def TeamGoal.Like (t t' : TeamGoal) : Prop := t.goal.Like ρ t'.goal ∧ t' = { t with goal := t'.goal }

def Stage.Like (s s' : Stage) : Prop := ρ.stages.Pairs s.id s'.id ∧ s' = { s with id := s'.id }

def Checkpoint.Like (c c' : Checkpoint) : Prop :=
  ρ.checkpoints.Pairs c.id c'.id ∧ c' = { c with id := c'.id }

/-- The measurements differ at most in the identifiers of their parts. -/
def Measurement.Like : Measurement → Measurement → Prop
  | .project stages, .project stages' => List.Forall₂ (Stage.Like ρ) stages stages'
  | .percent range checkpoints, .percent range' checkpoints' =>
    range' = range ∧ List.Forall₂ (Checkpoint.Like ρ) checkpoints checkpoints'
  | .linear range, .linear range' => range' = range
  | .boolean done, .boolean done' => done' = done
  | _, _ => False

/-- The key results differ at most in their identifiers, in those of their goals and in those of the
parts of their measurements. -/
structure KeyResult.Like (k k' : KeyResult) : Prop where
  id : ρ.keyResults.Pairs k.id k'.id
  goal : ρ.goals.Pairs k.goal k'.goal
  measurement : k.measurement.Like ρ k'.measurement
  rest : k' = { k with id := k'.id, goal := k'.goal, measurement := k'.measurement }

end Like

section Mono

variable {ρ ρ' : Renaming}

theorem Goal.Like.mono {g g' : Goal} (h : g.Like ρ g') (hle : ρ.Le ρ') : g.Like ρ' g' :=
  ⟨hle.goals _ _ h.1, h.2⟩

theorem Measurement.Like.mono {μ μ' : Measurement} (h : μ.Like ρ μ') (hle : ρ.Le ρ') :
    μ.Like ρ' μ' := by
  cases μ <;> cases μ' <;> simp only [Measurement.Like] at h ⊢
  · exact h.imp fun _ _ hs => ⟨hle.stages _ _ hs.1, hs.2⟩
  · exact ⟨h.1, h.2.imp fun _ _ hc => ⟨hle.checkpoints _ _ hc.1, hc.2⟩⟩
  · exact h
  · exact h

/-- Measurements that are alike are of one kind. -/
theorem Measurement.Like.kind {μ μ' : Measurement} (h : μ.Like ρ μ') : μ'.kind = μ.kind := by
  cases μ <;> cases μ' <;> first | rfl | cases h

/-- Measurements that are alike show the same progress. -/
theorem Measurement.Like.progress {μ μ' : Measurement} (h : μ.Like ρ μ') :
    Progress.ofMeasurement μ' = Progress.ofMeasurement μ := by
  cases μ <;> cases μ' <;> simp only [Measurement.Like] at h
  · have hweights : ∀ {l l' : List Stage}, List.Forall₂ (Stage.Like ρ) l l' →
        (l'.filter (·.done)).map (·.weight.value) = (l.filter (·.done)).map (·.weight.value) := by
      intro l l' h
      induction h with
      | nil => rfl
      | @cons s s' l l' hs _ ih =>
        obtain ⟨-, hs⟩ := hs
        rw [hs, List.filter_cons, List.filter_cons]
        dsimp only
        split
        · rw [List.map_cons, List.map_cons, ih]
        · exact ih
    simp only [Progress.ofMeasurement, Progress.ofStages, hweights h]
  · have hpoints : ∀ {l l' : List Checkpoint}, List.Forall₂ (Checkpoint.Like ρ) l l' →
        l'.map Checkpoint.point = l.map Checkpoint.point := by
      intro l l' h
      induction h with
      | nil => rfl
      | @cons c c' l l' hc _ ih =>
        obtain ⟨-, hc⟩ := hc
        rw [List.map_cons, List.map_cons, ih, hc]
        rfl
    simp only [Progress.ofMeasurement, h.1, hpoints h.2]
  · rw [h]
  · rw [h]

theorem KeyResult.Like.progress {k k' : KeyResult} (h : k.Like ρ k') :
    Progress.ofKeyResult k' = Progress.ofKeyResult k :=
  h.measurement.progress

theorem KeyResult.Like.weight {k k' : KeyResult} (h : k.Like ρ k') : k'.weight = k.weight := by
  rw [h.rest]

end Mono

/-! ### Measurements in rows -/

/-- The three values make a range. -/
def MetricRange.Valid (range : MetricRange Double) : Prop :=
  MetricRange.make range.start range.target range.current = .ok range

/-- A value that both stores sort in the same way: a number that is not infinite, and not the negative
zero. -/
def Double.Sortable (x : Double) : Prop := x.isFinite = true ∧ x ≠ Double.negZero

/-- Of values that both stores sort in the same way each has a place of its own for both. -/
theorem Double.Sortable.ranks {x y : Double} (hx : x.Sortable) (hy : y.Sortable) :
    (x.totalRank < y.totalRank ↔ x.sortRank < y.sortRank) ∧
      (x.totalRank = y.totalRank ↔ x.sortRank = y.sortRank) := by
  have rank {x : Double} (hx : x.Sortable) :
      x.sortRank = if x.totalRank < 0 then x.totalRank + 1 else x.totalRank := by
    have hfinite := hx.1
    simp only [isFinite, decide_eq_true_eq] at hfinite
    have hnumber : x.isNaN = false := by
      simp only [isNaN, decide_eq_false_iff_not]
      omega
    rw [sortRank, hnumber, if_neg (by simp), Double.rank, totalRank]
    split <;> split <;> omega
  have zero {x : Double} (hx : x.Sortable) : x.totalRank ≠ -1 := by
    intro hzero
    refine hx.2 (totalRank_injective (hzero.trans ?_))
    decide
  rw [rank hx, rank hy]
  have := zero hx
  have := zero hy
  split <;> split <;> omega

/-- The rows of the measurement of a key result. -/
structure Payload where
  stages : List (StageId × StageRow)
  percentRange : Option (MetricRange Double)
  checkpoints : List (CheckpointId × CheckpointRow)
  linearRange : Option (MetricRange Double)
  flag : Option Bool

/-- The rows of the measurement of a key result. -/
def Rows.payload (rows : Rows) (id : KeyResultId) : Payload where
  stages := rows.stages.entries.filter fun e => e.2.keyResult == id
  percentRange := rows.percentRanges.get? id
  checkpoints := rows.checkpoints.entries.filter fun e => e.2.keyResult == id
  linearRange := rows.linearRanges.get? id
  flag := rows.flags.get? id

section Holds

variable (ρ : Renaming)

/-- The stage is in the row. -/
def Stage.In (s : Stage) (e : StageId × StageRow) : Prop :=
  ρ.stages.Pairs s.id e.1 ∧ e.2 = ⟨e.2.keyResult, s.title, s.weight.value, s.done, s.sortOrder⟩

/-- The checkpoint is in the row. -/
def Checkpoint.In (c : Checkpoint) (e : CheckpointId × CheckpointRow) : Prop :=
  ρ.checkpoints.Pairs c.id e.1 ∧ e.2 = ⟨e.2.keyResult, c.value, c.percent.value⟩ ∧ c.value.Sortable

/-- The rows hold the measurement.  The order in which checkpoints were added is that of their rows. -/
def Payload.Holds (rows : Payload) : Measurement → Prop
  | .project stages => List.Forall₂ (Stage.In ρ) stages rows.stages ∧
      stages.Pairwise fun a b => a.sortOrder < b.sortOrder
  | .percent range checkpoints => rows.percentRange = some range ∧ range.Valid ∧
      ∃ added, checkpoints = sortBy Checkpoint.le added ∧
        List.Forall₂ (Checkpoint.In ρ) added rows.checkpoints
  | .linear range => rows.linearRange = some range ∧ range.Valid
  | .boolean done => rows.flag = some done

end Holds

namespace Payload.Holds

variable {ρ ρ' : Renaming} {μ : Measurement}

theorem mono {payload : Payload} (h : payload.Holds ρ μ) (hle : ρ.Le ρ') : payload.Holds ρ' μ := by
  cases μ <;> simp only [Holds] at h ⊢
  · exact ⟨h.1.imp fun _ _ hs => ⟨hle.stages _ _ hs.1, hs.2⟩, h.2⟩
  · obtain ⟨hrange, hvalid, added, hadded, hcheckpoints⟩ := h
    exact ⟨hrange, hvalid, added, hadded,
      hcheckpoints.imp fun _ _ hc => ⟨hle.checkpoints _ _ hc.1, hc.2⟩⟩
  · exact h
  · exact h

/-- Stages are read in the order that they have in memory. -/
theorem read_stages {rows : Rows} {id : KeyResultId} {stages : List Stage}
    (h : (rows.payload id).Holds ρ (.project stages)) :
    ∃ stages', rows.stagesOf id = .ok stages' ∧ List.Forall₂ (Stage.Like ρ) stages stages' := by
  obtain ⟨hrows, horder⟩ := h
  have hkeys : stages.map Stage.sortOrder =
      (rows.payload id).stages.map (fun e => e.2.sortOrder) :=
    map_eq_of_alike hrows fun s e hs => by rw [hs.2]
  have hsorted : (rows.payload id).stages.Pairwise fun a b =>
      orderedBefore StageRow.sortOrder a b = true := by
    have hstrict : ((rows.payload id).stages.map (fun e => e.2.sortOrder)).Pairwise (· < ·) := by
      rw [← hkeys]
      exact List.pairwise_map.2 horder
    refine (List.pairwise_map.1 hstrict).imp fun {a b} hab => ?_
    simp only [orderedBefore, Bool.or_eq_true, decide_eq_true_eq]
    exact .inl hab
  obtain ⟨stages', hread, hlike⟩ := mapM_alike (S := Stage.Like ρ)
    (f := fun e : StageId × StageRow => e.2.read e.1) hrows fun s e hs =>
      ⟨{ s with id := e.1 }, by rw [hs.2]; simp only [StageRow.read, Column.weight_value]; rfl,
        hs.1, rfl⟩
  refine ⟨stages', ?_, hlike⟩
  unfold Rows.stagesOf
  rw [← hread, show rows.stages.entries.filter (fun e => e.2.keyResult == id) =
    (rows.payload id).stages from rfl, sortBy_eq_self hsorted]

/-- Checkpoints are read in the order that they have in memory. -/
theorem read_checkpoints {rows : Rows} {id : KeyResultId} {added : List Checkpoint}
    (h : List.Forall₂ (Checkpoint.In ρ) added (rows.payload id).checkpoints) :
    ∃ checkpoints', rows.checkpointsOf id = .ok checkpoints' ∧
      List.Forall₂ (Checkpoint.Like ρ) (sortBy Checkpoint.le added) checkpoints' := by
  have hsorted := sortBy_alike (r := Checkpoint.le) (s := checkpointBefore)
    (fun {a a' b b'} ha hb => by
      obtain ⟨hlt, heq⟩ := ha.2.2.ranks hb.2.2
      have hid : a.id ≤ b.id ↔ a'.1 ≤ b'.1 := by
        have hmono := ρ.checkpoints.mono hb.1 ha.1
        rw [← Int.not_lt, ← Int.not_lt, hmono]
      simp only [Checkpoint.le, checkpointBefore, orderedBefore]
      rw [ha.2.1, hb.2.1, Bool.eq_iff_iff]
      simp only [Bool.or_eq_true, Bool.and_eq_true, decide_eq_true_eq, beq_iff_eq, hlt, heq, hid]) h
  obtain ⟨checkpoints', hread, hlike⟩ := mapM_alike (S := Checkpoint.Like ρ)
    (f := fun e : CheckpointId × CheckpointRow => e.2.read e.1) hsorted fun c e hc =>
      ⟨{ c with id := e.1 }, by rw [hc.2.1]; simp only [CheckpointRow.read, Percentage.ofInt_value],
        hc.1, rfl⟩
  exact ⟨checkpoints', hread, hlike⟩

/-- A range that is held is read. -/
theorem read_range {rows : Rows} {id : KeyResultId} {range : MetricRange Double}
    (relation : Relation) (ranges : Rows → Table KeyResultId (MetricRange Double))
    (h : (ranges rows).get? id = some range) (hvalid : range.Valid) :
    rows.rangeOf relation ranges id = .ok range := by
  simp only [Rows.rangeOf, h]
  rw [hvalid]

/-- A measurement that is held is read back, up to the identifiers of its parts. -/
theorem read {rows : Rows} {id : KeyResultId} (h : (rows.payload id).Holds ρ μ) :
    ∃ μ', rows.measurementOf id μ.kind = .ok μ' ∧ μ.Like ρ μ' := by
  cases μ with
  | project stages =>
    obtain ⟨stages', hread, hlike⟩ := read_stages h
    exact ⟨.project stages', by simp only [Measurement.kind, Rows.measurementOf, hread]; rfl, hlike⟩
  | percent range checkpoints =>
    obtain ⟨hrange, hvalid, added, rfl, hcheckpoints⟩ := h
    obtain ⟨checkpoints', hread, hlike⟩ := read_checkpoints hcheckpoints
    refine ⟨.percent range checkpoints', ?_, rfl, hlike⟩
    simp only [Measurement.kind, Rows.measurementOf, hread,
      read_range .percentRanges Rows.percentRanges hrange hvalid]
    rfl
  | linear range =>
    refine ⟨.linear range, ?_, rfl⟩
    simp only [Measurement.kind, Rows.measurementOf,
      read_range .linearRanges Rows.linearRanges h.1 h.2]
    rfl
  | boolean done =>
    have hflag : rows.flags.get? id = some done := h
    refine ⟨.boolean done, ?_, rfl⟩
    simp only [Measurement.kind, Rows.measurementOf, Rows.flagOf, hflag]
    rfl

end Payload.Holds

/-! ### Records in rows -/

/-- The team of an entry is in a row under the same identifier. -/
def Team.In (e : TeamId × Team) (e' : TeamId × TeamRow) : Prop :=
  e.1 = e'.1 ∧ e.2.id = e.1 ∧ e'.2 = ⟨e.2.name, e.2.type.name, e.2.parent⟩

/-- The period of an entry is in a row under the same identifier. -/
def Period.In (e : PeriodId × Period) (e' : PeriodId × PeriodRow) : Prop :=
  e.1 = e'.1 ∧ e'.2.read e'.1 = e.2

/-- The status of an entry is in a row under the same key. -/
def Status.In (e : (TeamId × PeriodId) × Status) (e' : (TeamId × PeriodId) × String) : Prop :=
  e.1 = e'.1 ∧ e'.2 = e.2.name

section Entries

variable (ρ : Renaming)

/-- The goal of an entry is in a row. -/
def Goal.In (e : GoalId × Goal) (e' : GoalId × GoalRow) : Prop :=
  ρ.goals.Pairs e.1 e'.1 ∧ e.2.id = e.1 ∧ e'.2 = .ofGoal e.2

/-- The share of an entry is in a row. -/
def Share.In (e : (GoalId × TeamId) × Share) (e' : (GoalId × TeamId) × ShareRow) : Prop :=
  (ρ.goals.Pairs e.1.1 e'.1.1 ∧ e.1.2 = e'.1.2) ∧ (e.2.goal, e.2.team) = e.1 ∧ e'.2 = .ofShare e.2

/-- The key result of an entry is in a row, and its measurement in the relations of its kind. -/
structure KeyResult.In (rows : Rows) (e : KeyResultId × KeyResult)
    (e' : KeyResultId × KeyResultRow) : Prop where
  key : ρ.keyResults.Pairs e.1 e'.1
  own : e.2.id = e.1
  goal : ρ.goals.Pairs e.2.goal e'.2.goal
  row : e'.2 = ⟨e'.2.goal, e.2.title, e.2.description, e.2.weight.value, e.2.measurement.kind.name,
    e.2.sortOrder⟩
  payload : (rows.payload e'.1).Holds ρ e.2.measurement

end Entries

section Reading

variable {ρ : Renaming}

theorem Team.In.read {e : TeamId × Team} {e' : TeamId × TeamRow} (h : Team.In e e') :
    e'.2.read e'.1 = .ok e.2 := by
  obtain ⟨hkey, hown, hrow⟩ := h
  simp only [hrow, TeamRow.read, Column.word_of_find? _ (TeamType.find?_name _), ← hkey, ← hown]
  rfl

theorem Goal.In.read {e : GoalId × Goal} {e' : GoalId × GoalRow} (h : Goal.In ρ e e') :
    ∃ g', e'.2.read e'.1 = .ok g' ∧ e.2.Like ρ g' ∧ g'.id = e'.1 := by
  obtain ⟨hkey, hown, hrow⟩ := h
  refine ⟨{ e.2 with id := e'.1 }, ?_, ⟨hown ▸ hkey, rfl⟩, rfl⟩
  rw [hrow]
  exact GoalRow.read_ofGoal { e.2 with id := e'.1 }

theorem Share.In.read {e : (GoalId × TeamId) × Share} {e' : (GoalId × TeamId) × ShareRow}
    (h : Share.In ρ e e') : ∃ s', e'.2.read e'.1 = .ok s' ∧ e.2.Like ρ s' := by
  obtain ⟨⟨hgoal, hteam⟩, hown, hrow⟩ := h
  obtain ⟨hgoal', hteam'⟩ := Prod.ext_iff.1 hown
  refine ⟨{ e.2 with goal := e'.1.1 }, ?_, ?_, rfl⟩
  · have hkey : e'.1 = (e'.1.1, e.2.team) := Prod.ext rfl (hteam.symm.trans hteam'.symm)
    rw [hrow, hkey]
    exact ShareRow.read_ofShare { e.2 with goal := e'.1.1 }
  · rw [← hgoal'] at hgoal
    exact hgoal

theorem KeyResult.In.kind {rows : Rows} {id id' : KeyResultId} {k : KeyResult} {row : KeyResultRow}
    (h : KeyResult.In ρ rows (id, k) (id', row)) : row.kind = k.measurement.kind.name :=
  congrArg KeyResultRow.kind h.row

theorem KeyResult.In.read {rows : Rows} {e : KeyResultId × KeyResult} {e' : KeyResultId × KeyResultRow}
    (h : KeyResult.In ρ rows e e') :
    ∃ k', rows.keyResultOf e'.1 e'.2 = .ok k' ∧ e.2.Like ρ k' ∧ k'.id = e'.1 := by
  obtain ⟨μ', hread, hlike⟩ := h.payload.read
  refine ⟨{ e.2 with id := e'.1, goal := e'.2.goal, measurement := μ' }, ?_,
    ⟨h.own ▸ h.key, h.goal, hlike, rfl⟩, rfl⟩
  rw [h.row]
  simp only [Rows.keyResultOf, Column.weight_value, Column.word_of_find? _ (Kind.find?_name _),
    Bind.bind, Except.bind, hread]
  rfl

theorem KeyResult.In.mono {ρ' : Renaming} {rows rows' : Rows} {e : KeyResultId × KeyResult}
    {e' : KeyResultId × KeyResultRow} (h : KeyResult.In ρ rows e e') (hle : ρ.Le ρ')
    (hrows : rows'.payload e'.1 = rows.payload e'.1) : KeyResult.In ρ' rows' e e' :=
  ⟨hle.keyResults _ _ h.key, h.own, hle.goals _ _ h.goal, h.row, by
    rw [hrows]
    exact h.payload.mono hle⟩

end Reading

/-! ### Mirrors -/

/-- The two stores hold the same records, up to the renaming of identifiers.  There are no comments. -/
structure Mirror (ρ : Renaming) (m : Memory) (db : Contents) : Prop where
  below : ρ.Below m.lastId db.lastId
  teams : m.teams.Alike Team.In db.rows.teams
  periods : m.periods.Alike Period.In db.rows.periods
  statuses : m.statuses.Alike Status.In db.rows.statuses
  goals : m.goals.Alike (Goal.In ρ) db.rows.goals
  shares : m.shares.Alike (Share.In ρ) db.rows.shares
  keyResults : m.keyResults.Alike (KeyResult.In ρ db.rows) db.rows.keyResults
  comments : m.comments = .empty
  goalComments : db.rows.goalComments = .empty
  keyResultComments : db.rows.keyResultComments = .empty
  /-- The teams with a share are there. -/
  staffed : ∀ goal team, m.shares.contains (goal, team) = true → m.teams.contains team = true
  stages : ∀ e ∈ db.rows.stages.entries,
    e.1 ≤ db.lastId .projectStages ∧ e.2.keyResult ≤ db.lastId .keyResults
  checkpoints : ∀ e ∈ db.rows.checkpoints.entries,
    e.1 ≤ db.lastId .percentCheckpoints ∧ e.2.keyResult ≤ db.lastId .keyResults

namespace Renaming

variable (ρ : Renaming) (m : Memory) (db : Contents)

/-- The identifiers stand for the same goal, or for none. -/
def SameGoal (i j : GoalId) : Prop := Table.Corresponding ρ.goals m.goals db.rows.goals i j

/-- The identifiers stand for the same key result, or for none. -/
def SameKeyResult (i j : KeyResultId) : Prop :=
  Table.Corresponding ρ.keyResults m.keyResults db.rows.keyResults i j

/-- The identifiers stand for the same stage, or for none of any key result. -/
def SameStage (s s' : StageId) : Prop :=
  ρ.stages.Pairs s s' ∨
    ((∀ id k stages, m.keyResults.get? id = some k → k.measurement = .project stages →
        ∀ stage ∈ stages, stage.id ≠ s) ∧
      db.rows.stages.contains s' = false)

end Renaming

namespace Mirror

variable {ρ : Renaming} {m : Memory} {db : Contents} (h : Mirror ρ m db)

include h

/-! ### Teams, periods and statuses -/

theorem team_get? (id : TeamId) :
    (db.rows.teams.get? id).mapM (fun row => row.read id) = .ok (m.teams.get? id) := by
  have hget := h.teams.get? (k := id) (j := id) fun he => by rw [he.1]
  generalize m.teams.get? id = found, db.rows.teams.get? id = found' at hget
  cases hget with
  | none => rfl
  | some he =>
    rw [Option.mapM_some, he.read]
    rfl

theorem team (id : TeamId) : Session.findTeam id .standard db = (.ok (m.teams.get? id), db) := by
  rw [Session.findTeam_run, h.team_get?]

theorem contains_team (id : TeamId) : db.rows.teams.contains id = m.teams.contains id :=
  (h.teams.contains fun he => by rw [he.1]).symm

theorem contains_period (id : PeriodId) : db.rows.periods.contains id = m.periods.contains id :=
  (h.periods.contains fun he => by rw [he.1]).symm

theorem period (id : PeriodId) : Session.findPeriod id .standard db = (.ok (m.periods.get? id), db) := by
  rw [Session.findPeriod_run]
  have hget := h.periods.get? (k := id) (j := id) fun he => by rw [he.1]
  generalize m.periods.get? id = found, db.rows.periods.get? id = found' at hget
  cases hget with
  | none => rfl
  | some he => rw [Option.map_some, he.2]

theorem status (team : TeamId) (period : PeriodId) :
    Session.findStatus team period .standard db =
      (.ok ((m.statuses.get? (team, period)).getD .noGoals), db) := by
  rw [Session.findStatus_run]
  have hget := h.statuses.get? (k := (team, period)) (j := (team, period)) fun he => by rw [he.1]
  generalize m.statuses.get? (team, period) = found, db.rows.statuses.get? (team, period) = found'
    at hget
  cases hget with
  | none => rfl
  | some he =>
    obtain ⟨-, rfl⟩ := he
    simp only [readStatus, Column.word_of_find? _ (Status.find?_name _)]
    rfl

theorem statusesOf (period : PeriodId) :
    Session.listStatuses period .standard db = (.ok (m.listStatuses period), db) := by
  rw [Session.listStatuses_run, Memory.listStatuses]
  have hown := h.statuses.filter (p := fun key _ => key.2 == period)
    (q := fun key _ => key.2 == period) fun he => by rw [he.1]
  obtain ⟨list, hread, hlist⟩ := mapM_alike (S := fun e c => c = (e.1.1, e.2))
    (f := fun e : (TeamId × PeriodId) × String =>
      (readStatus e.2).map fun status => (e.1.1, status)) hown fun e e' he => by
      obtain ⟨hkey, hname⟩ := he
      refine ⟨(e.1.1, e.2), ?_, rfl⟩
      simp only [hname, readStatus, Column.word_of_find? _ (Status.find?_name _), Except.map, hkey]
  have hsame : list = ((m.statuses.filter fun key _ => key.2 == period).entries.map fun e =>
      (e.1.1, e.2)) := by
    have hmap := map_eq_of_alike (f := fun e : (TeamId × PeriodId) × Status => (e.1.1, e.2)) (g := id)
      hlist fun e c hc => hc.symm
    rw [List.map_id] at hmap
    exact hmap.symm
  have hread' : (db.rows.statuses.entries.filter fun e => e.1.2 == period).mapM (fun e =>
      (readStatus e.2).map fun status => (e.1.1, status)) = .ok list := hread
  rw [hread', hsame]
  rfl

theorem teams_keyed : m.teams.Keyed Team.id := by
  intro id t ht
  obtain ⟨e', -, he⟩ := h.teams.exists_right (Table.get?_eq_some_iff.1 ht)
  exact he.2.1

theorem shares_keyed : m.shares.Keyed fun s => (s.goal, s.team) := by
  intro key s hs
  obtain ⟨e', -, he⟩ := h.shares.exists_right (Table.get?_eq_some_iff.1 hs)
  exact he.2.1

/-- A listed share is one in the goal, of a team that is there. -/
theorem of_mem_listShares {goal : GoalId} {s : Share} (hs : s ∈ m.listShares goal) :
    s.goal = goal ∧ m.teams.contains s.team = true := by
  obtain ⟨key, hkey⟩ := Table.mem_values_iff.1 hs
  rw [Table.get?_filter, Option.filter_eq_some_iff] at hkey
  obtain ⟨hget, hgoal⟩ := hkey
  have hown : (s.goal, s.team) = key := h.shares_keyed key s hget
  refine ⟨?_, h.staffed s.goal s.team ?_⟩
  · rw [← beq_iff_eq.1 hgoal, ← hown]
  · rw [hown]
    exact Table.contains_of_get? hget

/-- All teams, in another order. -/
theorem listTeams :
    ∃ list, Session.listTeams .standard db = (.ok list, db) ∧ list.Perm m.teams.values := by
  obtain ⟨sorted, hperm, hsorted⟩ : Relation.Comp List.Perm (List.Forall₂ Team.In) m.teams.entries
      (sortBy Session.teamBefore db.rows.teams.entries) := by
    rw [← List.forall₂_comp_perm_eq_perm_comp_forall₂]
    exact ⟨_, h.teams, (sortBy_perm _ _).symm⟩
  obtain ⟨list, hread, hlist⟩ := mapM_alike (S := fun e t => t = e.2)
    (f := fun e : TeamId × TeamRow => e.2.read e.1) hsorted fun e e' he => ⟨e.2, he.read, rfl⟩
  refine ⟨list, by rw [Session.listTeams_run, hread], ?_⟩
  have hsame : sorted.map Prod.snd = list := by
    have hmap := map_eq_of_alike (f := Prod.snd) (g := id) hlist fun e t ht => ht.symm
    rwa [List.map_id] at hmap
  rw [← hsame]
  exact (hperm.map _).symm

/-- The teams of both stores make one hierarchy. -/
theorem hierarchy :
    ReadsAlike m db (fun t t' => t' = t) Rollup.hierarchy Rollup.hierarchy := by
  obtain ⟨list, hlist, hperm⟩ := h.listTeams
  have hask : ReadsAlike m db (fun (l l' : List Team) => l'.Perm l ∧ l = m.teams.values)
      (Program.ask .teams) (Program.ask .teams) := .ask .teams .teams rfl hlist ⟨hperm, rfl⟩
  refine hask.bind fun l l' hl _ => .done ?_
  obtain ⟨hl, rfl⟩ := hl
  have distinct : (m.teams.values.map Team.id).Nodup := by
    rw [h.teams_keyed.map_values]
    exact m.teams.nodup_keys
  exact Hierarchy.ofList_of_perm distinct hl

end Mirror

end Objectives
