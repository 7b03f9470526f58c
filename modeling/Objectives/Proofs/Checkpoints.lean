/- # Checkpoints through a run

What is done to the measurement of a key result, from its creation on, tells all that is stored of it.
Checkpoints are added one by one.  They stay through reports and through changes from one percentage to
another, and are gone for good as soon as the key result is measured in another way.  A change sets the
start, the target and the present value; a report sets the present value alone.

Main definitions:

* `Deed.draft?`, `Deed.update?`, `Deed.checkpoint?` — what is submitted, reported or added;
* `Deed.Turns`, `Memory.Yields` — what a deed makes of a measurement, and in a store;
* `Deed.Opening` — what is done up to when a key result becomes a percentage;
* `Deed.Gathers`, `Deed.Spans` — the checkpoints and the range of a percentage, as told by what has been
  done;
* `Deed.Told`, `Memory.ToldBy` — measurements that are told by what has been done;
* `Answered.deedsOn` — what some answered commands have done to one key result.

Main results:

* `Memory.measurement_unmeasuring`, `Memory.keyResults_of_deed` — what calls make of measurements;
* `Deed.Told.turns`, `Memory.ToldBy.replied` — measurements stay told by what has been done;
* `System.percent_of_journal` — **the checkpoints, the start, the target and the present value of a
  percentage are told by the answered commands**.
-/

import Objectives.Proofs.Integrity
import Objectives.Proofs.Journal
import Objectives.Proofs.Links

set_option relaxedAutoImplicit false
set_option autoImplicit false

namespace Objectives

/-! ### What deeds make of a measurement -/

namespace Deed

/-- The measurement that a deed submits, if it creates or changes the key result. -/
def draft? : Deed → Option MeasurementDraft
  | created draft | changed draft => some draft
  | _ => none

/-- The report that a deed passes on, if it is one. -/
def update? : Deed → Option ProgressUpdate
  | reported update => some update
  | _ => none

/-- The checkpoint that a deed adds, if it does. -/
def checkpoint? : Deed → Option Checkpoint
  | added checkpoint => some checkpoint
  | _ => none

/-- What a deed makes of the measurement of a key result that there is. -/
inductive Turns : Measurement → Deed → Measurement → Prop
  | changed (m : Memory) (μ : Measurement) (draft : MeasurementDraft) :
      Turns μ (.changed draft) (m.measure draft (Memory.keptCheckpoints μ draft)).1
  | reported {μ μ' : Measurement} {update : ProgressUpdate} (h : μ.Takes update μ') :
      Turns μ (.reported update) μ'
  | added (range : MetricRange Double) (checkpoints : List Checkpoint) (checkpoint : Checkpoint) :
      Turns (.percent range checkpoints) (.added checkpoint)
        (.percent range (sortBy Checkpoint.le (checkpoints ++ [checkpoint])))

/-! ### Percentages as told by what has been done -/

/-- All that has been done up to when the key result has become a percentage: it has been created as
one, or it has been changed to one and the last draft before was of another kind. -/
inductive Opening : List Deed → Prop
  | created (range : MetricRange Double) : Opening [.created (.percent range)]
  | changed (before : List Deed) (last : MeasurementDraft) (range : MetricRange Double)
      (hlast : (before.filterMap draft?).getLast? = some last) (hkind : last.kind ≠ .percent) :
      Opening (before ++ [.changed (.percent range)])

/-- The checkpoints are those that have been added since the key result has become a percentage, and it
has been one ever since. -/
def Gathers (deeds : List Deed) (checkpoints : List Checkpoint) : Prop :=
  ∃ opening since, deeds = opening ++ since ∧ Opening opening ∧
    (∀ draft ∈ since.filterMap draft?, draft.kind = .percent) ∧
    checkpoints.Perm (since.filterMap checkpoint?)

/-- The start and the target are those of the last draft, and the present value is that of the last
report since then, or of the draft if there has been no report. -/
def Spans (deeds : List Deed) (range : MetricRange Double) : Prop :=
  ∃ before edit since drafted, deeds = before ++ edit :: since ∧
    edit.draft? = some (.percent drafted) ∧ since.filterMap draft? = [] ∧
    range.start = drafted.start ∧ range.target = drafted.target ∧
    (since.filterMap update? = [] ∧ range.current = drafted.current ∨
      (since.filterMap update?).getLast? = some (.percentCurrent range.current))

variable {deeds : List Deed} {deed : Deed} {μ μ' : Measurement} {range drafted : MetricRange Double}
  {checkpoints checkpoints' : List Checkpoint}

/-- A deed by which the key result stays a percentage adds the checkpoint that it has. -/
theorem Gathers.append (h : Gathers deeds checkpoints)
    (hdraft : ∀ draft, deed.draft? = some draft → draft.kind = .percent)
    (hadded : checkpoints'.Perm (checkpoints ++ deed.checkpoint?.toList)) :
    Gathers (deeds ++ [deed]) checkpoints' := by
  obtain ⟨opening, since, rfl, hopening, hkinds, hperm⟩ := h
  refine ⟨opening, since ++ [deed], List.append_assoc .., hopening, ?_, ?_⟩
  · intro draft hmem
    rw [List.filterMap_append, List.mem_append] at hmem
    rcases hmem with hmem | hmem
    · exact hkinds draft hmem
    · obtain ⟨_, hdeed, hsome⟩ := List.mem_filterMap.1 hmem
      rw [List.mem_singleton.1 hdeed] at hsome
      exact hdraft draft hsome
  · have hlast : [deed].filterMap checkpoint? = deed.checkpoint?.toList := by
      cases deed <;> rfl
    rw [List.filterMap_append, hlast]
    exact hadded.trans (hperm.append_right _)

/-- A deed that adds none leaves the checkpoints as they are. -/
theorem Gathers.keep (h : Gathers deeds checkpoints)
    (hdraft : ∀ draft, deed.draft? = some draft → draft.kind = .percent)
    (hnone : deed.checkpoint? = none) : Gathers (deeds ++ [deed]) checkpoints := by
  refine h.append hdraft ?_
  rw [hnone, Option.toList_none, List.append_nil]

/-- A key result that becomes a percentage has no checkpoints. -/
theorem Gathers.of_opening {opening : List Deed} (h : Opening opening) : Gathers opening [] := by
  refine ⟨opening, [], (List.append_nil _).symm, h, ?_, .nil⟩
  intro draft hmem
  cases hmem

/-- A draft of a percentage sets the whole range. -/
theorem Spans.of_draft (before : List Deed) (h : deed.draft? = some (.percent drafted)) :
    Spans (before ++ [deed]) drafted :=
  ⟨before, deed, [], drafted, rfl, h, rfl, rfl, rfl, .inl ⟨rfl, rfl⟩⟩

/-- A report sets the present value. -/
theorem Spans.report (h : Spans deeds range) (value : Double) :
    Spans (deeds ++ [.reported (.percentCurrent value)]) { range with current := value } := by
  obtain ⟨before, edit, since, drafted, rfl, hedit, hnone, hstart, htarget, -⟩ := h
  refine ⟨before, edit, since ++ [.reported (.percentCurrent value)], drafted, List.append_assoc ..,
    hedit, ?_, hstart, htarget, .inr ?_⟩
  · rw [List.filterMap_append, hnone]
    rfl
  · rw [List.filterMap_append]
    exact List.getLast?_concat

/-- A checkpoint leaves the range as it is. -/
theorem Spans.add (h : Spans deeds range) (checkpoint : Checkpoint) :
    Spans (deeds ++ [.added checkpoint]) range := by
  obtain ⟨before, edit, since, drafted, rfl, hedit, hnone, hstart, htarget, hcurrent⟩ := h
  refine ⟨before, edit, since ++ [.added checkpoint], drafted, List.append_assoc .., hedit, ?_, hstart,
    htarget, ?_⟩
  · rw [List.filterMap_append, hnone]
    rfl
  · have hsame : (since ++ [Deed.added checkpoint]).filterMap update? = since.filterMap update? := by
      rw [List.filterMap_append]
      exact List.append_nil _
    rw [hsame]
    exact hcurrent

/-- A measurement is told by what has been done to the key result: it is of the kind of the last draft,
and a percentage has its checkpoints, in their order, and its range from there. -/
structure Told (deeds : List Deed) (μ : Measurement) : Prop where
  kind : ∃ last, (deeds.filterMap draft?).getLast? = some last ∧ last.kind = μ.kind
  percent : ∀ range checkpoints, μ = .percent range checkpoints →
    Gathers deeds checkpoints ∧ checkpoints.Pairwise (fun a b => a.le b = true) ∧ Spans deeds range

namespace Told

/-- A new key result is told by its draft. -/
theorem created (m : Memory) (draft : MeasurementDraft) :
    Told [.created draft] (m.measure draft []).1 where
  kind := ⟨draft, rfl, (m.kind_measure draft []).symm⟩
  percent range checkpoints hμ := by
    cases draft with
    | percent drafted =>
      cases hμ
      exact ⟨.of_opening (.created range), .nil, .of_draft [] rfl⟩
    | project | linear | boolean => cases hμ

/-- A change to a percentage keeps the checkpoints that there are, and there are none of another kind. -/
theorem kept (h : Told deeds μ) (drafted : MetricRange Double) :
    Gathers (deeds ++ [.changed (.percent drafted)])
        (Memory.keptCheckpoints μ (.percent drafted)) ∧
      (Memory.keptCheckpoints μ (.percent drafted)).Pairwise fun a b => a.le b = true := by
  cases μ with
  | percent old checkpoints =>
    obtain ⟨hgather, hsorted, -⟩ := h.percent old checkpoints rfl
    refine ⟨hgather.keep ?_ rfl, hsorted⟩
    intro draft hdraft
    cases hdraft
    rfl
  | project | linear | boolean =>
    obtain ⟨last, hlast, hkind⟩ := h.kind
    have hother : last.kind ≠ .percent := by
      rw [hkind]
      exact Kind.noConfusion
    exact ⟨.of_opening (.changed deeds last drafted hlast hother), .nil⟩

theorem changed (h : Told deeds μ) (m : Memory) (draft : MeasurementDraft) :
    Told (deeds ++ [.changed draft])
      (m.measure draft (Memory.keptCheckpoints μ draft)).1 where
  kind := by
    refine ⟨draft, ?_, (m.kind_measure draft _).symm⟩
    rw [List.filterMap_append]
    exact List.getLast?_concat
  percent range checkpoints hμ := by
    cases draft with
    | percent drafted =>
      cases hμ
      obtain ⟨hgather, hsorted⟩ := h.kept range
      exact ⟨hgather, hsorted, .of_draft deeds rfl⟩
    | project | linear | boolean => cases hμ

/-- What submits nothing leaves the kind to the last draft. -/
theorem kind_append (h : Told deeds μ) (hdraft : deed.draft? = none) (hkind : μ'.kind = μ.kind) :
    ∃ last, ((deeds ++ [deed]).filterMap draft?).getLast? = some last ∧ last.kind = μ'.kind := by
  obtain ⟨last, hlast, hsame⟩ := h.kind
  refine ⟨last, ?_, hsame.trans hkind.symm⟩
  rw [List.filterMap_append, List.filterMap_cons_none hdraft, List.filterMap_nil, List.append_nil]
  exact hlast

theorem reported (h : Told deeds μ) {update : ProgressUpdate} (htakes : μ.Takes update μ') :
    Told (deeds ++ [.reported update]) μ' where
  kind := h.kind_append rfl htakes.kind
  percent range checkpoints hμ := by
    subst hμ
    cases htakes with
    | @percentCurrent old _ value _ hrange =>
      obtain ⟨hgather, hsorted, hspan⟩ := h.percent old checkpoints rfl
      obtain rfl := MetricRange.eq_of_withCurrent hrange
      refine ⟨hgather.keep ?_ rfl, hsorted, hspan.report value⟩
      intro draft hdraft
      cases hdraft

theorem added {range : MetricRange Double} {checkpoints : List Checkpoint}
    (h : Told deeds (.percent range checkpoints)) (checkpoint : Checkpoint) :
    Told (deeds ++ [.added checkpoint])
      (.percent range (sortBy Checkpoint.le (checkpoints ++ [checkpoint]))) where
  kind := h.kind_append rfl rfl
  percent range' checkpoints' hμ := by
    cases hμ
    obtain ⟨hgather, -, hspan⟩ := h.percent range checkpoints rfl
    refine ⟨hgather.append ?_ (sortBy_perm _ _), ?_, hspan.add checkpoint⟩
    · intro draft hdraft
      cases hdraft
    · exact sortBy_pairwise Checkpoint.le_trans Checkpoint.le_total _

/-- **A measurement stays told by what has been done.** -/
theorem turns (h : Told deeds μ) (hturns : deed.Turns μ μ') : Told (deeds ++ [deed]) μ' := by
  cases hturns with
  | changed m _ draft => exact h.changed m draft
  | reported htakes => exact h.reported htakes
  | added range checkpoints checkpoint => exact h.added checkpoint

end Told

end Deed

/-! ### What calls make of measurements -/

namespace Memory

variable {m m' : Memory} {c : Call} {id : KeyResultId}

theorem exists_of_map_eq {t t' : Table KeyResultId KeyResult} {k' : KeyResult}
    (h : (t'.get? id).map KeyResult.measurement = (t.get? id).map KeyResult.measurement)
    (hget : t'.get? id = some k') : ∃ k, t.get? id = some k ∧ k'.measurement = k.measurement := by
  rw [hget, Option.map_some] at h
  obtain ⟨k, hk, hsame⟩ := Option.map_eq_some_iff.1 h.symm
  exact ⟨k, hk, hsame.symm⟩

/-- A call that is not about measurements leaves those of all key results that it leaves. -/
theorem measurement_unmeasuring (hc : c.Unmeasuring) {k' : KeyResult}
    (hget : (carry c m).2.keyResults.get? id = some k') :
    ∃ k, m.keyResults.get? id = some k ∧ k'.measurement = k.measurement := by
  by_cases hs : c.subject = .keyResults ∨ c.subject = .wholeGoal
  · cases c with
    | createKeyResult goal draft => cases hc
    | updateKeyResult i draft => cases hc
    | recordProgress i update => cases hc
    | addCheckpoint i draft => cases hc
    | deleteGoal goal =>
      simp only [carry, deleteGoal] at hget
      split at hget
      · rw [Table.get?_filter] at hget
        exact ⟨k', (Option.filter_eq_some_iff.1 hget).1, rfl⟩
      · exact ⟨k', hget, rfl⟩
    | deleteKeyResult i =>
      simp only [carry, deleteKeyResult] at hget
      split at hget
      · rw [Table.erase, Table.get?_filter] at hget
        exact ⟨k', (Option.filter_eq_some_iff.1 hget).1, rfl⟩
      · exact ⟨k', hget, rfl⟩
    | setWeights goal weights =>
      simp only [carry, setWeights] at hget
      split at hget
      · exact ⟨k', hget, rfl⟩
      · exact exists_of_map_eq (map_get?_setWeights (fun _ _ => rfl) m.keyResults weights id) hget
    | addComment target text =>
      simp only [carry, addComment] at hget
      split at hget <;> exact ⟨k', hget, rfl⟩
    | move item direction =>
      cases item with
      | keyResult i =>
        simp only [carry, move] at hget
        split at hget
        · exact ⟨k', hget, rfl⟩
        · refine exists_of_map_eq ?_ hget
          refine map_get?_setOrders ?_ m.keyResults _ id
          intro order k
          rfl
      | goal i asTeam => rcases hs with hs | hs <;> cases hs
      | period i => rcases hs with hs | hs <;> cases hs
    | _ => rcases hs with hs | hs <;> cases hs
  · rw [not_or] at hs
    rw [((touched_carry c m).keyResults_comments hs.1 hs.2).1] at hget
    exact ⟨k', hget, rfl⟩

/-- Between two stores a deed yields a measurement: it turns the one that the key result had, or it gives
the first one to a key result under a new identifier. -/
inductive Yields (m m' : Memory) (id : KeyResultId) (deed : Deed) (μ' : Measurement) : Prop
  | turned (k : KeyResult) (hget : m.keyResults.get? id = some k) (h : deed.Turns k.measurement μ')
  | given (hnew : m.lastId < id) (hgiven : id ≤ m'.lastId) (m₀ : Memory) (draft : MeasurementDraft)
      (hdeed : deed = .created draft) (hmeasure : μ' = (m₀.measure draft []).1)

/-- A call that does something to the measurement of a key result changes that key result alone. -/
theorem keyResults_of_deed {reply : c.Reply} (hcarry : carry c m = (.ok reply, m')) {deed : Deed}
    (hdeed : c.deed reply = some (id, deed)) :
    ∃ k', m'.keyResults = m.keyResults.insert id k' ∧ m.Yields m' id deed k'.measurement := by
  cases c with
  | createKeyResult goal draft =>
    simp only [carry, createKeyResult] at hcarry
    split at hcarry
    · obtain ⟨lastId, hle, hmeasure⟩ := m.takeId.measure_snd draft.measurement []
      rw [hmeasure] at hcarry
      cases hcarry
      cases hdeed
      exact ⟨_, rfl, .given (Int.lt_add_of_pos_right _ Int.one_pos) hle _ _ rfl rfl⟩
    · cases hcarry
  | updateKeyResult i draft =>
    simp only [carry, updateKeyResult] at hcarry
    split at hcarry
    · cases hcarry
    · rename_i current hget
      obtain ⟨lastId, hle, hmeasure⟩ := m.measure_snd draft.measurement
        (keptCheckpoints current.measurement draft.measurement)
      rw [hmeasure] at hcarry
      cases hcarry
      cases hdeed
      exact ⟨_, rfl, .turned current hget (.changed m _ _)⟩
  | recordProgress i update =>
    simp only [carry, recordProgress] at hcarry
    split at hcarry
    · cases hcarry
    · rename_i current hget
      rcases current.measurement.report_cases update with ⟨μ, htakes, hreport⟩ | ⟨e, hreport⟩
      · rw [hreport] at hcarry
        cases hcarry
        cases hdeed
        exact ⟨_, rfl, .turned current hget (.reported htakes)⟩
      · rw [hreport] at hcarry
        cases hcarry
  | addCheckpoint i draft =>
    simp only [carry, addCheckpoint] at hcarry
    split at hcarry
    · rename_i current hget
      split at hcarry
      · rename_i range checkpoints hμ
        cases hcarry
        cases hdeed
        refine ⟨_, rfl, .turned current hget ?_⟩
        rw [hμ]
        exact .added range checkpoints _
      · cases hcarry
    · cases hcarry
  | _ => cases hdeed

end Memory

/-! ### What answered commands make of measurements -/

/-- What has been done to one key result. -/
def Deed.on (id : KeyResultId) (deeds : List (KeyResultId × Deed)) : List Deed :=
  deeds.filterMap fun e => if e.1 = id then some e.2 else none

/-- What some answered commands have done to one key result. -/
def Answered.deedsOn (id : KeyResultId) (answered : List Answered) : List Deed :=
  Deed.on id (answered.filterMap Answered.deed)

namespace Deed

variable {deeds : List (KeyResultId × Deed)} {id : KeyResultId} {deed : Deed}

theorem on_append_self : on id (deeds ++ [(id, deed)]) = on id deeds ++ [deed] := by
  simp [on, List.filterMap_append]

theorem on_append_of_ne {i : KeyResultId} (h : i ≠ id) :
    on id (deeds ++ [(i, deed)]) = on id deeds := by
  simp [on, List.filterMap_append, h]

theorem on_eq_nil (h : ∀ e ∈ deeds, e.1 ≠ id) : on id deeds = [] :=
  List.filterMap_eq_nil_iff.2 fun e he => if_neg (h e he)

end Deed

namespace Memory

variable {m m' : Memory} {deeds : List (KeyResultId × Deed)}

/-- The measurements of all key results are told by what has been done to them, and nothing has been
done under an identifier that has not been given. -/
structure ToldBy (m : Memory) (deeds : List (KeyResultId × Deed)) : Prop where
  given : ∀ e ∈ deeds, e.1 ≤ m.lastId
  told : ∀ id k, m.keyResults.get? id = some k → Deed.Told (Deed.on id deeds) k.measurement

namespace ToldBy

/-- Key results of which each has the measurement that it had. -/
theorem of_measurements (h : m.ToldBy deeds) (hle : m.lastId ≤ m'.lastId)
    (hsame : ∀ id k', m'.keyResults.get? id = some k' →
      ∃ k, m.keyResults.get? id = some k ∧ k'.measurement = k.measurement) : m'.ToldBy deeds where
  given e he := Int.le_trans (h.given e he) hle
  told id k' hget := by
    obtain ⟨k, hk, hmeasurement⟩ := hsame id k' hget
    exact hmeasurement ▸ h.told id k hk

/-- A call that fails leaves all measurements as they are. -/
theorem refused (h : m.ToldBy deeds) {c : Call} {e : Failure}
    (hcarry : Memory.carry c m = (.error e, m')) : m'.ToldBy deeds := by
  have hrecords := m.undone_carry c e (by rw [hcarry])
  rw [hcarry] at hrecords
  obtain ⟨lastId, rfl⟩ := eq_of_records hrecords
  have hle := (touched_carry c m).lastId_le
  rw [hcarry] at hle
  exact h.of_measurements hle fun _ k hget => ⟨k, hget, rfl⟩

/-- One key result has got another measurement, or its first one. -/
theorem insert (h : m.ToldBy deeds) (hm : m.Reachable) (hle : m.lastId ≤ m'.lastId) {id : KeyResultId}
    {deed : Deed} {k' : KeyResult} (hinsert : m'.keyResults = m.keyResults.insert id k')
    (hyields : m.Yields m' id deed k'.measurement) : m'.ToldBy (deeds ++ [(id, deed)]) where
  given e he := by
    rcases List.mem_append.1 he with he | he
    · exact Int.le_trans (h.given e he) hle
    rw [List.mem_singleton.1 he]
    cases hyields with
    | turned k hget _ =>
      have hid : k.id = id := hm.ownKeys.keyResults id k hget
      exact Int.le_trans (hm.numbered.le_lastId hget (hid ▸ List.mem_cons_self ..)) hle
    | given _ hgiven _ _ _ _ => exact hgiven
  told i k hget := by
    rw [hinsert, Table.get?_insert] at hget
    by_cases hi : id = i
    · subst hi
      rw [if_pos rfl, Option.some_inj] at hget
      subst hget
      rw [Deed.on_append_self]
      cases hyields with
      | turned old hold hturns => exact (h.told id old hold).turns hturns
      | given hnew _ m₀ draft hdeed hmeasure =>
        -- nothing has been done under a new identifier
        have hnone : Deed.on id deeds = [] := Deed.on_eq_nil fun e he hid =>
          Int.not_le.2 hnew (hid ▸ h.given e he)
        rw [hnone, hdeed, hmeasure]
        exact .created m₀ draft
    · rw [if_neg hi] at hget
      rw [Deed.on_append_of_ne hi]
      exact h.told i k hget

/-- A call that is replied to leaves all measurements told, with what it has done. -/
theorem replied (h : m.ToldBy deeds) (hm : m.Reachable) {c : Call} {reply : c.Reply}
    (hcarry : Memory.carry c m = (.ok reply, m')) : m'.ToldBy (deeds ++ (c.deed reply).toList) := by
  have hle := (touched_carry c m).lastId_le
  rw [hcarry] at hle
  cases hdeed : c.deed reply with
  | none =>
    rw [Option.toList_none, List.append_nil]
    refine h.of_measurements hle fun id k' hget => ?_
    have hc : c.Unmeasuring := by
      cases c with
      | createKeyResult | updateKeyResult | recordProgress | addCheckpoint => cases hdeed
      | _ => trivial
    exact measurement_unmeasuring hc (by rwa [hcarry])
  | some e =>
    obtain ⟨id, deed⟩ := e
    obtain ⟨k', hinsert, hyields⟩ := keyResults_of_deed hcarry hdeed
    exact h.insert hm hle hinsert hyields

end ToldBy

end Memory

namespace System

variable {answered : List Answered} {s : System}

/-- **The measurements of all key results are told by the answered commands.** -/
theorem Journal.toldBy (h : Journal answered s) :
    s.store.ToldBy (answered.filterMap Answered.deed) := by
  refine h.induction (P := fun deeds m => m.ToldBy deeds) ⟨?_, ?_⟩ ?_ ?_ ?_ ?_
  · exact fun e he => absurd he List.not_mem_nil
  · exact fun id k hget => by cases hget
  · intro deeds m name type parent hm
    exact hm.of_measurements (Int.le_add_of_nonneg_right (by decide)) fun _ k hget => ⟨k, hget, rfl⟩
  · intro deeds m team parent hm
    exact hm.of_measurements (Int.le_refl _) fun _ k hget => ⟨k, hget, rfl⟩
  · intro deeds m c e m' _ hcarry hm
    exact hm.refused hcarry
  · intro deeds m c reply m' hreachable hcarry hm
    exact hm.replied hreachable hcarry

/-- **The checkpoints, the start, the target and the present value of a percentage are told by the
answered commands**, whatever commands are carried out side by side.  A key result is always of the kind
of the last draft.  A percentage has the checkpoints that have been answered since it has become one,
each once, ordered by value and then by identifier; its start and target are those of the last draft,
and its present value is that of the last report since then, or of the draft. -/
theorem percent_of_journal (h : Relation.ReflTransGen Step ⟨Memory.empty, []⟩ s) :
    (∃ answered, Journal answered s) ∧
      ∀ answered, Journal answered s → ∀ id k, s.store.keyResults.get? id = some k →
        (∃ last, ((Answered.deedsOn id answered).filterMap Deed.draft?).getLast? = some last ∧
          last.kind = k.measurement.kind) ∧
        ∀ range checkpoints, k.measurement = .percent range checkpoints →
          Deed.Gathers (Answered.deedsOn id answered) checkpoints ∧
          (checkpoints.map Checkpoint.id).Nodup ∧
          checkpoints.Pairwise (fun a b => a.value.totalRank < b.value.totalRank ∨
            a.value.totalRank = b.value.totalRank ∧ a.id < b.id) ∧
          Deed.Spans (Answered.deedsOn id answered) range := by
  refine ⟨exists_journal h, fun answered hjournal id k hget => ?_⟩
  have htold := hjournal.toldBy.told id k hget
  refine ⟨htold.kind, fun range checkpoints hμ => ?_⟩
  obtain ⟨hgather, hsorted, hspan⟩ := htold.percent range checkpoints hμ
  have hids : (checkpoints.map Checkpoint.id).Nodup := by
    have hall := hjournal.reachable.numbered.nodup_ids hget
    rw [KeyResult.ids, hμ] at hall
    exact (List.nodup_cons.1 hall).2
  refine ⟨hgather, hids, ?_, hspan⟩
  refine (hsorted.and (List.pairwise_map.1 hids)).imp fun {a b} hab => ?_
  obtain ⟨hle, hne⟩ := hab
  rcases Checkpoint.le_iff.1 hle with hlt | ⟨hsame, hle⟩
  · exact .inl hlt
  · exact .inr ⟨hsame, Int.lt_iff_le_and_ne.2 ⟨hle, hne⟩⟩

/-- A store with a team and a period. -/
def opened : Memory :=
  ((Memory.empty.addTeam "Products" .unit none).2.createPeriod "2026 Q1" ⟨2026, 1, 1⟩ ⟨2026, 3, 31⟩).2

/-- A key result is a percentage with a checkpoint, then it is measured in another way, and in the end
it is a percentage again, which gets two checkpoints and a report before its range is turned round. -/
def regaining : List Command :=
  let draft (measurement : MeasurementDraft) : KeyResultDraft :=
    ⟨"Ship", "", .max, measurement⟩
  let upward : MeasurementDraft :=
    .percent ⟨.ofDecimal false 0 0, .ofDecimal false 9 0, .ofDecimal false 1 0⟩
  let downward : MeasurementDraft :=
    .percent ⟨.ofDecimal false 9 0, .ofDecimal false 0 0, .ofDecimal false 7 0⟩
  [.createGoal 1 2 ⟨"Grow", "", .p0, .max, .delivery, .stability, ""⟩,
    .createKeyResult 3 (draft upward),
    .addCheckpoint 4 ⟨.ofDecimal false 5 0, ⟨91, by decide⟩⟩,
    .updateKeyResult 4 (draft (.boolean true)),
    .updateKeyResult 4 (draft upward),
    .addCheckpoint 4 ⟨.ofDecimal false 6 0, ⟨81, by decide⟩⟩,
    .addCheckpoint 4 ⟨.ofDecimal false 4 0, ⟨19, by decide⟩⟩,
    .recordProgress 4 (.percentCurrent (.ofDecimal false 7 0)),
    .updateKeyResult 4 (draft downward),
    .recordProgress 4 (.percentCurrent (.ofDecimal false 5 0)),
    .recordProgress 4 (.boolean true)]

/-- The first checkpoint is gone; the other two have stayed, in the order of their values.  The last
report has been refused. -/
theorem percent_of_journal_regaining :
    let range : MetricRange Double :=
      ⟨.ofDecimal false 9 0, .ofDecimal false 0 0, .ofDecimal false 5 0⟩
    let checkpoints : List Checkpoint :=
      [⟨7, .ofDecimal false 4 0, ⟨19, by decide⟩⟩, ⟨6, .ofDecimal false 6 0, ⟨81, by decide⟩⟩]
    ∃ answered s k, Relation.ReflTransGen Step ⟨Memory.empty, []⟩ s ∧ Journal answered s ∧
      s.store.keyResults.get? 4 = some k ∧ k.measurement = .percent range checkpoints ∧
      (Answered.deedsOn 4 answered).length = 9 ∧
      Deed.Gathers (Answered.deedsOn 4 answered) checkpoints ∧
      (checkpoints.map Checkpoint.id).Nodup ∧ Deed.Spans (Answered.deedsOn 4 answered) range := by
  intro range checkpoints
  have hstart : Journal [] ⟨opened, []⟩ :=
    (Journal.start.addTeam "Products" .unit none).createPeriod "2026 Q1" ⟨2026, 1, 1⟩ ⟨2026, 3, 31⟩
  obtain ⟨running, hjournal⟩ := hstart.exists_answers regaining
  have hmeasured : ((opened.answers regaining).2.keyResults.get? 4).map KeyResult.measurement =
      some (.percent range checkpoints) := by decide +kernel
  have hlength : (Answered.deedsOn 4 (opened.answers regaining).1).length = 9 := by decide +kernel
  obtain ⟨k, hget, hμ⟩ := Option.map_eq_some_iff.1 hmeasured
  obtain ⟨-, hall⟩ := percent_of_journal hjournal.steps
  obtain ⟨-, hpercent⟩ := hall _ hjournal 4 k hget
  obtain ⟨hgather, hids, -, hspan⟩ := hpercent range checkpoints hμ
  exact ⟨_, _, k, hjournal.steps, hjournal, hget, hμ, hlength, hgather, hids, hspan⟩

end System

end Objectives
