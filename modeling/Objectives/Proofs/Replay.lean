/- # Reports of progress

A report sets one thing: whether a stage is done, the present value of a metric, or a flag.  Whatever
else a measurement says stays as it is.  So all that remains of a sequence of reports, some of them
refused, is the last one of each thing that was accepted.

Main definitions:

* `Datum`, `Finding`, `Measurement.read` — the things that reports set, and what a measurement says of
  them;
* `Measurement.frame` — what it says besides;
* `Measurement.replay`, `Measurement.accepted` — a measurement after some reports, and those of them
  that are accepted on the way;
* `Measurement.lastAccepted` — the last accepted report of one thing.

Main results:

* `Measurement.frame_replay`, `Measurement.read_replay` — what is left as it is, and what is set;
* `Measurement.eq_of_read` — a measurement is its frame and what can be read;
* `Progress.ofStages_mono` — stages that are done raise the progress of a project;
* `Measurement.replay_lastAccepted` — **what reports make of a measurement is told by the last accepted
  report of each thing**.
-/

import Mathlib.Algebra.GroupWithZero.Nat
import Mathlib.Data.List.Forall2
import Mathlib.Data.List.Nodup
import Objectives.Progress

set_option relaxedAutoImplicit false
set_option autoImplicit false

namespace Objectives

/-! ### What reports set -/

/-- One thing that reports set: whether a stage is done, the present value of a metric, or the flag of a
key result that is done or not. -/
inductive Datum
  | stage (id : StageId)
  | current
  | flag
  deriving DecidableEq

/-- What is said of one thing. -/
inductive Finding
  | done (done : Bool)
  | value (value : Double)
  deriving DecidableEq

namespace ProgressUpdate

/-- What a report is about. -/
def datum : ProgressUpdate → Datum
  | stage id _ => .stage id
  | percentCurrent _ => .current
  | linearCurrent _ => .current
  | boolean _ => .flag

/-- What a report says of it. -/
def finding : ProgressUpdate → Finding
  | stage _ done => .done done
  | percentCurrent value => .value value
  | linearCurrent value => .value value
  | boolean done => .done done

end ProgressUpdate

/-- The stage but for whether it is done. -/
def Stage.unmarked (s : Stage) : Stage := { s with done := false }

theorem Stage.eq_of_unmarked {s s' : Stage} (h : s'.unmarked = s.unmarked) (hdone : s'.done = s.done) :
    s' = s := by
  cases s
  cases s'
  simp_all [unmarked]

namespace Measurement

/-- What a measurement says of one thing; nothing of what it does not have.  Of stages with one
identifier, the first counts. -/
def read : Measurement → Datum → Option Finding
  | project stages, .stage id => (stages.find? fun s => s.id = id).map fun s => .done s.done
  | percent range _, .current => some (.value range.current)
  | linear range, .current => some (.value range.current)
  | boolean done, .flag => some (.done done)
  | _, _ => none

/-- What a measurement says besides: the kind, the start, the target and the checkpoints, and the stages
in their order but for what is done. -/
def frame : Measurement → Measurement
  | project stages => project (stages.map Stage.unmarked)
  | percent range checkpoints => percent { range with current := range.start } checkpoints
  | linear range => linear { range with current := range.start }
  | boolean _ => boolean false

/-- The stages of a project. -/
def stages : Measurement → List Stage
  | project stages => stages
  | _ => []

variable {m m' : Measurement} {u : ProgressUpdate}

/-! ### One report -/

theorem map_setStage {id : StageId} {done : Bool} {stages stages' : List Stage}
    (h : setStage id done stages = some stages') :
    stages'.map Stage.unmarked = stages.map Stage.unmarked := by
  fun_induction setStage id done stages generalizing stages' with
  | case1 => cases h
  | case2 s rest hid =>
    cases h
    rfl
  | case3 s rest hid ih =>
    obtain ⟨rest', hrest, rfl⟩ := Option.map_eq_some_iff.1 h
    exact congrArg (_ :: ·) (ih hrest)

/-- Only of the stage that is named is something else said than before. -/
theorem find?_setStage {id : StageId} {done : Bool} {stages stages' : List Stage}
    (h : setStage id done stages = some stages') (i : StageId) :
    (stages'.find? fun s => s.id = i).map Stage.done =
      if id = i then some done else (stages.find? fun s => s.id = i).map Stage.done := by
  fun_induction setStage id done stages generalizing stages' with
  | case1 => cases h
  | case2 s rest hid =>
    cases h
    subst hid
    by_cases hi : s.id = i <;> simp [hi]
  | case3 s rest hid ih =>
    obtain ⟨rest', hrest, rfl⟩ := Option.map_eq_some_iff.1 h
    by_cases hi : s.id = i
    · have hother : id ≠ i := fun hsame => hid (hi.trans hsame.symm)
      simp [hi, hother]
    · simpa [hi] using ih hrest

theorem Takes.frame (h : m.Takes u m') : m'.frame = m.frame := by
  cases h with
  | stage hset => exact congrArg project (map_setStage hset)
  | percentCurrent checkpoints hrange =>
    obtain rfl := MetricRange.eq_of_withCurrent hrange
    rfl
  | linearCurrent hrange =>
    obtain rfl := MetricRange.eq_of_withCurrent hrange
    rfl
  | boolean flag done => rfl

/-- **A report sets what it is about**, and nothing else that can be read. -/
theorem Takes.read (h : m.Takes u m') (d : Datum) :
    m'.read d = if u.datum = d then some u.finding else m.read d := by
  cases h with
  | stage hset =>
    cases d with
    | stage i =>
      have hfind := congrArg (Option.map Finding.done) (find?_setStage hset i)
      rw [Option.map_map, apply_ite (Option.map Finding.done), Option.map_map] at hfind
      simpa [Measurement.read, ProgressUpdate.datum, ProgressUpdate.finding, Function.comp_def]
        using hfind
    | current => rfl
    | flag => rfl
  | percentCurrent checkpoints hrange =>
    obtain rfl := MetricRange.eq_of_withCurrent hrange
    cases d <;> rfl
  | linearCurrent hrange =>
    obtain rfl := MetricRange.eq_of_withCurrent hrange
    cases d <;> rfl
  | boolean flag done => cases d <;> rfl

/-! ### Sequences of reports -/

/-- The measurement after some reports, accepted or refused. -/
def replay (m : Measurement) (reports : List ProgressUpdate) : Measurement :=
  reports.foldl (fun m u => (m.report u).2) m

/-- Those of the reports that are accepted, each by the measurement as it then is. -/
def accepted (m : Measurement) : List ProgressUpdate → List ProgressUpdate
  | [] => []
  | u :: rest =>
    match m.report u with
    | (.ok _, m') => u :: accepted m' rest
    | (.error _, m') => accepted m' rest

/-- The last of the accepted reports that is about one thing, if there is one. -/
def lastAccepted (m : Measurement) (reports : List ProgressUpdate) (d : Datum) :
    Option ProgressUpdate :=
  ((m.accepted reports).filter fun u => u.datum = d).getLast?

theorem frame_report (m : Measurement) (u : ProgressUpdate) : (m.report u).2.frame = m.frame := by
  rcases m.report_cases u with ⟨m', htakes, hreport⟩ | ⟨e, hreport⟩
  · rw [hreport, htakes.frame]
  · rw [hreport]

/-- **No report changes anything else.** -/
theorem frame_replay (m : Measurement) (reports : List ProgressUpdate) :
    (m.replay reports).frame = m.frame := by
  induction reports generalizing m with
  | nil => rfl
  | cons u rest ih => exact (ih (m.report u).2).trans (frame_report m u)

theorem lastAccepted_cons_of_error {e : Failure} (h : m.report u = (.error e, m'))
    (rest : List ProgressUpdate) (d : Datum) :
    m.lastAccepted (u :: rest) d = m'.lastAccepted rest d := by
  rw [lastAccepted, accepted, h, lastAccepted]

theorem lastAccepted_cons_of_ok (h : m.report u = (.ok (), m')) (rest : List ProgressUpdate)
    (d : Datum) :
    m.lastAccepted (u :: rest) d =
      (m'.lastAccepted rest d).or (if u.datum = d then some u else none) := by
  rw [lastAccepted, accepted, h, List.filter_cons, lastAccepted]
  by_cases hd : u.datum = d
  · rw [if_pos (by simpa using hd), if_pos hd, List.getLast?_cons]
    cases List.getLast? _ <;> rfl
  · rw [if_neg (by simpa using hd), if_neg hd, Option.or_none]

/-- **What can be read in the end is what the last accepted report says**, or what could be read at the
start. -/
theorem read_replay (m : Measurement) (reports : List ProgressUpdate) (d : Datum) :
    (m.replay reports).read d =
      ((m.lastAccepted reports d).map ProgressUpdate.finding).or (m.read d) := by
  induction reports generalizing m with
  | nil => rfl
  | cons u rest ih =>
    rw [replay, List.foldl_cons, ← replay, ih]
    rcases m.report_cases u with ⟨m', htakes, hreport⟩ | ⟨e, hreport⟩
    · rw [lastAccepted_cons_of_ok hreport, hreport, htakes.read]
      cases m'.lastAccepted rest d with
      | some later => rfl
      | none => by_cases hd : u.datum = d <;> simp [hd]
    · rw [lastAccepted_cons_of_error hreport, hreport]

/-! ### What can be told apart -/

theorem ids_of_unmarked {stages stages' : List Stage}
    (h : stages'.map Stage.unmarked = stages.map Stage.unmarked) :
    stages'.map Stage.id = stages.map Stage.id := by
  have hids := congrArg (List.map Stage.id) h
  rwa [List.map_map, List.map_map] at hids

/-- Stages of distinct identifiers are what is left of them and what is done. -/
theorem eq_of_find? {stages stages' : List Stage} (distinct : (stages.map Stage.id).Nodup)
    (hframe : stages'.map Stage.unmarked = stages.map Stage.unmarked)
    (hfind : ∀ i, (stages'.find? fun s => s.id = i).map Stage.done =
      (stages.find? fun s => s.id = i).map Stage.done) : stages' = stages := by
  induction stages generalizing stages' with
  | nil => simpa using hframe
  | cons s rest ih =>
    cases stages' with
    | nil => cases hframe
    | cons s' rest' =>
      rw [List.map_cons, List.map_cons, List.cons.injEq] at hframe
      obtain ⟨hstage, hrest⟩ := hframe
      have hid : s'.id = s.id := (Stage.mk.inj hstage).1
      obtain ⟨hfresh, hdistinct⟩ := List.nodup_cons.1 distinct
      have hdone : s'.done = s.done := by simpa [hid] using hfind s.id
      have hids : rest'.map Stage.id = rest.map Stage.id := ids_of_unmarked hrest
      rw [Stage.eq_of_unmarked hstage hdone, ih hdistinct hrest fun i => ?_]
      by_cases hi : s.id = i
      · -- the other stages have other identifiers
        have hnone : ∀ l : List Stage, s.id ∉ l.map Stage.id →
            l.find? (fun t => decide (t.id = i)) = none := by
          intro l hl
          rw [List.find?_eq_none]
          intro t ht hti
          exact hl (List.mem_map.2 ⟨t, ht, (of_decide_eq_true hti).trans hi.symm⟩)
        rw [hnone rest hfresh, hnone rest' (hids ▸ hfresh)]
      · simpa [hid, hi] using hfind i

/-- **A measurement is its frame and what can be read**, if its stages have distinct identifiers. -/
theorem eq_of_read (distinct : (m.stages.map Stage.id).Nodup) (hframe : m'.frame = m.frame)
    (hread : ∀ d, m'.read d = m.read d) : m' = m := by
  cases m <;> cases m' <;> simp only [frame, reduceCtorEq, project.injEq, percent.injEq, linear.injEq,
    MetricRange.mk.injEq] at hframe
  case project.project stages stages' =>
    refine congrArg project (eq_of_find? distinct hframe fun i => ?_)
    have hi := hread (.stage i)
    simp only [read] at hi
    cases h : stages.find? fun s => s.id = i <;>
      cases h' : stages'.find? fun s => s.id = i <;> simp_all
  case percent.percent range checkpoints range' checkpoints' =>
    have hcurrent := hread .current
    simp only [read, Option.some_inj, Finding.value.injEq] at hcurrent
    cases range
    cases range'
    simp_all
  case linear.linear range range' =>
    have hcurrent := hread .current
    simp only [read, Option.some_inj, Finding.value.injEq] at hcurrent
    cases range
    cases range'
    simp_all
  case boolean.boolean =>
    have hflag := hread .flag
    simpa [read] using hflag

/-- Whether a stage is done can be read, if no other stage has its identifier. -/
theorem read_stage {stages : List Stage} (distinct : (stages.map Stage.id).Nodup) {s : Stage}
    (hs : s ∈ stages) : (project stages).read (.stage s.id) = some (.done s.done) := by
  obtain ⟨t, ht⟩ : ∃ t, (stages.find? fun t => t.id = s.id) = some t :=
    Option.isSome_iff_exists.1 (List.find?_isSome.2 ⟨s, hs, by simp⟩)
  have hid : t.id = s.id := by simpa using List.find?_some ht
  rw [read, ht, List.inj_on_of_nodup_map distinct (List.mem_of_find?_eq_some ht) hs hid]
  rfl

theorem kind_frame (m : Measurement) : m.frame.kind = m.kind := by
  cases m <;> rfl

theorem stages_frame (m : Measurement) : m.frame.stages = m.stages.map Stage.unmarked := by
  cases m <;> rfl

theorem kind_of_frame (h : m'.frame = m.frame) : m'.kind = m.kind := by
  rw [← kind_frame m', h, kind_frame]

/-- The stages that reports leave have the identifiers that they had. -/
theorem ids_of_frame (h : m'.frame = m.frame) :
    m'.stages.map Stage.id = m.stages.map Stage.id :=
  ids_of_unmarked (by rw [← stages_frame, ← stages_frame, h])

end Measurement

/-! ### Progress of projects -/

namespace Progress

/-- Stages of which no fewer are done, at the same weights, make no less progress. -/
theorem ofStages_mono {stages stages' : List Stage}
    (h : List.Forall₂ (fun s s' => s.weight = s'.weight ∧ (s.done = true → s'.done = true))
      stages stages') : (ofStages stages).value ≤ (ofStages stages').value := by
  have hsum : total ((stages.filter (·.done)).map (·.weight.value)) ≤
      total ((stages'.filter (·.done)).map (·.weight.value)) := by
    induction h with
    | nil => exact Nat.le_refl 0
    | @cons s s' rest rest' hs _ ih =>
      cases hdone : s.done with
      | true =>
        rw [List.filter_cons_of_pos hdone, List.filter_cons_of_pos (hs.2 hdone), List.map_cons,
          List.map_cons, hs.1]
        exact Nat.add_le_add_left ih _
      | false =>
        rw [List.filter_cons_of_neg (by simp [hdone]), List.filter_cons]
        split
        · exact Nat.le_trans ih (Nat.le_add_left _ _)
        · exact ih
  refine Nat.le_min.2 ⟨Nat.le_trans (Nat.min_le_left ..) hsum, Nat.min_le_right ..⟩

end Progress

namespace Measurement

/-- Marking a stage as done leaves the weights as they are, and the stages done that are. -/
theorem forall₂_setStage {id : StageId} {stages stages' : List Stage}
    (h : setStage id true stages = some stages') :
    List.Forall₂ (fun s s' => s.weight = s'.weight ∧ (s.done = true → s'.done = true))
      stages stages' := by
  fun_induction setStage id true stages generalizing stages' with
  | case1 => cases h
  | case2 s rest hid =>
    cases h
    exact .cons ⟨rfl, fun _ => rfl⟩ (List.forall₂_same.2 fun _ _ => ⟨rfl, fun hdone => hdone⟩)
  | case3 s rest hid ih =>
    obtain ⟨rest', hrest, rfl⟩ := Option.map_eq_some_iff.1 h
    exact .cons ⟨rfl, fun hdone => hdone⟩ (ih hrest)

/-- To mark a stage as done takes no progress back. -/
theorem progress_report_done (m : Measurement) (id : StageId) :
    (Progress.ofMeasurement m).value ≤
      (Progress.ofMeasurement (m.report (.stage id true)).2).value := by
  rcases m.report_cases (.stage id true) with ⟨m', htakes, hreport⟩ | ⟨e, hreport⟩
  · rw [hreport]
    cases htakes with
    | stage hset => exact Progress.ofStages_mono (forall₂_setStage hset)
  · exact Nat.le_of_eq (by rw [hreport])

/-- To mark further stages as done takes no progress back. -/
theorem progress_replay_done {reports : List ProgressUpdate}
    (h : ∀ u ∈ reports, ∃ id, u = .stage id true) (m : Measurement) :
    (Progress.ofMeasurement m).value ≤ (Progress.ofMeasurement (m.replay reports)).value := by
  induction reports generalizing m with
  | nil => exact Nat.le_refl _
  | cons u rest ih =>
    obtain ⟨id, rfl⟩ := h u (List.mem_cons_self ..)
    exact Nat.le_trans (progress_report_done m id)
      (ih (fun u hu => h u (List.mem_cons_of_mem _ hu)) (m.report (.stage id true)).2)

/-- **What reports make of a measurement is told by the last accepted report of each thing.**  A refused
report leaves the measurement as it is.  The kind, the start, the target and the checkpoints never change,
nor do the stages but for what is done.  What can be read in the end, which is whether each stage is done,
the present value or the flag, is what the last accepted report of it says, or what could be read at the
start; so sequences of reports with the same last accepted ones make the same measurement of it.  The
progress of a project is the sum of the weights of the stages that are done, at most 100, and is not
lowered by further stages that are done. -/
theorem replay_lastAccepted {m : Measurement} (distinct : (m.stages.map Stage.id).Nodup)
    (reports : List ProgressUpdate) :
    (∀ before u after e, reports = before ++ u :: after →
        ((m.replay before).report u).1 = .error e → m.replay (before ++ [u]) = m.replay before) ∧
      (m.replay reports).kind = m.kind ∧ (m.replay reports).frame = m.frame ∧
      (∀ d, (m.replay reports).read d =
        ((m.lastAccepted reports d).map ProgressUpdate.finding).or (m.read d)) ∧
      (∀ s ∈ (m.replay reports).stages,
        (m.replay reports).read (.stage s.id) = some (.done s.done)) ∧
      (∀ reports', (∀ d, m.lastAccepted reports' d = m.lastAccepted reports d) →
        m.replay reports' = m.replay reports) ∧
      ∀ stages, m.replay reports = .project stages →
        (Progress.ofMeasurement (m.replay reports)).value =
          min 100 ((stages.filter (·.done)).map (·.weight.value)).sum ∧
        ∀ further, (∀ u ∈ further, ∃ id, u = .stage id true) →
          (Progress.ofMeasurement (m.replay reports)).value ≤
            (Progress.ofMeasurement (m.replay (reports ++ further))).value := by
  have hframe := frame_replay m reports
  have hids : ((m.replay reports).stages.map Stage.id).Nodup := ids_of_frame hframe ▸ distinct
  refine ⟨?_, kind_of_frame hframe, hframe, read_replay m reports, ?_, ?_, ?_⟩
  · intro before u after e _ hrefused
    rw [replay, List.foldl_append]
    exact report_of_error hrefused
  · intro s hs
    cases hm : m.replay reports with
    | project stages =>
      rw [hm] at hs hids
      exact read_stage hids hs
    | percent | linear | boolean =>
      rw [hm] at hs
      cases hs
  · intro reports' hsame
    refine eq_of_read hids ((frame_replay m reports').trans hframe.symm) fun d => ?_
    rw [read_replay, read_replay, hsame]
  · intro stages hm
    refine ⟨?_, fun further hfurther => ?_⟩
    · rw [hm]
      exact Nat.min_comm ..
    · rw [replay, replay, List.foldl_append]
      exact progress_replay_done hfurther _

/-- A project of two stages: reports for another kind and for a stage that it does not have are refused,
and of the two reports of the second stage the later counts. -/
theorem replay_lastAccepted_project :
    let build : Stage := ⟨2, "Build", ⟨70, by decide⟩, false, 1⟩
    let test : Stage := ⟨3, "Test", ⟨40, by decide⟩, false, 2⟩
    let m : Measurement := .project [build, test]
    let reports : List ProgressUpdate :=
      [.stage 3 true, .boolean true, .stage 2 true, .stage 9 true, .stage 3 false]
    (m.stages.map Stage.id).Nodup ∧ m.accepted reports = [.stage 3 true, .stage 2 true, .stage 3 false] ∧
      ((m.replay [.stage 3 true]).report (.boolean true)).1 =
        .error (.progressMismatch .boolean .project) ∧
      m.replay [.stage 3 true, .boolean true] = m.replay [.stage 3 true] ∧
      m.lastAccepted reports (.stage 3) = some (.stage 3 false) ∧
      m.replay reports = .project [{ build with done := true }, test] ∧
      (m.replay reports).read (.stage 3) = some (.done false) ∧
      m.replay [.stage 3 false, .stage 2 true] = m.replay reports ∧
      (Progress.ofMeasurement (m.replay reports)).value ≤
        (Progress.ofMeasurement (m.replay (reports ++ [.stage 3 true]))).value := by
  intro build test m reports
  have distinct : (m.stages.map Stage.id).Nodup := by decide
  obtain ⟨hstays, -, -, hread, -, hsame, hproject⟩ := replay_lastAccepted distinct reports
  have hrefused : ((m.replay [.stage 3 true]).report (.boolean true)).1 =
      .error (.progressMismatch .boolean .project) := by rfl
  have hlast : m.lastAccepted reports (.stage 3) = some (.stage 3 false) := by rfl
  have hreplay : m.replay reports = .project [{ build with done := true }, test] := by rfl
  refine ⟨distinct, by rfl, hrefused, hstays [.stage 3 true] (.boolean true) _ _ rfl hrefused, hlast,
    hreplay, ?_, hsame _ fun d => ?_, ?_⟩
  · rw [hread, hlast]
    rfl
  · have haccepted : m.accepted [.stage 3 false, .stage 2 true] =
        [.stage 3 false, .stage 2 true] := by rfl
    have haccepted' : m.accepted reports = [.stage 3 true, .stage 2 true, .stage 3 false] := by rfl
    rw [lastAccepted, lastAccepted, haccepted, haccepted']
    by_cases h2 : d = .stage 2
    · subst h2
      rfl
    · by_cases h3 : d = .stage 3
      · subst h3
        rfl
      · simp [ProgressUpdate.datum, Ne.symm h2, Ne.symm h3]
  · exact (hproject _ hreplay).2 [.stage 3 true] fun u hu => ⟨3, List.mem_singleton.1 hu⟩

end Measurement

end Objectives
