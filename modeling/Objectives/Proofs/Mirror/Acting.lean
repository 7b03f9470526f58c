/- # Programs that act on mirrors

A program that writes leaves a store in memory and a database as mirrors of each other, under a renaming
that also knows the records it has made, and has the same outcome on both.  The database has an end of
its keys and memory has none, so this holds as long as the keys in memory fit.

Main definitions:

* `Memory.Fits` — the keys that order records are no greater than the greatest of the database;
* `ActsAlike` — programs that keep mirrors and have the same outcome.

Main results:

* `ReadsAlike.bind_acts`, `ActsAlike.bind` — acting alike is kept by what programs are written with.
-/

import Objectives.Proofs.Mirror

set_option relaxedAutoImplicit false
set_option autoImplicit false

namespace Objectives

/-- The keys that order records are no greater than the greatest key of the database. -/
structure Memory.Fits (m : Memory) : Prop where
  goals : ∀ {id g}, m.goals.get? id = some g → g.sortOrder ≤ Statement.maxOrder
  keyResults : ∀ {id k}, m.keyResults.get? id = some k → k.sortOrder ≤ Statement.maxOrder

namespace Memory.Fits

theorem iff_values {m : Memory} : m.Fits ↔
    (∀ g ∈ m.goals.values, g.sortOrder ≤ Statement.maxOrder) ∧
      ∀ k ∈ m.keyResults.values, k.sortOrder ≤ Statement.maxOrder := by
  constructor
  · intro h
    refine ⟨fun g hg => ?_, fun k hk => ?_⟩
    · obtain ⟨id, hget⟩ := Table.mem_values_iff.1 hg
      exact h.goals hget
    · obtain ⟨id, hget⟩ := Table.mem_values_iff.1 hk
      exact h.keyResults hget
  · rintro ⟨hgoals, hkeyResults⟩
    exact ⟨fun hg => hgoals _ (Table.mem_values_iff.2 ⟨_, hg⟩),
      fun hk => hkeyResults _ (Table.mem_values_iff.2 ⟨_, hk⟩)⟩

instance (m : Memory) : Decidable m.Fits := decidable_of_iff _ iff_values.symm

/-- What does not change goals and key results does not change their keys. -/
theorem of_eq {m m' : Memory} (h : m'.Fits) (hgoals : m'.goals = m.goals)
    (hkeyResults : m'.keyResults = m.keyResults) : m.Fits :=
  ⟨fun hg => h.goals (hgoals ▸ hg), fun hk => h.keyResults (hkeyResults ▸ hk)⟩

/-- Nothing happens to keys after a call of which only an answer is made. -/
theorem of_run_ask {α : Type} {m : Memory} {c : Call} {f : c.Reply → α}
    (h : (((Program.ask c).bind fun a => .done (f a)).run Memory.carry m).2.Fits) :
    (Memory.carry c m).2.Fits := by
  rw [run_map_snd, run_ask] at h
  exact h

/-- An edit of a goal leaves its key. -/
theorem of_updateGoal {m : Memory} {id : GoalId} {draft : GoalDraft}
    (h : (m.updateGoal id draft).2.Fits) : m.Fits := by
  unfold Memory.updateGoal at h
  cases hgoal : m.goals.get? id with
  | none =>
    rw [hgoal] at h
    exact h
  | some goal =>
    rw [hgoal] at h
    refine ⟨fun {id' g} hg => ?_, h.keyResults⟩
    by_cases hid : id = id'
    · subst hid
      have hsame : g = goal := Option.some.inj (hg.symm.trans hgoal)
      subst hsame
      exact h.goals (g := g.apply draft) (Table.get?_insert_self ..)
    · exact h.goals ((Table.get?_insert_of_ne _ _ hid).trans hg)

end Memory.Fits

variable {α α' β β' : Type}

/-- If the keys fit afterwards, the stores mirror each other afterwards, and the outcomes are the same.
-/
def ActsAlike (ρ : Renaming) (m : Memory) (db : Contents) (A : Renaming → α → α' → Prop)
    (p : Program α) (q : Program α') : Prop :=
  (p.run Memory.carry m).2.Fits →
    ∃ ρ', ρ.Le ρ' ∧ Mirror ρ' (p.run Memory.carry m).2 (q.run Contents.carry db).2 ∧
      SameOutcome (A ρ') (p.run Memory.carry m).1 (q.run Contents.carry db).1

variable {ρ : Renaming} {m : Memory} {db : Contents} {A : Renaming → α → α' → Prop}
  {B : Renaming → β → β' → Prop} {p : Program α} {q : Program α'}

/-- Programs that only read keep the mirrors as they are. -/
theorem ReadsAlike.acts (h : ReadsAlike m db (A ρ) p q) (hmirror : Mirror ρ m db) :
    ActsAlike ρ m db A p q := by
  intro _
  rw [h.memory, h.database]
  exact ⟨ρ, .refl ρ, hmirror, h.outcome⟩

/-- After related answers have been read programs act. -/
theorem ReadsAlike.bind_acts {R : α → α' → Prop} (h : ReadsAlike m db R p q)
    (hmirror : Mirror ρ m db) {f : α → Program β} {g : α' → Program β'}
    (hfg : ∀ a a', R a a' → p.run Memory.carry m = (.ok a, m) → ActsAlike ρ m db B (f a) (g a')) :
    ActsAlike ρ m db B (p.bind f) (q.bind g) := by
  intro hfits
  rcases h.cases with ⟨a, a', ha, hp, hq⟩ | ⟨e, e', code, details, hp, hq⟩
  · rw [Program.run_bind, hp] at hfits
    rw [Program.run_bind, Program.run_bind, hp, hq]
    exact hfg a a' ha hp hfits
  · rw [Program.run_bind, Program.run_bind, hp, hq]
    exact ⟨ρ, .refl ρ, hmirror, .error code details⟩

namespace ActsAlike

/-- Programs go on from related answers.  If the keys fit in the end, they have to fit in between. -/
theorem bind {f : α → Program β} {g : α' → Program β'} (h : ActsAlike ρ m db A p q)
    (hfits : ∀ a m', p.run Memory.carry m = (.ok a, m') → ((f a).run Memory.carry m').2.Fits →
      m'.Fits)
    (hfg : ∀ ρ' m' db' a a', ρ.Le ρ' → Mirror ρ' m' db' → A ρ' a a' →
      p.run Memory.carry m = (.ok a, m') → ActsAlike ρ' m' db' B (f a) (g a')) :
    ActsAlike ρ m db B (p.bind f) (q.bind g) := by
  intro hend
  rw [Program.run_bind] at hend
  rw [Program.run_bind, Program.run_bind]
  unfold ActsAlike at h
  generalize hp : p.run Memory.carry m = x at h hend
  generalize q.run Contents.carry db = y at h
  obtain ⟨x, m'⟩ := x
  obtain ⟨y, db'⟩ := y
  cases x with
  | error e =>
    obtain ⟨ρ', hle, hmirror, hout⟩ := h hend
    cases hout with
    | error code details => exact ⟨ρ', hle, hmirror, .error code details⟩
  | ok a =>
    obtain ⟨ρ', hle, hmirror, hout⟩ := h (hfits a m' hp hend)
    cases hout with
    | ok ha =>
      obtain ⟨ρ'', hle', hmirror', hout'⟩ := hfg ρ' m' db' a _ hle hmirror ha hp hend
      exact ⟨ρ'', hle.trans hle', hmirror', hout'⟩

/-- An answer is made of the answer of a program. -/
theorem map {f : α → β} {g : α' → β'} (h : ActsAlike ρ m db A p q)
    (hfg : ∀ ρ' a a', ρ.Le ρ' → A ρ' a a' → B ρ' (f a) (g a')) :
    ActsAlike ρ m db B (p.bind fun a => .done (f a)) (q.bind fun a' => .done (g a')) :=
  h.bind (fun _ _ _ hend => hend) fun _ _ _ a a' hle hmirror ha _ =>
    ReadsAlike.acts (.done (hfg _ a a' hle ha)) hmirror

/-- A call that succeeds, from what it does on both sides. -/
theorem ask (c c' : Call) {A : Renaming → c.Reply → c'.Reply → Prop} {reply : c.Reply} {m' : Memory}
    (hm : Memory.carry c m = (.ok reply, m'))
    (hdb : m'.Fits → ∃ reply' db' ρ', Contents.carry c' db = (.ok reply', db') ∧ ρ.Le ρ' ∧
      Mirror ρ' m' db' ∧ A ρ' reply reply') :
    ActsAlike ρ m db A (Program.ask c) (Program.ask c') := by
  intro hfits
  rw [run_ask, hm] at hfits
  obtain ⟨reply', db', ρ', hcarry, hle, hmirror, hreply⟩ := hdb hfits
  rw [run_ask, run_ask, hm, hcarry]
  exact ⟨ρ', hle, hmirror, .ok hreply⟩

/-- A call that is refused on both sides without a change. -/
theorem ask_error (hmirror : Mirror ρ m db) (c c' : Call) {A : Renaming → c.Reply → c'.Reply → Prop}
    {e e' : Failure} (hm : Memory.carry c m = (.error e, m))
    (hdb : Contents.carry c' db = (.error e', db)) (code : e.code = e'.code)
    (details : e.details = e'.details) : ActsAlike ρ m db A (Program.ask c) (Program.ask c') := by
  intro _
  rw [run_ask, run_ask, hm, hdb]
  exact ⟨ρ, .refl ρ, hmirror, .error code details⟩

end ActsAlike

/-! ### What a change leaves alone -/

section OwnedRows

variable {ν : Type} {p : KeyResultId → Bool} {id : KeyResultId}

/-- The rows of a key result all stay if rows are kept by their key result, and this one's are. -/
theorem filter_owner_of_kept (hid : p id = true) (list : List (Int × ν)) (owner : ν → KeyResultId) :
    (list.filter fun e => p (owner e.2)).filter (fun e => owner e.2 == id) =
      list.filter fun e => owner e.2 == id := by
  rw [List.filter_filter]
  refine List.filter_congr fun e _ => ?_
  by_cases he : owner e.2 = id
  · rw [he, hid, Bool.and_true]
  · rw [beq_false_of_ne he, Bool.false_and]

/-- None of them stays if they are not. -/
theorem filter_owner_of_gone (hid : p id = false) (list : List (Int × ν))
    (owner : ν → KeyResultId) :
    (list.filter fun e => p (owner e.2)).filter (fun e => owner e.2 == id) = [] := by
  rw [List.filter_filter]
  refine List.filter_eq_nil_iff.2 fun e _ => ?_
  by_cases he : owner e.2 = id <;> simp [he, hid]

end OwnedRows

/-- The deletion of key results leaves the measurements of the others. -/
theorem Rows.payload_deleteKeyResults {rows : Rows} {gone : KeyResultId → Bool} {id : KeyResultId}
    (hid : gone id = false) : (rows.deleteKeyResults gone).payload id = rows.payload id := by
  have hkept : (!gone id) = true := by rw [hid, Bool.not_false]
  have hunder {ν : Type} (t : Table KeyResultId ν) :
      (t.filter fun k _ => !gone k).get? id = t.get? id := by
    rw [Table.get?_filter, hid]
    cases t.get? id <;> rfl
  simp only [payload, deleteKeyResults, hunder]
  simp only [Table.filter, filter_owner_of_kept (p := fun k => !gone k) hkept]

namespace Mirror

variable {ρ' : Renaming} (h : Mirror ρ m db)

include h

theorem goals_mono (hle : ρ.Le ρ') : m.goals.Alike (Goal.In ρ') db.rows.goals :=
  h.goals.mono fun he => ⟨hle.goals _ _ he.1, he.2⟩

theorem shares_mono (hle : ρ.Le ρ') : m.shares.Alike (Share.In ρ') db.rows.shares :=
  h.shares.mono fun he => ⟨⟨hle.goals _ _ he.1.1, he.1.2⟩, he.2⟩

theorem keyResults_mono (hle : ρ.Le ρ') {rows : Rows}
    (hrows : ∀ id, rows.payload id = db.rows.payload id) :
    m.keyResults.Alike (KeyResult.In ρ' rows) db.rows.keyResults :=
  h.keyResults.mono fun he => he.mono hle (hrows _)

/-- Key results are taken out of both stores. -/
theorem delete_keyResults {p : KeyResultId → KeyResult → Bool} {q : KeyResultId → Bool}
    (hpq : ∀ {e e'}, KeyResult.In ρ db.rows e e' → e' ∈ db.rows.keyResults.entries →
      p e.1 e.2 = !q e'.1) :
    Mirror ρ { m with keyResults := m.keyResults.filter p }
      { db with rows := db.rows.deleteKeyResults q } := by
  have hkept := (h.keyResults.mem.filter (p := p) (q := fun id _ => !q id) fun he =>
    hpq he.1 he.2.2).mem
  refine { h with
    keyResults := hkept.mono fun {e e'} he => ?_
    keyResultComments := ?_
    stages := fun e he => h.stages e (List.mem_filter.1 he).1
    checkpoints := fun e he => h.checkpoints e (List.mem_filter.1 he).1 }
  · obtain ⟨⟨hin, -⟩, -, hmem⟩ := he
    have hstays : (!q e'.1) = true := (List.mem_filter.1 hmem).2
    exact hin.mono (.refl ρ) (Rows.payload_deleteKeyResults (by simpa using hstays))
  · simp only [Rows.deleteKeyResults, h.keyResultComments]
    rfl

end Mirror

end Objectives
