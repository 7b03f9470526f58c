/- # Weights set together

The weights of several key results of one goal are set by one request, which may name a key result more
than once.  The store in memory looks at the whole list before it sets anything; the database sets one
weight after the other, comes to the first key result that is none of the goal in the middle of the
list, and takes back what it has set before.  A caller sees no difference.

Main definitions:

* `Table.HoldsLast` — a table in which the values that a list names have what it names them with last;
* `SetsTogether` — what such a request comes to, whatever the store is;
* `Memory.Reweighed`, `Contents.Reweighed` — a store in which the weights of listed key results have
  changed, and nothing else.

Main results:

* `Table.holdsLast_setEach` — what is set last under a key is what is found there;
* `Session.forEach_setWeight_run`, `Session.forEach_setWeight_run_stranger` — a list of key results of
  the goal, and one with a first key result that is none;
* `SetsTogether.answer_eq` — the answer only depends on which key results are of the goal;
* `weights_set_together` — **both stores set all weights, for each key result the last one, or refuse
  the first key result that is none of the goal and leave everything as it was**.
-/

import Objectives.Proofs.Changes
import Objectives.Proofs.Links

set_option relaxedAutoImplicit false
set_option autoImplicit false

namespace Objectives

/-! ### Values set one after the other -/

namespace Table

variable {κ ν β : Type} [Key κ] [DecidableEq κ]

/-- In the second table a value that a list names has been set as the list names it last, and the other
values are those of the first table. -/
structure HoldsLast (set : β → ν → ν) (list : List (κ × β)) (t t' : Table κ ν) : Prop where
  last : ∀ before k b after, list = before ++ (k, b) :: after → k ∉ after.map Prod.fst →
    t'.get? k = (t.get? k).map (set b)
  others : ∀ k, k ∉ list.map Prod.fst → t'.get? k = t.get? k

/-- A value that is not named stays. -/
theorem get?_setEach_of_not_mem {set : β → ν → ν} {list : List (κ × β)} {k : κ}
    (h : k ∉ list.map Prod.fst) (t : Table κ ν) :
    (setEach set t list).get? k = t.get? k := by
  induction list generalizing t with
  | nil => rfl
  | cons item rest ih =>
    rw [List.map_cons, List.mem_cons, not_or] at h
    show (setEach set (t.modify item.1 (set item.2)) rest).get? k = t.get? k
    rw [ih h.2, get?_modify, if_neg h.1]

/-- What is set last is found, if it leaves nothing of what has been set before. -/
theorem holdsLast_setEach {set : β → ν → ν} (absorbs : ∀ b b' v, set b (set b' v) = set b v)
    (list : List (κ × β)) (t : Table κ ν) : HoldsLast set list t (setEach set t list) where
  last before k b after hlist hlast := by
    have hcut : setEach set t list =
        setEach set ((setEach set t before).modify k (set b)) after := by
      rw [hlist, setEach, List.foldl_append, List.foldl_cons]
      rfl
    rw [hcut, get?_setEach_of_not_mem hlast, get?_modify, if_pos rfl]
    -- what has been set before is a change that setting the last value does not see
    exact map_get?_setEach (absorbs b) t before k
  others _ h := get?_setEach_of_not_mem h t

end Table

/-! ### All or nothing -/

/-- Either all elements pass a test, or there is a first one that fails. -/
theorem all_or_first {α : Type} (p : α → Prop) (list : List α) :
    (∀ x ∈ list, p x) ∨
      ∃ before x after, list = before ++ x :: after ∧ (∀ y ∈ before, p y) ∧ ¬ p x := by
  induction list with
  | nil => exact .inl fun x hx => absurd hx List.not_mem_nil
  | cons y rest ih =>
    by_cases hy : p y
    · rcases ih with hall | ⟨before, x, after, rfl, hbefore, hx⟩
      · exact .inl (List.forall_mem_cons.2 ⟨hy, hall⟩)
      · exact .inr ⟨y :: before, x, after, rfl, List.forall_mem_cons.2 ⟨hy, hbefore⟩, hx⟩
    · exact .inr ⟨[], y, rest, rfl, fun _ h => absurd h List.not_mem_nil, hy⟩

/-- The first element that fails a test is the same wherever the list is cut. -/
theorem first_unique {α : Type} {p : α → Prop} {before before' after after' : List α} {x x' : α}
    (hcut : before ++ x :: after = before' ++ x' :: after') (hbefore : ∀ y ∈ before, p y)
    (hx : ¬ p x) (hbefore' : ∀ y ∈ before', p y) (hx' : ¬ p x') : x = x' := by
  induction before generalizing before' with
  | nil =>
    cases before' with
    | nil => exact (List.cons.inj hcut).1
    | cons y' rest' =>
      have hsame : x = y' := (List.cons.inj hcut).1
      exact absurd (hsame ▸ hbefore' y' (List.mem_cons_self ..)) hx
  | cons y rest ih =>
    obtain ⟨hy, hrest⟩ := List.forall_mem_cons.1 hbefore
    cases before' with
    | nil =>
      have hsame : y = x' := (List.cons.inj hcut).1
      exact absurd (hsame ▸ hy) hx'
    | cons y' rest' =>
      exact ih (List.cons.inj hcut).2 hrest (List.forall_mem_cons.1 hbefore').2

/-- What becomes of a request for the weights of some key results, where some are of the goal that it
is for.  It is carried out if all that it names are of the goal, and then the store is reweighed.  Else
it is refused for the first that is not, and the store is what it was. -/
structure SetsTogether {σ : Type} (OfGoal : KeyResultId → Prop) (Reweighed : σ → σ → Prop)
    (weights : List (KeyResultId × Weight)) (s : σ) (result : Except Failure Unit × σ) : Prop where
  ok_iff : result.1 = .ok () ↔ ∀ item ∈ weights, OfGoal item.1
  reweighed : result.1 = .ok () → Reweighed s result.2
  refused : ∀ e, result.1 = .error e →
    result.2 = s ∧ e.code = .keyResultNotFound ∧
    ∃ before id weight after, weights = before ++ (id, weight) :: after ∧
      (∀ item ∈ before, OfGoal item.1) ∧ ¬ OfGoal id ∧ e = .keyResultMissing id

namespace SetsTogether

variable {σ : Type} {OfGoal : KeyResultId → Prop} {Reweighed : σ → σ → Prop}
  {weights : List (KeyResultId × Weight)} {s : σ} {result : Except Failure Unit × σ}

/-- A request is settled by what becomes of it if all key results are of the goal, and if there is a
first that is not. -/
theorem of_cases
    (all : (∀ item ∈ weights, OfGoal item.1) → ∃ s', result = (.ok (), s') ∧ Reweighed s s')
    (first : ∀ before id weight after, weights = before ++ (id, weight) :: after →
      (∀ item ∈ before, OfGoal item.1) → ¬ OfGoal id → result = (.error (.keyResultMissing id), s)) :
    SetsTogether OfGoal Reweighed weights s result := by
  rcases all_or_first (fun item => OfGoal item.1) weights with
    hall | ⟨before, ⟨id, weight⟩, after, hweights, hbefore, hid⟩
  · obtain ⟨s', rfl, hs'⟩ := all hall
    exact ⟨iff_of_true rfl hall, fun _ => hs', nofun⟩
  · obtain rfl := first before id weight after hweights hbefore hid
    refine ⟨iff_of_false nofun fun hall => hid ?_, nofun, ?_⟩
    · rw [hweights] at hall
      exact hall (id, weight) (List.mem_append_right _ (List.mem_cons_self ..))
    · intro e he
      obtain rfl := Except.error.inj he
      exact ⟨rfl, rfl, before, id, weight, after, hweights, hbefore, hid, rfl⟩

/-- The answer only depends on which key results are of the goal. -/
theorem answer_eq {σ' : Type} {OfGoal' : KeyResultId → Prop} {Reweighed' : σ' → σ' → Prop} {s' : σ'}
    {result' : Except Failure Unit × σ'} (h : SetsTogether OfGoal Reweighed weights s result)
    (h' : SetsTogether OfGoal' Reweighed' weights s' result')
    (same : ∀ id, OfGoal id ↔ OfGoal' id) : result.1 = result'.1 := by
  have hiff : result.1 = .ok () ↔ result'.1 = .ok () := by
    simp only [h.ok_iff, h'.ok_iff, same]
  cases hresult : result.1 with
  | ok _ => exact (hiff.1 hresult).symm
  | error e =>
    cases hresult' : result'.1 with
    | ok _ => cases (hiff.2 hresult').symm.trans hresult
    | error e' =>
      obtain ⟨-, -, before, id, weight, after, hcut, hbefore, hid, rfl⟩ := h.refused e hresult
      obtain ⟨-, -, before', id', weight', after', hcut', hbefore', hid', rfl⟩ :=
        h'.refused e' hresult'
      simp only [← same] at hbefore' hid'
      have hfirst := first_unique (p := fun item => OfGoal item.1) (hcut.symm.trans hcut') hbefore hid
        hbefore' hid'
      rw [(Prod.mk.inj hfirst).1]

end SetsTogether

/-! ### The store in memory -/

/-- A key result with another weight. -/
def KeyResult.reweigh (weight : Weight) (k : KeyResult) : KeyResult := { k with weight }

namespace Memory

/-- There is a key result of a goal under an identifier. -/
def OfGoal (m : Memory) (goal : GoalId) (id : KeyResultId) : Prop :=
  ∃ k, m.keyResults.get? id = some k ∧ k.goal = goal

/-- Another store with the listed weights, and with nothing else changed. -/
def Reweighed (weights : List (KeyResultId × Weight)) (m m' : Memory) : Prop :=
  m' = { m with keyResults := m'.keyResults } ∧
    Table.HoldsLast KeyResult.reweigh weights m.keyResults m'.keyResults

variable {m : Memory} {goal : GoalId} {weights : List (KeyResultId × Weight)}

/-- The test for a stranger is passed by the key results that are none of the goal. -/
theorem ofGoal_iff {id : KeyResultId} :
    m.OfGoal goal id ↔ ((m.keyResults.get? id).map KeyResult.goal != some goal) = false := by
  rw [OfGoal, bne_eq_false_iff_eq, Option.map_eq_some_iff]

theorem strangerIn_eq_none (h : ∀ item ∈ weights, m.OfGoal goal item.1) :
    m.strangerIn goal weights = none := by
  rw [strangerIn, List.find?_eq_none]
  intro id hid
  obtain ⟨item, hitem, rfl⟩ := List.mem_map.1 hid
  exact Bool.eq_false_iff.1 (ofGoal_iff.1 (h item hitem))

theorem strangerIn_eq_some {before after : List (KeyResultId × Weight)} {id : KeyResultId}
    (hbefore : ∀ item ∈ before, m.OfGoal goal item.1) (hid : ¬ m.OfGoal goal id) (weight : Weight) :
    m.strangerIn goal (before ++ (id, weight) :: after) = some id := by
  have hnone : (before.map Prod.fst).find? (fun id =>
      (m.keyResults.get? id).map KeyResult.goal != some goal) = none := strangerIn_eq_none hbefore
  rw [ofGoal_iff, Bool.not_eq_false] at hid
  rw [strangerIn, List.map_append, List.map_cons, List.find?_append, hnone, Option.none_or]
  exact List.find?_cons_of_pos hid

/-- The store in memory sets weights together. -/
theorem setsTogether (m : Memory) (goal : GoalId) (weights : List (KeyResultId × Weight)) :
    SetsTogether (m.OfGoal goal) (Reweighed weights) weights m
      (carry (.setWeights goal weights) m) := by
  show SetsTogether _ _ _ _ (m.setWeights goal weights)
  have absorbs : ∀ weight weight' k, KeyResult.reweigh weight (k.reweigh weight') =
      KeyResult.reweigh weight k := fun _ _ _ => rfl
  refine .of_cases (fun hall => ?_) fun before id weight after hweights hbefore hid => ?_
  · refine ⟨{ m with keyResults := weights.foldl setWeight m.keyResults }, ?_, rfl, ?_⟩
    · rw [setWeights, strangerIn_eq_none hall]
    · exact Table.holdsLast_setEach absorbs weights m.keyResults
  · rw [setWeights, hweights, strangerIn_eq_some hbefore hid]

end Memory

/-! ### The database -/

/-- A row of a key result with another weight. -/
def KeyResultRow.reweigh (weight : Weight) (row : KeyResultRow) : KeyResultRow :=
  { row with weight := weight.value }

namespace Session

/-- After a list has been dealt with, its continuation is. -/
theorem forEach_append_run {α : Type} {f : α → Session Unit} {first : List α} {db db' : Contents}
    (h : forEach f first .standard db = (.ok (), db')) (rest : List α) :
    forEach f (first ++ rest) .standard db = forEach f rest .standard db' := by
  induction first generalizing db with
  | nil =>
    obtain rfl : db = db' := (Prod.mk.inj h).2
    rfl
  | cons a first ih =>
    obtain ⟨_, db₁, ha, hfirst⟩ := Effect.of_bind_run_ok h
    rw [List.cons_append, forEach, Effect.bind_run, ha]
    exact ih hfirst

end Session

namespace Contents

/-- There is a row of a key result of a goal under an identifier. -/
def OfGoal (db : Contents) (goal : GoalId) (id : KeyResultId) : Prop :=
  ∃ row, db.rows.keyResults.get? id = some row ∧ row.goal = goal

/-- Another database with the listed weights, and with nothing else changed. -/
def Reweighed (weights : List (KeyResultId × Weight)) (db db' : Contents) : Prop :=
  db' = { db with rows := { db.rows with keyResults := db'.rows.keyResults } } ∧
    Table.HoldsLast KeyResultRow.reweigh weights db.rows.keyResults db'.rows.keyResults

/-- The database after weights have been set one after the other. -/
def reweigh (db : Contents) (weights : List (KeyResultId × Weight)) : Contents :=
  { db with
    rows := { db.rows with
      keyResults := Table.setEach KeyResultRow.reweigh db.rows.keyResults weights } }

variable {db : Contents} {goal : GoalId} {weights : List (KeyResultId × Weight)}

theorem reweighed_reweigh (db : Contents) (weights : List (KeyResultId × Weight)) :
    Reweighed weights db (db.reweigh weights) := by
  have absorbs : ∀ weight weight' row, KeyResultRow.reweigh weight (row.reweigh weight') =
      KeyResultRow.reweigh weight row := fun _ _ _ => rfl
  exact ⟨rfl, Table.holdsLast_setEach absorbs weights db.rows.keyResults⟩

/-- A weight that has been set does not make a key result one of another goal. -/
theorem ofGoal_reweigh {id : KeyResultId} :
    (db.reweigh weights).OfGoal goal id ↔ db.OfGoal goal id := by
  have hgoal : ∀ weight row, (KeyResultRow.reweigh weight row).goal = row.goal := fun _ _ => rfl
  have hsame : ((db.reweigh weights).rows.keyResults.get? id).map KeyResultRow.goal =
      (db.rows.keyResults.get? id).map KeyResultRow.goal :=
    Table.map_get?_setEach hgoal db.rows.keyResults weights id
  rw [OfGoal, OfGoal, ← Option.map_eq_some_iff, ← Option.map_eq_some_iff, hsame]

end Contents

namespace Session

variable {db : Contents} {goal : GoalId} {weights : List (KeyResultId × Weight)}

/-- The weights of key results of the goal are all set. -/
theorem forEach_setWeight_run (h : ∀ item ∈ weights, db.OfGoal goal item.1) :
    forEach (setWeight goal) weights .standard db = (.ok (), db.reweigh weights) := by
  induction weights generalizing db with
  | nil => rfl
  | cons item rest ih =>
    obtain ⟨id, weight⟩ := item
    obtain ⟨⟨row, hrow, hgoal⟩, hrest⟩ := List.forall_mem_cons.1 h
    have hset : db.rows.keyResults.modify id (KeyResultRow.reweigh weight) =
        db.rows.keyResults.insert id { row with weight := weight.value } :=
      Table.modify_eq_insert hrow (KeyResultRow.reweigh weight)
    have hfirst : setWeight goal (id, weight) .standard db = (.ok (), db.reweigh [(id, weight)]) := by
      rw [setWeight_run hrow hgoal weight, ← hset]
      rfl
    rw [forEach, Effect.bind_run, hfirst]
    exact ih fun item hitem => Contents.ofGoal_reweigh.2 (hrest item hitem)

/-- The first key result that is none of the goal stops the list, wherever it stands. -/
theorem forEach_setWeight_run_stranger {before : List (KeyResultId × Weight)} {id : KeyResultId}
    (hbefore : ∀ item ∈ before, db.OfGoal goal item.1) (hid : ¬ db.OfGoal goal id) (weight : Weight)
    (after : List (KeyResultId × Weight)) :
    forEach (setWeight goal) (before ++ (id, weight) :: after) .standard db =
      (.error (.keyResultMissing id), db.reweigh before) := by
  have hstranger : ((db.reweigh before).rows.keyResults.get? id).map KeyResultRow.goal ≠
      some goal := by
    rw [Ne, Option.map_eq_some_iff]
    exact fun h => hid (Contents.ofGoal_reweigh.1 h)
  rw [forEach_append_run (forEach_setWeight_run hbefore), forEach, Effect.bind_run,
    setWeight_run_of_ne hstranger weight]

end Session

namespace Contents

/-- The database sets weights together. -/
theorem setsTogether (db : Contents) (goal : GoalId) (weights : List (KeyResultId × Weight)) :
    SetsTogether (db.OfGoal goal) (Reweighed weights) weights db
      (carry (.setWeights goal weights) db) := by
  show SetsTogether _ _ _ _
    (Session.transaction (Session.forEach (Session.setWeight goal) weights) .standard db)
  refine .of_cases (fun hall => ?_) fun before id weight after hweights hbefore hid => ?_
  · refine ⟨db.reweigh weights, ?_, reweighed_reweigh db weights⟩
    exact Session.transaction_run_ok (Session.forEach_setWeight_run hall)
  · rw [hweights]
    have hrun := Session.forEach_setWeight_run_stranger hbefore hid weight after
    -- the transaction takes back the weights that have been set before
    have hundone := Session.transaction_run_error hrun
    exact hundone

end Contents

/-! ### Both stores -/

/-- Stores with the same key results of a goal answer alike. -/
theorem setWeights_answers_agree {m : Memory} {db : Contents} {goal : GoalId}
    (same : ∀ id, m.OfGoal goal id ↔ db.OfGoal goal id) (weights : List (KeyResultId × Weight)) :
    (Memory.carry (.setWeights goal weights) m).1 =
      (Contents.carry (.setWeights goal weights) db).1 :=
  (m.setsTogether goal weights).answer_eq (db.setsTogether goal weights) same

/-- **The weights of some key results of a goal are all set or none**: in both stores, in every state
and for every list.  If all are of the goal, each has the weight that it is listed with last, and
nothing else changes; if not, the request is refused for the first that is none of the goal, and
nothing changes. -/
theorem weights_set_together (goal : GoalId) (weights : List (KeyResultId × Weight)) :
    (∀ m : Memory, SetsTogether (m.OfGoal goal) (Memory.Reweighed weights) weights m
      (Memory.carry (.setWeights goal weights) m)) ∧
    ∀ db : Contents, SetsTogether (db.OfGoal goal) (Contents.Reweighed weights) weights db
      (Contents.carry (.setWeights goal weights) db) :=
  ⟨fun m => m.setsTogether goal weights, fun db => db.setsTogether goal weights⟩

/-- A database with two key results of a goal and one of another. -/
def Contents.twoAndOne : Contents :=
  { Contents.empty with
    rows := { Rows.empty with
      keyResults := .ofList [(1, ⟨7, "Copy", "", 10, Kind.boolean.name, 1⟩),
        (2, ⟨7, "Switch", "", 20, Kind.boolean.name, 2⟩),
        (3, ⟨8, "Hire", "", 30, Kind.boolean.name, 1⟩)] } }

/-- A list that names a key result twice is carried out, and one that comes to a key result of another
goal is refused for it. -/
theorem weights_set_together_repeated :
    let db := Contents.twoAndOne
    let good : List (KeyResultId × Weight) :=
      [(1, ⟨60, by decide⟩), (2, ⟨50, by decide⟩), (1, ⟨40, by decide⟩)]
    let bad : List (KeyResultId × Weight) :=
      [(1, ⟨60, by decide⟩), (3, ⟨50, by decide⟩), (4, ⟨40, by decide⟩)]
    (Contents.carry (.setWeights 7 good) db).1 = .ok () ∧
      (Contents.carry (.setWeights 7 good) db).2.rows.keyResults.get? 1 =
        some ⟨7, "Copy", "", 40, Kind.boolean.name, 1⟩ ∧
      (Contents.carry (.setWeights 7 bad) db).1 = .error (.keyResultMissing 3) ∧
      (Contents.carry (.setWeights 7 bad) db).2 = db := by
  intro db good bad
  have hgood := (weights_set_together 7 good).2 db
  have hset : (Contents.carry (.setWeights 7 good) db).1 = .ok () := by decide +kernel
  have hlast := (hgood.reweighed hset).2.last (good.take 2) 1 ⟨40, by decide⟩ [] rfl
    List.not_mem_nil
  have hbad := (weights_set_together 7 bad).2 db
  have hrefused : (Contents.carry (.setWeights 7 bad) db).1 = .error (.keyResultMissing 3) := by
    decide +kernel
  exact ⟨hset, hlast, hrefused, (hbad.refused _ hrefused).1⟩

end Objectives
