/- # Moves in both stores

The store in memory looks for the neighbour of an item among the siblings that it has collected; the
database has it selected, by key and then by identifier.  Whatever the keys are, the two find the
same neighbour: several siblings may share a key, keys may be missing in between or be negative.

Main definitions:

* `Memory.row?` — the records of a store in memory as rows that are kept in order;
* `Memory.SamePlaces` — a store in memory and a database hold the same rows, with the same keys;
* `SequencedItem.locked` — the row that a move starts from.

Main results:

* `LockedRow.find?_neighbor` — **the selection finds the nearest sibling**;
* `Memory.move_run`, `Session.move_run` — a move in either store, from that row on;
* `Memory.SamePlaces.carry_move_agrees` — **a move has the same answer in both stores and leaves the
  same keys**.
-/

import Objectives.Proofs.Moves
import Objectives.Proofs.Statements

set_option relaxedAutoImplicit false
set_option autoImplicit false

namespace Objectives

/-! ### Rows -/

/-- The row with another key. -/
def OrderedRow.withOrder (row : OrderedRow) (order : Int) : OrderedRow :=
  { row with sortOrder := order }

namespace OrderedRelation

/-- The rows with other keys, written one after the other. -/
def setOrders (relation : OrderedRelation) (orders : List (Int × Int)) (rows : Rows) : Rows :=
  orders.foldl (fun rows order => relation.setOrder order.1 order.2 rows) rows

variable {relation : OrderedRelation} {rows : Rows} {row : OrderedRow} {id : Int}

/-- A row stands under its own identifier. -/
theorem id_of_row? (h : relation.row? rows id = some row) : row.id = id := by
  cases relation <;>
  · obtain ⟨_, -, rfl⟩ := Option.map_eq_some_iff.1 h
    rfl

/-- All rows are listed. -/
theorem mem_rows_iff : row ∈ relation.rows rows ↔ relation.row? rows row.id = some row := by
  cases relation <;>
  · simp only [OrderedRelation.rows, row?, List.mem_map, Option.map_eq_some_iff, Prod.exists]
    constructor
    · rintro ⟨id, record, hmem, rfl⟩
      exact ⟨record, Table.get?_eq_some_iff.2 hmem, rfl⟩
    · rintro ⟨record, hget, hrow⟩
      exact ⟨row.id, record, Table.get?_eq_some_iff.1 hget, hrow⟩

end OrderedRelation

/-! ### The selection of a neighbour -/

namespace LockedRow

variable {rows : Rows} {row : LockedRow} {direction : Direction}

/-- The last condition bounds the key. -/
theorem holds_comparison (direction : Direction) (row r : OrderedRow) :
    direction.comparison.holds r.sortOrder row.sortOrder =
      onSide direction row.sortOrder (r.id, r.sortOrder) := by
  cases direction <;> rfl

/-- The other conditions are met by the rows in the group of the locked row. -/
theorem admits_group_iff (hrow : row.relation.row? rows row.id = some row.toOrderedRow)
    {r : OrderedRow} (hr : row.relation.row? rows r.id = some r) :
    (∀ c ∈ row.group, (Condition.mk c.1 .equal c.2).admits r = true) ↔ r.group = row.group := by
  obtain ⟨⟨id, order, group⟩, relation⟩ := row
  cases relation <;>
  · obtain ⟨record, -, hrecord⟩ := Option.map_eq_some_iff.1 hrow
    obtain ⟨record', -, hrecord'⟩ := Option.map_eq_some_iff.1 hr
    cases hrecord
    rw [← hrecord']
    simp [Condition.admits, Comparison.holds]

/-- A row meets all conditions exactly if it is in the group of the locked row and its key lies on
the side that the direction points to. -/
theorem admits_neighbor_iff (hrow : row.relation.row? rows row.id = some row.toOrderedRow)
    {r : OrderedRow} (hr : row.relation.row? rows r.id = some r) :
    ((row.neighbor direction).conditions.all fun c => c.admits r) = true ↔
      r.group = row.group ∧ onSide direction row.sortOrder (r.id, r.sortOrder) = true := by
  rw [← admits_group_iff hrow hr, ← holds_comparison]
  simp [neighbor, Condition.admits]

/-- The rows come in the order of their nearness. -/
theorem before_sorting (direction : Direction) (a b : OrderedRow) :
    direction.sorting.before a b = nearer direction (a.id, a.sortOrder) (b.id, b.sortOrder) := by
  cases direction <;> rfl

theorem before_trans (direction : Direction) (a b c : OrderedRow)
    (hab : direction.sorting.before a b = true) (hbc : direction.sorting.before b c = true) :
    direction.sorting.before a c = true := by
  rw [before_sorting] at hab hbc ⊢
  exact nearer_trans direction _ _ _ hab hbc

theorem before_total (direction : Direction) (a b : OrderedRow) :
    direction.sorting.before a b = true ∨ direction.sorting.before b a = true := by
  rw [before_sorting, before_sorting]
  exact nearer_total direction _ _

/-- **The selection of a neighbour finds the nearest sibling** of a list of those in the group. -/
theorem find?_neighbor (hrow : row.relation.row? rows row.id = some row.toOrderedRow)
    {siblings : List Sibling} (hsiblings : ∀ s, s ∈ siblings ↔
      ∃ r, row.relation.row? rows s.1 = some r ∧ r.group = row.group ∧ r.sortOrder = s.2) :
    (row.neighbor direction).find? rows = nearestSibling siblings row.sortOrder direction := by
  rw [Selection.find?]
  generalize hadmitted : ((row.neighbor direction).relation.rows rows).filter
    (fun r => (row.neighbor direction).conditions.all fun c => c.admits r) = admitted
  have hmem (r : OrderedRow) : r ∈ admitted ↔ row.relation.row? rows r.id = some r ∧
      r.group = row.group ∧ onSide direction row.sortOrder (r.id, r.sortOrder) = true := by
    rw [← hadmitted, List.mem_filter, OrderedRelation.mem_rows_iff]
    exact and_congr_right fun hr => admits_neighbor_iff hrow hr
  have hside (s : Sibling) : s ∈ siblings.filter (onSide direction row.sortOrder) ↔
      ∃ r ∈ admitted, (r.id, r.sortOrder) = s := by
    rw [List.mem_filter, hsiblings]
    constructor
    · rintro ⟨⟨r, hr, hgroup, horder⟩, hside⟩
      have hid : (r.id, r.sortOrder) = s := Prod.ext (OrderedRelation.id_of_row? hr) horder
      subst hid
      exact ⟨r, (hmem r).2 ⟨hr, hgroup, hside⟩, rfl⟩
    · rintro ⟨r, hr, rfl⟩
      obtain ⟨hr, hgroup, hside⟩ := (hmem r).1 hr
      exact ⟨⟨r, hr, hgroup, rfl⟩, hside⟩
  symm
  cases hfirst : (sortBy (row.neighbor direction).sorting.before admitted).head? with
  | none =>
    rw [head?_sortBy_eq_none_iff] at hfirst
    rw [Option.map_none, nearestSibling_eq_none_iff]
    intro s hs
    by_contra hnear
    obtain ⟨r, hr, -⟩ := (hside s).1 (List.mem_filter.2 ⟨hs, by simpa using hnear⟩)
    rw [hfirst] at hr
    cases hr
  | some r =>
    obtain ⟨hr, hleast⟩ :=
      head?_sortBy_spec (before_trans direction) (before_total direction) hfirst
    rw [Option.map_some, nearestSibling_eq_some_iff]
    refine ⟨(hside _).2 ⟨r, hr, rfl⟩, fun s hs => ?_⟩
    obtain ⟨r', hr', rfl⟩ := (hside s).1 hs
    rw [← before_sorting]
    exact hleast r' hr'

end LockedRow

/-! ### The row of an item -/

/-- The relation of an item. -/
def SequencedItem.relation : SequencedItem → OrderedRelation
  | goal .. => .goals
  | keyResult _ => .keyResults
  | period _ => .periods

/-- The row that a move starts from, as a store shows it; none if the item is a goal that another
team would move. -/
def SequencedItem.locked (row? : OrderedRelation → Int → Option OrderedRow) :
    SequencedItem → Except Failure (Option LockedRow)
  | goal id asTeam =>
    match row? .goals id with
    | none => .error (.goalMissing id)
    | some row =>
      if asTeam.any fun team => row.value? .teamId != some team then .ok none
      else .ok (some ⟨row, .goals⟩)
  | keyResult id =>
    match row? .keyResults id with
    | none => .error (.keyResultMissing id)
    | some row => .ok (some ⟨row, .keyResults⟩)
  | period id =>
    match row? .periods id with
    | none => .error (.periodMissing id)
    | some row => .ok (some ⟨row, .periods⟩)

/-- A row that is locked is that of the item. -/
theorem SequencedItem.row?_of_locked {row? : OrderedRelation → Int → Option OrderedRow}
    {item : SequencedItem} {row : LockedRow} (h : item.locked row? = .ok (some row)) :
    row.relation = item.relation ∧ row? item.relation item.id = some row.toOrderedRow := by
  cases item <;> simp only [locked] at h
  case goal id asTeam =>
    split at h
    · cases h
    · split at h <;> cases h
      exact ⟨rfl, ‹_›⟩
  case keyResult id =>
    split at h <;> cases h
    exact ⟨rfl, ‹_›⟩
  case period id =>
    split at h <;> cases h
    exact ⟨rfl, ‹_›⟩

/-! ### Moves in the database -/

namespace Session

variable {db : Contents}

theorem lockRow_run (context : String) (relation : OrderedRelation) (id : Int)
    (missing : Failure) : lockRow context relation id missing .standard db =
      match relation.row? db.rows id with
      | none => (.error missing, db)
      | some row => (.ok ⟨row, relation⟩, db) := by
  rw [lockRow, bind_query_run]
  cases relation.row? db.rows id <;> rfl

theorem lock_run (item : SequencedItem) :
    lock item .standard db = (item.locked fun relation id => relation.row? db.rows id, db) := by
  cases item with
  | goal id asTeam =>
    rw [lock, Effect.bind_run, lockRow_run, SequencedItem.locked]
    cases hrow : OrderedRelation.goals.row? db.rows id with
    | none => rfl
    | some row =>
      dsimp only
      split <;> rfl
  | keyResult id =>
    rw [lock, Effect.bind_run, lockRow_run, SequencedItem.locked]
    cases OrderedRelation.keyResults.row? db.rows id <;> rfl
  | period id =>
    rw [lock, Effect.bind_run, lockRow_run, SequencedItem.locked]
    cases OrderedRelation.periods.row? db.rows id <;> rfl

theorem setOrder_run (relation : OrderedRelation) (id order : Int) :
    setOrder relation id order .standard db =
      (.ok (), { db with rows := relation.setOrder id order db.rows }) := by
  refine execute_run_ok ?_ _
  rw [Effect.bind_run, Statement.reach_run]
  rfl

/-- A move in the database, from the locked row on. -/
theorem move_run (item : SequencedItem) (direction : Direction) :
    move item direction .standard db =
      match item.locked fun relation id => relation.row? db.rows id with
      | .error e => (.error e, db)
      | .ok none => (.ok .notOwner, db)
      | .ok (some row) =>
        match (row.neighbor direction).find? db.rows with
        | none => (.ok .atBoundary, db)
        | some s =>
          let orders := [(row.id, s.2), (s.1, row.sortOrder)]
          (.ok (.swapped s.1), { db with rows := row.relation.setOrders orders db.rows }) := by
  rw [move, transaction, Effect.bind_run, lock_run]
  cases item.locked fun relation id => relation.row? db.rows id with
  | error e => rfl
  | ok locked =>
    cases locked with
    | none => rfl
    | some row =>
      dsimp only
      rw [Effect.bind_run, lockNeighbor, bind_query_run]
      cases hfound : (row.neighbor direction).find? db.rows with
      | none => rfl
      | some s =>
        simp only [Effect.pure_run]
        rw [Effect.bind_run, setOrder_run]
        dsimp only
        rw [Effect.bind_run, setOrder_run]
        rfl

end Session

/-! ### Moves in memory -/

namespace Memory

variable {m : Memory}

/-- The records of a store as rows that are kept in order. -/
def row? (m : Memory) : OrderedRelation → Int → Option OrderedRow
  | .goals, id => (m.goals.get? id).map fun g =>
    ⟨g.id, g.sortOrder, [(.teamId, g.team), (.periodId, g.period)]⟩
  | .keyResults, id => (m.keyResults.get? id).map fun k => ⟨k.id, k.sortOrder, [(.goalId, k.goal)]⟩
  | .periods, id => (m.periods.get? id).map fun p => ⟨p.id, p.sortOrder, []⟩

/-- The store with another key in the row of an identifier. -/
def setOrder (m : Memory) (id order : Int) : OrderedRelation → Memory
  | .goals => { m with goals := m.goals.modify id (Sequenced.setOrder order) }
  | .keyResults => { m with keyResults := m.keyResults.modify id (Sequenced.setOrder order) }
  | .periods => { m with periods := m.periods.modify id (Sequenced.setOrder order) }

/-- Every record that is kept in order is stored under its own identifier. -/
structure Keyed (m : Memory) : Prop where
  goals : m.goals.Keyed Sequenced.id
  keyResults : m.keyResults.Keyed Sequenced.id
  periods : m.periods.Keyed Sequenced.id

/-- The siblings of an item are the rows in the group of its row. -/
theorem mem_siblings_iff (hm : m.Keyed) {item : SequencedItem} {row : OrderedRow}
    (hrow : m.row? item.relation item.id = some row) {s : Sibling} : s ∈ m.siblings item ↔
      ∃ r, m.row? item.relation s.1 = some r ∧ r.group = row.group ∧ r.sortOrder = s.2 := by
  cases item with
  | goal id asTeam =>
    obtain ⟨g, hg, rfl⟩ := Option.map_eq_some_iff.1 hrow
    have hmem := @Table.mem_siblings_iff Goal _ m.goals hm.goals (m.goalsOwned g.team g.period) _
      (fun _ => mem_goalsOwned) s
    simp only [SequencedItem.id] at hg
    simp only [siblings, hg]
    refine hmem.trans ?_
    simp [row?, SequencedItem.relation, Sequenced.order]
  | keyResult id =>
    obtain ⟨k, hk, rfl⟩ := Option.map_eq_some_iff.1 hrow
    have hmem := @Table.mem_siblings_iff KeyResult _ m.keyResults hm.keyResults
      (m.keyResultsIn k.goal) _ (fun _ => mem_keyResultsIn) s
    simp only [SequencedItem.id] at hk
    simp only [siblings, hk]
    refine hmem.trans ?_
    simp [row?, SequencedItem.relation, Sequenced.order]
  | period id =>
    obtain ⟨p, hp, rfl⟩ := Option.map_eq_some_iff.1 hrow
    have hmem := @Table.mem_siblings_iff Period _ m.periods hm.periods m.periods.values
      (fun _ => True) (fun _ => (and_true _).symm.to_iff) s
    simp only [siblings]
    refine hmem.trans ?_
    simp [row?, SequencedItem.relation, Sequenced.order]

/-- A move in memory, from the locked row on. -/
theorem move_run (m : Memory) (item : SequencedItem) (direction : Direction) :
    m.move item direction =
      match item.locked m.row? with
      | .error e => (.error e, m)
      | .ok none => (.ok .notOwner, m)
      | .ok (some row) =>
        match nearestSibling (m.siblings item) row.sortOrder direction with
        | none => (.ok .atBoundary, m)
        | some s => (.ok (.swapped s.1), m.reorder [(item.id, s.2), (s.1, row.sortOrder)] item) := by
  cases item with
  | goal id asTeam =>
    cases hg : m.goals.get? id with
    | none => simp only [move, SequencedItem.locked, row?, hg, Option.map_none]
    | some g =>
      have howner : (asTeam.any fun team => OrderedRow.value?
            ⟨g.id, g.sortOrder, [(.teamId, g.team), (.periodId, g.period)]⟩ .teamId != some team) =
          asTeam.any fun team => team != g.team := by
        congr 1
        funext team
        show (some g.team != some team) = (team != g.team)
        rw [bne_comm]
        rfl
      simp only [move, SequencedItem.locked, row?, siblings, hg, Option.map_some, howner, moveAmong]
      split
      · rfl
      · dsimp only
        cases nearestSibling ((m.goalsOwned g.team g.period).map fun g => (g.id, g.sortOrder))
          g.sortOrder direction <;> rfl
  | keyResult id =>
    cases hk : m.keyResults.get? id with
    | none => simp only [move, SequencedItem.locked, row?, hk, Option.map_none]
    | some k =>
      simp only [move, SequencedItem.locked, row?, siblings, hk, Option.map_some, moveAmong]
      cases nearestSibling ((m.keyResultsIn k.goal).map fun k => (k.id, k.sortOrder))
        k.sortOrder direction <;> rfl
  | period id =>
    cases hp : m.periods.get? id with
    | none => simp only [move, SequencedItem.locked, row?, hp, Option.map_none]
    | some p =>
      simp only [move, SequencedItem.locked, row?, siblings, hp, Option.map_some, moveAmong]
      cases nearestSibling (m.periods.values.map fun p => (p.id, p.sortOrder))
        p.sortOrder direction <;> rfl

/-! ### Both stores -/

/-- A store in memory and a database hold the same rows: records under the same identifiers, with
the same columns for their groups and the same keys.  What else the records hold makes no
difference. -/
def SamePlaces (m : Memory) (rows : Rows) : Prop :=
  ∀ relation id, m.row? relation id = relation.row? rows id

namespace SamePlaces

variable {rows : Rows}

theorem keyed (h : m.SamePlaces rows) : m.Keyed where
  goals id g hget := by
    have hrow := h .goals id
    rw [row?, hget] at hrow
    exact OrderedRelation.id_of_row? hrow.symm
  keyResults id k hget := by
    have hrow := h .keyResults id
    rw [row?, hget] at hrow
    exact OrderedRelation.id_of_row? hrow.symm
  periods id p hget := by
    have hrow := h .periods id
    rw [row?, hget] at hrow
    exact OrderedRelation.id_of_row? hrow.symm

/-- The same key is set in both stores. -/
theorem setOrder (h : m.SamePlaces rows) (relation : OrderedRelation) (id order : Int) :
    (m.setOrder id order relation).SamePlaces (relation.setOrder id order rows) := by
  intro relation' j
  have hrow := h relation' j
  by_cases hrelation : relation' = relation
  · subst hrelation
    cases relation' <;>
    · simp only [row?, OrderedRelation.row?, Memory.setOrder, OrderedRelation.setOrder] at hrow ⊢
      refine Table.map_get?_modify_eq (fun row => OrderedRow.withOrder row order) ?_ ?_ hrow <;>
      · intro record
        rfl
  · -- the records of the other relations are as before
    cases relation <;> cases relation' <;> first | exact absurd rfl hrelation | exact hrow

/-- The selection finds the neighbour that is found in memory. -/
theorem find?_neighbor (h : m.SamePlaces rows) {item : SequencedItem} {row : LockedRow}
    (hlocked : item.locked m.row? = .ok (some row)) (direction : Direction) :
    (row.neighbor direction).find? rows =
      nearestSibling (m.siblings item) row.sortOrder direction := by
  obtain ⟨hrelation, hrow⟩ := SequencedItem.row?_of_locked hlocked
  have hfound := (h item.relation item.id).symm.trans hrow
  have hid : row.id = item.id := OrderedRelation.id_of_row? hfound
  refine LockedRow.find?_neighbor ?_ fun s => ?_
  · rw [hrelation, hid]
    exact hfound
  · rw [mem_siblings_iff h.keyed hrow, hrelation]
    simp only [h item.relation s.1]

/-- A move of both stores comes to one answer and one list of keys to set. -/
theorem exists_orders {db : Contents} (h : m.SamePlaces db.rows) (item : SequencedItem)
    (direction : Direction) :
    ∃ answer orders,
      Memory.carry (.move item direction) m = (answer, m.reorder orders item) ∧
      Contents.carry (.move item direction) db =
        (answer, { db with rows := item.relation.setOrders orders db.rows }) ∧
      (m.reorder orders item).SamePlaces (item.relation.setOrders orders db.rows) := by
  have hmemory : Memory.carry (.move item direction) m = m.move item direction := rfl
  have hdatabase : Contents.carry (.move item direction) db =
      Session.move item direction .standard db := rfl
  have hview : (fun relation id => relation.row? db.rows id) = m.row? := by
    funext relation id
    exact (h relation id).symm
  have hnone : m.reorder [] item = m := by cases item <;> rfl
  have hunchanged : (m.reorder [] item).SamePlaces (item.relation.setOrders [] db.rows) := by
    rw [hnone]
    exact h
  rw [hmemory, hdatabase, Memory.move_run, Session.move_run, hview]
  cases hlocked : item.locked m.row? with
  | error e => exact ⟨.error e, [], by rw [hnone], rfl, hunchanged⟩
  | ok locked =>
    cases locked with
    | none => exact ⟨.ok .notOwner, [], by rw [hnone], rfl, hunchanged⟩
    | some row =>
      obtain ⟨hrelation, hrow⟩ := SequencedItem.row?_of_locked hlocked
      have hid : row.id = item.id :=
        OrderedRelation.id_of_row? ((h item.relation item.id).symm.trans hrow)
      simp only [h.find?_neighbor hlocked, hrelation, hid]
      cases nearestSibling (m.siblings item) row.sortOrder direction with
      | none => exact ⟨.ok .atBoundary, [], by rw [hnone], rfl, hunchanged⟩
      | some s =>
        refine ⟨.ok (.swapped s.1), [(item.id, s.2), (s.1, row.sortOrder)], rfl, rfl, ?_⟩
        have hreorder : m.reorder [(item.id, s.2), (s.1, row.sortOrder)] item =
            (m.setOrder item.id s.2 item.relation).setOrder s.1 row.sortOrder item.relation := by
          cases item <;> rfl
        rw [hreorder]
        exact (h.setOrder item.relation item.id s.2).setOrder item.relation s.1 row.sortOrder

/-- **A move has the same answer in a store in memory and in a database that hold the same rows**,
be it an outcome with a neighbour or a failure.  Afterwards they hold the same rows again; in both
the same keys have been set, and nothing else has changed. -/
theorem carry_move_agrees {db : Contents} (h : m.SamePlaces db.rows) (item : SequencedItem)
    (direction : Direction) :
    (Contents.carry (.move item direction) db).1 = (Memory.carry (.move item direction) m).1 ∧
      (Memory.carry (.move item direction) m).2.SamePlaces
        (Contents.carry (.move item direction) db).2.rows ∧
      ∃ orders, (Memory.carry (.move item direction) m).2 = m.reorder orders item ∧
        (Contents.carry (.move item direction) db).2 =
          { db with rows := item.relation.setOrders orders db.rows } := by
  obtain ⟨answer, orders, hmemory, hdatabase, hsame⟩ := h.exists_orders item direction
  rw [hmemory, hdatabase]
  exact ⟨rfl, hsame, orders, rfl, rfl⟩

end SamePlaces

/-- A store with three goals of one team and one period; two of them have one negative key. -/
def tiedGoals : Memory :=
  let goal (id order : Int) : Goal :=
    ⟨id, 1, 3, "Keep", "", .p1, ⟨22, by decide⟩, .delivery, .stability, "", order⟩
  { empty with goals := Table.ofList [(4, goal 4 (-2)), (5, goal 5 (-2)), (6, goal 6 3)] }

/-- A database with the rows of these goals. -/
def tiedRows : Contents :=
  let row (order : Int) : GoalRow :=
    ⟨1, 3, "Keep", "", "P1", 22, "Delivery", "STABILITY", "", order⟩
  { Contents.empty with
    rows := { Rows.empty with goals := Table.ofList [(4, row (-2)), (5, row (-2)), (6, row 3)] } }

/-- Of two siblings with one key, both stores find the one with the smaller identifier. -/
theorem tied_goal_moves_up :
    tiedGoals.SamePlaces tiedRows.rows ∧
      (Memory.carry (.move (.goal 6 none) .up) tiedGoals).1 = .ok (.swapped 4) ∧
      (Contents.carry (.move (.goal 6 none) .up) tiedRows).1 = .ok (.swapped 4) ∧
      (Memory.carry (.move (.goal 6 none) .up) tiedGoals).2.SamePlaces
        (Contents.carry (.move (.goal 6 none) .up) tiedRows).2.rows := by
  have hsame : tiedGoals.SamePlaces tiedRows.rows := by
    intro relation id
    cases relation with
    | goals =>
      simp only [row?, OrderedRelation.row?, tiedGoals, tiedRows, Table.ofList, List.foldl_cons,
        List.foldl_nil, Table.get?_insert, Table.get?_empty]
      split_ifs <;> subst_vars <;> rfl
    | keyResults => rfl
    | periods => rfl
  have hanswer : (Memory.carry (.move (.goal 6 none) .up) tiedGoals).1 = .ok (.swapped 4) := by
    decide +kernel
  obtain ⟨hagree, hafter, -⟩ := hsame.carry_move_agrees (.goal 6 none) .up
  exact ⟨hsame, hanswer, hagree.trans hanswer, hafter⟩

end Memory

end Objectives
