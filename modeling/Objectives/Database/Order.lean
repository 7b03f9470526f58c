/- # Moves in the database

A move locks the row of the item, selects and locks the row of its neighbour, and writes the two keys,
all in one transaction.  The selection is put together from the columns that bound the siblings of the
item and from the direction; the database carries it out as it is written.

Main definitions:

* `OrderedRelation`, `Column`, `OrderedRow` — the relations that are kept in order, and their rows;
* `Selection` — a selection of one row, with its text and what it finds;
* `LockedRow.neighbor` — the selection of the neighbour of a locked row;
* `Session.move` — a move.
-/

import Objectives.Collection.Sorting
import Objectives.Database.State
import Objectives.Sequence

set_option relaxedAutoImplicit false
set_option autoImplicit false

namespace Objectives

/-! ### Relations in order -/

/-- A relation whose rows are kept in order. -/
inductive OrderedRelation
  | goals
  | keyResults
  | periods
  deriving DecidableEq, Repr

/-- A column that orders rows or tells groups of them apart. -/
inductive Column
  | teamId
  | periodId
  | goalId
  | sortOrder
  deriving DecidableEq, Repr

/-- The name in the schema. -/
def Column.name : Column → String
  | teamId => "team_id"
  | periodId => "period_id"
  | goalId => "goal_id"
  | sortOrder => "sort_order"

/-- A row of such a relation. -/
structure OrderedRow where
  id : Int
  sortOrder : Int
  /-- The columns that tell groups apart, with what they hold. -/
  group : List (Column × Int)
  deriving DecidableEq, Repr

namespace OrderedRow

/-- What a column holds, if the row has it. -/
def value? (row : OrderedRow) : Column → Option Int
  | .sortOrder => some row.sortOrder
  | column => row.group.lookup column

/-- The row of a goal. -/
def ofGoal (id : GoalId) (row : GoalRow) : OrderedRow :=
  ⟨id, row.sortOrder, [(.teamId, row.team), (.periodId, row.period)]⟩

/-- The row of a key result. -/
def ofKeyResult (id : KeyResultId) (row : KeyResultRow) : OrderedRow :=
  ⟨id, row.sortOrder, [(.goalId, row.goal)]⟩

/-- The row of a period. -/
def ofPeriod (id : PeriodId) (row : PeriodRow) : OrderedRow := ⟨id, row.sortOrder, []⟩

@[simp] theorem group_ofGoal (id : GoalId) (row : GoalRow) :
    (ofGoal id row).group = [(.teamId, row.team), (.periodId, row.period)] := rfl

@[simp] theorem group_ofKeyResult (id : KeyResultId) (row : KeyResultRow) :
    (ofKeyResult id row).group = [(.goalId, row.goal)] := rfl

@[simp] theorem group_ofPeriod (id : PeriodId) (row : PeriodRow) :
    (ofPeriod id row).group = [] := rfl

@[simp] theorem value?_sortOrder (row : OrderedRow) :
    row.value? .sortOrder = some row.sortOrder := rfl

@[simp] theorem value?_teamId_ofGoal (id : GoalId) (row : GoalRow) :
    (ofGoal id row).value? .teamId = some row.team := rfl

@[simp] theorem value?_periodId_ofGoal (id : GoalId) (row : GoalRow) :
    (ofGoal id row).value? .periodId = some row.period := rfl

@[simp] theorem value?_goalId_ofKeyResult (id : KeyResultId) (row : KeyResultRow) :
    (ofKeyResult id row).value? .goalId = some row.goal := rfl

end OrderedRow

namespace OrderedRelation

/-- The relation in the schema. -/
def relation : OrderedRelation → Relation
  | goals => .goals
  | keyResults => .keyResults
  | periods => .periods

/-- The row of an identifier. -/
def row? (relation : OrderedRelation) (rows : Rows) (id : Int) : Option OrderedRow :=
  match relation with
  | goals => (rows.goals.get? id).map (.ofGoal id)
  | keyResults => (rows.keyResults.get? id).map (.ofKeyResult id)
  | periods => (rows.periods.get? id).map (.ofPeriod id)

/-- All rows. -/
def rows (relation : OrderedRelation) (rows : Rows) : List OrderedRow :=
  match relation with
  | goals => rows.goals.entries.map fun e => .ofGoal e.1 e.2
  | keyResults => rows.keyResults.entries.map fun e => .ofKeyResult e.1 e.2
  | periods => rows.periods.entries.map fun e => .ofPeriod e.1 e.2

/-- The rows with another key in that of an identifier. -/
def setOrder (relation : OrderedRelation) (id sortOrder : Int) (rows : Rows) : Rows :=
  match relation with
  | goals => { rows with goals := rows.goals.modify id fun row => { row with sortOrder } }
  | keyResults =>
    { rows with keyResults := rows.keyResults.modify id fun row => { row with sortOrder } }
  | periods => { rows with periods := rows.periods.modify id fun row => { row with sortOrder } }

end OrderedRelation

/-! ### Selections -/

/-- How a column is compared with a parameter. -/
inductive Comparison
  | equal
  | less
  | greater
  deriving DecidableEq, Repr

namespace Comparison

/-- The sign in a statement. -/
def sign : Comparison → String
  | equal => "="
  | less => "<"
  | greater => ">"

/-- Whether a value compares so with a parameter. -/
def holds : Comparison → Int → Int → Bool
  | equal, value, parameter => value == parameter
  | less, value, parameter => value < parameter
  | greater, value, parameter => value > parameter

end Comparison

/-- A condition on a row, with the parameter that is bound. -/
structure Condition where
  column : Column
  comparison : Comparison
  parameter : Int
  deriving DecidableEq, Repr

/-- Whether a row meets a condition.  A column that the row does not have meets none. -/
def Condition.admits (c : Condition) (row : OrderedRow) : Bool :=
  (row.value? c.column).any fun value => c.comparison.holds value c.parameter

/-- Whether keys rise or fall along the rows. -/
inductive Sorting
  | rising
  | falling
  deriving DecidableEq, Repr

namespace Sorting

/-- The word in a statement. -/
def name : Sorting → String
  | rising => "ASC"
  | falling => "DESC"

/-- The first row is not after the second: by key, then by rising identifier. -/
def before : Sorting → OrderedRow → OrderedRow → Bool
  | rising, a, b => a.sortOrder < b.sortOrder || (a.sortOrder == b.sortOrder && a.id ≤ b.id)
  | falling, a, b => a.sortOrder > b.sortOrder || (a.sortOrder == b.sortOrder && a.id ≤ b.id)

end Sorting

/-- A selection of one row, which it locks: the first, by key and then by identifier, of those that
meet all conditions. -/
structure Selection where
  relation : OrderedRelation
  conditions : List Condition
  sorting : Sorting
  deriving DecidableEq, Repr

namespace Selection

/-- The text; the parameters of the conditions are numbered in their order. -/
def text (s : Selection) : String :=
  let relation := s.relation.relation.name
  let conditions := s.conditions.zipIdx.map fun (condition, place) =>
    s!"{condition.column.name} {condition.comparison.sign} ${place + 1}"
  let filter := String.intercalate " AND " conditions
  let sorting := s.sorting.name
  s!"SELECT id, sort_order FROM {relation} WHERE {filter} " ++
    s!"ORDER BY sort_order {sorting}, id LIMIT 1 FOR UPDATE"

/-- The identifier and the key of the row that is found. -/
def find? (s : Selection) (rows : Rows) : Option Sibling :=
  let admitted := (s.relation.rows rows).filter fun row => s.conditions.all (·.admits row)
  (sortBy s.sorting.before admitted).head?.map fun row => (row.id, row.sortOrder)

end Selection

/-! ### Neighbours -/

/-- A locked row, with the columns that bound the group of its siblings. -/
structure LockedRow extends OrderedRow where
  relation : OrderedRelation
  deriving DecidableEq, Repr

/-- The comparison of the keys on a side with the key of a row. -/
def Direction.comparison : Direction → Comparison
  | up => .less
  | down => .greater

/-- The sense in which the nearest key on a side comes first. -/
def Direction.sorting : Direction → Sorting
  | up => .falling
  | down => .rising

/-- The selection of the nearest sibling strictly past a row. -/
def LockedRow.neighbor (row : LockedRow) (direction : Direction) : Selection where
  relation := row.relation
  conditions := (row.group.map fun (column, value) => ⟨column, .equal, value⟩) ++
    [⟨.sortOrder, direction.comparison, row.sortOrder⟩]
  sorting := direction.sorting

example : (LockedRow.neighbor ⟨⟨7, 3, [(.teamId, 1), (.periodId, 2)]⟩, .goals⟩ .up).text =
    "SELECT id, sort_order FROM goals WHERE team_id = $1 AND period_id = $2 AND sort_order < $3 " ++
      "ORDER BY sort_order DESC, id LIMIT 1 FOR UPDATE" := by
  decide

example : (LockedRow.neighbor ⟨⟨4, 1, []⟩, .periods⟩ .down).text =
    "SELECT id, sort_order FROM periods WHERE sort_order > $1 " ++
      "ORDER BY sort_order ASC, id LIMIT 1 FOR UPDATE" := by
  decide

/-! ### Moves -/

namespace Session

open Statement (change)

/-- The row of an item, locked. -/
def lockRow (context : String) (relation : OrderedRelation) (id : Int) (missing : Failure) :
    Session LockedRow := do
  let rows ← query context [relation.relation]
  let row ← expect missing (relation.row? rows id)
  return ⟨row, relation⟩

/-- The row of an item, locked; none if the item is a goal that another team would move. -/
def lock : SequencedItem → Session (Option LockedRow)
  | .goal id asTeam => do
    let row ← lockRow "Failed to lock goal" .goals id (.goalMissing id)
    if asTeam.any fun team => row.value? .teamId != some team then return none
    else return some row
  | .keyResult id => do
    return some (← lockRow "Failed to lock key result" .keyResults id (.keyResultMissing id))
  | .period id => do
    return some (← lockRow "Failed to lock period" .periods id (.periodMissing id))

/-- The nearest sibling past a row, locked. -/
def lockNeighbor (row : LockedRow) (direction : Direction) : Session (Option Sibling) := do
  let rows ← query "Failed to lock neighbor" [row.relation.relation]
  return (row.neighbor direction).find? rows

/-- Writes the key of a row. -/
def setOrder (relation : OrderedRelation) (id sortOrder : Int) : Session Unit :=
  execute "Failed to update sort order" (do
    Statement.reach [relation.relation]
    change (relation.setOrder id sortOrder))

/-- Moves an item by one place among its siblings. -/
def move (item : SequencedItem) (direction : Direction) : Session MoveOutcome :=
  transaction do
    match ← lock item with
    | none => return .notOwner
    | some row =>
      match ← lockNeighbor row direction with
      | none => return .atBoundary
      | some (neighbor, order) =>
        setOrder row.relation row.id order
        setOrder row.relation neighbor row.sortOrder
        return .swapped neighbor

end Session

end Objectives
