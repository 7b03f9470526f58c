/- # The hierarchy of teams

Teams name their parents; the tree is put together from these names whenever it is needed.  A team
whose parent is not listed is a root, so that no team is lost.  Parents are not checked when they
are set, so a team may end up among its own ancestors; a walk that would visit a team twice, or a
walk from all roots that misses a team, is refused.

Main definitions:

* `Hierarchy` — the teams by identifier; the last one listed under an identifier counts;
* `Hierarchy.roots`, `Hierarchy.childrenOf` — the first teams and the teams below one, in order;
* `Hierarchy.walk` — all teams, each before those below it, with their depths;
* `TeamNode`, `Nesting`, `Hierarchy.forest` — the same as trees, put together from the depths.
-/

import Objectives.Team.Basic
import Objectives.Failure
import Objectives.Collection.Table
import Objectives.Collection.Sorting

set_option relaxedAutoImplicit false
set_option autoImplicit false

namespace Objectives

/-- Teams by identifier. -/
structure Hierarchy where
  teams : Table TeamId Team

/-- A team in a walk, with the number of steps from where the walk began. -/
structure WalkEntry where
  team : Team
  depth : Nat
  deriving DecidableEq, Repr

namespace Hierarchy

/-- The hierarchy of a list of teams. -/
def ofList (teams : List Team) : Hierarchy :=
  ⟨Table.ofList (teams.map fun t => (t.id, t))⟩

/-- The team of an identifier. -/
def get? (h : Hierarchy) (id : TeamId) : Option Team := h.teams.get? id

/-- The number of teams. -/
def size (h : Hierarchy) : Nat := h.teams.entries.length

/-- The parent of a team, if it is listed. -/
def parent? (h : Hierarchy) (t : Team) : Option TeamId :=
  t.parent.filter h.teams.contains

/-- The teams without a listed parent. -/
def roots (h : Hierarchy) : List Team :=
  sortBy Team.le (h.teams.values.filter fun t => h.parent? t == none)

/-- The teams whose parent has an identifier. -/
def childrenOf (h : Hierarchy) (id : TeamId) : List Team :=
  sortBy Team.le (h.teams.values.filter fun t => h.parent? t == some id)

/-! ### Walks -/

/-- Walks on with `pending` teams to visit next, having seen some.  The first number bounds the
teams that are left; when it is used up every team has been seen, so the next one is met for the
second time. -/
def visit (h : Hierarchy) : Nat → List TeamId → List WalkEntry → Except Failure (List WalkEntry)
  | _, _, [] => .ok []
  | 0, _, entry :: _ => .error (.parentCycle entry.team.id)
  | left + 1, seen, entry :: pending =>
    if seen.contains entry.team.id then .error (.parentCycle entry.team.id)
    else
      let below := (h.childrenOf entry.team.id).map fun t => ⟨t, entry.depth + 1⟩
      match h.visit left (entry.team.id :: seen) (below ++ pending) with
      | .ok entries => .ok (entry :: entries)
      | .error e => .error e

/-- The walk from some teams. -/
def walkFrom (h : Hierarchy) (starts : List Team) : Except Failure (List WalkEntry) :=
  h.visit h.size [] (starts.map fun t => ⟨t, 0⟩)

/-- The listed team of the smallest identifier that a walk has missed. -/
def missed? (h : Hierarchy) (entries : List WalkEntry) : Option TeamId :=
  h.teams.keys.find? fun id => !entries.any fun e => e.team.id == id

/-- All teams, or a team and those below it; each before those below it, and siblings in order. -/
def walk (h : Hierarchy) : Option TeamId → Except Failure (List WalkEntry)
  | some id =>
    match h.get? id with
    | some team => h.walkFrom [team]
    | none => .error (.rootMissing id)
  | none =>
    match h.walkFrom h.roots with
    | .ok entries =>
      match h.missed? entries with
      | some id => .error (.parentCycle id)
      | none => .ok entries
    | .error e => .error e

end Hierarchy

/-! ### Trees -/

/-- A team with the teams below it. -/
inductive TeamNode
  | node (team : Team) (children : List TeamNode)

namespace TeamNode

/-- The team of a node. -/
def team : TeamNode → Team
  | node team _ => team

/-- The nodes below a node. -/
def children : TeamNode → List TeamNode
  | node _ children => children

mutual

/-- The number of teams in a tree. -/
def size : TeamNode → Nat
  | node _ children => 1 + sizes children

/-- The number of teams in a list of trees. -/
def sizes : List TeamNode → Nat
  | [] => 0
  | tree :: rest => tree.size + sizes rest

end

mutual

/-- The teams of a tree, each before those below it, with their depths. -/
def flatten (depth : Nat) : TeamNode → List WalkEntry
  | node team children => ⟨team, depth⟩ :: flattenAll (depth + 1) children

/-- The teams of a list of trees. -/
def flattenAll (depth : Nat) : List TeamNode → List WalkEntry
  | [] => []
  | tree :: rest => tree.flatten depth ++ flattenAll depth rest

end

end TeamNode

/-- Trees on the way to be put together from a walk: the nodes that may still take up teams, the
innermost first, and the trees that are complete. -/
structure Nesting where
  opened : List TeamNode
  finished : List TeamNode

namespace Nesting

/-- Nothing has been walked yet. -/
def empty : Nesting := ⟨[], []⟩

/-- Closes the innermost node: it becomes the last child of the node around it, or a complete tree
if there is none around it. -/
def closeTop (s : Nesting) : Nesting :=
  match s.opened with
  | [] => s
  | [node] => ⟨[], s.finished ++ [node]⟩
  | node :: parent :: rest => ⟨.node parent.team (parent.children ++ [node]) :: rest, s.finished⟩

/-- Closes a number of nodes. -/
def close : Nat → Nesting → Nesting
  | 0, s => s
  | count + 1, s => close count s.closeTop

/-- Closes nodes while more than `depth` of them are open. -/
def closeTo (s : Nesting) (depth : Nat) : Nesting :=
  close (s.opened.length - depth) s

/-- Opens a node for the next team of a walk, when no other is open at its depth or below. -/
def enter (s : Nesting) (entry : WalkEntry) : Nesting :=
  let s := s.closeTo entry.depth
  ⟨.node entry.team [] :: s.opened, s.finished⟩

/-- The trees of walked teams. -/
def trees (entries : List WalkEntry) : List TeamNode :=
  ((entries.foldl enter empty).closeTo 0).finished

end Nesting

/-- The teams of a walk as trees. -/
def Hierarchy.forest (h : Hierarchy) (root : Option TeamId) : Except Failure (List TeamNode) :=
  (h.walk root).map Nesting.trees

end Objectives
