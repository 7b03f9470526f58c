/- # Trees from a walk

The trees of a hierarchy are put together from a walk, of which only the order of the teams and their
depths are used.  Every list of trees can be read off its own flattening in this way: while the teams
of a tree are entered, the nodes that are open below it stay as they are, and when they are all
entered and closed again the tree stands as the last child of the innermost of those.  A walk is the
flattening of trees in which every node has the children that its team has in the hierarchy.

Main definitions:

* `TeamNode.nodes`, `TeamNode.nodesAll` — a node with all nodes below it;
* `Nesting.attach` — more children for the innermost open node.

Main results:

* `Nesting.foldl_enter_flattenAll` — **the invariant of the loop**: to enter the teams of trees and
  to close their nodes attaches the trees;
* `Nesting.trees_flattenAll` — trees are put together again from their flattening;
* `Hierarchy.Lists.exists_trees` — what a walk lists is the flattening of trees;
* `Hierarchy.forest_of_walk` — **the trees of a hierarchy are the walk, nested**.
-/

import Objectives.Proofs.Walk

set_option relaxedAutoImplicit false
set_option autoImplicit false

namespace Objectives

/-! ### Nodes and sizes -/

namespace TeamNode

@[simp] theorem node_team_children (tree : TeamNode) : node tree.team tree.children = tree := by
  cases tree
  rfl

mutual

/-- A node and the nodes below it. -/
def nodes : TeamNode → List TeamNode
  | node team children => node team children :: nodesAll children

/-- The nodes of a list of trees. -/
def nodesAll : List TeamNode → List TeamNode
  | [] => []
  | tree :: rest => tree.nodes ++ nodesAll rest

end

mutual

/-- A tree has as many teams as its flattening has entries. -/
theorem length_flatten (depth : Nat) (tree : TeamNode) :
    (tree.flatten depth).length = tree.size := by
  cases tree with
  | node team children =>
    rw [flatten, size, List.length_cons, length_flattenAll, Nat.add_comm]

/-- The sizes of trees add up to the entries of their flattening. -/
theorem length_flattenAll (depth : Nat) (trees : List TeamNode) :
    (flattenAll depth trees).length = sizes trees := by
  cases trees with
  | nil => rfl
  | cons tree rest =>
    rw [flattenAll, sizes, List.length_append, length_flatten, length_flattenAll]

end

theorem sizes_eq_sum (trees : List TeamNode) : sizes trees = (trees.map size).sum := by
  induction trees with
  | nil => rfl
  | cons tree rest ih => rw [sizes, ih, List.map_cons, List.sum_cons]

end TeamNode

/-! ### Closing nodes -/

namespace Nesting

open TeamNode

variable {s : Nesting} {depth : Nat}

/-- More children for the innermost open node; more complete trees if none is open. -/
def attach (s : Nesting) (trees : List TeamNode) : Nesting :=
  match s.opened with
  | [] => ⟨[], s.finished ++ trees⟩
  | top :: rest => ⟨.node top.team (top.children ++ trees) :: rest, s.finished⟩

@[simp] theorem attach_nil (s : Nesting) : s.attach [] = s := by
  obtain ⟨_ | ⟨top, rest⟩, finished⟩ := s <;> simp [attach]

theorem attach_attach (s : Nesting) (a b : List TeamNode) :
    (s.attach a).attach b = s.attach (a ++ b) := by
  obtain ⟨_ | ⟨top, rest⟩, finished⟩ := s <;>
    simp [attach, TeamNode.team, TeamNode.children, List.append_assoc]

@[simp] theorem length_attach (s : Nesting) (trees : List TeamNode) :
    (s.attach trees).opened.length = s.opened.length := by
  obtain ⟨_ | ⟨top, rest⟩, finished⟩ := s <;> rfl

/-- A node that is closed is attached to those around it. -/
theorem closeTop_cons (top : TeamNode) (rest finished : List TeamNode) :
    closeTop ⟨top :: rest, finished⟩ = attach ⟨rest, finished⟩ [top] := by
  cases rest <;> rfl

theorem length_closeTop (s : Nesting) : s.closeTop.opened.length = s.opened.length - 1 := by
  obtain ⟨_ | ⟨top, rest⟩, finished⟩ := s
  · rfl
  · rw [closeTop_cons, length_attach]
    rfl

theorem length_close (count : Nat) (s : Nesting) :
    (close count s).opened.length = s.opened.length - count := by
  induction count generalizing s with
  | zero => rfl
  | succ count ih =>
    rw [close, ih, length_closeTop]
    omega

theorem close_add (m n : Nat) (s : Nesting) : close (m + n) s = close n (close m s) := by
  induction m generalizing s with
  | zero => rw [Nat.zero_add, close]
  | succ m ih => rw [Nat.succ_add, close, ih, close]

theorem length_closeTo (s : Nesting) (depth : Nat) :
    (s.closeTo depth).opened.length = min s.opened.length depth := by
  rw [closeTo, length_close]
  omega

/-- No node is closed when there are not more than are to stay open. -/
theorem closeTo_of_length_le (h : s.opened.length ≤ depth) : s.closeTo depth = s := by
  rw [closeTo, Nat.sub_eq_zero_of_le h, close]

/-- The nodes at the larger depth are closed first. -/
theorem closeTo_closeTo (s : Nesting) {a b : Nat} (h : a ≤ b) :
    (s.closeTo b).closeTo a = s.closeTo a := by
  have hcount : s.opened.length - a =
      (s.opened.length - b) + ((s.closeTo b).opened.length - a) := by
    rw [length_closeTo]
    omega
  rw [closeTo, closeTo, closeTo, hcount, close_add, closeTo]

/-- A single node above the depth is closed. -/
theorem closeTo_cons (top : TeamNode) {rest : List TeamNode} (finished : List TeamNode)
    (h : rest.length = depth) :
    closeTo ⟨top :: rest, finished⟩ depth = attach ⟨rest, finished⟩ [top] := by
  have hcount : (top :: rest).length - depth = 1 := by
    rw [List.length_cons, h]
    omega
  rw [closeTo, hcount, close, close, closeTop_cons]

/-! ### Entering the teams of trees -/

mutual

/-- To enter the teams of a tree and to close its nodes attaches the tree. -/
theorem foldl_enter_flatten (tree : TeamNode) (depth : Nat) (s : Nesting)
    (h : depth ≤ s.opened.length) :
    ((tree.flatten depth).foldl enter s).closeTo depth = (s.closeTo depth).attach [tree] := by
  cases tree with
  | node team children =>
    have hlength : (s.closeTo depth).opened.length = depth := by
      rw [length_closeTo]
      omega
    -- the node of the team is opened without children; the trees below it become its children
    have hopen : (s.enter ⟨team, depth⟩).opened.length = depth + 1 := by
      rw [enter, List.length_cons, hlength]
    have hbelow := foldl_enter_flattenAll children (depth + 1) (s.enter ⟨team, depth⟩) hopen.ge
    rw [closeTo_of_length_le hopen.le] at hbelow
    have hnode : (s.enter ⟨team, depth⟩).attach children =
        ⟨node team children :: (s.closeTo depth).opened, (s.closeTo depth).finished⟩ := by
      rfl
    rw [flatten, List.foldl_cons, ← closeTo_closeTo _ (Nat.le_succ depth), hbelow, hnode]
    exact closeTo_cons _ _ hlength

/-- **To enter the teams of trees and to close their nodes attaches the trees** to the node that is
open around them. -/
theorem foldl_enter_flattenAll (trees : List TeamNode) (depth : Nat) (s : Nesting)
    (h : depth ≤ s.opened.length) :
    ((flattenAll depth trees).foldl enter s).closeTo depth = (s.closeTo depth).attach trees := by
  cases trees with
  | nil =>
    rw [flattenAll, List.foldl_nil, attach_nil]
  | cons tree rest =>
    have hfirst := foldl_enter_flatten tree depth s h
    have hlength : depth ≤ ((tree.flatten depth).foldl enter s).opened.length := by
      have hcongr := congrArg (fun s : Nesting => s.opened.length) hfirst
      simp only [length_closeTo, length_attach] at hcongr
      omega
    rw [flattenAll, List.foldl_append, foldl_enter_flattenAll rest depth _ hlength, hfirst,
      attach_attach, List.singleton_append]

end

/-- Trees are put together again from their flattening. -/
theorem trees_flattenAll (forest : List TeamNode) : trees (flattenAll 0 forest) = forest := by
  rw [trees, foldl_enter_flattenAll forest 0 empty (Nat.zero_le _)]
  rfl

end Nesting

/-! ### The trees of a walk -/

namespace Hierarchy

open TeamNode

variable {h : Hierarchy} {pending out : List WalkEntry}

/-- What a walk lists is the flattening of trees, with the pending teams on top, in which every node
has the children of its team. -/
theorem Lists.exists_trees (hl : h.Lists pending out) {depth : Nat}
    (hd : ∀ e ∈ pending, e.depth = depth) :
    ∃ trees, flattenAll depth trees = out ∧
      trees.map TeamNode.team = pending.map WalkEntry.team ∧
      ∀ node ∈ nodesAll trees, node.children.map TeamNode.team = h.childrenOf node.team.id := by
  induction hl generalizing depth with
  | nil => exact ⟨[], rfl, rfl, by simp [nodesAll]⟩
  | @cons e pending block rest _ _ ihb ihr =>
    have he : e.depth = depth := hd e (List.mem_cons_self ..)
    have hbelow : ∀ c ∈ h.below e, c.depth = depth + 1 := by
      intro c hc
      rw [(mem_below.1 hc).2, he]
    obtain ⟨children, rfl, htop, hchildren⟩ := ihb hbelow
    obtain ⟨trees, rfl, htops, htrees⟩ := ihr fun x hx => hd x (List.mem_cons_of_mem _ hx)
    refine ⟨node e.team children :: trees, ?_, ?_, ?_⟩
    · rw [flattenAll, flatten, ← he, List.cons_append]
    · rw [List.map_cons, List.map_cons, htops, TeamNode.team]
    · intro n hn
      rw [nodesAll, nodes, List.cons_append, List.mem_cons, List.mem_append] at hn
      rcases hn with rfl | hn | hn
      · rw [TeamNode.children, TeamNode.team, htop, map_team_below]
      · exact hchildren n hn
      · exact htrees n hn

/-- A walk that succeeds is a walk from some teams. -/
theorem exists_walkFrom {root : Option TeamId} {entries : List WalkEntry}
    (hw : h.walk root = .ok entries) : ∃ starts, h.walkFrom starts = .ok entries := by
  cases root with
  | none => exact ⟨h.roots, (walk_none_eq_ok_iff.1 hw).1⟩
  | some id =>
    rw [walk] at hw
    cases hget : h.get? id with
    | none =>
      rw [hget] at hw
      cases hw
    | some team =>
      rw [hget] at hw
      exact ⟨[team], hw⟩

/-- **The trees of a hierarchy are the walk, nested.**  They are refused exactly as the walk is.
Otherwise their flattening is the walk, the nodes below a node are the children of its team in their
order, and the sizes add up to the length of the walk. -/
theorem forest_of_walk (h : Hierarchy) (root : Option TeamId) :
    (∀ f, h.forest root = .error f ↔ h.walk root = .error f) ∧
      ∀ entries, h.walk root = .ok entries → ∃ trees, h.forest root = .ok trees ∧
        flattenAll 0 trees = entries ∧
        (∀ node ∈ nodesAll trees, node.children.map TeamNode.team = h.childrenOf node.team.id) ∧
        (trees.map TeamNode.size).sum = entries.length := by
  constructor
  · intro f
    rw [forest]
    cases h.walk root <;> simp [Except.map]
  · intro entries hw
    obtain ⟨starts, hfrom⟩ := exists_walkFrom hw
    have hlists : h.Lists (starts.map fun t => ⟨t, 0⟩) entries := visit_lists hfrom
    obtain ⟨trees, rfl, -, hchildren⟩ := hlists.exists_trees (depth_of_mem_starts starts)
    refine ⟨trees, ?_, rfl, hchildren, ?_⟩
    · rw [forest, hw, Except.map, Nesting.trees_flattenAll]
    · rw [← sizes_eq_sum, length_flattenAll]

/-- A tree of three levels and a team beside it, with the trees that are put together; and two teams
that are each other's parent, for which trees are refused. -/
theorem forest_of_walk_three_levels :
    let platform : Team := ⟨1, "Platform", .cluster, none⟩
    let payments : Team := ⟨2, "Payments", .unit, some 1⟩
    let identity : Team := ⟨3, "Identity", .team, some 1⟩
    let checkout : Team := ⟨4, "Checkout", .team, some 2⟩
    let growth : Team := ⟨5, "Growth", .cluster, none⟩
    let h := ofList [payments, platform, checkout, growth, identity]
    let entries : List WalkEntry :=
      [⟨growth, 0⟩, ⟨platform, 0⟩, ⟨identity, 1⟩, ⟨payments, 1⟩, ⟨checkout, 2⟩]
    let trees : List TeamNode := [node growth [],
      node platform [node identity [], node payments [node checkout []]]]
    let cyclic := ofList [⟨1, "A", .team, some 2⟩, ⟨2, "B", .team, some 1⟩]
    h.walk none = .ok entries ∧ h.forest none = .ok trees ∧ flattenAll 0 trees = entries ∧
      (∀ node ∈ nodesAll trees, node.children.map TeamNode.team = h.childrenOf node.team.id) ∧
      (trees.map TeamNode.size).sum = entries.length ∧
      cyclic.forest (some 1) = .error (.parentCycle 1) := by
  intro platform payments identity checkout growth h entries trees cyclic
  have hw : h.walk none = .ok entries := by decide +kernel
  have hforest : h.forest none = .ok trees := by
    rw [forest, hw]
    rfl
  obtain ⟨trees', hforest', hflat, hchildren, hsize⟩ := (forest_of_walk h none).2 entries hw
  cases hforest.symm.trans hforest'
  have hcycle : cyclic.walk (some 1) = .error (.parentCycle 1) := by rfl
  exact ⟨hw, hforest, hflat, hchildren, hsize, ((forest_of_walk cyclic (some 1)).1 _).2 hcycle⟩

end Hierarchy

end Objectives
