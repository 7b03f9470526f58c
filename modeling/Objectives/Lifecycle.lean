/- # Lifecycles

A status moves between finitely many states, and a lifecycle says which moves are allowed.

Main definitions:

* `Lifecycle` — the states, the allowed moves and the states' names;
* `Lifecycle.successors`, `Lifecycle.isTerminal` — the states that can follow, and having none;
* `Lifecycle.move` — a move with its check.

Main results:

* `Lifecycle.mem_successors` — the successors are the listed states that a move may reach.
-/

import Objectives.Violation

set_option relaxedAutoImplicit false
set_option autoImplicit false

namespace Objectives

/-- The states of a status and the moves between them. -/
class Lifecycle (σ : Type) where
  /-- Every state, from the first of the lifecycle to the last. -/
  states : List σ
  /-- Whether the first state may be followed by the second. -/
  allows : σ → σ → Bool
  /-- The state's name in a refusal. -/
  title : σ → String

namespace Lifecycle

variable {σ : Type} [Lifecycle σ]

/-- The states that may follow, in the order of the lifecycle. -/
def successors (current : σ) : List σ :=
  states.filter (allows current)

/-- The successors are the listed states that a move may reach. -/
theorem mem_successors {current next : σ} :
    next ∈ successors current ↔ next ∈ states ∧ allows current next = true := by
  simp [successors]

/-- A state that nothing may follow. -/
def isTerminal (current : σ) : Bool :=
  (successors current).isEmpty

/-- The next state, if the move is allowed. -/
def move (current next : σ) : Except Violation σ :=
  if allows current next then .ok next
  else .error (.malformed "state_transition"
    s!"Cannot transition from {title current} to {title next}")

end Lifecycle

end Objectives
