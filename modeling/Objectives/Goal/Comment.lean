/- # Comments

A comment is a note on a goal or on a key result.

Main definitions:

* `CommentTarget`, `Comment` — what is commented, and the note;
* `commentText` — the text of a note, trimmed.
-/

import Objectives.Identifier
import Objectives.Violation
import Objectives.Text.Blank

set_option relaxedAutoImplicit false
set_option autoImplicit false

namespace Objectives

/-- What a comment is on. -/
inductive CommentTarget
  | goal (id : GoalId)
  | keyResult (id : KeyResultId)
  deriving DecidableEq, Repr

/-- A comment. -/
structure Comment where
  id : CommentId
  target : CommentTarget
  text : String
  deriving DecidableEq, Repr

/-- The trimmed text of a comment, which must not be blank. -/
def commentText (text : String) : Except Violation String :=
  let text := Text.trim text
  if text.isEmpty then .error (.empty "text") else .ok text

end Objectives
