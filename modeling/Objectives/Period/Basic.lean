/- # Periods

A period is a named stretch of days, usually a quarter.

Main definitions:

* `Period` — a period;
* `Period.make` — the check of a name and two dates;
* `Period.contains` — whether a day belongs to a period.
-/

import Objectives.Identifier
import Objectives.Violation
import Objectives.Calendar.Date

set_option relaxedAutoImplicit false
set_option autoImplicit false

namespace Objectives

/-- A period, its first and its last day included. -/
structure Period where
  id : PeriodId
  name : String
  startDate : Date
  endDate : Date
  /-- The key that orders the periods. -/
  sortOrder : Int
  deriving DecidableEq, Repr

namespace Period

/-- The period of a name that is not blank and of two dates in order. -/
def make (id : PeriodId) (name : String) (startDate endDate : Date) (sortOrder : Int) :
    Except Violation Period :=
  let name := Text.trim name
  if name.isEmpty then .error (.empty "name")
  else if startDate.le endDate then .ok ⟨id, name, startDate, endDate, sortOrder⟩
  else .error (.malformed "end_date" "end date must not precede start date")

/-- Whether a day belongs to the period. -/
def contains (p : Period) (day : Date) : Bool :=
  p.startDate.le day && day.le p.endDate

end Period

end Objectives
