/-!
A candidate that was not proven inlineable, with the best reason there is.

* `Issue.text` — the line that is printed for it;
* `Issue.sorted` — issues in the order in which they are reported.
-/

namespace InlineAudit

/-- The reason given for a candidate of which the log says nothing. -/
def unknownReason : String := "unknown reason"

/-- A full name and why it is reported. -/
structure Issue where
  name : String
  reason : String
  deriving Repr, DecidableEq, Inhabited

namespace Issue

/-- The issue in one line. -/
def text (i : Issue) : String :=
  i.name ++ ": " ++ i.reason

/-- The log gave no reason. -/
def isUnknown (i : Issue) : Bool :=
  i.reason == unknownReason

/-- Issues in ascending order of their lines, by code point. -/
def sorted (is : List Issue) : List Issue :=
  is.mergeSort fun a b => decide (a.text ≤ b.text)

end Issue

end InlineAudit
