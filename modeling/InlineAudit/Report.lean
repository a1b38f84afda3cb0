import InlineAudit.Build.Status
import InlineAudit.Issue

/-!
The outcome of a check.
-/

namespace InlineAudit

/-- What a check found, and of what. -/
structure Report where
  source : String
  /-- The packages that were asked for, in ascending order. -/
  packages : List String
  /-- The fingerprint of the candidate set. -/
  digest : String
  build : Build.Status
  /-- The candidates that were not proven inlineable, in ascending order of their lines. -/
  issues : List Issue
  startedAt : String
  finishedAt : String
  deriving Repr, DecidableEq, Inhabited

namespace Report

/-- Every candidate was proven inlineable. -/
def isClean (r : Report) : Bool := r.issues.isEmpty

/-- One line for each issue. -/
def lines (r : Report) : List String := r.issues.map Issue.text

end Report

end InlineAudit
