import InlineAudit.Build.Status
import InlineAudit.Pending
import InlineAudit.System.IoError

/-!
What can go wrong in a check.

* `Check.CheckError` — the errors, of the check itself and of the source that it asks;
* `Check.CheckError.text` — how one is worded.
-/

namespace InlineAudit.Check

/-- An error of a check. -/
inductive CheckError
  | invalid (cause : InvalidCandidates)
  /-- The output could not be opened or read. -/
  | unreadable (cause : IoError)
  /-- The build did not succeed, and the strict rule asked for that. -/
  | buildFailed (status : Build.Status)
  deriving Repr, DecidableEq

namespace CheckError

/-- A failure of the system that brings its own wording. -/
def reported (message : String) : CheckError := .unreadable (.reported message)

/-- The wording of an error. -/
def text : CheckError → String
  | .invalid .emptyPackage => "Invalid input: empty import path is not allowed"
  | .invalid (.duplicate name) => "Duplicate candidate: " ++ name
  | .unreadable cause => "Failed to read compiler output: " ++ cause.text
  | .buildFailed status => "Build did not succeed (" ++ status.text ++ ")"

end CheckError

end InlineAudit.Check
