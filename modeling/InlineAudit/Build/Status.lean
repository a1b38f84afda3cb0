/-!
How the process behind a compiler log ended.

* `Build.Status` — the ways it can end;
* `Build.Status.isSuccess` — no build ran and failed;
* `Build.Status.text` — the phrase that names it.
-/

namespace InlineAudit.Build

/-- The end of a build. -/
inductive Status
  /-- It exited with status zero. -/
  | succeeded
  /-- It exited with another status, or a signal ended it and there is none. -/
  | failed (code : Option Int32)
  /-- It could not be started. -/
  | launchFailed (message : String)
  /-- There was no build: the log was captured earlier. -/
  | replayed
  deriving Repr, DecidableEq, Inhabited

namespace Status

/-- No build ran and failed. -/
def isSuccess : Status → Bool
  | .succeeded | .replayed => true
  | .failed _ | .launchFailed _ => false

/-- The end of a build in words. -/
def text : Status → String
  | .succeeded => "build succeeded"
  | .failed (some code) => "build exited with status " ++ toString code.toInt
  | .failed none => "build terminated by signal"
  | .launchFailed message => "build could not run: " ++ message
  | .replayed => "replayed from log"

end Status

end InlineAudit.Build
