import InlineAudit.Build.Toolchain
import InlineAudit.Check

/-!
The check in one step, for other programs.
-/

namespace InlineAudit

/-- The lines of the candidates that the toolchain of the environment does not prove inlineable;
none if all of them are. -/
def unprovenLines (h : Host) (cs : Candidates) : Except Check.Failure (List String) :=
  match Check.run ((Toolchain.ofEnvironment h).source h) false cs default with
  | .ok r => .ok r.lines
  | .error e => .error e

end InlineAudit
