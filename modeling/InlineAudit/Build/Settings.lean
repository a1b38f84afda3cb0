import InlineAudit.System.Path

/-!
How a build is to be run, as a user writes it down.

* `Build.Settings` — the executable, the directory, further flags, and the strict rule;
* `Build.Settings.resolveDir` — the directory, seen from the place where the settings stand.
-/

namespace InlineAudit.Build

/-- The settings of a build. -/
structure Settings where
  /-- The `go` executable, if not the one of the environment. -/
  go : Option String := none
  /-- The directory of the build. -/
  dir : Option String := none
  /-- Flags placed before the packages. -/
  args : List String := []
  /-- A build that does not succeed is an error. -/
  strict : Bool := false
  deriving Repr, DecidableEq, Inhabited

/-- The directory of the build: an absolute one stands for itself, and any other is seen from the
base. -/
def Settings.resolveDir (s : Settings) (base : Path) : Option Path :=
  s.dir.map fun d => base.join (.ofString d)

end InlineAudit.Build
