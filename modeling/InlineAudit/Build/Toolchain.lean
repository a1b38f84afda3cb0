import InlineAudit.Build.Launch
import InlineAudit.Build.Settings
import InlineAudit.Source

/-!
The Go toolchain as a source of compiler output.

* `Toolchain` — which executable is run, where, and with which further flags;
* `Toolchain.arguments` — the full argument list for some packages;
* `Toolchain.launchBy`, `Toolchain.buildBy` — the launch of a build, and what it leaves behind;
* `Toolchain.sourceBy`, `Toolchain.source` — a build, as a source.

A build that cannot be started is no error of the source: its output is empty, and its status says
why.
-/

namespace InlineAudit

/-- The environment variable that names the `go` executable. -/
def executableVariable : String := "INLCHECK_GO_BIN"

/-- The flag that rebuilds every package, so that cached ones print their diagnostics too. -/
def rebuildFlag : String := "-a"

/-- The flag that asks for all inlining diagnostics, of every package in the build. -/
def diagnosticsFlag : String := "-gcflags=all=-m -m"

/-- A way to run builds. -/
structure Toolchain where
  executable : Path
  directory : Option Path := none
  extraArgs : List String := []
  deriving Repr, DecidableEq

namespace Toolchain

/-- The executable that the environment names. -/
def defaultExecutable (h : Host) : Path :=
  .ofString ((h.envValue? executableVariable).getD "go")

/-- The toolchain of the environment. -/
def ofEnvironment (h : Host) : Toolchain := { executable := defaultExecutable h }

/-- The toolchain that settings describe; a relative directory is seen from the base. -/
def ofSettings (h : Host) (s : Build.Settings) (base : Path) : Toolchain where
  executable := match s.go with
    | some go => .ofString go
    | none => defaultExecutable h
  directory := s.resolveDir base
  extraArgs := s.args

/-- The toolchain with another directory. -/
def withDir (t : Toolchain) (d : Path) : Toolchain := { t with directory := some d }

/-- The toolchain with further flags, after those that it has. -/
def withArgs (t : Toolchain) (args : List String) : Toolchain :=
  { t with extraArgs := t.extraArgs ++ args }

/-- The arguments of a build of some packages. -/
def arguments (t : Toolchain) (packages : List String) : List String :=
  ["build", rebuildFlag, diagnosticsFlag] ++ t.extraArgs ++ packages

/-- The run of a build, if it can be started, where programs are carried out in this way. -/
def launchBy (run : Executor) (h : Host) (t : Toolchain) (packages : List String) :
    Except IoError Shell.Ending :=
  h.launchBy run t.executable (t.arguments packages) t.directory

/-- The run of a build, if it can be started. -/
def launch (h : Host) (t : Toolchain) (packages : List String) : Except IoError Shell.Ending :=
  t.launchBy h.execute h packages

/-- What a launch leaves behind it: the output and status of the build. -/
def outcome (t : Toolchain) : Except IoError Shell.Ending → Bytes × Build.Status
  | .ok e => (e.output, .ofExit e.exit)
  | .error e => ([], .launchFailed ("failed to spawn " ++ t.executable.text ++ ": " ++ e.text))

/-- The output and status of a build, where programs are carried out in this way. -/
def buildBy (run : Executor) (h : Host) (t : Toolchain) (packages : List String) :
    Bytes × Build.Status :=
  t.outcome (t.launchBy run h packages)

/-- The output and status of a build. -/
def build (h : Host) (t : Toolchain) (packages : List String) : Bytes × Build.Status :=
  t.buildBy h.execute h packages

/-- The files after a build. -/
def treeAfter (h : Host) (t : Toolchain) (packages : List String) : FileTree :=
  match t.launch h packages with
  | .ok e => e.tree
  | .error _ => h.tree

/-- The name of builds as a source. -/
def sourceName : String := "go"

/-- Builds as a source, where programs are carried out in this way. -/
def sourceBy (run : Executor) (h : Host) (t : Toolchain) : Source where
  name := sourceName
  openFor packages :=
    let (output, status) := t.buildBy run h packages
    .ok (.atOnce output (.producer (.ok status)))

/-- Builds as a source. -/
def source (h : Host) (t : Toolchain) : Source := t.sourceBy h.execute h

end Toolchain

end InlineAudit
