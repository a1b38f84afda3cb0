import InlineAudit.Build.Toolchain
import InlineAudit.Command.Problem
import InlineAudit.Command.Symbol
import InlineAudit.Log.File

/-!
What a check is made of: the candidates file together with the options of the command line.

* `Command.CheckOptions` — the options;
* `Command.Inputs` — the file with everything merged into it;
* `Command.resolve` — the merge, and the checks that come before any build;
* `Command.Inputs.source` — the source that the options ask for.

Design notes: candidates of the command line come after those of the file, package by package, and
so do build flags; other settings of the command line take the place of the file's.  A directory on
the command line is seen from the current directory, and one in the file from where the file is.  A
path of the command line is looked at when its turn comes: the file first, the directory after the
candidates, and the log when all is resolved.
-/

namespace InlineAudit.Command

/-- The options of a check. -/
structure CheckOptions where
  /-- The candidates file. -/
  file : Option String := none
  /-- Further candidates. -/
  symbols : List String := []
  go : Option String := none
  dir : Option String := none
  args : List String := []
  /-- A captured log that takes the place of a build. -/
  fromLog : Option String := none
  strict : Bool := false
  json : Bool := false
  deriving Repr, DecidableEq, Inhabited

/-- A file with the options merged into it, and the directory from which its own directory is
seen. -/
structure Inputs where
  file : CandidatesFile
  base : Path
  deriving DecidableEq

/-- The candidate that an argument names is added. -/
def addCandidate (cs : Candidates) (argument : String) : Except Problem Candidates :=
  match candidate? argument with
  | some (package, symbol) => .ok (cs.add package symbol)
  | none => .error (.badCandidate argument)

/-- The candidates that arguments name, up to the first that names none. -/
def candidates (arguments : List String) : Except Problem Candidates :=
  arguments.foldlM addCandidate .empty

/-- The path from the root that an argument means. -/
def pathOf (h : Host) (argument : String) : Except Problem Path :=
  (h.absolutize (.ofString argument)).mapError .noCurrentDirectory

/-- The candidates file that the options name, and where it is; without one an empty file in the
current directory. -/
def baseFile (h : Host) : Option String → Except Problem Inputs
  | none =>
    match h.currentDirectory with
    | .error cause => .error (.noCurrentDirectory cause)
    | .ok here => .ok ⟨{}, here.path⟩
  | some name =>
    match pathOf h name with
    | .error p => .error p
    | .ok path =>
      match CandidatesFile.load h path with
      | .error p => .error (.file p)
      | .ok file => .ok ⟨file, path.parent?.getD ⟨[]⟩⟩

/-- The directory of a build: that of the options, as a text, or else that of the file. -/
def mergeDir (h : Host) (written : Option String) : Option String → Except Problem (Option String)
  | none => .ok written
  | some d => (pathOf h d).map fun path => some path.text

/-- The settings of a file with those of the options. -/
def mergeSettings (h : Host) (s : Build.Settings) (o : CheckOptions) :
    Except Problem Build.Settings :=
  (mergeDir h s.dir o.dir).map fun dir => {
    go := o.go.or s.go
    dir
    args := s.args ++ o.args
    strict := s.strict || o.strict }

/-- The merge of a file with the options, before it is validated. -/
def merge (h : Host) (o : CheckOptions) : Except Problem Inputs := do
  let inputs ← baseFile h o.file
  let extra ← candidates o.symbols
  let build ← mergeSettings h inputs.file.build o
  return { inputs with file := { build, candidates := inputs.file.candidates.merge extra } }

/-- The inputs of a check; they are valid, and there is something to check. -/
def resolve (h : Host) (o : CheckOptions) : Except Problem Inputs := do
  let inputs ← merge h o
  match inputs.file.candidates.validate with
  | .error cause => .error (.invalid cause)
  | .ok _ => if inputs.file.candidates.isEmpty then .error .noCandidates else .ok inputs

namespace Inputs

/-- The toolchain that the inputs describe. -/
def toolchain (h : Host) (i : Inputs) : Toolchain := .ofSettings h i.file.build i.base

/-- The source of a check, where programs are carried out in this way: the log that the options
name, or a build. -/
def sourceBy (run : Executor) (h : Host) (i : Inputs) (o : CheckOptions) : Except Problem Source :=
  match o.fromLog with
  | some log => (pathOf h log).map (Log.fileSource h)
  | none => .ok ((i.toolchain h).sourceBy run h)

/-- The source of a check: the log that the options name, or a build. -/
def source (h : Host) (i : Inputs) (o : CheckOptions) : Except Problem Source :=
  i.sourceBy h.execute h o

/-- The files after a check: those that a build leaves, unless the options name a log. -/
def treeAfter (h : Host) (i : Inputs) (o : CheckOptions) : FileTree :=
  match o.fromLog with
  | some _ => h.tree
  | none => (i.toolchain h).treeAfter h i.file.candidates.packages

end Inputs

end InlineAudit.Command
