import InlineAudit.Build.Status
import InlineAudit.Shell.Run

/-!
Starting a program and waiting for its end.

* `Executor` — a way to carry programs out;
* `Host.program` — the program that a command name means;
* `Host.execute` — shell scripts, carried out;
* `Host.launchBy`, `Host.launch` — what the program prints, how it ends, and the files after it.

Design notes: the programs that can be carried out here are shell scripts.  What a launch does
around them is the same for all programs, so it takes the executor as a parameter.  The order in
which it can fail is fixed: a NUL in a name or argument, then the directory, then the program.
-/

namespace InlineAudit

/-- The end of a build whose process ended in this way. -/
def Build.Status.ofExit : Exit → Build.Status
  | .status 0 => .succeeded
  | .status n => .failed (some (Int32.ofNat n))
  | .signal _ => .failed none

/-- A way to carry programs out: what comes of a program that is started in a place with some
arguments, or why it cannot be started. -/
abbrev Executor := Place → Path → List String → Except IoError Shell.Ending

namespace Host

/-- The directories in which a bare name is looked up when the environment does not say. -/
def defaultSearchPath : String := "/bin:/usr/bin"

/-- The words with which the shell is called to run a command: a path where it has a slash, and a
name to be looked up in the directories of the environment otherwise. -/
def program (h : Host) (cwd : Place) (command : Path) (args : List Bytes) :
    Except IoError (List Bytes) :=
  if command.bytes = [] then .error .noSuchFile
  else if command.bytes.contains slash then h.tree.program cwd command args
  else
    let directories := ((h.envValue? "PATH").getD defaultSearchPath)
    h.tree.search cwd command.bytes args false .noSuchFile ((Utf8.encode directories).splitOn 58)

/-- The directory in which a program is started. -/
def startingPlace (h : Host) : Option Path → Except IoError Place
  | none => .ok h.cwd
  | some d =>
    match h.tree.find h.cwd d with
    | .error e => .error e
    | .ok place => if h.tree.isDirectory place then .ok place else .error .notADirectory

/-- What a program does that is started in a place. -/
def execute (h : Host) : Executor := fun place command args => do
  let words ← h.program place command (args.map Utf8.encode)
  return Shell.run words h.env h.tree place

/-- What a program does, where programs are carried out in this way; or why it cannot be started. -/
def launchBy (run : Executor) (h : Host) (command : Path) (args : List String)
    (directory : Option Path) : Except IoError Shell.Ending := do
  if command.bytes.contains 0 || args.any (·.toList.contains '\x00') then
    throw .nulInArgument
  let place ← h.startingPlace directory
  run place command args

/-- What a program does; or why it cannot be started. -/
def launch (h : Host) (command : Path) (args : List String) (directory : Option Path) :
    Except IoError Shell.Ending :=
  h.launchBy h.execute command args directory

end Host

end InlineAudit
