import InlineAudit.Command.Arguments
import InlineAudit.Trace.Run

/-!
The program: a command line is read and carried out.

* `Command.perform` — everything that a run of the program prints and does.
-/

namespace InlineAudit.Command

/-- The version of the program. -/
def version : String := "0.1.0"

/-- A run of the program: its exit code, what it prints, and the file system after it. -/
structure Performance where
  code : Nat
  stdout : String := ""
  stderr : String := ""
  tree : FileTree

/-- How the program is used, in a few words. -/
def usage : String :=
  line "Report Go functions the compiler does not inline" ++ line "" ++
    line "Usage: inlcheck [-v]... <COMMAND>" ++ line "" ++
    line "Commands:" ++
    line "  check      Report every symbol that was not proven inlineable" ++
    line "  init       Write a starter candidates file" ++
    line "  parse-log  Show how each line of a captured compiler log is interpreted" ++
    line "  help       Print this message"

/-- What a command does. -/
def Invoked.outcome (c : Invoked) (h : Host) (clock : Check.Clock) : Outcome :=
  match c with
  | .check o => Command.check h o clock
  | .init path force => Command.init h path force
  | .parseLog path json => Command.parseLog h path json

/-- The events of a command. -/
def Invoked.events (c : Invoked) (h : Host) : List Trace.Event :=
  match c with
  | .check o => Trace.ofCheck h o
  | _ => []

/-- The lines that are told of a command, each with the time. -/
def told (h : Host) (verbosity : Nat) (c : Invoked) (time : String) : String :=
  let filter := Trace.Filter.choose (h.envValue? Trace.Filter.variableName) verbosity
  String.join (((c.events h).filter filter.admits).map (Trace.Event.line time))

/-- A run of the program with a command line.  What is told comes before what the command itself
prints as an error. -/
def perform (h : Host) (args : List String) (clock : Check.Clock) (time : String) : Performance :=
  match Invocation.ofArguments args with
  | .version => { code := 0, stdout := line ("inlcheck " ++ version), tree := h.tree }
  | .help => { code := 0, stdout := usage, tree := h.tree }
  | .misuse => { code := 2, stderr := usage, tree := h.tree }
  | .run verbosity c =>
    let o := c.outcome h clock
    let lines := told h verbosity c time
    match o.problem with
    | none => { code := 0, stdout := o.stdout, stderr := lines ++ o.stderr, tree := o.tree }
    | some p =>
      { code := 1
        stdout := o.stdout
        stderr := lines ++ o.stderr ++ line ("Error: " ++ p.text)
        tree := o.tree }

end InlineAudit.Command
