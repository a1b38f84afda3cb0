import InlineAudit.Build.Status
import InlineAudit.Diagnostic
import InlineAudit.System.Exit
import InlineAudit.Text.Quoted

/-!
What the program tells about its work while it works.

* `Trace.Level` — how much an event matters;
* `Trace.Event` — the things that are told;
* `Trace.Event.line` — one of them, as a line.
-/

namespace InlineAudit.Trace

/-- How much an event matters. -/
inductive Level
  | warn
  | info
  | debug
  | trace
  deriving Repr, DecidableEq

namespace Level

/-- The place of a level in the order from the rarest to the most frequent; errors have place
one. -/
def rank : Level → Nat
  | .warn => 2
  | .info => 3
  | .debug => 4
  | .trace => 5

/-- A level in a line, at the right end of a field of five characters. -/
def text : Level → String
  | .warn => " WARN"
  | .info => " INFO"
  | .debug => "DEBUG"
  | .trace => "TRACE"

end Level

/-- A thing that is told. -/
inductive Event
  | runningCheck (source : String) (symbols : Nat)
  | checking (source : String) (packages symbols : Nat)
  | replaying (packages : List String)
  | startingBuild (executable : String) (args : List String)
  | buildExited (exit : Exit)
  | classified (d : Diagnostic)
  | enteringPackage (package : String)
  | consumed (lines pending : Nat)
  | incomplete (status : Build.Status)
  deriving Repr, DecidableEq

namespace Event

/-- How much an event matters. -/
def level : Event → Level
  | .incomplete _ => .warn
  | .checking .. | .startingBuild .. => .info
  | .classified _ => .trace
  | _ => .debug

/-- The part of the program that tells of an event. -/
def target : Event → String
  | .runningCheck .. => "inlcheck::commands::check"
  | .checking .. | .consumed .. | .incomplete _ => "inlcheck_core::services::check"
  | .replaying _ => "inlcheck_core::services::sources::replay"
  | .startingBuild .. | .buildExited _ => "inlcheck_core::services::sources::go"
  | .classified _ | .enteringPackage _ => "inlcheck_core::diagnostics"

/-- The names of the particulars that are told with an event. -/
def fieldNames : Event → List String
  | .runningCheck .. => ["message", "source", "symbols"]
  | .checking .. => ["message", "source", "packages", "symbols"]
  | .replaying _ => ["message", "packages"]
  | .startingBuild .. => ["message", "go", "args"]
  | .buildExited (.status 0) => ["message"]
  | .buildExited _ => ["message", "status"]
  | .classified _ => ["message", "classified"]
  | .enteringPackage _ => ["message", "package"]
  | .consumed .. => ["message", "lines", "pending"]
  | .incomplete _ => ["message", "build"]

/-- What a line says, with its texts in quotes. -/
def diagnosticText : Diagnostic → String
  | .header package => "Header \x7b package: " ++ Quoted.text package ++ " \x7d"
  | .inliningCall symbol => "InliningCall \x7b symbol: " ++ Quoted.text symbol ++ " \x7d"
  | .canInline symbol => "CanInline \x7b symbol: " ++ Quoted.text symbol ++ " \x7d"
  | .cannotInline symbol reason =>
    "CannotInline \x7b symbol: " ++ Quoted.text symbol ++ ", reason: " ++ Quoted.text reason ++
      " \x7d"
  | .other => "Other"

/-- An event and its particulars. -/
def text : Event → String
  | .runningCheck source symbols =>
    "running check source=" ++ Quoted.text source ++ " symbols=" ++ toString symbols
  | .checking source packages symbols =>
    "checking inlining decisions source=" ++ Quoted.text source ++ " packages=" ++
      toString packages ++ " symbols=" ++ toString symbols
  | .replaying packages => "replaying captured compiler output packages=" ++ Quoted.list packages
  | .startingBuild executable args =>
    "starting go build go=" ++ executable ++ " args=" ++ Quoted.list args
  | .buildExited (.status 0) => "go build exited successfully"
  | .buildExited exit => "go build exited unsuccessfully status=" ++ exit.text
  | .classified d => "diagnostic line classified=" ++ diagnosticText d
  | .enteringPackage package => "entering package package=" ++ Quoted.text package
  | .consumed lines pending =>
    "compiler output consumed lines=" ++ toString lines ++ " pending=" ++ toString pending
  | .incomplete status => "issues may be incomplete build=" ++ status.text

/-- An event in a line, after the time at which it is told. -/
def line (time : String) (e : Event) : String :=
  time ++ " " ++ e.level.text ++ " " ++ e.text ++ "\n"

end Event

end InlineAudit.Trace
