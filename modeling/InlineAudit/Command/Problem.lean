import InlineAudit.CandidatesFile.Store
import InlineAudit.Check

/-!
Why a command fails, and how it says so.

* `Command.Problem` — the ways to fail;
* `Command.Problem.message`, `Command.Problem.causes` — what is said about one, and about what is
  behind it;
* `Command.Problem.text` — all of it, over several lines.
-/

namespace InlineAudit.Command

/-- A failure of a command. -/
inductive Problem
  /-- A path is seen from the current directory, and that is not there. -/
  | noCurrentDirectory (cause : IoError)
  /-- An argument names no candidate. -/
  | badCandidate (argument : String)
  | file (problem : FileProblem)
  | invalid (cause : InvalidCandidates)
  | noCandidates
  | checkFailed (cause : Check.Failure)
  /-- Some candidates were not proven inlineable. -/
  | unproven (count : Nat)
  | fileExists (path : Path)
  | unreadableLog (path : Path) (cause : IoError)
  deriving Repr, DecidableEq

namespace Problem

/-- What is said about a failure. -/
def message : Problem → String
  | .noCurrentDirectory _ => "Failed to get current directory"
  | .badCandidate a =>
    "Invalid symbol '" ++ a ++ "': expected package.Symbol or package=Symbol"
  | .file p => p.message
  | .invalid cause => (Check.CheckError.invalid cause).text
  | .noCandidates =>
    "No candidates to check; pass --file <candidates.yaml> or --sym pkg.Symbol"
  | .checkFailed _ => "Inlining check failed"
  | .unproven n => toString n ++ " symbol(s) not proven inlineable"
  | .fileExists p =>
    "Refusing to overwrite existing file " ++ p.text ++ " (pass --force to replace it)"
  | .unreadableLog p _ => "Failed to read log at " ++ p.text

/-- What is behind the failure of a check, the nearest cause first. -/
def checkCauses : Check.Failure → List String
  | .error (.unreadable cause) => [(Check.CheckError.unreadable cause).text, cause.text]
  | .error e => [e.text]
  | .producerDied message => [message]

/-- What is behind a failure, the nearest cause first. -/
def causes : Problem → List String
  | .noCurrentDirectory cause => [cause.text]
  | .file p => p.causes
  | .checkFailed cause => checkCauses cause
  | .unreadableLog _ cause => [cause.text]
  | _ => []

/-- A cause under a heading: its first line after a lead, and the others under it. -/
def layOut (lead margin : String) (cause : String) : String :=
  lead ++ String.ofList (cause.toList.flatMap fun c =>
    if c = '\n' then '\n' :: margin.toList else [c])

/-- Causes in a list; several of them are numbered from zero. -/
def listCauses (causes : List String) : List String :=
  match causes with
  | [cause] => [layOut "    " "    " cause]
  | _ => causes.zipIdx.map fun (cause, n) =>
    let number := toString n
    let margin := String.ofList (List.replicate (5 - number.length) ' ')
    layOut (margin ++ number ++ ": ") "       " cause

/-- A failure with all its causes. -/
def text (p : Problem) : String :=
  match p.causes with
  | [] => p.message
  | causes => p.message ++ "\n\nCaused by:" ++ String.join ((listCauses causes).map ("\n" ++ ·))

end Problem

end InlineAudit.Command
