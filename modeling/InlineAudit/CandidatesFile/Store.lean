import InlineAudit.CandidatesFile.Json
import InlineAudit.CandidatesFile.Yaml
import InlineAudit.System.FileTree

/-!
Candidates files in a file system.

* `CandidatesFile.load` — the file at a path;
* `CandidatesFile.store` — a file is written to a path;
* `FileProblem` — what can go wrong with either.
-/

namespace InlineAudit

/-- What can be wrong with a candidates file. -/
inductive FileProblem
  /-- The extension of the path names no form of a file. -/
  | unsupported (path : Path)
  | unreadable (path : Path) (cause : IoError)
  /-- The text is no candidates file in this form. -/
  | malformed (format : FileFormat) (path : Path)
  | unwritable (path : Path) (cause : IoError)
  deriving Repr, DecidableEq

namespace FileProblem

/-- The wording of a problem. -/
def message : FileProblem → String
  | .unsupported p =>
    "Unsupported candidates file extension '" ++ FileFormat.extensionText p ++ "' for " ++ p.text ++
      " (expected yaml, yml or json)"
  | .unreadable p _ => "Failed to read candidates file at " ++ p.text
  | .malformed f p => "Failed to parse candidates " ++ f.name ++ " at " ++ p.text
  | .unwritable p _ => "Failed to write candidates file at " ++ p.text

/-- What is behind a problem. -/
def causes : FileProblem → List String
  | .unsupported _ => []
  | .unreadable _ cause | .unwritable _ cause => [cause.text]
  | .malformed f _ => ["the text is not a candidates file in " ++ f.name]

end FileProblem

namespace CandidatesFile

/-- The text of a file in one of the forms. -/
def toText (format : FileFormat) (f : CandidatesFile) : String :=
  match format with
  | .yaml => f.toYamlText
  | .json => f.toJsonText

/-- The file of a text in one of the forms. -/
def ofText? (format : FileFormat) (s : String) : Option CandidatesFile :=
  match format with
  | .yaml => ofYamlText? s
  | .json => ofJsonText? s

/-- The file at a path. -/
def load (h : Host) (p : Path) : Except FileProblem CandidatesFile :=
  match FileFormat.ofPath? p with
  | none => .error (.unsupported p)
  | some format =>
    match h.tree.read h.cwd p with
    | .error e => .error (.unreadable p e)
    | .ok content =>
      match Utf8.decode? content with
      | none => .error (.unreadable p .notUtf8)
      | some text =>
        match ofText? format text with
        | none => .error (.malformed format p)
        | some f => .ok f

/-- The file system after a file is written to a path. -/
def store (h : Host) (p : Path) (f : CandidatesFile) : Except FileProblem FileTree :=
  match FileFormat.ofPath? p with
  | none => .error (.unsupported p)
  | some format =>
    match h.tree.write h.cwd p (Utf8.encode (f.toText format)) with
    | .error e => .error (.unwritable p e)
    | .ok tree => .ok tree

end CandidatesFile

end InlineAudit
