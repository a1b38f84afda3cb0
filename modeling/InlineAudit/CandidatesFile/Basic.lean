import InlineAudit.Build.Settings
import InlineAudit.Candidates

/-!
The file in which a user keeps candidates, together with the settings of the build.

* `CandidatesFile` — its contents;
* `CandidatesFile.starter` — what a new file holds;
* `FileFormat` — the two forms of a file, told apart by its name.
-/

namespace InlineAudit

/-- The contents of a candidates file. -/
structure CandidatesFile where
  build : Build.Settings := {}
  candidates : Candidates := .empty
  deriving DecidableEq, Inhabited

/-- The contents of a new file, for its owner to change. -/
def CandidatesFile.starter : CandidatesFile where
  candidates :=
    (Candidates.empty.append "bytes" ["(*Buffer).Len", "(*Buffer).Cap"]).append "errors" ["New"]

/-- The forms of a candidates file. -/
inductive FileFormat
  | yaml
  | json
  deriving Repr, DecidableEq

namespace FileFormat

/-- The name of a form. -/
def name : FileFormat → String
  | .yaml => "YAML"
  | .json => "JSON"

/-- The extension of a path as text; one that is not UTF-8 counts as none. -/
def extensionText (p : Path) : String := (Utf8.decode? p.extension).getD ""

/-- The form of the file at a path, by its extension. -/
def ofPath? (p : Path) : Option FileFormat :=
  match extensionText p with
  | "yaml" | "yml" => some .yaml
  | "json" => some .json
  | _ => none

end FileFormat

end InlineAudit
