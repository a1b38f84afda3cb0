import InlineAudit.CandidatesFile.Basic
import InlineAudit.Json.Printer
import InlineAudit.Json.Reader
import InlineAudit.Json.Record

/-!
Candidates files in JSON.

* `Candidates.toJson`, `Candidates.ofJson?` — a candidate set as an object of lists;
* `CandidatesFile.toJsonText`, `CandidatesFile.ofJsonText?` — a whole file.

Settings that have no value are left out when a file is written, and any field may be missing when
it is read.  Of a package that occurs twice the last list stands.
-/

namespace InlineAudit

namespace Candidates

/-- A candidate set as an object. -/
def toJson (cs : Candidates) : Json :=
  .ofMembers (cs.toList.map fun e => (e.1, .ofStrings e.2))

/-- The packages of an object with their lists, as they stand in it. -/
def pairsOfJson? (j : Json) : Option (List (String × List String)) := do
  let members ← j.members?
  members.mapM fun m => (m.2.listOf? Json.text?).map fun symbols => (m.1, symbols)

/-- The candidate set of an object. -/
def ofJson? (j : Json) : Option Candidates :=
  (pairsOfJson? j).map ofListLast

end Candidates

namespace Build.Settings

/-- Settings as an object. -/
def toJson (s : Settings) : Json :=
  let optional (name : String) (value : Option String) : List (String × Json) :=
    match value with
    | none => []
    | some v => [(name, .ofString v)]
  .ofMembers <|
    optional "go" s.go ++ optional "dir" s.dir ++
      (if s.args.isEmpty then [] else [("args", .ofStrings s.args)]) ++
      [("strict", .bool s.strict)]

/-- The settings of a record. -/
def ofJson? (j : Json) : Option Settings := do
  match ← j.fields? ["go", "dir", "args", "strict"] with
  | [go, dir, args, strict] =>
    return {
      go := ← Json.field? (Json.nullable? Json.text?) none go
      dir := ← Json.field? (Json.nullable? Json.text?) none dir
      args := ← Json.field? (Json.listOf? Json.text?) [] args
      strict := ← Json.field? Json.flag? false strict }
  | _ => none

end Build.Settings

namespace CandidatesFile

/-- A file as an object. -/
def toJson (f : CandidatesFile) : Json :=
  .ofMembers [("build", f.build.toJson), ("candidates", f.candidates.toJson)]

/-- The file of a record. -/
def ofJson? (j : Json) : Option CandidatesFile := do
  match ← j.fields? ["build", "candidates"] with
  | [build, candidates] =>
    return {
      build := ← Json.field? Build.Settings.ofJson? {} build
      candidates := ← Json.field? Candidates.ofJson? .empty candidates }
  | _ => none

/-- The text of a file. -/
def toJsonText (f : CandidatesFile) : String := f.toJson.pretty

/-- The file of a text. -/
def ofJsonText? (s : String) : Option CandidatesFile := (Json.parse? s).bind ofJson?

end CandidatesFile

end InlineAudit
