import InlineAudit.Json.Printer
import InlineAudit.Json.Reader
import InlineAudit.Json.Record
import InlineAudit.Report

/-!
Reports in JSON.

* `Build.Status.toJson`, `Build.Status.ofJson?` — the end of a build;
* `Issue.toJson`, `Issue.ofJson?` — an issue;
* `Report.toJson`, `Report.ofJson?` — a whole report.

All fields of a report are required.  The end of a build is told apart by a tag, the member `status`
or the first item of an array, and a tag may stand anywhere among the members; so the other members
are held until it is known, and have to be values that can be held: representable, and not nested
too deep.
-/

namespace InlineAudit

namespace Build.Status

/-- The member that tells the ends of a build apart. -/
def tagName : String := "status"

/-- The end of a build as an object. -/
def toJson : Status → Json
  | .succeeded => .ofMembers [(tagName, .ofString "succeeded")]
  | .failed code =>
    .ofMembers [(tagName, .ofString "failed"),
      ("code", match code with
        | some n => .ofInt n.toInt
        | none => .null)]
  | .launchFailed message =>
    .ofMembers [(tagName, .ofString "launch_failed"), ("message", .ofString message)]
  | .replayed => .ofMembers [(tagName, .ofString "replayed")]

/-- The end of a build from its tag and the other items of an array. -/
def ofItems? (tag : String) (items : List Json) : Option Status :=
  match tag, items with
  | "succeeded", [] => some .succeeded
  | "replayed", [] => some .replayed
  | "failed", [code] => (Json.nullable? Json.int32? code).map .failed
  | "launch_failed", [message] => message.text?.map .launchFailed
  | _, _ => none

/-- The end of a build from its tag and the members of an object. -/
def ofFields? (tag : String) (members : List (String × Json)) : Option Status :=
  match tag with
  | "succeeded" => some .succeeded
  | "replayed" => some .replayed
  | "failed" => do
    let code ← Json.unique? members "code"
    (Json.field? (Json.nullable? Json.int32?) none code).map .failed
  | "launch_failed" => do
    (← Json.unique? members "message").bind fun m => m.text?.map .launchFailed
  | _ => none

/-- The greatest depth of nesting in a text. -/
def depthLimit : Nat := 127

/-- The end of a build from a value that stands inside a number of containers. -/
def ofJson? (outer : Nat) (j : Json) : Option Status :=
  if depthLimit < outer + j.depth || !j.isRepresentable then none
  else
    match j with
    | .array (tag :: items) => tag.text?.bind fun t => ofItems? t items
    | .array [] => none
    | j => do
      let members ← j.members?
      let tag ← Json.unique? members tagName
      ofFields? (← tag.bind Json.text?) members

end Build.Status

namespace Issue

/-- An issue as an object. -/
def toJson (i : Issue) : Json :=
  .ofMembers [("name", .ofString i.name), ("reason", .ofString i.reason)]

/-- The issue of a record. -/
def ofJson? (j : Json) : Option Issue := do
  match ← j.fields? ["name", "reason"] with
  | [some name, some reason] => return ⟨← name.text?, ← reason.text?⟩
  | _ => none

end Issue

namespace Report

/-- A report as an object. -/
def toJson (r : Report) : Json :=
  .ofMembers [
    ("source", .ofString r.source),
    ("packages", .ofStrings r.packages),
    ("candidates_digest", .ofString r.digest),
    ("build", r.build.toJson),
    ("issues", .array (r.issues.map Issue.toJson)),
    ("started_at", .ofString r.startedAt),
    ("finished_at", .ofString r.finishedAt)]

/-- The fields of a report, in their order. -/
def fieldNames : List String :=
  ["source", "packages", "candidates_digest", "build", "issues", "started_at", "finished_at"]

/-- The report of a record. -/
def ofJson? (j : Json) : Option Report := do
  match ← j.fields? fieldNames with
  | [some source, some packages, some digest, some build, some issues, some started,
      some finished] =>
    return {
      source := ← source.text?
      packages := ← packages.listOf? Json.text?
      digest := ← digest.text?
      build := ← Build.Status.ofJson? 1 build
      issues := ← issues.listOf? Issue.ofJson?
      startedAt := ← started.text?
      finishedAt := ← finished.text? }
  | _ => none

end Report

end InlineAudit
