import InlineAudit.CandidatesFile.Basic
import InlineAudit.Yaml.Decode
import InlineAudit.Yaml.Scalar.Written

/-!
Candidates files in YAML.

* `CandidatesFile.toYamlText` — the text of a file;
* `CandidatesFile.ofYamlText?` — the file of a text.

A file is written in blocks, with the items of a list at the indentation of its key.  Settings that
have no value are left out when a file is written, and any field may be missing when it is read.  Of
a package that occurs twice the last list stands.
-/

namespace InlineAudit

namespace Candidates

open Yaml

/-- The items of a list, one on a line. -/
def yamlItems (indent : Nat) (items : List String) : List Char :=
  items.flatMap fun s => spaces indent ++ '-' :: ' ' :: scalarLine (indent + 2) s

/-- A list after a key on the same line. -/
def yamlList (indent : Nat) (items : List String) : List Char :=
  if items.isEmpty then " []\n".toList else '\n' :: yamlItems indent items

/-- A package and its symbols.  A package that cannot be a simple key has marks of its own for key
and value, and then the first item stands in the line of the value. -/
def yamlEntry (indent : Nat) (package : String) (symbols : List String) : List Char :=
  if isSimpleKey package then
    spaces indent ++ scalarChars (indent + 2) package ++ ':' :: yamlList indent symbols
  else
    spaces indent ++ '?' :: ' ' :: scalarLine (indent + 2) package ++ spaces indent ++
      match symbols with
      | [] => ": []\n".toList
      | first :: rest =>
        ": - ".toList ++ scalarLine (indent + 4) first ++ yamlItems (indent + 2) rest

/-- A candidate set after its key. -/
def toYaml (cs : Candidates) : List Char :=
  if cs.toList.isEmpty then " \x7b\x7d\n".toList
  else '\n' :: cs.toList.flatMap fun e => yamlEntry 2 e.1 e.2

/-- The candidate set of a mapping. -/
def ofYaml (node : Node) : Decoder Candidates := fun d =>
  ofListLast <$> pairs (listOf text) node d

end Candidates

namespace Build.Settings

open Yaml

/-- Settings, one on a line. -/
def toYaml (s : Settings) : List Char :=
  let optional (name : String) (value : Option String) : List Char :=
    match value with
    | none => []
    | some v => spaces 2 ++ name.toList ++ ':' :: ' ' :: scalarLine 4 v
  optional "go" s.go ++ optional "dir" s.dir ++
    (if s.args.isEmpty then [] else "  args:".toList ++ Candidates.yamlList 2 s.args) ++
    (if s.strict then "  strict: true\n" else "  strict: false\n").toList

/-- The settings of a record. -/
def ofYaml (node : Node) : Decoder Settings := fun d => do
  let changes : List (Option (Settings → Settings)) ← fields [
    ("go", fun n d => (fun go s => { s with go }) <$> nullable text n d),
    ("dir", fun n d => (fun dir s => { s with dir }) <$> nullable text n d),
    ("args", fun n d => (fun args s => { s with args }) <$> listOf text n d),
    ("strict", fun n d => (fun strict s => { s with strict }) <$> flag n d)] node d
  return changes.foldl (fun s change => (change.getD id) s) {}

end Build.Settings

namespace CandidatesFile

open Yaml

/-- The text of a file. -/
def toYamlText (f : CandidatesFile) : String :=
  String.ofList ("build:\n".toList ++ f.build.toYaml ++ "candidates:".toList ++ f.candidates.toYaml)

/-- The file of a record. -/
def ofYaml (node : Node) : Decoder CandidatesFile := fun d => do
  let changes : List (Option (CandidatesFile → CandidatesFile)) ← fields [
    ("build", fun n d => (fun build f => { f with build }) <$> Build.Settings.ofYaml n d),
    ("candidates", fun n d =>
      (fun candidates f => { f with candidates }) <$> Candidates.ofYaml n d)]
    node d
  return changes.foldl (fun f change => (change.getD id) f) {}

/-- The file of a text. -/
def ofYamlText? (s : String) : Option CandidatesFile :=
  (Yaml.parse? s).bind fun d => d.read? ofYaml

end CandidatesFile

end InlineAudit
