/-
What becomes of the candidates that a file lists.

An object may name a package twice, and its members are all read; but the set that they are put
into keeps one list for each package, before anything is validated.  Of a package that is named
twice only the last list comes to be checked:

* `load_eq_ok_iff` — what a file that can be loaded holds;
* `written?` — the packages and lists of a value, in the order of its members;
* **`load_registers_standing`** — of these, the names that the last lists give are registered, and
  no others.

Design notes: that the members of a value are all those of its text is `Json.tokens_of_parse?`.
-/
import InlineAudit.CandidatesFile.Store
import InlineAudit.Proofs.Candidates.Standing
import InlineAudit.Proofs.Check.Verdict
import InlineAudit.Proofs.Json.Tokens
import InlineAudit.Proofs.System.Writing

namespace InlineAudit.CandidatesFile

open Candidates (listed standing)

variable {h : Host} {path : Path} {file : CandidatesFile}

theorem load_eq_ok_iff :
    load h path = .ok file ↔
      ∃ format content text, FileFormat.ofPath? path = some format ∧
        h.tree.read h.cwd path = .ok content ∧ Utf8.decode? content = some text ∧
        ofText? format text = some file := by
  rw [load]
  constructor
  · intro hload
    split at hload
    · cases hload
    · rename_i format hformat
      split at hload
      · cases hload
      · rename_i content hcontent
        split at hload
        · cases hload
        · rename_i text htext
          split at hload
          · cases hload
          · rename_i f hfile
            obtain rfl := Except.ok.inj hload
            exact ⟨format, content, text, hformat, hcontent, htext, hfile⟩
  · rintro ⟨format, content, text, hformat, hcontent, htext, hfile⟩
    simp only [hformat, hcontent, htext, hfile]

/-- The packages with their lists, as a value names them; there are none where it has no
candidates. -/
def written? (j : Json) : Option (List (String × List String)) := do
  match ← j.fields? ["build", "candidates"] with
  | [_, candidates] => Json.field? Candidates.pairsOfJson? [] candidates
  | _ => none

/-- A file holds the last list of every package that it names. -/
theorem written?_of_ofJson? {j : Json} (hfile : ofJson? j = some file) :
    ∃ ws, written? j = some ws ∧ file.candidates = .ofListLast ws := by
  obtain ⟨fields, hfields, hread⟩ := Option.bind_eq_some_iff.1 hfile
  rw [written?, hfields]
  split at hread
  · rename_i build candidates
    obtain ⟨settings, -, hread⟩ := Option.bind_eq_some_iff.1 hread
    obtain ⟨cs, hcs, hdone⟩ := Option.bind_eq_some_iff.1 hread
    obtain rfl := Option.some.inj hdone
    cases candidates with
    | none =>
      obtain rfl := Option.some.inj hcs
      exact ⟨[], rfl, rfl⟩
    | some value =>
      obtain ⟨ws, hws, rfl⟩ := Option.map_eq_some_iff.1 hcs
      exact ⟨ws, hws, rfl⟩
  · cases hread

/-- **Of the candidates in a file the last lists are checked.**  Let a JSON file be loaded, and let
`ws` be the packages with their lists that its text names, in the order of the text and with every
package as often as it is named.  The set is valid if and only if no package is without a name and
no full name occurs twice in the last lists of the packages.  Then a name is registered exactly when
the last list of a package gives it, and is reported unless the log proves it; the lists before that
are lost.  Where no package is named twice nothing is lost: all names are registered, and one that
occurs twice makes the set invalid. -/
theorem load_registers_standing (hformat : FileFormat.ofPath? path = some .json)
    (hload : load h path = .ok file) :
    ∃ content text j ws, h.tree.read h.cwd path = .ok content ∧
      Utf8.decode? content = some text ∧ Json.parse? text = some j ∧
      Json.tokens? text.toList = some j.tokens ∧ written? j = some ws ∧
      ((∃ pending, file.candidates.validate = .ok pending) ↔
        (∀ e ∈ ws, e.1 ≠ "") ∧ (listed (standing ws)).Nodup) ∧
      (∀ pending, file.candidates.validate = .ok pending →
        (∀ n, pending.contains n = true ↔ ∃ before e after, ws = before ++ e :: after ∧
          e.1 ∉ after.map (·.1) ∧ ∃ s ∈ e.2, fullName e.1 s = n) ∧
        ∀ log n, n ∈ (pending.scan log).issues.map Issue.name ↔
          pending.contains n = true ∧ ¬ Log.Proven (Log.readings log) n) ∧
      ((ws.map (·.1)).Nodup →
        (∀ pending, file.candidates.validate = .ok pending →
          ∀ e ∈ ws, ∀ s ∈ e.2, pending.contains (fullName e.1 s) = true) ∧
        (¬ (listed ws).Nodup → ∃ cause, file.candidates.validate = .error cause)) := by
  obtain ⟨format, content, text, hformat', hcontent, htext, hfile⟩ := load_eq_ok_iff.1 hload
  obtain rfl := Option.some.inj (hformat.symm.trans hformat')
  obtain ⟨j, hj, hofJson⟩ := Option.bind_eq_some_iff.1 hfile
  obtain ⟨ws, hws, hcandidates⟩ := written?_of_ofJson? hofJson
  have hregistered : ∀ pending, file.candidates.validate = .ok pending →
      ∀ n, pending.contains n = true ↔ n ∈ listed (standing ws) := by
    intro pending hv n
    rw [hcandidates] at hv
    obtain ⟨-, -, rfl⟩ := Candidates.validate_ofListLast_eq_ok_iff.1 hv
    rw [Pending.contains_iff_mem_names, Pending.names_unexplained,
      (Candidates.names_ofListLast_perm ws).mem_iff]
  have hvalid : (∃ pending, file.candidates.validate = .ok pending) ↔
      (∀ e ∈ ws, e.1 ≠ "") ∧ (listed (standing ws)).Nodup := by
    rw [hcandidates]
    simp only [Candidates.validate_ofListLast_eq_ok_iff, exists_and_left, exists_eq, and_true]
  refine ⟨content, text, j, ws, hcontent, htext, hj, Json.tokens_of_parse? hj, hws, hvalid,
    fun pending hv => ⟨fun n => ?_, fun log n => ?_⟩, fun hdistinct => ⟨?_, ?_⟩⟩
  · rw [hregistered pending hv, Candidates.mem_listed_standing_iff]
  · obtain ⟨-, hnodup, rfl⟩ := Candidates.validate_eq_ok_iff.1 hv
    rw [(Check.perm_unproven hnodup log).mem_iff, Check.unproven, List.mem_filter,
      decide_eq_true_iff, Pending.contains_iff_mem_names, Pending.names_unexplained]
  · intro pending hv e he s hs
    rw [hregistered pending hv, Candidates.standing_eq_self hdistinct, Candidates.mem_listed_iff]
    exact ⟨e, he, s, hs, rfl⟩
  · intro hrepeated
    cases hv : file.candidates.validate with
    | error cause => exact ⟨cause, rfl⟩
    | ok pending =>
      obtain ⟨-, hnodup⟩ := hvalid.1 ⟨pending, hv⟩
      rw [Candidates.standing_eq_self hdistinct] at hnodup
      exact absurd hnodup hrepeated

/-- A file that names a package twice. -/
def repeatedText : String :=
  "\x7b\"candidates\": \x7b\"a\": [\"F\"], \"b\": [\"H\"], \"a\": [\"G\"]\x7d\x7d"

/-- This file in an otherwise empty directory. -/
def repeatedHost : Host where
  tree := ⟨[([Utf8.encode "c.json"], .file (Utf8.encode repeatedText) false)]⟩
  cwd := []
  env := []

theorem entry?_repeatedHost :
    repeatedHost.tree.entry? [Utf8.encode "c.json"] =
      some (.file (Utf8.encode repeatedText) false) := by
  decide

theorem locate_repeatedHost :
    repeatedHost.tree.locate repeatedHost.cwd (.ofString "c.json") =
      .ok (.existing [Utf8.encode "c.json"]) := by
  have hsteps : (Path.ofString "c.json").steps = [.name (Utf8.encode "c.json")] := by
    decide
  have hwalk : repeatedHost.tree.walk FileTree.maxLinks [] [.name (Utf8.encode "c.json")] =
      .ok (.existing [Utf8.encode "c.json"]) := by
    rw [FileTree.walk_entry (by decide) (by decide) entry?_repeatedHost (by simp)]
    exact FileTree.walk_nil _ _ _
  rw [FileTree.locate, if_neg (by decide), if_neg (by decide),
    if_neg (by decide), if_neg (by decide), hsteps]
  exact hwalk

theorem read_repeatedHost :
    repeatedHost.tree.read repeatedHost.cwd (.ofString "c.json") =
      .ok (Utf8.encode repeatedText) :=
  FileTree.read_of_locate locate_repeatedHost entry?_repeatedHost

/-- The package `a` is named twice, and its first symbol is not checked. -/
theorem load_repeatedText :
    ∃ file pending, load repeatedHost (.ofString "c.json") = .ok file ∧
      (Json.parse? repeatedText).bind written? = some [("a", ["F"]), ("b", ["H"]), ("a", ["G"])] ∧
      file.candidates.validate = .ok pending ∧ pending.contains "b.H" = true ∧
      pending.contains "a.G" = true ∧ pending.contains "a.F" = false := by
  have hformat : FileFormat.ofPath? (.ofString "c.json") = some .json := by decide
  have hdecode : Utf8.decode? (Utf8.encode repeatedText) = some repeatedText := by decide
  have hwritten : (Json.parse? repeatedText).bind written? =
      some [("a", ["F"]), ("b", ["H"]), ("a", ["G"])] := by decide
  have hfile : (ofText? .json repeatedText).isSome = true := by decide
  obtain ⟨file, hfile⟩ := Option.isSome_iff_exists.1 hfile
  have hload : load repeatedHost (.ofString "c.json") = .ok file :=
    load_eq_ok_iff.2 ⟨.json, _, _, hformat, read_repeatedHost, hdecode, hfile⟩
  obtain ⟨content, text, j, ws, hcontent, htext, hj, -, hws, hvalid, hregistered, -⟩ :=
    load_registers_standing hformat hload
  obtain rfl := Except.ok.inj (read_repeatedHost.symm.trans hcontent)
  obtain rfl := Option.some.inj (hdecode.symm.trans htext)
  obtain rfl : [("a", ["F"]), ("b", ["H"]), ("a", ["G"])] = ws := by
    rw [hj, Option.bind_some, hws] at hwritten
    exact (Option.some.inj hwritten).symm
  obtain ⟨pending, hv⟩ := hvalid.2 (by decide)
  refine ⟨file, pending, hload, hwritten, hv, ?_, ?_, ?_⟩
  · rw [(hregistered pending hv).1, ← Candidates.mem_listed_standing_iff]
    decide
  · rw [(hregistered pending hv).1, ← Candidates.mem_listed_standing_iff]
    decide
  · rw [← Bool.not_eq_true, (hregistered pending hv).1, ← Candidates.mem_listed_standing_iff]
    decide

/-- Not even a name that is given twice stands in the way, where the package is named twice too. -/
example : (ofJsonText? "\x7b\"candidates\": \x7b\"a\": [\"F\"], \"a\": [\"F\"]\x7d\x7d").map
    (fun f => f.candidates.entries) = some [("a", ["F"])] := by
  decide

end InlineAudit.CandidatesFile
