/-
A candidates file is read as it was written.

* `exists_store_of_store` — whether a path can be written does not depend on what is written;
* `load_of_store` — what is stored is loaded again, if its text stands for it;
* **`load_store_json`**, **`load_store_yaml`** — so it is in both forms.
-/
import InlineAudit.Proofs.CandidatesFile.Json
import InlineAudit.Proofs.CandidatesFile.Written
import InlineAudit.Proofs.CandidatesFile.Yaml
import InlineAudit.Proofs.Text.Encoding

namespace InlineAudit

namespace FileTree

/-- A path is refused for what it is, never for what is written to it. -/
theorem exists_write_of_write {t t' : FileTree} {cwd : Place} {p : Path} {content : Bytes}
    (h : t.write cwd p content = .ok t') (other : Bytes) :
    ∃ t'', t.write cwd p other = .ok t'' := by
  obtain ⟨place, executable, hwritable, -⟩ := write_eq_ok_iff.1 h
  exact ⟨_, write_eq_ok_iff.2 ⟨place, executable, hwritable, rfl⟩⟩

end FileTree

namespace CandidatesFile

variable {h : Host} {p : Path} {f : CandidatesFile} {tree : FileTree} {format : FileFormat}

theorem store_eq_ok_iff (hformat : FileFormat.ofPath? p = some format) :
    store h p f = .ok tree ↔
      h.tree.write h.cwd p (Utf8.encode (f.toText format)) = .ok tree := by
  rw [store, hformat]
  dsimp only
  cases h.tree.write h.cwd p (Utf8.encode (f.toText format)) with
  | error e => exact ⟨fun h => (nomatch h), fun h => (nomatch h)⟩
  | ok t => exact ⟨fun h => by cases h; rfl, fun h => by cases h; rfl⟩

/-- In both forms the text of a file stands for it. -/
theorem ofText?_toText (format : FileFormat) (f : CandidatesFile) :
    ofText? format (f.toText format) = some f := by
  cases format with
  | yaml => exact ofYamlText?_toYamlText f
  | json => exact ofJsonText?_toJsonText f

/-- What is stored is loaded again, if its text stands for it. -/
theorem load_of_store (hformat : FileFormat.ofPath? p = some format)
    (htext : ofText? format (f.toText format) = some f) (hstore : store h p f = .ok tree) :
    load { h with tree } p = .ok f := by
  have hread := FileTree.read_of_write ((store_eq_ok_iff hformat).1 hstore)
  exact load_eq_ok_iff.2 ⟨format, _, _, hformat, hread, Utf8.decode?_encode _, htext⟩

/-- A path that takes one file takes any other. -/
theorem exists_store_of_store (hformat : FileFormat.ofPath? p = some format)
    (hstore : store h p f = .ok tree) (g : CandidatesFile) : ∃ tree', store h p g = .ok tree' := by
  obtain ⟨tree', hwrite⟩ := FileTree.exists_write_of_write ((store_eq_ok_iff hformat).1 hstore)
    (Utf8.encode (g.toText format))
  exact ⟨tree', (store_eq_ok_iff hformat).2 hwrite⟩

/-- **A file that is written in JSON is read as it was.**  Its text stands for it; and wherever a
path with the extension of JSON can be written at all, every file can be written to it, and is
loaded from it again. -/
theorem load_store_json (f : CandidatesFile) :
    ofJsonText? f.toJsonText = some f ∧
      ∀ (h : Host) (p : Path), FileFormat.extensionText p = "json" →
        ∀ g tree, store h p g = .ok tree →
          (∃ tree', store h p f = .ok tree') ∧
            ∀ tree', store h p f = .ok tree' → load { h with tree := tree' } p = .ok f := by
  have htext := ofJsonText?_toJsonText f
  refine ⟨htext, fun h p hext g tree hstore => ?_⟩
  have hformat : FileFormat.ofPath? p = some .json := by
    rw [FileFormat.ofPath?, hext]
    rfl
  exact ⟨exists_store_of_store hformat hstore f, fun tree' => load_of_store hformat htext⟩

/-- A file with strings that are not plain: a setting that is there but empty, a package without a
name and without symbols, and another whose symbols have to be escaped and are repeated. -/
def awkward : CandidatesFile where
  build := .mk (some "") none ["-run=\"null\"", "", "~\r\n\t# no: comment"] true
  candidates := (Candidates.empty.append "" []).append "a\\b\u0001" ["\u2028\u0000é", "- ", "- "]

/-- A host with nothing in its file system. -/
def bareHost : Host where
  tree := ⟨[]⟩
  cwd := []
  env := []

theorem locate_bareHost {n : Bytes} (hsteps : p.steps = [.name n])
    (hname : n.length ≤ FileTree.maxName) (hnul : p.bytes.contains 0 = false)
    (hlength : p.bytes.length ≤ FileTree.maxPath) :
    bareHost.tree.locate bareHost.cwd p = .ok (.vacant [n]) := by
  have hempty : p.bytes ≠ [] := by
    rintro h
    rw [Path.steps, Path.segments, h] at hsteps
    cases hsteps
  have hwalk : bareHost.tree.walk FileTree.maxLinks [] [.name n] = .ok (.vacant [n]) :=
    FileTree.walk_vacant (by decide) hname rfl _
  rw [FileTree.locate, if_neg (by rw [hnul]; decide), if_neg hempty,
    if_neg (Nat.not_lt.2 hlength), hsteps, show bareHost.cwd = [] from rfl, ite_self]
  exact hwalk

theorem exists_store_bareHost {n : Bytes} (hformat : FileFormat.ofPath? p = some format)
    (hsteps : p.steps = [.name n]) (hname : n.length ≤ FileTree.maxName)
    (hnul : p.bytes.contains 0 = false) (hlength : p.bytes.length ≤ FileTree.maxPath)
    (f : CandidatesFile) : ∃ tree, store bareHost p f = .ok tree := by
  have hwrite (content : Bytes) : bareHost.tree.write bareHost.cwd p content =
      .ok (bareHost.tree.put [n] (.file content false)) := by
    rw [FileTree.write, locate_bareHost hsteps hname hnul hlength]
  exact ⟨_, (store_eq_ok_iff hformat).2 (hwrite _)⟩

/-- Nothing of the awkward strings is lost in JSON. -/
theorem load_store_json_awkward :
    ∃ tree, store bareHost (.ofString "c.json") awkward = .ok tree ∧
      load { bareHost with tree := tree } (.ofString "c.json") = .ok awkward := by
  obtain ⟨blank, hblank⟩ := exists_store_bareHost (p := .ofString "c.json")
    (show _ = some FileFormat.json by decide) (n := Utf8.encode "c.json")
    (by decide) (by decide) (by decide) (by decide) .starter
  obtain ⟨-, hevery⟩ := load_store_json awkward
  obtain ⟨⟨tree, hstore⟩, hload⟩ := hevery bareHost _ (by decide) _ _ hblank
  exact ⟨tree, hstore, hload tree hstore⟩

/-- **A file that is written in YAML is read as it was.**  Its text stands for it, as its text in
JSON does; and wherever a path with an extension of YAML can be written at all, every file can be
written to it, and is loaded from it again. -/
theorem load_store_yaml (f : CandidatesFile) :
    ofYamlText? f.toYamlText = some f ∧ ofYamlText? f.toYamlText = ofJsonText? f.toJsonText ∧
      ∀ (h : Host) (p : Path),
        FileFormat.extensionText p = "yaml" ∨ FileFormat.extensionText p = "yml" →
          ∀ g tree, store h p g = .ok tree →
            (∃ tree', store h p f = .ok tree') ∧
              ∀ tree', store h p f = .ok tree' → load { h with tree := tree' } p = .ok f := by
  have htext := ofYamlText?_toYamlText f
  refine ⟨htext, htext.trans (ofJsonText?_toJsonText f).symm, fun h p hext g tree hstore => ?_⟩
  have hformat : FileFormat.ofPath? p = some .yaml := by
    rw [FileFormat.ofPath?]
    rcases hext with hext | hext <;> rw [hext] <;> rfl
  exact ⟨exists_store_of_store hformat hstore f, fun tree' => load_of_store hformat htext⟩

/-- A file with strings that mean something else in YAML, as values and as packages. -/
def punctuated : CandidatesFile where
  build := .mk (some "null") (some " ~ ") ["true", "0x1F", "- a: b # c", "'\"\r\n", "\n \n"] false
  candidates := (((Candidates.empty.append "" ["(*T).M", "[go.shape.int]"]).append "null" []).append
    "- a\n: b" ["1e3", " #", "\u0007"]).append "\u2028" ["", "no", "é"]

/-- Nothing of such strings is lost in YAML, whichever extension its file has. -/
theorem load_store_yaml_punctuated :
    (∃ tree, store bareHost (.ofString "c.yaml") punctuated = .ok tree ∧
      load { bareHost with tree := tree } (.ofString "c.yaml") = .ok punctuated) ∧
    ∃ tree, store bareHost (.ofString "c.yml") punctuated = .ok tree ∧
      load { bareHost with tree := tree } (.ofString "c.yml") = .ok punctuated := by
  obtain ⟨-, -, hevery⟩ := load_store_yaml punctuated
  obtain ⟨blank, hblank⟩ := exists_store_bareHost (p := .ofString "c.yaml")
    (show _ = some FileFormat.yaml by decide) (n := Utf8.encode "c.yaml")
    (by decide) (by decide) (by decide) (by decide) .starter
  obtain ⟨blank', hblank'⟩ := exists_store_bareHost (p := .ofString "c.yml")
    (show _ = some FileFormat.yaml by decide) (n := Utf8.encode "c.yml")
    (by decide) (by decide) (by decide) (by decide) .starter
  obtain ⟨⟨tree, hstore⟩, hload⟩ := hevery bareHost _ (.inl (by decide)) _ _ hblank
  obtain ⟨⟨tree', hstore'⟩, hload'⟩ := hevery bareHost _ (.inr (by decide)) _ _ hblank'
  exact ⟨⟨tree, hstore, hload tree hstore⟩, tree', hstore', hload' tree' hstore'⟩

end CandidatesFile

end InlineAudit
