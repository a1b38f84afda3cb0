/-
A candidates file survives its YAML form.

* `Yaml.Stands` — a text stands for a pair of nodes, through tokens and events;
* `Candidates.stands_entry`, `Build.Settings.stands_pairs` — what is written for a package or a
  setting stands for it;
* **`ofYamlText?_toYamlText`** — the file of the text of a file is this file.
-/
import InlineAudit.Proofs.CandidatesFile.Json
import InlineAudit.Proofs.CandidatesFile.Layout
import InlineAudit.Proofs.Yaml.Node
import Mathlib.Tactic.Choose

namespace InlineAudit

namespace Yaml

open TreeBuilder

variable {n : Nat} {chars : List Char} {name : String} {pair : Node × Node}

/-- What is written for a pair of a mapping that is indented by `n`, and the nodes that it stands
for. -/
def Stands (n : Nat) (chars : List Char) (pair : Node × Node) : Prop :=
  ∃ ts es, Written n chars ts ∧ ReadsPairs ts es ∧ BuildsPairs es [pair]

/-- A value is read, and a pair with it. -/
theorem stands_of_value {value : List Token} {es : List Event} {node : Node}
    (hwritten : Written n chars (pairTokens name value)) (hreads : Reads value es)
    (hbuilds : Builds es node) : Stands n chars (scalarNode name, node) :=
  ⟨_, _, hwritten, hreads.pair name, hbuilds.pair name⟩

/-- What is written for pairs, each with the nodes that it stands for. -/
abbrev Pairs := List (List Char × Node × Node)

/-- The lines of some pairs. -/
def Pairs.lines (n : Nat) (pairs : Pairs) : List Char := pairs.flatMap fun p => spaces n ++ p.1

/-- The mapping of some pairs. -/
def Pairs.mapping (pairs : Pairs) : Node := .mapping (pairs.map Prod.snd)

/-- A field of a record: its name and what is written for its value, and their nodes. -/
def fieldPair (name : String) (value : List Char) (node : Node) : List Char × Node × Node :=
  (name.toList ++ ':' :: value, scalarNode name, node)

/-- Pairs that stand for their nodes are read together. -/
theorem exists_readings {pairs : Pairs} (hpairs : ∀ p ∈ pairs, Stands n p.1 p.2) :
    ∃ (written : List (List Char × List Token)) (es : List Event),
      (∀ p ∈ written, Written n p.1 p.2) ∧ pairLines n written = pairs.lines n ∧
        ReadsPairs (written.flatMap Prod.snd) es ∧ BuildsPairs es (pairs.map Prod.snd) ∧
          (written = [] ↔ pairs = []) := by
  choose! tokens events hwritten hreads hbuilds using hpairs
  refine ⟨pairs.map fun p => (p.1, tokens p), pairs.flatMap events, ?_, ?_, ?_, ?_, ?_⟩
  · intro p hp
    obtain ⟨q, hq, rfl⟩ := List.mem_map.1 hp
    exact hwritten q hq
  · rw [pairLines, List.flatMap_map]
    rfl
  · rw [List.flatMap_map]
    exact readsPairs_flatMap hreads
  · exact buildsPairs_flatMap hbuilds
  · exact List.map_eq_nil_iff

/-- A mapping as a value. -/
theorem stands_mapping {k : Nat} {pairs : Pairs} (hkey : isSimpleKey name = true)
    (hfirst : 0 < n ∨ ∀ a ∈ (scalarChars (n + 2) name).head?, a ≠ '-' ∧ a ≠ '.' ∧ a ≠ '%')
    (hk : n < k) (hpairs : ∀ p ∈ pairs, Stands k p.1 p.2) (hne : pairs ≠ []) :
    Stands n (scalarChars (n + 2) name ++ ':' :: '\n' :: pairs.lines k)
      (scalarNode name, pairs.mapping) := by
  obtain ⟨written, es, hwritten, hlines, hreads, hbuilds, hnil⟩ := exists_readings hpairs
  rw [← hlines]
  exact stands_of_value (written_mapping hkey hfirst hk hwritten (hnil.not.2 hne)) hreads.mapping
    hbuilds.mapping

/-- **A text of pairs is read as their mapping.** -/
theorem parse?_lines {pairs : Pairs} (hpairs : ∀ p ∈ pairs, Stands 0 p.1 p.2) (hne : pairs ≠ []) :
    ∃ size, parse? (String.ofList (pairs.lines 0)) = some ⟨pairs.mapping, [], size⟩ := by
  obtain ⟨written, es, hwritten, hlines, hreads, hbuilds, hnil⟩ := exists_readings hpairs
  refine parse?_of_buildsPairs ?_ hreads hbuilds
  rw [String.toList_ofList, ← hlines]
  exact tokens?_pairLines hwritten (hnil.not.2 hne)

section Words

/-- The names of fields. -/
def fieldNames : List String := ["build", "candidates", "go", "dir", "args", "strict"]

theorem fieldNames_spec (h : name ∈ fieldNames) (k : Nat) :
    isSimpleKey name = true ∧ scalarChars k name = name.toList := by
  have hplain : ∀ name ∈ fieldNames, isSimpleKey name = true ∧ styleFor name = .plain := by
    decide
  obtain ⟨hkey, hstyle⟩ := hplain name h
  exact ⟨hkey, by rw [scalarChars, hstyle]⟩

/-- The word for a truth value. -/
def flagWord (b : Bool) : String := if b then "true" else "false"

theorem plainText_flagWord (b : Bool) :
    PlainText (flagWord b).toList ∧ startsLikeMark (flagWord b).toList = false := by
  cases b <;> exact plainText_of_fitsPlain (by decide) (by decide)

/-- A field that is a text. -/
theorem stands_text (hn : 0 < n) (h : name ∈ fieldNames) (s : String) :
    Stands n (name.toList ++ ':' :: ' ' :: scalarLine (n + 2) s) (scalarNode name, scalarNode s) := by
  obtain ⟨hkey, hchars⟩ := fieldNames_spec h (n + 2)
  rw [← hchars]
  exact stands_of_value (written_text hn hkey s) (reads_scalar _ _) (builds_scalarEvent s)

/-- A field that is a list. -/
theorem stands_list (hn : 0 < n) (h : name ∈ fieldNames) (items : List String) :
    Stands n (name.toList ++ ':' :: Candidates.yamlList n items)
      (scalarNode name, sequenceNode items) := by
  obtain ⟨hkey, hchars⟩ := fieldNames_spec h (n + 2)
  rw [← hchars]
  exact stands_of_value (written_list hn hkey items) (reads_list items) (builds_sequence items)

/-- A field that is a truth value. -/
theorem stands_flag (hn : 0 < n) (h : name ∈ fieldNames) (b : Bool) :
    Stands n (name.toList ++ ':' :: ' ' :: ((flagWord b).toList ++ ['\n']))
      (scalarNode name, .scalar none (flagWord b) .plain) := by
  obtain ⟨hkey, hchars⟩ := fieldNames_spec h (n + 2)
  obtain ⟨htext, hstart⟩ := plainText_flagWord b
  have hallowed : Allowed (flagWord b).toList := by cases b <;> decide
  have hsolid (text : List Char) : Solid ((flagWord b).toList ++ text) := by
    cases b <;> exact solid_singleton (by decide)
  have hbuilds := builds_scalar (flagWord b).toList .plain
  rw [String.ofList_toList] at hbuilds
  rw [← hchars]
  exact stands_of_value (written_plain hn hkey htext hstart hallowed hsolid) (reads_scalar _ _)
    hbuilds

end Words

section Decoding

variable {d : Document}

theorem text_scalarNode (s : String) (d : Document) : text (scalarNode s) d = pure s := rfl

theorem listOf_sequenceNode (items : List String) (d : Document) :
    listOf text (sequenceNode items) d = pure items := by
  show (items.map scalarNode).mapM (fun n => text n d) = pure items
  rw [List.mapM_map]
  have hread : (fun n => text n d) ∘ scalarNode = fun s => pure s := rfl
  rw [hread, List.mapM_pure, List.map_id']

/-- What is written for a string is never taken for null. -/
theorem isNull?_scalarNode (s : String) : isNull? (scalarNode s) = some false := by
  rw [scalarNode, isNull?]
  cases hstyle : styleFor s with
  | plain =>
    have hother := isOtherThanText_of_styleFor hstyle
    simp only [isOtherThanText, Bool.or_eq_false_iff] at hother
    simp [hother.1.1.1.1, hother.1.1.1.2]
  | _ => rfl

theorem nullable_scalarNode (s : String) (d : Document) :
    nullable text (scalarNode s) d = pure (some s) := by
  have hfollow : follow (scalarNode s) d = pure (scalarNode s) := rfl
  rw [nullable, hfollow, pure_bind, isNull?_scalarNode]
  rfl

theorem flag_flagWord (b : Bool) (d : Document) :
    flag (.scalar none (flagWord b) .plain) d = pure b := by
  cases b <;> rfl

end Decoding

end Yaml

open Yaml

namespace Candidates

/-- What is written for a package, and what it stands for. -/
def yamlPair (n : Nat) (e : String × List String) : List Char × Node × Node :=
  (if isSimpleKey e.1 then scalarChars (n + 2) e.1 ++ ':' :: yamlList n e.2
    else '?' :: ' ' :: scalarLine (n + 2) e.1 ++ (spaces n ++ markedList n e.2),
    scalarNode e.1, sequenceNode e.2)

theorem yamlEntry_eq (n : Nat) (e : String × List String) :
    yamlEntry n e.1 e.2 = spaces n ++ (yamlPair n e).1 := by
  obtain ⟨package, symbols⟩ := e
  rw [yamlPair]
  cases symbols <;> rw [yamlEntry] <;> split <;> simp [markedList]

/-- What is written for a package stands for its symbols. -/
theorem stands_yamlPair {n : Nat} (hn : 0 < n) (e : String × List String) :
    Stands n (yamlPair n e).1 (yamlPair n e).2 := by
  rw [yamlPair]
  split
  · rename_i hkey
    exact stands_of_value (written_list hn hkey e.2) (reads_list e.2) (TreeBuilder.builds_sequence e.2)
  · exact stands_of_value (written_markedList e.1 e.2) (reads_sequence e.2)
      (TreeBuilder.builds_sequence e.2)

/-- The packages of a set, as pairs. -/
def yamlPairs (cs : Candidates) : Pairs := cs.toList.map (yamlPair 2)

/-- What is written for a set behind its key stands for the packages. -/
theorem stands_toYaml (cs : Candidates) {name : String} (h : name ∈ fieldNames)
    (hfirst : ∀ a ∈ name.toList.head?, a ≠ '-' ∧ a ≠ '.' ∧ a ≠ '%') :
    Stands 0 (name.toList ++ ':' :: cs.toYaml) (scalarNode name, cs.yamlPairs.mapping) := by
  obtain ⟨hkey, hchars⟩ := fieldNames_spec h 2
  rw [← hchars] at hfirst ⊢
  rw [toYaml]
  split
  · rename_i hempty
    have hnone : cs.yamlPairs = [] := by rw [yamlPairs, List.isEmpty_iff.1 hempty, List.map_nil]
    have hbrackets : " \x7b\x7d\n".toList = ' ' :: ['\x7b', '\x7d', '\n'] := by decide
    rw [hnone, hbrackets]
    exact stands_of_value (written_brackets Lexer.mapping_mem_brackets hkey (.inr hfirst))
      reads_emptyMapping TreeBuilder.buildsPairs_nil.mapping
  · rename_i hne
    have hlines : (cs.toList.flatMap fun e => yamlEntry 2 e.1 e.2) = cs.yamlPairs.lines 2 := by
      rw [Pairs.lines, yamlPairs, List.flatMap_map]
      exact List.flatMap_congr fun e _ => yamlEntry_eq 2 e
    have hpairs : ∀ p ∈ cs.yamlPairs, Stands 2 p.1 p.2 := fun p hp => by
      obtain ⟨e, -, rfl⟩ := List.mem_map.1 hp
      exact stands_yamlPair (by decide) e
    rw [hlines]
    exact stands_mapping hkey (.inr hfirst) (by decide) hpairs
      (by simpa [yamlPairs] using hne)

theorem ofYaml_mapping (cs : Candidates) (d : Document) : ofYaml cs.yamlPairs.mapping d = pure cs := by
  have hpairs : pairs (listOf text) cs.yamlPairs.mapping d = pure cs.toList := by
    show ((cs.yamlPairs.map Prod.snd).mapM fun p : Node × Node => do
      return (← text p.1 d, ← listOf text p.2 d)) = _
    have hread (e : String × List String) : (do
        return (← text (scalarNode e.1) d, ← listOf text (sequenceNode e.2) d) :
          StateT Nat Option (String × List String)) = pure e := by
      rw [text_scalarNode, listOf_sequenceNode]
      rfl
    have hall : (fun p : Node × Node => do
        return (← text p.1 d, ← listOf text p.2 d) :
          Node × Node → StateT Nat Option (String × List String)) ∘ (Prod.snd ∘ yamlPair 2) =
        fun e => pure e := funext hread
    rw [yamlPairs, List.map_map, List.mapM_map, hall, List.mapM_pure, List.map_id']
  rw [ofYaml, hpairs, map_pure]
  exact congrArg pure (ofListLast_entries cs)

end Candidates

namespace Build.Settings

/-- A setting that is a text, as a pair. -/
def yamlText (name value : String) : List Char × Node × Node :=
  fieldPair name (' ' :: scalarLine 4 value) (scalarNode value)

/-- The settings that are written, as pairs. -/
def yamlPairs (s : Settings) : Pairs :=
  (s.go.map (yamlText "go")).toList ++ (s.dir.map (yamlText "dir")).toList ++
    (if s.args.isEmpty then []
      else [fieldPair "args" (Candidates.yamlList 2 s.args) (sequenceNode s.args)]) ++
    [fieldPair "strict" (' ' :: ((flagWord s.strict).toList ++ ['\n']))
      (.scalar none (flagWord s.strict) .plain)]

theorem toYaml_eq (s : Settings) : s.toYaml = s.yamlPairs.lines 2 := by
  have hargs : "  args:".toList = spaces 2 ++ ("args".toList ++ [':']) := by decide
  have hstrict (b : Bool) : (if b then "  strict: true\n" else "  strict: false\n").toList =
      spaces 2 ++ ("strict".toList ++ ':' :: ' ' :: ((flagWord b).toList ++ ['\n'])) := by
    cases b <;> decide
  obtain ⟨go, dir, args, strict⟩ := s
  rw [toYaml, hargs, hstrict]
  cases go <;> cases dir <;> cases args <;> simp [yamlPairs, yamlText, fieldPair, Pairs.lines]

theorem stands_yamlPairs (s : Settings) : ∀ p ∈ s.yamlPairs, Stands 2 p.1 p.2 := by
  have htext {name : String} (h : name ∈ fieldNames) (value : Option String) :
      ∀ p ∈ (value.map (yamlText name)).toList, Stands 2 p.1 p.2 := fun p hp => by
    obtain ⟨v, -, rfl⟩ := Option.map_eq_some_iff.1 (Option.mem_toList.1 hp)
    exact stands_text (by decide) h v
  have hargs : ∀ p ∈ (if s.args.isEmpty then []
      else [fieldPair "args" (Candidates.yamlList 2 s.args) (sequenceNode s.args)] : Pairs),
      Stands 2 p.1 p.2 := fun p hp => by
    split at hp
    · cases hp
    · obtain rfl := List.mem_singleton.1 hp
      exact stands_list (by decide) (by decide) s.args
  exact List.forall_mem_append.2 ⟨List.forall_mem_append.2 ⟨List.forall_mem_append.2
    ⟨htext (by decide) s.go, htext (by decide) s.dir⟩, hargs⟩,
    List.forall_mem_singleton.2 (stands_flag (by decide) (by decide) s.strict)⟩

theorem ofYaml_mapping (s : Settings) (d : Document) : ofYaml s.yamlPairs.mapping d = pure s := by
  obtain ⟨go, dir, args, strict⟩ := s
  cases go <;> cases dir <;> cases args <;>
    simp [ofYaml, yamlPairs, yamlText, fieldPair, Pairs.mapping, fields, rawPairs, follow, fill,
      text_scalarNode, listOf_sequenceNode, nullable_scalarNode, flag_flagWord]

end Build.Settings

namespace CandidatesFile

/-- The two parts of a file, as pairs. -/
def yamlPairs (f : CandidatesFile) : Pairs :=
  [fieldPair "build" ('\n' :: f.build.yamlPairs.lines 2) f.build.yamlPairs.mapping,
    fieldPair "candidates" f.candidates.toYaml f.candidates.yamlPairs.mapping]

theorem toYamlText_eq (f : CandidatesFile) : f.toYamlText = String.ofList (f.yamlPairs.lines 0) := by
  have hbuild : "build:\n".toList = "build".toList ++ [':', '\n'] := by decide
  have hcandidates : "candidates:".toList = "candidates".toList ++ [':'] := by decide
  have hspaces : spaces 0 = [] := rfl
  have htext : f.toYamlText = String.ofList ("build:\n".toList ++ f.build.toYaml ++
      "candidates:".toList ++ f.candidates.toYaml) := rfl
  rw [htext, hbuild, hcandidates, Build.Settings.toYaml_eq]
  simp only [yamlPairs, fieldPair, Pairs.lines, hspaces, List.flatMap_cons, List.flatMap_nil, List.nil_append,
    List.append_nil, List.append_assoc, List.cons_append]

theorem stands_yamlPairs (f : CandidatesFile) : ∀ p ∈ f.yamlPairs, Stands 0 p.1 p.2 := by
  have hfirst {name : String} {b : Char} (h : name.toList.head? = some b)
      (hb : b ≠ '-' ∧ b ≠ '.' ∧ b ≠ '%') :
      ∀ a ∈ name.toList.head?, a ≠ '-' ∧ a ≠ '.' ∧ a ≠ '%' := fun a ha => by
    obtain rfl := Option.some.inj (h.symm.trans ha)
    exact hb
  obtain ⟨hkey, hchars⟩ := fieldNames_spec (show "build" ∈ fieldNames by decide) 2
  have hbuild : Stands 0 ("build".toList ++ ':' :: '\n' :: f.build.yamlPairs.lines 2)
      (scalarNode "build", f.build.yamlPairs.mapping) := by
    rw [← hchars]
    refine stands_mapping hkey (.inr ?_) (by decide) f.build.stands_yamlPairs
      (by simp [Build.Settings.yamlPairs])
    rw [hchars]
    exact hfirst (b := 'b') (by decide) (by decide)
  exact List.forall_mem_cons.2 ⟨hbuild, List.forall_mem_singleton.2
    (f.candidates.stands_toYaml (by decide) (hfirst (b := 'c') (by decide) (by decide)))⟩

theorem ofYaml_mapping (f : CandidatesFile) (d : Document) :
    ofYaml f.yamlPairs.mapping d = pure f := by
  have hroot : f.yamlPairs.mapping = .mapping [
      (scalarNode "build", f.build.yamlPairs.mapping),
      (scalarNode "candidates", f.candidates.yamlPairs.mapping)] := rfl
  rw [hroot]
  simp [ofYaml, fields, rawPairs, follow, fill, text_scalarNode, Build.Settings.ofYaml_mapping,
    Candidates.ofYaml_mapping]

/-- **The file of the text of a file is this file.** -/
theorem ofYamlText?_toYamlText (f : CandidatesFile) : ofYamlText? f.toYamlText = some f := by
  obtain ⟨size, hparse⟩ := parse?_lines f.stands_yamlPairs (by simp [yamlPairs])
  rw [ofYamlText?, toYamlText_eq, hparse, Option.bind_some, Document.read?, ofYaml_mapping]
  rfl

end CandidatesFile

end InlineAudit
