/-
A new candidates file does no damage.

The path is made absolute before anything is looked at, so what is there is seen through links, and
a link that leads nowhere counts as a name that is vacant.  Whether there is something is asked
before the extension is, and nothing is written before both are known:

* `NewFile.Ready` — what has to be so for a file to be made, and where it comes to be;
* `NewFile.Refused` — what stands in the way otherwise;
* `NewFile.Made` — what has become of the files;
* `initAt_cases` — one or the other;
* **`init_is_harmless`** — without force every file keeps its content, a failure changes nothing,
  and a success nothing but the file that the path denotes, where the new file can be loaded;
* `init_prints_another_path` — from the path that is printed it can not always be loaded.

Design notes: a name need not be UTF-8, and then its path is printed with replacements.  So what is
loaded is the file at the path itself, and at the printed text where this is the same.  The
extension that counts is that of the path itself, which need not be the one that was asked for.
-/
import InlineAudit.Command.Run
import InlineAudit.Proofs.CandidatesFile.RoundTrip
import InlineAudit.Proofs.Command.Inputs

namespace InlineAudit.Command

open CandidatesFile (toText ofText? load store starter)

variable {h : Host} {path target : Path} {force : Bool} {place : Place} {format : FileFormat}
  {executable : Bool}

namespace NewFile

/-- A file can be made at a target: its extension names a form, and the target is a vacant name, or
by force a file. -/
structure Ready (h : Host) (target : Path) (force : Bool) (format : FileFormat) (place : Place)
    (executable : Bool) : Prop where
  format : FileFormat.ofPath? target = some format
  writable : h.tree.Writable h.cwd target place executable
  careful : force = true ∨ h.tree.locate h.cwd target = .ok (.vacant place)

/-- What stands in the way of a new file: first that there is something already, then the extension,
and last what a write meets with. -/
inductive Refused (h : Host) (target : Path) (force : Bool) : Problem → Prop
  | existing {place : Place} (careful : force = false)
      (found : h.tree.locate h.cwd target = .ok (.existing place)) :
      Refused h target force (.fileExists target)
  | unsupported
      (proceeds : force = true ∨ ∀ place, h.tree.locate h.cwd target ≠ .ok (.existing place))
      (nameless : FileFormat.ofPath? target = none) :
      Refused h target force (.file (.unsupported target))
  | noFile {format : FileFormat} {place : Place} (forced : force = true)
      (named : FileFormat.ofPath? target = some format)
      (found : h.tree.locate h.cwd target = .ok (.existing place))
      (other : ∀ content executable, h.tree.entry? place ≠ some (.file content executable)) :
      Refused h target force (.file (.unwritable target .isADirectory))
  | unreachable {format : FileFormat} {e cause : IoError}
      (named : FileFormat.ofPath? target = some format)
      (lost : h.tree.locate h.cwd target = .error e)
      (because : cause = e ∨ target.bytes.getLast? = some slash) :
      Refused h target force (.file (.unwritable target cause))

/-- What a new file holds. -/
def content (format : FileFormat) : Bytes := Utf8.encode (starter.toText format)

/-- A new file was made at a place: a path was asked for, and its target is the same path from the
root. -/
structure Made (h : Host) (path target : Path) (o : Outcome) (place : Place) : Prop where
  absolutized : h.absolutize path = .ok target
  absolute : target.isAbsolute = true
  /-- The place is the one that the path denotes, through links. -/
  denotes : h.tree.Denotes h.cwd path place
  written : ∃ format executable, FileFormat.ofPath? target = some format ∧
    h.tree.Writable h.cwd target place executable ∧
    o.tree.entry? place = some (.file (content format) executable)
  /-- Nothing else was touched. -/
  others : ∀ q, q ≠ place → o.tree.entry? q = h.tree.entry? q
  /-- What a path led to it leads to still. -/
  found : ∀ cwd p q, h.tree.find cwd p = .ok q → o.tree.find cwd p = .ok q
  printed : o.stdout = "Wrote candidates file: " ++ target.text ++ "\n" ++
    "Edit the \x60candidates\x60 section, then run:\n" ++
      ("  inlcheck check --file " ++ target.text ++ "\n")
  /-- From everywhere the target leads to the new file. -/
  loads : ∀ cwd env, load ⟨o.tree, cwd, env⟩ target = .ok starter
  loadsText : target.IsText →
    ∀ cwd env, load ⟨o.tree, cwd, env⟩ (.ofString target.text) = .ok starter

end NewFile

open NewFile

theorem exists?_eq_true_iff : h.tree.exists? h.cwd target = true ↔
    ∃ place, h.tree.locate h.cwd target = .ok (.existing place) := by
  simp only [← FileTree.find_eq_ok_iff]
  rw [FileTree.exists?]
  cases h.tree.find h.cwd target with
  | error e => simp
  | ok place => simp

/-- A new file is not made, for a reason; or it is made at a place that was ready for it. -/
theorem initAt_cases (h : Host) (target : Path) (force : Bool) :
    (∃ problem, Refused h target force problem ∧
        initAt h target force = { tree := h.tree, problem := some problem }) ∨
      ∃ format place executable, Ready h target force format place executable ∧
        initAt h target force =
          { stdout := initText target
            tree := h.tree.put place (.file (content format) executable) } := by
  rw [initAt]
  by_cases hthere : (h.tree.exists? h.cwd target && !force) = true
  · rw [if_pos hthere]
    rw [Bool.and_eq_true, exists?_eq_true_iff, Bool.not_eq_true'] at hthere
    obtain ⟨⟨place, hplace⟩, hforce⟩ := hthere
    exact .inl ⟨_, .existing hforce hplace, rfl⟩
  have hproceeds : force = true ∨ ∀ place, h.tree.locate h.cwd target ≠ .ok (.existing place) := by
    cases force with
    | true => exact .inl rfl
    | false =>
      refine .inr fun place hplace => hthere ?_
      rw [exists?_eq_true_iff.2 ⟨place, hplace⟩]
      rfl
  rw [if_neg hthere, store]
  cases hformat : FileFormat.ofPath? target with
  | none => exact .inl ⟨_, .unsupported hproceeds hformat, rfl⟩
  | some format =>
    dsimp only
    cases hwrite : h.tree.write h.cwd target (Utf8.encode (starter.toText format)) with
    | error cause =>
      refine .inl ⟨_, ?_, rfl⟩
      rcases FileTree.error_of_write hwrite with ⟨place, hplace, hother, rfl⟩ | ⟨e, he, hcause⟩
      · have hforced := hproceeds.resolve_right fun hnone => hnone place hplace
        exact .noFile hforced hformat hplace hother
      · exact .unreachable hformat he hcause
    | ok tree =>
      obtain ⟨place, executable, hwritable, rfl⟩ := FileTree.write_eq_ok_iff.1 hwrite
      refine .inr ⟨format, place, executable, ⟨hformat, hwritable, ?_⟩, rfl⟩
      cases hwritable with
      | vacant located => exact .inr located
      | existing located => exact .inl (hproceeds.resolve_right fun hnone => hnone place located)

theorem NewFile.Refused.not_ready {problem : Problem} (hr : Refused h target force problem) :
    ¬ Ready h target force format place executable := by
  rintro ⟨hformat, hwritable, hcareful⟩
  have hdenotes := hwritable.denotes
  cases hr with
  | existing careful found =>
    rw [found] at hcareful
    rcases hcareful with hforce | hvacant
    · exact absurd (careful.symm.trans hforce) Bool.false_ne_true
    · cases hvacant
  | unsupported _ nameless => cases nameless.symm.trans hformat
  | noFile _ _ found other =>
    cases hwritable with
    | vacant located => cases found.symm.trans located
    | existing located entry =>
      cases found.symm.trans located
      exact other _ _ entry
  | unreachable _ lost =>
    rcases hdenotes with hl | hl <;> cases lost.symm.trans hl

/-- At a place that is ready a file is made. -/
theorem NewFile.Ready.initAt_eq (hr : Ready h target force format place executable) :
    initAt h target force =
      { stdout := initText target
        tree := h.tree.put place (.file (content format) executable) } := by
  rcases initAt_cases h target force with
    ⟨problem, hrefused, -⟩ | ⟨format', place', executable', hready, hat⟩
  · exact absurd hr hrefused.not_ready
  · obtain rfl := Option.some.inj (hr.format.symm.trans hready.format)
    obtain ⟨rfl, rfl⟩ := hr.writable.unique hready.writable
    exact hat

/-- A file that is put at a place which is ready for it is the one that the path denotes. -/
theorem NewFile.Ready.made (hr : Ready h target force format place executable)
    (ha : h.absolutize path = .ok target) :
    Made h path target
      { stdout := initText target
        tree := h.tree.put place (.file (content format) executable) } place := by
  have hfile := hr.writable.holdsFile
  have habsolute := Host.isAbsolute_of_absolutize ha
  have hentry := FileTree.entry?_put_self (t := h.tree) hfile.ne_nil
    (.file (content format) executable)
  have hloads (cwd : Place) (env : List (String × String)) :
      load ⟨h.tree.put place (.file (content format) executable), cwd, env⟩ target =
        .ok starter := by
    have hfind := hr.writable.denotes.find_put hfile (content format) executable
    rw [FileTree.find_of_isAbsolute habsolute h.cwd cwd] at hfind
    exact CandidatesFile.load_eq_ok_iff.2 ⟨format, _, _, hr.format,
      FileTree.read_eq_ok_iff.2 ⟨place, executable, hfind, hentry⟩, Utf8.decode?_encode _,
      CandidatesFile.ofText?_toText format starter⟩
  constructor
  case absolutized => exact ha
  case absolute => exact habsolute
  case denotes =>
    -- the empty path would stay in the current directory, which is no file
    have hlocate {goal : Goal} (hgoal : h.tree.locate h.cwd target = .ok goal)
        (hplace : goal = .existing place ∨ goal = .vacant place) :
        h.tree.locate h.cwd path = .ok goal := by
      rcases Host.locate_of_locate_absolutize ha hgoal with hl | ⟨-, rfl, hh⟩
      · exact hl
      · obtain rfl : h.cwd = place := by simpa using hplace
        exact absurd (hfile.isDirectory_eq_false.symm.trans hh.isDirectory) Bool.false_ne_true
    exact hr.writable.denotes.imp (fun hg => hlocate hg (.inl rfl)) fun hg => hlocate hg (.inr rfl)
  case written => exact ⟨format, executable, hr.format, hr.writable, hentry⟩
  case others => exact fun q hq => FileTree.entry?_put_of_ne _ hq
  case found => exact fun cwd p q hfind => FileTree.find_put hfile _ executable hfind
  case printed => rfl
  case loads => exact hloads
  case loadsText => exact fun htext cwd env => htext.ofString_text.symm ▸ hloads cwd env

/-- Without force a place is ready only where there is nothing. -/
theorem NewFile.Ready.ne_of_entry (hr : Ready h target false format place executable) {q : Place}
    {e : Entry} (he : h.tree.entry? q = some e) : q ≠ place := by
  rintro rfl
  have hvacant := hr.careful.resolve_left Bool.false_ne_true
  cases (FileTree.entry?_of_locate_vacant hvacant).symm.trans he

/-- **A new candidates file does no damage.**  It is made exactly where a place is ready for it.  A
failure has its reason and changes nothing; without force nothing that is there is changed, wherever
it is read from; and a success makes or replaces the file that the path denotes and no other.  The
new file is loaded from the path that was written to, which is the one that is printed if it is a
text. -/
theorem init_is_harmless (h : Host) (path : String) (force : Bool) :
    ((init h path force).problem = none ↔ ∃ target format place executable,
      h.absolutize (.ofString path) = .ok target ∧
        Ready h target force format place executable) ∧
    (∀ problem, (init h path force).problem = some problem →
      (¬ h.Sees (.ofString path) ∧ problem = .noCurrentDirectory .noSuchFile ∨
        ∃ target, h.absolutize (.ofString path) = .ok target ∧ Refused h target force problem) ∧
      (init h path force).tree = h.tree ∧ (init h path force).stdout = "") ∧
    (force = false →
      (∀ place e, h.tree.entry? place = some e →
        (init h path force).tree.entry? place = some e) ∧
      ∀ cwd p content, h.tree.read cwd p = .ok content →
        (init h path force).tree.read cwd p = .ok content) ∧
    ((init h path force).problem = none →
      ∃ target place, Made h (.ofString path) target (init h path force) place) := by
  cases hpath : pathOf h path with
  | error problem =>
    obtain ⟨hunseen, rfl⟩ := pathOf_eq_error_iff.1 hpath
    rw [init, hpath]
    refine ⟨iff_of_false (fun hp => nomatch hp) ?_, ?_, ?_, fun hp => nomatch hp⟩
    · rintro ⟨target, -, -, -, ha, -⟩
      cases ha.symm.trans (Host.absolutize_eq_error_iff.2 ⟨hunseen, rfl⟩)
    · exact fun problem hproblem => ⟨.inl ⟨hunseen, (Option.some.inj hproblem).symm⟩, rfl, rfl⟩
    · exact fun _ => ⟨fun _ _ he => he, fun _ _ _ hread => hread⟩
  | ok target =>
    have ha := pathOf_eq_ok_iff.1 hpath
    have hinit : init h path force = initAt h target force := by rw [init, hpath]
    rcases initAt_cases h target force with
      ⟨problem, hrefused, hat⟩ | ⟨format, place, executable, hready, hat⟩
    · rw [hinit, hat]
      refine ⟨iff_of_false (fun hp => nomatch hp) ?_, ?_, ?_, fun hp => nomatch hp⟩
      · rintro ⟨target', format, place, executable, ha', hready⟩
        obtain rfl := Except.ok.inj (ha.symm.trans ha')
        exact hrefused.not_ready hready
      · intro problem' hproblem
        exact ⟨.inr ⟨target, ha, Option.some.inj hproblem ▸ hrefused⟩, rfl, rfl⟩
      · exact fun _ => ⟨fun _ _ he => he, fun _ _ _ hread => hread⟩
    · have hmade := hready.made ha
      rw [hinit, hat]
      refine ⟨iff_of_true rfl ⟨target, format, place, executable, ha, hready⟩, ?_, ?_,
        fun _ => ⟨target, place, hmade⟩⟩
      · exact fun _ hp => nomatch hp
      rintro rfl
      have hkept {q : Place} {e : Entry} (he : h.tree.entry? q = some e) :=
        (hmade.others q (hready.ne_of_entry he)).trans he
      refine ⟨fun q e he => hkept he, fun cwd p content hread => ?_⟩
      -- the path leads where it led, and the file there is the same
      obtain ⟨q, x, hfind, hentry⟩ := FileTree.read_eq_ok_iff.1 hread
      exact FileTree.read_eq_ok_iff.2 ⟨q, x, hmade.found cwd p q hfind, hkept hentry⟩

/-- A link to a name that is vacant in a directory, and an executable file. -/
def linkedHost : Host where
  tree := ⟨[([Utf8.encode "d"], .directory),
    ([Utf8.encode "l.yaml"], .link (.ofString "d/new.yaml")),
    ([Utf8.encode "old.json"], .file (Utf8.encode "x") true)]⟩
  cwd := []
  env := []

/-- The place that the link leads to. -/
def linkedPlace : Place := [Utf8.encode "d", Utf8.encode "new.yaml"]

theorem stands_linkedHost : linkedHost.Stands := ⟨.root, rfl⟩

/-- Where the steps of a path lead in this file system. -/
theorem locate_linkedHost {p : Path} {n : Bytes} {goal : Goal} (hsteps : p.steps = [.name n])
    (hbytes : 0 ∉ p.bytes ∧ p.bytes ≠ [] ∧ p.bytes.length ≤ FileTree.maxPath)
    (hwalk : linkedHost.tree.walk FileTree.maxLinks [] [.name n] = .ok goal) :
    linkedHost.tree.locate linkedHost.cwd p = .ok goal := by
  refine FileTree.locate_eq_ok_iff.2 ⟨hbytes.1, hbytes.2.1, hbytes.2.2, ?_⟩
  rw [hsteps, show linkedHost.cwd = [] from rfl, ite_self]
  exact hwalk

theorem walk_linkedPlace :
    linkedHost.tree.walk FileTree.maxLinks [] [.name (Utf8.encode "l.yaml")] =
      .ok (.vacant linkedPlace) := by
  have hlink : linkedHost.tree.entry? ([] ++ [Utf8.encode "l.yaml"]) =
      some (.link (.ofString "d/new.yaml")) := by
    decide
  have hd : linkedHost.tree.entry? ([] ++ [Utf8.encode "d"]) = some .directory := by
    decide
  have hsteps : (Path.ofString "d/new.yaml").steps =
      [.name (Utf8.encode "d"), .name (Utf8.encode "new.yaml")] := by
    decide
  rw [FileTree.maxLinks, FileTree.walk_link rfl (by decide) hlink, hsteps, ite_self]
  refine (FileTree.walk_entry rfl (by decide) hd (by simp) _).trans ?_
  exact FileTree.walk_vacant (by decide) (by decide) (by decide) _

theorem walk_oldFile :
    linkedHost.tree.walk FileTree.maxLinks [] [.name (Utf8.encode "old.json")] =
      .ok (.existing [Utf8.encode "old.json"]) := by
  have hfile : linkedHost.tree.entry? ([] ++ [Utf8.encode "old.json"]) =
      some (.file (Utf8.encode "x") true) := by
    decide
  exact (FileTree.walk_entry rfl (by decide) hfile (by simp) _).trans (FileTree.walk_nil _ _ _)

theorem absolutize_linkedPlace :
    linkedHost.absolutize (.ofString "l.yaml") = .ok (.ofString "/l.yaml") := by
  have hlocate : linkedHost.tree.locate linkedHost.cwd (.ofString "l.yaml") =
      .ok (.vacant linkedPlace) :=
    locate_linkedHost (by decide) (by decide) walk_linkedPlace
  have hfind : linkedHost.tree.find linkedHost.cwd (.ofString "l.yaml") = .error .noSuchFile := by
    rw [FileTree.find, hlocate]
  have hv := Host.viewpoint_of_stands stands_linkedHost (p := .ofString "l.yaml") (by decide)
  rw [Host.absolutize_of_find_error hv hfind]
  decide

theorem absolutize_oldFile :
    linkedHost.absolutize (.ofString "old.json") = .ok (.ofString "/old.json") := by
  have hlocate : linkedHost.tree.locate linkedHost.cwd (.ofString "old.json") =
      .ok (.existing [Utf8.encode "old.json"]) :=
    locate_linkedHost (by decide) (by decide) walk_oldFile
  have hv :=
    Host.viewpoint_of_stands stands_linkedHost (p := .ofString "old.json") (by decide)
  rw [Host.absolutize_of_find hv (FileTree.find_eq_ok_iff.2 hlocate)]
  decide

/-- Through the link a file is made where nothing was, and the other file is kept; it is replaced by
force only, and stays executable. -/
theorem init_through_link :
    ((init linkedHost "l.yaml" false).problem = none ∧
      linkedHost.tree.Denotes linkedHost.cwd (.ofString "l.yaml") linkedPlace ∧
      (init linkedHost "l.yaml" false).tree.entry? linkedPlace =
        some (.file (content .yaml) false) ∧
      (init linkedHost "l.yaml" false).tree.entry? [Utf8.encode "old.json"] =
        some (.file (Utf8.encode "x") true) ∧
      (init linkedHost "l.yaml" false).stdout = "Wrote candidates file: /l.yaml\n" ++
        "Edit the \x60candidates\x60 section, then run:\n  inlcheck check --file /l.yaml\n" ∧
      load ⟨(init linkedHost "l.yaml" false).tree, [], []⟩ (.ofString "/l.yaml") = .ok starter) ∧
    ((init linkedHost "old.json" false).problem = some (.fileExists (.ofString "/old.json")) ∧
      (init linkedHost "old.json" false).tree = linkedHost.tree) ∧
    (init linkedHost "old.json" true).problem = none ∧
      (init linkedHost "old.json" true).tree.entry? [Utf8.encode "old.json"] =
        some (.file (content .json) true) := by
  have hlink : linkedHost.tree.locate linkedHost.cwd (.ofString "/l.yaml") =
      .ok (.vacant linkedPlace) :=
    locate_linkedHost (by decide) (by decide) walk_linkedPlace
  have hfile : linkedHost.tree.locate linkedHost.cwd (.ofString "/old.json") =
      .ok (.existing [Utf8.encode "old.json"]) :=
    locate_linkedHost (by decide) (by decide) walk_oldFile
  have hyaml : FileFormat.ofPath? (.ofString "/l.yaml") = some .yaml := by decide
  have hjson : FileFormat.ofPath? (.ofString "/old.json") = some .json := by decide
  have hentry : linkedHost.tree.entry? [Utf8.encode "old.json"] =
      some (.file (Utf8.encode "x") true) := by
    decide
  have hwritable := FileTree.Writable.existing hfile hentry
  refine ⟨?_, ?_, ?_⟩
  · obtain ⟨hready, -, hkept, hmade⟩ := init_is_harmless linkedHost "l.yaml" false
    have hproblem := hready.2 ⟨.ofString "/l.yaml", .yaml, linkedPlace, false,
      absolutize_linkedPlace, hyaml, .vacant hlink, .inr hlink⟩
    obtain ⟨target, place, hm⟩ := hmade hproblem
    obtain rfl := Except.ok.inj (absolutize_linkedPlace.symm.trans hm.absolutized)
    obtain ⟨format, executable, hformat, hplace, hwritten⟩ := hm.written
    have hprinted := hm.printed
    have hloads := hm.loadsText ⟨"/l.yaml", rfl⟩ [] []
    rw [Path.text_ofString] at hprinted hloads
    obtain ⟨rfl, rfl⟩ := hplace.eq_of_vacant hlink
    obtain rfl := Option.some.inj (hyaml.symm.trans hformat)
    exact ⟨hproblem, hm.denotes, hwritten, (hkept rfl).1 _ _ hentry, hprinted, hloads⟩
  · obtain ⟨hready, herror, -, -⟩ := init_is_harmless linkedHost "old.json" false
    cases hproblem : (init linkedHost "old.json" false).problem with
    | none =>
      obtain ⟨target, _, _, _, ha, -, -, hcareful⟩ := hready.1 hproblem
      obtain rfl := Except.ok.inj (absolutize_oldFile.symm.trans ha)
      rcases hcareful with hforce | hvacant
      · cases hforce
      · cases hfile.symm.trans hvacant
    | some problem =>
      obtain ⟨⟨hunseen, -⟩ | ⟨target, ha, hrefused⟩, htree, -⟩ := herror problem hproblem
      · exact absurd (.inr stands_linkedHost) hunseen
      refine ⟨?_, htree⟩
      obtain rfl := Except.ok.inj (absolutize_oldFile.symm.trans ha)
      cases hrefused with
      | existing => rfl
      | unsupported _ nameless => cases nameless.symm.trans hjson
      | noFile forced => cases forced
      | unreachable _ lost => cases hfile.symm.trans lost
  · obtain ⟨hready, -, -, hmade⟩ := init_is_harmless linkedHost "old.json" true
    have hproblem := hready.2 ⟨.ofString "/old.json", .json, _, true, absolutize_oldFile, hjson,
      hwritable, .inl rfl⟩
    obtain ⟨target, place, hm⟩ := hmade hproblem
    obtain rfl := Except.ok.inj (absolutize_oldFile.symm.trans hm.absolutized)
    obtain ⟨format, executable, hformat, hplace, hwritten⟩ := hm.written
    obtain ⟨rfl, rfl⟩ := hplace.eq_of_existing hfile hentry
    obtain rfl := Option.some.inj (hjson.symm.trans hformat)
    exact ⟨hproblem, hwritten⟩

/-- A directory whose name is no text, as the current one, with a file and a link to it whose own
extension names no form. -/
def latinHost : Host where
  tree := ⟨[([[255]], .directory),
    ([[255], Utf8.encode "a.yaml"], .file (Utf8.encode "x") false),
    ([[255], Utf8.encode "l.txt"], .link (.ofString "a.yaml"))]⟩
  cwd := [[255]]
  env := []

/-- The place of the file. -/
def latinPlace : Place := [[255], Utf8.encode "a.yaml"]

theorem stands_latinHost : latinHost.Stands :=
  ⟨.directory .root rfl (by decide) (by decide) (by decide), by decide⟩

theorem find_latinPlace :
    latinHost.tree.find latinHost.cwd (.ofString "l.txt") = .ok latinPlace := by
  have hdir := stands_latinHost.isDirectory
  have hlink : latinHost.tree.entry? (latinHost.cwd ++ [Utf8.encode "l.txt"]) =
      some (.link (.ofString "a.yaml")) := by
    decide
  have hfile : latinHost.tree.entry? (latinHost.cwd ++ [Utf8.encode "a.yaml"]) =
      some (.file (Utf8.encode "x") false) := by
    decide
  have hsteps : (Path.ofString "l.txt").steps = [.name (Utf8.encode "l.txt")] := by decide
  have htarget : (Path.ofString "a.yaml").steps = [.name (Utf8.encode "a.yaml")] := by
    decide
  have hrelative : (Path.ofString "l.txt").isAbsolute = false := by decide
  have hrelative' : (Path.ofString "a.yaml").isAbsolute = false := by decide
  refine FileTree.find_eq_ok_iff.2 (FileTree.locate_eq_ok_iff.2
    ⟨by decide, by decide, by decide, ?_⟩)
  rw [hrelative, hsteps, if_neg Bool.false_ne_true, FileTree.maxLinks,
    FileTree.walk_link hdir (by decide) hlink, hrelative', if_neg Bool.false_ne_true, htarget]
  exact (FileTree.walk_entry hdir (by decide) hfile (by simp) _).trans (FileTree.walk_nil _ _ _)

theorem absolutize_latinPlace :
    latinHost.absolutize (.ofString "l.txt") = .ok latinPlace.path :=
  Host.absolutize_of_find (Host.viewpoint_of_stands stands_latinHost (by decide))
    find_latinPlace

/-- **The path that is printed need not lead to the new file.**  By force the file is replaced to
which the link leads, although the path that was asked for has no extension of a candidates file;
and as the path of the file is no text, another path is printed, from which nothing is loaded. -/
theorem init_prints_another_path :
    FileFormat.ofPath? (.ofString "l.txt") = none ∧
      (init latinHost "l.txt" true).problem = none ∧
      (init latinHost "l.txt" true).tree.entry? latinPlace =
        some (.file (content .yaml) false) ∧
      (init latinHost "l.txt" true).stdout = "Wrote candidates file: /\ufffd/a.yaml\n" ++
        "Edit the \x60candidates\x60 section, then run:\n" ++
          "  inlcheck check --file /\ufffd/a.yaml\n" ∧
      ∀ cwd env, load ⟨(init latinHost "l.txt" true).tree, cwd, env⟩ (.ofString "/\ufffd/a.yaml") =
        .error (.unreadable (.ofString "/\ufffd/a.yaml") .noSuchFile) := by
  have hformat : FileFormat.ofPath? latinPlace.path = some .yaml := by decide
  have hprinted : FileFormat.ofPath? (.ofString "/\ufffd/a.yaml") = some .yaml := by decide
  have hentry : latinHost.tree.entry? latinPlace = some (.file (Utf8.encode "x") false) := by
    decide
  have hfind : latinHost.tree.find latinHost.cwd latinPlace.path = .ok latinPlace :=
    Host.find_absolutize_of_leads absolutize_latinPlace (by decide)
      (.inl find_latinPlace) _
  have hready : Ready latinHost latinPlace.path true .yaml latinPlace false :=
    ⟨hformat, .existing (FileTree.find_eq_ok_iff.1 hfind) hentry, .inl rfl⟩
  have hinit : init latinHost "l.txt" true =
      { stdout := initText latinPlace.path
        tree := latinHost.tree.put latinPlace (.file (content .yaml) false) } := by
    rw [init, pathOf_eq_ok_iff.2 absolutize_latinPlace]
    exact hready.initAt_eq
  -- no entry of the root has the name that is printed
  have hlost (cwd : Place) (env : List (String × String)) :
      load ⟨latinHost.tree.put latinPlace (.file (content .yaml) false), cwd, env⟩
        (.ofString "/\ufffd/a.yaml") =
          .error (.unreadable (.ofString "/\ufffd/a.yaml") .noSuchFile) := by
    have hsteps : (Path.ofString "/\ufffd/a.yaml").steps =
        [.name (Utf8.encode "\ufffd"), .name (Utf8.encode "a.yaml")] := by
      decide
    have hnone : FileTree.entry? (latinHost.tree.put latinPlace (.file (content .yaml) false))
        ([] ++ [Utf8.encode "\ufffd"]) = none := by
      rw [FileTree.entry?_put_of_ne _ (by decide)]
      decide
    have hread : (latinHost.tree.put latinPlace (.file (content .yaml) false)).read cwd
        (.ofString "/\ufffd/a.yaml") = .error .noSuchFile := by
      rw [FileTree.read, FileTree.find, FileTree.locate, if_neg (by decide),
        if_neg (by decide), if_neg (by decide), if_pos (by decide), hsteps,
        FileTree.walk_lost rfl (by decide) hnone (List.cons_ne_nil _ _)]
    rw [load, hprinted]
    dsimp only
    rw [hread]
  rw [hinit]
  refine ⟨by decide, rfl, ?_, by decide, hlost⟩
  exact FileTree.entry?_put_self (List.cons_ne_nil _ _) _

end InlineAudit.Command
