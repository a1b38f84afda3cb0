/-
The file and the options of a check, merged.

Each setting has a rule of its own: candidates and flags are appended to those of the file, the
executable and the directory of the options take the place of those of the file, and the strict rule
holds if either asks for it.  The file and the options are looked at from two directories, and
several things can be wrong at once:

* `Loads` — what there is to merge with, and the directory in which it is;
* `Merged`, `merge_eq_ok_iff_merged` — the merge, setting by setting;
* **`resolve_eq_iff`**, `Resolves` — the inputs of a check, or the first thing that is wrong.

Design notes: the current directory may be gone.  It is asked for where a path does not start at the
root, and where there is no file; what is asked for first is missed first.
-/
import InlineAudit.Proofs.Candidates.Assembly
import InlineAudit.Proofs.CandidatesFile.Written
import InlineAudit.Proofs.Command.Inputs

namespace InlineAudit.Command

variable {h : Host} {o : CheckOptions} {inputs : Inputs} {file : CandidatesFile} {home : Place}
  {name? : Option String}

/-! ### The file and its directory -/

/-- What there is to merge with, and the directory in which it is: the file that the options name,
in the directory that holds it, or nothing, in the current directory. -/
inductive Loads (h : Host) : Option String → CandidatesFile → Place → Prop
  | nothing (stands : h.Stands) : Loads h none {} h.cwd
  | file {name : String} {file : CandidatesFile} {home : Place} {n : Bytes}
      (seen : h.Sees (.ofString name))
      (found : h.tree.find h.cwd (.ofString name) = .ok (home ++ [n]))
      (loaded : CandidatesFile.load h (Place.path (home ++ [n])) = .ok file) :
      Loads h (some name) file home

/-- A file that can be loaded is in a directory, and its path from the root is known. -/
theorem exists_find_of_load {p q : Path} (ha : h.absolutize p = .ok q)
    (hload : CandidatesFile.load h q = .ok file) :
    ∃ home n, h.tree.find h.cwd p = .ok (home ++ [n]) ∧ q = Place.path (home ++ [n]) := by
  obtain ⟨format, content, text, -, hread, -, -⟩ := CandidatesFile.load_eq_ok_iff.1 hload
  obtain ⟨place, executable, hfind, hentry⟩ := FileTree.read_eq_ok_iff.1 hread
  rcases Host.locate_of_locate_absolutize ha (FileTree.find_eq_ok_iff.1 hfind) with
    hlocate | ⟨-, hgoal, hh⟩
  · have hfound := FileTree.find_eq_ok_iff.2 hlocate
    rcases List.eq_nil_or_concat place with rfl | ⟨home, n, rfl⟩
    · cases hentry
    · rw [List.concat_eq_append] at hfound
      obtain ⟨here, hv, -⟩ := Host.absolutize_eq_ok_iff.1 ha
      exact ⟨home, n, hfound, Except.ok.inj (ha.symm.trans (Host.absolutize_of_find hv hfound))⟩
  · -- the current directory is no file
    obtain rfl := Goal.existing.inj hgoal
    have hdir := beq_iff_eq.1 hh.isDirectory
    rw [hentry] at hdir
    cases hdir

theorem Loads.reached (hloads : Loads h name? file home) :
    h.tree.Reached home ∧ h.tree.isDirectory home = true := by
  cases hloads with
  | nothing hh => exact ⟨hh.reached, hh.isDirectory⟩
  | file hseen hfound => exact (Host.reached_of_sees hseen hfound).of_append

theorem baseFile_eq_ok_iff {base : Inputs} :
    baseFile h name? = .ok base ↔ ∃ home, Loads h name? base.file home ∧ base.base = home.path := by
  have hparent {home : Place} {n : Bytes} (hreached : h.tree.Reached (home ++ [n])) :
      (Place.path (home ++ [n])).parent?.getD ⟨[]⟩ = home.path := by
    rw [Place.parent?_path hreached.isName, Option.getD_some]
  obtain ⟨file, path⟩ := base
  cases name? with
  | none =>
    rw [baseFile_none_eq_ok_iff]
    constructor
    · rintro ⟨hh, heq⟩
      obtain ⟨rfl, rfl⟩ := Inputs.mk.inj heq
      exact ⟨h.cwd, .nothing hh, rfl⟩
    · rintro ⟨home, hloads, rfl⟩
      cases hloads with
      | nothing hh => exact ⟨hh, rfl⟩
  | some name =>
    rw [baseFile_some_eq_ok_iff]
    constructor
    · rintro ⟨q, file', ha, hload, heq⟩
      obtain ⟨rfl, rfl⟩ := Inputs.mk.inj heq
      obtain ⟨home, n, hfound, rfl⟩ := exists_find_of_load ha hload
      have hseen : h.Sees (.ofString name) := Host.exists_absolutize_iff.1 ⟨_, ha⟩
      exact ⟨home, .file hseen hfound hload, hparent (Host.reached_of_sees hseen hfound)⟩
    · rintro ⟨home, hloads, rfl⟩
      cases hloads with
      | file hseen hfound hload =>
        obtain ⟨here, hv⟩ := Host.exists_viewpoint_iff.2 hseen
        rw [← hparent (Host.reached_of_sees hseen hfound)]
        exact ⟨_, file, Host.absolutize_of_find hv hfound, hload, rfl⟩

/-- There is one file to merge with, and it is in one directory. -/
theorem Loads.unique {file' : CandidatesFile} {home' : Place} (hloads : Loads h name? file home)
    (hloads' : Loads h name? file' home') : file = file' ∧ home = home' := by
  cases hloads with
  | nothing =>
    cases hloads'
    exact ⟨rfl, rfl⟩
  | file _ hfound hload =>
    cases hloads' with
    | file _ hfound' hload' =>
      have hplace := Except.ok.inj (hfound.symm.trans hfound')
      rw [← hplace] at hload'
      exact ⟨Except.ok.inj (hload.symm.trans hload'), (List.append_inj' hplace rfl).1⟩

/-! ### The merge -/

/-- The symbols of a package that arguments name, in their order. -/
def symbolsNamed (arguments : List String) (package : String) : List String :=
  ((arguments.filterMap candidate?).filter fun c => c.1 = package).map (·.2)

theorem mem_packages_ofList_argued (arguments : List String) (p : String) :
    p ∈ (Candidates.ofList (argued arguments)).packages ↔
      p ∈ (arguments.filterMap candidate?).map (·.1) := by
  rw [(Candidates.gathers_ofList _).packages, argued, List.map_map]
  rfl

theorem symbolsOf_ofList_argued (arguments : List String) (p : String) :
    (Candidates.ofList (argued arguments)).symbolsOf p = symbolsNamed arguments p := by
  rw [Candidates.symbolsOf, Candidates.list?_ofList, symbolsNamed, argued]
  induction arguments.filterMap candidate? with
  | nil => rfl
  | cons c cs ih =>
    rw [List.map_cons, Candidates.given?]
    by_cases hc : c.1 = p
    · rw [if_pos hc, List.filter_cons_of_pos (by simpa using hc), List.map_cons, ← ih]
      cases Candidates.given? p (cs.map fun c => (c.1, [c.2])) <;> rfl
    · rw [if_neg hc, List.filter_cons_of_neg (by simpa using hc), Candidates.joined_none_left, ih]

/-- Inputs are what the file holds with the options merged into it. -/
structure Merged (h : Host) (o : CheckOptions) (file : CandidatesFile) (home : Place)
    (inputs : Inputs) : Prop where
  named : AllNamed o.symbols
  packages : ∀ p, p ∈ inputs.file.candidates.packages ↔
    p ∈ file.candidates.packages ∨ p ∈ (o.symbols.filterMap candidate?).map (·.1)
  /-- The symbols of the options come after those of the file. -/
  symbols : ∀ p, inputs.file.candidates.symbolsOf p =
    file.candidates.symbolsOf p ++ symbolsNamed o.symbols p
  go : inputs.file.build.go = o.go.or file.build.go
  /-- A directory of the options is kept as it is seen from everywhere. -/
  dirGiven : ∀ d, o.dir = some d → ∃ q, h.absolutize (.ofString d) = .ok q ∧
    inputs.file.build.dir = some q.text
  dirWritten : o.dir = none → inputs.file.build.dir = file.build.dir
  args : inputs.file.build.args = file.build.args ++ o.args
  strict : inputs.file.build.strict = true ↔ file.build.strict = true ∨ o.strict = true
  base : inputs.base = home.path

/-- The two rules for a directory are those that are carried out. -/
theorem mergeDir_iff {written dir? : Option String} :
    mergeDir h written o.dir = .ok dir? ↔
      (∀ d, o.dir = some d → ∃ q, h.absolutize (.ofString d) = .ok q ∧ dir? = some q.text) ∧
        (o.dir = none → dir? = written) := by
  rw [mergeDir_eq_ok_iff]
  cases o.dir <;> simp

theorem merged_of_mergeDir {dir? : Option String} (hall : AllNamed o.symbols)
    (hdir : mergeDir h file.build.dir o.dir = .ok dir?) :
    Merged h o file home
      ⟨⟨⟨o.go.or file.build.go, dir?, file.build.args ++ o.args, file.build.strict || o.strict⟩,
        file.candidates.merge (.ofList (argued o.symbols))⟩, home.path⟩ where
  named := hall
  packages p := by
    dsimp only
    rw [Candidates.mem_packages_merge_iff, mem_packages_ofList_argued]
  symbols p := by
    dsimp only
    rw [← symbolsOf_ofList_argued, Candidates.symbolsOf_merge]
  go := rfl
  dirGiven := (mergeDir_iff.1 hdir).1
  dirWritten := (mergeDir_iff.1 hdir).2
  args := rfl
  strict := by
    dsimp only
    rw [Bool.or_eq_true]
  base := rfl

theorem Merged.mergeDir (hm : Merged h o file home inputs) :
    mergeDir h file.build.dir o.dir = .ok inputs.file.build.dir :=
  mergeDir_iff.2 ⟨hm.dirGiven, hm.dirWritten⟩

/-- The rules leave no choice. -/
theorem Merged.unique {inputs' : Inputs} (hm : Merged h o file home inputs)
    (hm' : Merged h o file home inputs') : inputs = inputs' := by
  have hdirs := Except.ok.inj (hm.mergeDir.symm.trans hm'.mergeDir)
  obtain ⟨⟨⟨go, dir, args, strict⟩, candidates⟩, base⟩ := inputs
  obtain ⟨⟨⟨go', dir', args', strict'⟩, candidates'⟩, base'⟩ := inputs'
  have hcandidates : candidates = candidates' := by
    refine Candidates.eq_of_symbolsOf (fun p => ?_) fun p => ?_
    · exact (hm.packages p).trans (hm'.packages p).symm
    · exact (hm.symbols p).trans (hm'.symbols p).symm
  obtain rfl : go = go' := hm.go.trans hm'.go.symm
  obtain rfl : dir = dir' := hdirs
  obtain rfl : args = args' := hm.args.trans hm'.args.symm
  obtain rfl : strict = strict' := Bool.eq_iff_iff.2 (hm.strict.trans hm'.strict.symm)
  obtain rfl : base = base' := hm.base.trans hm'.base.symm
  rw [hcandidates]

/-- **The merge follows these rules**, where the file loads, all arguments name candidates, and a
directory of the options is seen. -/
theorem merge_eq_ok_iff_merged :
    merge h o = .ok inputs ↔
      ∃ file home, Loads h o.file file home ∧ Merged h o file home inputs := by
  rw [merge_eq_ok_iff]
  constructor
  · rintro ⟨⟨file, path⟩, extra, build, hbase, hextra, hbuild, rfl⟩
    obtain ⟨hall, rfl⟩ := candidates_eq_ok_iff.1 hextra
    obtain ⟨home, hloads, hpath⟩ := baseFile_eq_ok_iff.1 hbase
    obtain rfl : path = home.path := hpath
    obtain ⟨dir?, hdir, rfl⟩ := mergeSettings_eq_ok_iff.1 hbuild
    exact ⟨file, home, hloads, merged_of_mergeDir hall hdir⟩
  · rintro ⟨file, home, hloads, hm⟩
    exact ⟨⟨file, home.path⟩, _, _, baseFile_eq_ok_iff.2 ⟨home, hloads, rfl⟩,
      candidates_of_allNamed hm.named, mergeSettings_eq_ok_iff.2 ⟨_, hm.mergeDir, rfl⟩,
      hm.unique (merged_of_mergeDir hm.named hm.mergeDir)⟩

/-! ### What is wrong first -/

/-- The file that the options name is seen; where they name none, the current directory is there. -/
def CheckOptions.SeesFile (h : Host) (o : CheckOptions) : Prop :=
  o.file.elim h.Stands (h.Sees <| .ofString ·)

/-- What the inputs of a check come to.  Each row says of the rows before it that they do not
apply. -/
inductive Resolves (h : Host) (o : CheckOptions) : Except Problem Inputs → Prop
  | unseen (unseen : ¬ o.SeesFile h) : Resolves h o (.error (.noCurrentDirectory .noSuchFile))
  | unloaded {name : String} {q : Path} {p : FileProblem} (named : o.file = some name)
      (seen : h.absolutize (.ofString name) = .ok q) (load : CandidatesFile.load h q = .error p) :
      Resolves h o (.error (.file p))
  | malformed {file : CandidatesFile} {home : Place} {argument : String}
      (loads : Loads h o.file file home) (first : FirstMalformed o.symbols argument) :
      Resolves h o (.error (.badCandidate argument))
  | lost {file : CandidatesFile} {home : Place} {d : String} (loads : Loads h o.file file home)
      (named : AllNamed o.symbols) (given : o.dir = some d) (unseen : ¬ h.Sees (.ofString d)) :
      Resolves h o (.error (.noCurrentDirectory .noSuchFile))
  | invalid {file : CandidatesFile} {home : Place} {inputs : Inputs} {cause : InvalidCandidates}
      (loads : Loads h o.file file home) (merged : Merged h o file home inputs)
      (invalid : inputs.file.candidates.validate = .error cause) :
      Resolves h o (.error (.invalid cause))
  | nothing {file : CandidatesFile} {home : Place} {inputs : Inputs} {p : Pending}
      (loads : Loads h o.file file home) (merged : Merged h o file home inputs)
      (valid : inputs.file.candidates.validate = .ok p)
      (empty : inputs.file.candidates.size = 0) : Resolves h o (.error .noCandidates)
  | resolved {file : CandidatesFile} {home : Place} {inputs : Inputs} {p : Pending}
      (loads : Loads h o.file file home) (merged : Merged h o file home inputs)
      (valid : inputs.file.candidates.validate = .ok p)
      (some : inputs.file.candidates.size ≠ 0) : Resolves h o (.ok inputs)

theorem resolve_of_merge (hmerge : merge h o = .ok inputs) :
    resolve h o = match inputs.file.candidates.validate with
      | .error cause => .error (.invalid cause)
      | .ok _ =>
        if inputs.file.candidates.isEmpty then .error .noCandidates else .ok inputs := by
  rw [resolve, hmerge]
  rfl

theorem resolve_of_merge_error {problem : Problem} (hmerge : merge h o = .error problem) :
    resolve h o = .error problem := by
  rw [resolve, hmerge]
  rfl

theorem resolves_resolve (h : Host) (o : CheckOptions) : Resolves h o (resolve h o) := by
  cases hmerge : merge h o with
  | error problem =>
    rw [resolve_of_merge_error hmerge]
    rcases merge_eq_error_iff.1 hmerge with hbase | ⟨base, hbase, hlater⟩
    · rcases baseFile_eq_error_iff.1 hbase with ⟨hunseen, rfl⟩ | ⟨name, q, p, hname, ha, hload, rfl⟩
      · exact .unseen hunseen
      · exact .unloaded hname ha hload
    · obtain ⟨home, hloads, -⟩ := baseFile_eq_ok_iff.1 hbase
      rcases hlater with ⟨argument, hfirst, rfl⟩ | ⟨hall, hbuild⟩
      · exact .malformed hloads hfirst
      · obtain ⟨d, hgiven, hunseen, rfl⟩ := mergeSettings_eq_error_iff.1 hbuild
        exact .lost hloads hall hgiven hunseen
  | ok inputs =>
    obtain ⟨file, home, hloads, hm⟩ := merge_eq_ok_iff_merged.1 hmerge
    rw [resolve_of_merge hmerge]
    cases hv : inputs.file.candidates.validate with
    | error cause => exact .invalid hloads hm hv
    | ok p =>
      dsimp only
      split
      · rename_i hempty
        exact .nothing hloads hm hv (Candidates.isEmpty_eq_true_iff.1 hempty)
      · rename_i hsome
        exact .resolved hloads hm hv (mt Candidates.isEmpty_eq_true_iff.2 hsome)

theorem Resolves.resolve_eq {outcome : Except Problem Inputs} (hr : Resolves h o outcome) :
    resolve h o = outcome := by
  cases hr with
  | unseen hunseen =>
    exact resolve_of_merge_error
      (merge_eq_error_iff.2 (.inl (baseFile_eq_error_iff.2 (.inl ⟨hunseen, rfl⟩))))
  | unloaded hname ha hload =>
    refine resolve_of_merge_error (merge_eq_error_iff.2 (.inl ?_))
    exact baseFile_eq_error_iff.2 (.inr ⟨_, _, _, hname, ha, hload, rfl⟩)
  | @malformed file home argument hloads hfirst =>
    have hbase : baseFile h o.file = .ok ⟨file, home.path⟩ :=
      baseFile_eq_ok_iff.2 ⟨home, hloads, rfl⟩
    exact resolve_of_merge_error
      (merge_eq_error_iff.2 (.inr ⟨_, hbase, .inl ⟨argument, hfirst, rfl⟩⟩))
  | @lost file home d hloads hall hgiven hunseen =>
    have hbase : baseFile h o.file = .ok ⟨file, home.path⟩ :=
      baseFile_eq_ok_iff.2 ⟨home, hloads, rfl⟩
    have hbuild : mergeSettings h file.build o = .error (.noCurrentDirectory .noSuchFile) :=
      mergeSettings_eq_error_iff.2 ⟨d, hgiven, hunseen, rfl⟩
    exact resolve_of_merge_error (merge_eq_error_iff.2 (.inr ⟨_, hbase, .inr ⟨hall, hbuild⟩⟩))
  | invalid hloads hm hv =>
    rw [resolve_of_merge (merge_eq_ok_iff_merged.2 ⟨_, _, hloads, hm⟩), hv]
  | nothing hloads hm hv hempty =>
    rw [resolve_of_merge (merge_eq_ok_iff_merged.2 ⟨_, _, hloads, hm⟩), hv]
    exact if_pos (Candidates.isEmpty_eq_true_iff.2 hempty)
  | resolved hloads hm hv hsome =>
    rw [resolve_of_merge (merge_eq_ok_iff_merged.2 ⟨_, _, hloads, hm⟩), hv]
    exact if_neg (mt Candidates.isEmpty_eq_true_iff.1 hsome)

/-- **The inputs are resolved, or the first thing that is wrong is told.** -/
theorem resolve_eq_iff {outcome : Except Problem Inputs} :
    resolve h o = outcome ↔ Resolves h o outcome := by
  constructor
  · rintro rfl
    exact resolves_resolve h o
  · exact fun hr => hr.resolve_eq

end InlineAudit.Command
