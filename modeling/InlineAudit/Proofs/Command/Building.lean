/-
The build that a check asks for.

What is merged says which executable is run, with which arguments, and where.  Nothing is left of it
when a program runs but a place, a path and some texts:

* `Host.launchBy_eq_ok_iff` — what a launch hands on, and what is in its way;
* `Ordered`, `Merged.ordered` — the build that is run: its executable, arguments and directory;
* `Builds`, `builds_sourceBy` — what comes of it is what the check reads;
* `reportFrom_ne_invalid` — the candidates are validated again, and pass again;
* **`options_merge_into_file`** — all of this in one, with the merge before it.

Design notes: a directory of the options passes through a text on its way to the build.  Where its
path is not UTF-8 another path comes out; where it is, the build starts in the directory to which
the option leads from the current one.  A file that is found through a link is where the link leads,
and its own directory is seen from there.
-/
import InlineAudit.Proofs.Check.Delivery
import InlineAudit.Proofs.Command.Merging
import InlineAudit.Proofs.Command.Verdict

namespace InlineAudit

/-! ### Launches -/

namespace Host

variable {h : Host} {run : Executor} {command : Path} {args : List String} {directory : Option Path}
  {place : Place} {e : Shell.Ending}

/-- No NUL is in what a program is called with. -/
def Callable (command : Path) (args : List String) : Prop :=
  0 ∉ command.bytes ∧ ∀ a ∈ args, '\x00' ∉ a.toList

instance (command : Path) (args : List String) : Decidable (Callable command args) :=
  inferInstanceAs (Decidable (_ ∧ _))

theorem startingPlace_some_eq_ok_iff {d : Path} :
    h.startingPlace (some d) = .ok place ↔
      h.tree.find h.cwd d = .ok place ∧ h.tree.isDirectory place = true := by
  rw [startingPlace]
  cases hfind : h.tree.find h.cwd d with
  | error e => simp
  | ok found =>
    dsimp only
    split
    · rename_i hdir
      rw [Except.ok.injEq]
      exact ⟨fun heq => ⟨heq, heq ▸ hdir⟩, And.left⟩
    · rename_i hdir
      refine iff_of_false (fun heq => nomatch heq) ?_
      rintro ⟨heq, hplace⟩
      exact hdir (Except.ok.inj heq ▸ hplace)

theorem callable_iff :
    Callable command args ↔
      (command.bytes.contains 0 || args.any (·.toList.contains '\x00')) = false := by
  simp [Callable]

/-- A program that can be called is run in the directory that is found, with these arguments. -/
theorem launchBy_of_callable (hcall : Callable command args)
    (hstart : h.startingPlace directory = .ok place) :
    h.launchBy run command args directory = run place command args := by
  rw [launchBy, callable_iff.1 hcall, hstart]
  rfl

theorem launchBy_eq_ok_iff :
    h.launchBy run command args directory = .ok e ↔
      Callable command args ∧ ∃ place, h.startingPlace directory = .ok place ∧
        run place command args = .ok e := by
  constructor
  · intro hlaunch
    have hcall : Callable command args := by
      by_contra hnul
      rw [callable_iff, Bool.not_eq_false] at hnul
      rw [launchBy, hnul] at hlaunch
      cases hlaunch
    cases hstart : h.startingPlace directory with
    | error cause =>
      rw [launchBy, callable_iff.1 hcall, hstart] at hlaunch
      cases hlaunch
    | ok place => exact ⟨hcall, place, rfl, (launchBy_of_callable hcall hstart).symm.trans hlaunch⟩
  · rintro ⟨hcall, place, hstart, hrun⟩
    rw [launchBy_of_callable hcall hstart, hrun]

end Host

namespace Command

variable {h : Host} {o : CheckOptions} {inputs : Inputs} {file : CandidatesFile}
  {home place : Place} {run : Executor}

/-! ### The build -/

/-- Where a build starts: in the directory of the options, seen from the current one; or else in
that of the file, seen from where the file is; or else in the current directory. -/
inductive StartsIn (h : Host) (o : CheckOptions) (file : CandidatesFile) (home : Place) :
    Place → Prop
  | asOptionSays {d : String} {place : Place} (given : o.dir = some d)
      (leads : h.tree.Leads h.cwd (.ofString d) place)
      (isDirectory : h.tree.isDirectory place = true) : StartsIn h o file home place
  | asFileSays {d : String} {place : Place} (notGiven : o.dir = none)
      (written : file.build.dir = some d) (leads : h.tree.Leads home (.ofString d) place)
      (isDirectory : h.tree.isDirectory place = true) : StartsIn h o file home place
  | here (notGiven : o.dir = none) (notWritten : file.build.dir = none) :
      StartsIn h o file home h.cwd

/-- The directory of the options has a path that can be passed on as a text. -/
def CheckOptions.DirIsText (h : Host) (o : CheckOptions) : Prop :=
  ∀ d q, o.dir = some d → h.absolutize (.ofString d) = .ok q → q.IsText

/-- A toolchain runs the build that the file and the options ask for, whatever programs do. -/
structure Ordered (h : Host) (o : CheckOptions) (file : CandidatesFile) (home : Place)
    (t : Toolchain) : Prop where
  executable : t.executable =
    ((o.go.or file.build.go).map Path.ofString).getD (Toolchain.defaultExecutable h)
  arguments : ∀ packages, t.arguments packages =
    ["build", "-a", "-gcflags=all=-m -m"] ++ file.build.args ++ o.args ++ packages
  dirGiven : ∀ d, o.dir = some d → ∃ q, h.absolutize (.ofString d) = .ok q ∧
    t.directory = some (.ofString q.text)
  dirWritten : o.dir = none →
    t.directory = file.build.dir.map fun d => home.path.join (.ofString d)
  /-- A build that is started runs with these arguments in this directory. -/
  startedIn : o.DirIsText h → ∀ (run : Executor) packages e, t.launchBy run h packages = .ok e →
    ∃ place, StartsIn h o file home place ∧ run place t.executable (t.arguments packages) = .ok e
  /-- Only a NUL or the length of a path is in the way of a build whose directory is there. -/
  starts : o.DirIsText h → ∀ (run : Executor) packages place, StartsIn h o file home place →
    (∀ d, t.directory = some d → d.Fits) → Host.Callable t.executable (t.arguments packages) →
      t.launchBy run h packages = run place t.executable (t.arguments packages)

theorem Merged.directory_given {d : String} (hm : Merged h o file home inputs)
    (hgiven : o.dir = some d) :
    ∃ q, h.absolutize (.ofString d) = .ok q ∧
      (inputs.toolchain h).directory = some (.ofString q.text) := by
  obtain ⟨q, ha, hdir⟩ := hm.dirGiven d hgiven
  refine ⟨q, ha, ?_⟩
  show inputs.file.build.dir.map _ = _
  -- whatever the base is, an absolute path stands for itself
  have habs := Path.isAbsolute_ofString_text (Host.isAbsolute_of_absolutize ha)
  rw [hdir, Option.map_some, Path.join, if_pos habs]

theorem Merged.directory_written (hm : Merged h o file home inputs) (hnone : o.dir = none) :
    (inputs.toolchain h).directory =
      file.build.dir.map fun d => home.path.join (.ofString d) := by
  show inputs.file.build.dir.map _ = _
  rw [hm.dirWritten hnone, hm.base]

/-- **The directory of the toolchain is the one that is asked for.** -/
theorem Merged.startsIn_of_startingPlace (hloads : Loads h o.file file home)
    (hm : Merged h o file home inputs) (htext : o.DirIsText h)
    (hstart : h.startingPlace (inputs.toolchain h).directory = .ok place) :
    StartsIn h o file home place := by
  cases hgiven : o.dir with
  | some d =>
    obtain ⟨q, ha, hdir⟩ := hm.directory_given hgiven
    rw [hdir, (htext d q hgiven ha).ofString_text, Host.startingPlace_some_eq_ok_iff] at hstart
    exact .asOptionSays hgiven (Host.leads_of_find_absolutize ha hstart.1) hstart.2
  | none =>
    rw [hm.directory_written hgiven] at hstart
    cases hwritten : file.build.dir with
    | some d =>
      rw [hwritten, Option.map_some, Host.startingPlace_some_eq_ok_iff] at hstart
      obtain ⟨hreached, hisDir⟩ := hloads.reached
      exact .asFileSays hgiven hwritten
        (FileTree.leads_of_find_join hreached hisDir hstart.1) hstart.2
    | none =>
      rw [hwritten] at hstart
      cases hstart
      exact .here hgiven hwritten

theorem Merged.startingPlace_of_startsIn (hloads : Loads h o.file file home)
    (hm : Merged h o file home inputs) (htext : o.DirIsText h)
    (hfits : ∀ d, (inputs.toolchain h).directory = some d → d.Fits)
    (hstarts : StartsIn h o file home place) :
    h.startingPlace (inputs.toolchain h).directory = .ok place := by
  cases hstarts with
  | @asOptionSays d _ hgiven hleads hisDir =>
    obtain ⟨q, ha, hdir⟩ := hm.directory_given hgiven
    rw [(htext d q hgiven ha).ofString_text] at hdir
    rw [hdir, Host.startingPlace_some_eq_ok_iff]
    exact ⟨Host.find_absolutize_of_leads ha (hfits q hdir) hleads _, hisDir⟩
  | @asFileSays d _ hnone hwritten hleads hisDir =>
    have hdir := hm.directory_written hnone
    rw [hwritten, Option.map_some] at hdir
    obtain ⟨hreached, hhome⟩ := hloads.reached
    rw [hdir, Host.startingPlace_some_eq_ok_iff]
    exact ⟨FileTree.find_join_of_leads hreached hhome (hfits _ hdir) hleads _, hisDir⟩
  | here hnone hwritten =>
    rw [hm.directory_written hnone, hwritten]
    rfl

/-- **The merged inputs make the toolchain that is asked for.** -/
theorem Merged.ordered (hloads : Loads h o.file file home) (hm : Merged h o file home inputs) :
    Ordered h o file home (inputs.toolchain h) where
  executable := by
    rw [Inputs.toolchain, Toolchain.ofSettings, hm.go]
    cases o.go.or file.build.go <;> rfl
  arguments packages := by
    show ["build", "-a", "-gcflags=all=-m -m"] ++ inputs.file.build.args ++ packages = _
    rw [hm.args, ← List.append_assoc]
  dirGiven _ := hm.directory_given
  dirWritten := hm.directory_written
  startedIn htext run packages e hlaunch := by
    obtain ⟨-, place, hstart, hrun⟩ := Host.launchBy_eq_ok_iff.1 hlaunch
    exact ⟨place, hm.startsIn_of_startingPlace hloads htext hstart, hrun⟩
  starts htext run packages place hstarts hfits hcall :=
    Host.launchBy_of_callable hcall (hm.startingPlace_of_startsIn hloads htext hfits hstarts)

/-- A source hands on what comes of a build: what it prints and how it ends; or nothing, and why it
was not started. -/
structure Builds (run : Executor) (h : Host) (t : Toolchain) (source : Source) : Prop where
  ended : ∀ packages e, t.launchBy run h packages = .ok e →
    source.Delivers packages e.output (.ofExit e.exit)
  refused : ∀ packages cause, t.launchBy run h packages = .error cause →
    source.Delivers packages []
      (.launchFailed ("failed to spawn " ++ t.executable.text ++ ": " ++ cause.text))

theorem builds_sourceBy (run : Executor) (h : Host) (t : Toolchain) :
    Builds run h t (t.sourceBy run h) where
  ended packages e hlaunch := by
    have hd := t.delivers_sourceBy run h packages
    rwa [Toolchain.buildBy, hlaunch] at hd
  refused packages cause hlaunch := by
    have hd := t.delivers_sourceBy run h packages
    rwa [Toolchain.buildBy, hlaunch] at hd

/-! ### The check -/

/-- A log or a build that cannot be opened says nothing of the candidates. -/
theorem source_openFor_ne_invalid {source : Source} (hsource : inputs.sourceBy run h o = .ok source)
    (packages : List String) (cause : InvalidCandidates) :
    source.openFor packages ≠ .error (.invalid cause) := by
  rcases sourceBy_eq_ok_iff.1 hsource with ⟨-, rfl⟩ | ⟨log, path, -, -, rfl⟩
  · exact fun heq => nomatch heq
  · show (Log.openFile h path).mapError Check.CheckError.unreadable ≠ _
    cases Log.openFile h path with
    | error e => exact fun heq => nomatch heq
    | ok stream => exact fun heq => nomatch heq

/-- A check finds no valid candidates invalid, unless its source says so. -/
theorem run_ne_invalid {source : Source} {strict : Bool} {cs : Candidates} {clock : Check.Clock}
    {p : Pending} (hv : cs.validate = .ok p)
    (hopen : ∀ packages cause, source.openFor packages ≠ .error (.invalid cause))
    (cause : InvalidCandidates) :
    Check.run source strict cs clock ≠ .error (.error (.invalid cause)) := by
  intro hrun
  obtain ⟨made, hgoes⟩ : ∃ made,
      Check.Goes source strict cs clock (.error (.error (.invalid cause))) made :=
    ⟨_, Check.run_goes_iff.1 ⟨hrun, rfl⟩⟩
  cases hgoes with
  | invalid hinvalid => cases hinvalid.symm.trans hv
  | refused _ hrefused => exact hopen _ cause hrefused

/-- **The check does not find candidates invalid that have been resolved.** -/
theorem reportFrom_ne_invalid (run : Executor) (clock : Check.Clock) (cause : InvalidCandidates) :
    reportFrom (·.sourceBy run h o) h o clock ≠
      .error (.checkFailed (.error (.invalid cause))) := by
  intro heq
  cases hresolve : resolve h o with
  | error problem =>
    rw [reportFrom, hresolve] at heq
    obtain rfl := Except.error.inj heq
    cases resolve_eq_iff.1 hresolve
  | ok inputs =>
    cases hsource : inputs.sourceBy run h o with
    | error problem =>
      simp only [reportFrom, hresolve, bind, Except.bind, hsource] at heq
      obtain rfl := Except.error.inj heq
      obtain ⟨log, -, -, hproblem⟩ := sourceBy_eq_error_iff.1 hsource
      cases hproblem
    | ok source =>
      rw [reportFrom_of_resolve hresolve hsource] at heq
      cases hrun : Check.run source inputs.file.build.strict inputs.file.candidates clock with
      | ok report =>
        rw [hrun] at heq
        cases heq
      | error failure =>
        rw [hrun] at heq
        obtain rfl := Problem.checkFailed.inj (Except.error.inj heq)
        have hv := validate_of_resolve hresolve
        exact run_ne_invalid hv (source_openFor_ne_invalid hsource) cause hrun

/-- **What the file and the options say is merged, and nothing is lost or invented.**  The inputs of
a check are resolved, or the first thing that is wrong is told: that the file is not seen, or does
not load; then the first argument that names no candidate; then that the directory of the options is
not seen; then the candidates of both; then that there are none.  Inputs that are resolved follow the
rules of the merge, and the build that they describe is the one that is run, for packages that
ascend.  The check that follows puts these packages to its source, reads what comes of the build,
reports on them, and never finds them invalid. -/
theorem options_merge_into_file (h : Host) (o : CheckOptions) :
    (∀ outcome, resolve h o = outcome ↔ Resolves h o outcome) ∧
    (∀ inputs file home, resolve h o = .ok inputs → Loads h o.file file home →
      Merged h o file home inputs ∧ Ordered h o file home (inputs.toolchain h) ∧
      (inputs.file.candidates.packages.map Utf8.encode).Pairwise (· < ·)) ∧
    (∀ run (inputs : Inputs), o.fromLog = none → ∃ source,
      inputs.sourceBy run h o = .ok source ∧ Builds run h (inputs.toolchain h) source) ∧
    (∀ run inputs source clock, resolve h o = .ok inputs → inputs.sourceBy run h o = .ok source →
      .openFor inputs.file.candidates.packages ∈ Check.calls source
          inputs.file.build.strict inputs.file.candidates clock ∧
        reportFrom (·.sourceBy run h o) h o clock =
          (Check.run source inputs.file.build.strict inputs.file.candidates clock).mapError
            .checkFailed) ∧
    (∀ run report clock, reportFrom (·.sourceBy run h o) h o clock = .ok report →
      ∃ inputs, resolve h o = .ok inputs ∧ report.packages = inputs.file.candidates.packages ∧
        report.digest = inputs.file.candidates.digest) ∧
    (∀ run clock cause, reportFrom (·.sourceBy run h o) h o clock ≠
      .error (.checkFailed (.error (.invalid cause)))) ∧
    ∀ clock, runCheck h o clock = reportFrom (·.sourceBy h.execute h o) h o clock := by
  refine ⟨fun _ => resolve_eq_iff, fun inputs file home hresolve hloads => ?_,
    fun run inputs hlog => ⟨_, sourceBy_eq_ok_iff.2 (.inl ⟨hlog, rfl⟩), builds_sourceBy run h _⟩,
    fun run inputs source clock hresolve hsource =>
      ⟨?_, reportFrom_of_resolve hresolve hsource⟩,
    fun run report clock hreport => ?_, reportFrom_ne_invalid, fun _ => rfl⟩
  · cases resolve_eq_iff.1 hresolve with
    | resolved hloads' hm =>
      obtain ⟨rfl, rfl⟩ := hloads.unique hloads'
      exact ⟨hm, hm.ordered hloads, Candidates.pairwise_encode_packages _⟩
  · exact Check.openFor_mem_calls_iff.2 ⟨rfl, _, validate_of_resolve hresolve⟩
  · obtain ⟨inputs, source, log, status, hresolve, -, -, rfl⟩ := reportFrom_eq_ok_iff.1 hreport
    exact ⟨inputs, hresolve, rfl, rfl⟩

/-! ### A project -/

/-- A file that asks for a build in a directory beside it. -/
def projectFile : CandidatesFile where
  build := { dir := some "src", args := ["-race"] }
  candidates := .ofList [("a", ["F"])]

/-- A text of this file. -/
def projectText : String :=
  "\x7b\"build\": \x7b\"dir\": \"src\", \"args\": [\"-race\"]\x7d, " ++
    "\"candidates\": \x7b\"a\": [\"F\"]\x7d\x7d"

/-- The directory of the project, and the place of the file in it. -/
def projectHome : Place := [Utf8.encode "p"]

/-- This text in the directory of the project, with a link to it from the root; a directory of the
same name is beside the file and beside the link. -/
def projectTree : FileTree :=
  ⟨[([Utf8.encode "p"], .directory),
    ([Utf8.encode "p", Utf8.encode "c.json"], .file (Utf8.encode projectText) false),
    ([Utf8.encode "p", Utf8.encode "src"], .directory),
    ([Utf8.encode "src"], .directory),
    ([Utf8.encode "l.json"], .link (.ofString "p/c.json"))]⟩

/-- The project, seen from some directory. -/
def projectAt (cwd : Place) : Host := { tree := projectTree, cwd, env := [] }

/-- Options that ask for more candidates, and perhaps for another directory. -/
def projectOptions (name : String) (dir : Option String) : CheckOptions where
  file := some name
  symbols := ["b.G", "a.H"]
  dir := dir
  args := ["-v"]

/-- The candidates of the file and the options. -/
def projectCandidates : Candidates :=
  projectFile.candidates.merge (.ofList (argued ["b.G", "a.H"]))

theorem stands_projectAt : (projectAt []).Stands := ⟨.root, rfl⟩

theorem reached_projectHome : projectTree.Reached projectHome :=
  .directory .root rfl (by decide) (by decide) (by decide)

theorem reached_projectFile : projectTree.Reached (projectHome ++ [Utf8.encode "c.json"]) := by
  have hentry : projectTree.entry? (projectHome ++ [Utf8.encode "c.json"]) =
      some (.file (Utf8.encode projectText) false) := by
    decide
  exact .entry reached_projectHome (by decide) (by decide) (by decide) hentry (by simp)

/-- Every name of the file is as good as another. -/
theorem loads_projectAt {cwd : Place} {name : String}
    (hseen : (projectAt cwd).Sees (.ofString name))
    (hfind : projectTree.find cwd (.ofString name) = .ok (projectHome ++ [Utf8.encode "c.json"])) :
    Loads (projectAt cwd) (some name) projectFile projectHome := by
  have hread : projectTree.read cwd (Place.path (projectHome ++ [Utf8.encode "c.json"])) =
      .ok (Utf8.encode projectText) :=
    FileTree.read_eq_ok_iff.2 ⟨_, false, FileTree.find_path reached_projectFile _
      (by decide), by decide⟩
  exact .file hseen hfind (CandidatesFile.load_eq_ok_iff.2
    ⟨.json, _, _, by decide, hread, Utf8.decode?_encode _, by decide⟩)

/-- A name beside the file leads there. -/
theorem leads_projectHome : projectTree.Leads projectHome (.ofString "src")
    (projectHome ++ [Utf8.encode "src"]) := by
  have hreached : projectTree.Reached (projectHome ++ [Utf8.encode "src"]) :=
    .directory reached_projectHome (by decide) (by decide) (by decide) (by decide)
  have hjoin : projectHome.path.join (.ofString "src") =
      Place.path (projectHome ++ [Utf8.encode "src"]) := by
    decide
  have hfind := FileTree.find_path hreached [] (by decide)
  rw [← hjoin] at hfind
  exact FileTree.leads_of_find_join reached_projectHome (by decide) hfind

theorem allNamed_projectOptions (name : String) (dir : Option String) :
    AllNamed (projectOptions name dir).symbols := by
  show ∀ argument ∈ ["b.G", "a.H"], candidate? argument ≠ none
  decide

theorem merged_projectAt {cwd : Place} (name : String) (dir : Option String) {dir? : Option String}
    (hdir : mergeDir (projectAt cwd) (some "src") dir = .ok dir?) :
    Merged (projectAt cwd) (projectOptions name dir) projectFile projectHome
      ⟨⟨⟨none, dir?, ["-race", "-v"], false⟩, projectCandidates⟩, projectHome.path⟩ :=
  merged_of_mergeDir (allNamed_projectOptions name dir) hdir

/-- Whatever directory the options ask for, there are inputs if it is seen. -/
theorem resolves_projectAt {cwd : Place} {name : String} (dir : Option String)
    {dir? : Option String}
    (hloads : Loads (projectAt cwd) (some name) projectFile projectHome)
    (hdir : mergeDir (projectAt cwd) (some "src") dir = .ok dir?) :
    Resolves (projectAt cwd) (projectOptions name dir)
      (.ok ⟨⟨⟨none, dir?, ["-race", "-v"], false⟩, projectCandidates⟩, projectHome.path⟩) := by
  have hvalid : projectCandidates.validate = .ok _ :=
    Candidates.validate_eq_ok_iff.2 ⟨by decide, by decide, rfl⟩
  have hsome : projectCandidates.size ≠ 0 := by decide
  exact .resolved hloads (merged_projectAt name dir hdir) hvalid hsome

theorem packages_projectCandidates : projectCandidates.packages = ["a", "b"] := by
  decide

theorem find_projectFile :
    projectTree.find [] (.ofString "p/c.json") = .ok (projectHome ++ [Utf8.encode "c.json"]) :=
  FileTree.find_names reached_projectFile (by decide) (by decide) (by decide)

theorem find_projectHome : projectTree.find [] (.ofString "p") = .ok projectHome :=
  FileTree.find_names reached_projectHome (by decide) (by decide) (by decide)

theorem absolutize_projectHome : (projectAt []).absolutize (.ofString "p") = .ok projectHome.path :=
  Host.absolutize_of_find (Host.viewpoint_of_stands stands_projectAt (by decide))
    find_projectHome

/-- The arguments of its build. -/
def projectArguments : List String :=
  ["build", "-a", "-gcflags=all=-m -m", "-race", "-v", "a", "b"]

section Launch

variable {cwd : Place} {name : String} {dir : Option String} {t : Toolchain}

theorem Ordered.launchBy_projectAt
    (hordered : Ordered (projectAt cwd) (projectOptions name dir) projectFile projectHome t)
    (htext : (projectOptions name dir).DirIsText (projectAt cwd))
    (hfits : ∀ d, t.directory = some d → d.Fits)
    (hstarts : StartsIn (projectAt cwd) (projectOptions name dir) projectFile projectHome place)
    (run : Executor) :
    t.launchBy run (projectAt cwd) ["a", "b"] = run place (.ofString "go") projectArguments := by
  have hexecutable : t.executable = .ofString "go" := hordered.executable
  have harguments : t.arguments ["a", "b"] = projectArguments := hordered.arguments ["a", "b"]
  have hcall : Host.Callable (.ofString "go") projectArguments := by decide
  rw [← hexecutable, ← harguments] at hcall ⊢
  exact hordered.starts htext run _ place hstarts hfits hcall

/-- Without a directory of the options the build is beside the file. -/
theorem Ordered.launchBy_beside
    (hordered : Ordered (projectAt cwd) (projectOptions name none) projectFile projectHome t)
    (run : Executor) :
    t.launchBy run (projectAt cwd) ["a", "b"] =
      run [Utf8.encode "p", Utf8.encode "src"] (.ofString "go") projectArguments := by
  have hdir : t.directory = some (projectHome.path.join (.ofString "src")) :=
    hordered.dirWritten rfl
  have hisDir : projectTree.isDirectory (projectHome ++ [Utf8.encode "src"]) = true := by
    decide
  refine hordered.launchBy_projectAt (fun _ _ heq => nomatch heq) (fun d hd => ?_)
    (.asFileSays rfl rfl leads_projectHome hisDir) run
  obtain rfl := Option.some.inj (hdir.symm.trans hd)
  decide

end Launch

/-- The build runs beside the file, or else where the options say from the current directory. -/
theorem options_merge_into_project :
    (∃ inputs, resolve (projectAt []) (projectOptions "p/c.json" none) = .ok inputs ∧
      inputs.file.candidates.toList = [("a", ["F", "H"]), ("b", ["G"])] ∧
      ∀ run, (inputs.toolchain (projectAt [])).launchBy run (projectAt [])
          inputs.file.candidates.packages =
        run [Utf8.encode "p", Utf8.encode "src"] (.ofString "go")
          ["build", "-a", "-gcflags=all=-m -m", "-race", "-v", "a", "b"]) ∧
    ∃ inputs, resolve (projectAt []) (projectOptions "p/c.json" (some "p")) = .ok inputs ∧
      ∀ run, (inputs.toolchain (projectAt [])).launchBy run (projectAt [])
          inputs.file.candidates.packages =
        run [Utf8.encode "p"] (.ofString "go")
          ["build", "-a", "-gcflags=all=-m -m", "-race", "-v", "a", "b"] := by
  have hloads := loads_projectAt (.inr stands_projectAt) find_projectFile
  have hlist : projectCandidates.toList = [("a", ["F", "H"]), ("b", ["G"])] := by decide
  constructor
  · obtain ⟨houtcome, hmerged, -⟩ :=
      options_merge_into_file (projectAt []) (projectOptions "p/c.json" none)
    have hresolve := (houtcome _).2 (resolves_projectAt none hloads rfl)
    obtain ⟨-, hordered, -⟩ := hmerged _ _ _ hresolve hloads
    exact ⟨_, hresolve, hlist, packages_projectCandidates ▸ hordered.launchBy_beside⟩
  · obtain ⟨houtcome, hmerged, -⟩ :=
      options_merge_into_file (projectAt []) (projectOptions "p/c.json" (some "p"))
    have hdir : mergeDir (projectAt []) (some "src") (some "p") = .ok (some "/p") :=
      mergeDir_eq_ok_iff.2 (.inr ⟨"p", _, rfl, absolutize_projectHome, by decide⟩)
    have hresolve := (houtcome _).2 (resolves_projectAt (some "p") hloads hdir)
    obtain ⟨-, hordered, -⟩ := hmerged _ _ _ hresolve hloads
    refine ⟨_, hresolve, packages_projectCandidates ▸ hordered.launchBy_projectAt
      (fun d q hgiven ha => ?_) (fun d hd => ?_)
      (.asOptionSays rfl (.inl find_projectHome) (by decide))⟩
    · obtain rfl := Option.some.inj hgiven
      obtain rfl := Except.ok.inj (absolutize_projectHome.symm.trans ha)
      exact ⟨"/p", by decide⟩
    · obtain ⟨q, ha, hq⟩ := hordered.dirGiven "p" rfl
      obtain rfl := Except.ok.inj (absolutize_projectHome.symm.trans ha)
      obtain rfl := Option.some.inj (hq.symm.trans hd)
      decide

/-! ### Builds elsewhere -/

/-- A directory whose name is no text, as the current one, and one whose name is what it reads as;
there is a directory in each. -/
def latinProject : Host where
  tree := ⟨[([[255]], .directory), ([[255], Utf8.encode "sub"], .directory),
    ([Utf8.encode "\ufffd"], .directory), ([Utf8.encode "\ufffd", Utf8.encode "sub"], .directory)]⟩
  cwd := [[255]]
  env := []

/-- A build of one candidate in the directory of that name. -/
def latinOptions : CheckOptions := { symbols := ["p.F"], dir := some "sub" }

theorem stands_latinProject : latinProject.Stands :=
  ⟨.directory .root rfl (by decide) (by decide) (by decide), by decide⟩

/-- A directory in one of the two is found by its path. -/
theorem find_latinProject {place : Place}
    (hplace : place = [[255]] ∨ place = [Utf8.encode "\ufffd"]) (cwd : Place) :
    latinProject.tree.find cwd (Place.path (place ++ [Utf8.encode "sub"])) =
      .ok (place ++ [Utf8.encode "sub"]) := by
  have hreached : latinProject.tree.Reached (place ++ [Utf8.encode "sub"]) := by
    rcases hplace with rfl | rfl <;>
      exact .directory (.directory .root rfl (by decide) (by decide) (by decide))
        (by decide) (by decide) (by decide) (by decide)
  refine FileTree.find_path hreached cwd ?_
  rcases hplace with rfl | rfl <;> decide

/-- A name in the current directory leads there. -/
theorem leads_latinProject : latinProject.tree.Leads latinProject.cwd (.ofString "sub")
    [[255], Utf8.encode "sub"] := by
  have hjoin : latinProject.cwd.path.join (.ofString "sub") =
      Place.path ([[255]] ++ [Utf8.encode "sub"]) := by
    decide
  have hfind := find_latinProject (.inl rfl) []
  rw [← hjoin] at hfind
  exact FileTree.leads_of_find_join stands_latinProject.reached stands_latinProject.isDirectory
    hfind

theorem mergeDir_latinProject :
    mergeDir latinProject none (some "sub") = .ok (some "/\ufffd/sub") := by
  have hne : (Path.ofString "sub").bytes ≠ [] := by decide
  have hrelative : (Path.ofString "sub").isAbsolute = false := by decide
  have hv := Host.viewpoint_of_stands stands_latinProject hrelative
  have hfind := leads_latinProject.resolve_right fun hempty => hne hempty.1
  exact mergeDir_eq_ok_iff.2
    (.inr ⟨"sub", _, rfl, Host.absolutize_of_find hv hfind, by decide⟩)

/-- The link of the project leads to its file. -/
theorem find_projectLink :
    projectTree.find [] (.ofString "l.json") = .ok (projectHome ++ [Utf8.encode "c.json"]) := by
  have hlink : projectTree.entry? ([] ++ [Utf8.encode "l.json"]) =
      some (.link (.ofString "p/c.json")) := by
    decide
  have hsteps : (Path.ofString "l.json").steps = [.name (Utf8.encode "l.json")] := by
    decide
  have htarget : (Path.ofString "p/c.json").steps =
      (projectHome ++ [Utf8.encode "c.json"]).map .name ++ [] := by
    decide
  refine FileTree.find_eq_ok_iff.2 (FileTree.locate_eq_ok_iff.2
    ⟨by decide, by decide, by decide, ?_⟩)
  rw [ite_self, hsteps, FileTree.maxLinks, FileTree.walk_link rfl (by decide) hlink, ite_self,
    htarget, List.append_assoc, FileTree.walk_names reached_projectFile]
  exact FileTree.walk_nil _ _ _

/-- **A build need not start where it is asked for.**  Where the path of the current directory is no
text, the directory of the options is taken for another one, in which the build runs.  The file that
a link leads to has its directory seen from where it is, and not from the link.  And without a
current directory a directory of the options is in the way, although all the rest is in order. -/
theorem build_starts_elsewhere :
    (∃ inputs, resolve latinProject latinOptions = .ok inputs ∧
      latinProject.tree.Leads latinProject.cwd (.ofString "sub") [[255], Utf8.encode "sub"] ∧
      latinProject.tree.isDirectory [[255], Utf8.encode "sub"] = true ∧
      ∀ run, (inputs.toolchain latinProject).launchBy run latinProject
          inputs.file.candidates.packages =
        run [Utf8.encode "\ufffd", Utf8.encode "sub"] (.ofString "go")
          ["build", "-a", "-gcflags=all=-m -m", "p"]) ∧
    (∃ inputs, resolve (projectAt []) (projectOptions "l.json" none) = .ok inputs ∧
      projectTree.entry? [Utf8.encode "l.json"] = some (.link (.ofString "p/c.json")) ∧
      inputs.file.build.dir = some "src" ∧
      projectTree.isDirectory [Utf8.encode "src"] = true ∧
      ∀ run, (inputs.toolchain (projectAt [])).launchBy run (projectAt [])
          inputs.file.candidates.packages =
        run [Utf8.encode "p", Utf8.encode "src"] (.ofString "go") projectArguments) ∧
    (∃ inputs, resolve (projectAt [[255]]) (projectOptions "/p/c.json" none) = .ok inputs) ∧
      resolve (projectAt [[255]]) (projectOptions "/p/c.json" (some "src")) =
        .error (.noCurrentDirectory .noSuchFile) := by
  refine ⟨?_, ?_, ?_⟩
  · have hnamed : AllNamed latinOptions.symbols := by
      show ∀ argument ∈ ["p.F"], candidate? argument ≠ none
      decide
    have hvalid : (Candidates.empty.merge (.ofList (argued ["p.F"]))).validate = .ok _ :=
      Candidates.validate_eq_ok_iff.2 ⟨by decide, by decide, rfl⟩
    have hm : Merged latinProject latinOptions {} latinProject.cwd _ :=
      merged_of_mergeDir hnamed mergeDir_latinProject
    have hresolve : resolve latinProject latinOptions = .ok _ :=
      (Resolves.resolved (.nothing stands_latinProject) hm hvalid (by decide)).resolve_eq
    refine ⟨_, hresolve, leads_latinProject, by decide, fun run => ?_⟩
    refine Host.launchBy_of_callable (by decide) ?_
    exact Host.startingPlace_some_eq_ok_iff.2
      ⟨find_latinProject (.inr rfl) _, by decide⟩
  · have hloads := loads_projectAt (.inr stands_projectAt) find_projectLink
    have hordered := (merged_projectAt "l.json" none rfl).ordered hloads
    exact ⟨_, (resolves_projectAt none hloads rfl).resolve_eq, by decide, rfl,
      by decide, packages_projectCandidates ▸ hordered.launchBy_beside⟩
  · have hpath : Path.ofString "/p/c.json" =
        Place.path (projectHome ++ [Utf8.encode "c.json"]) := by
      decide
    have hfind : projectTree.find [[255]] (.ofString "/p/c.json") =
        .ok (projectHome ++ [Utf8.encode "c.json"]) := by
      rw [hpath]
      exact FileTree.find_path reached_projectFile _ (by decide)
    have hloads : Loads (projectAt [[255]]) (some "/p/c.json") projectFile projectHome :=
      loads_projectAt (.inl (by decide)) hfind
    have hunseen : ¬ (projectAt [[255]]).Sees (.ofString "src") := by
      rintro (habs | hh)
      · exact absurd habs (by decide)
      · exact absurd hh.isDirectory (by decide)
    exact ⟨⟨_, (resolves_projectAt none hloads rfl).resolve_eq⟩,
      (Resolves.lost hloads (allNamed_projectOptions _ _) rfl hunseen).resolve_eq⟩

end Command

end InlineAudit
