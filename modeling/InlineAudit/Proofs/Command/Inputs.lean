/-
What the inputs of a check are made of.

* `CheckOptions.Asks` — the candidates that the file and the command line name;
* `candidates_eq_ok_iff`, `candidates_eq_error_iff` — arguments are candidates if all of them name
  one, and otherwise the first that names none is to blame;
* `has_candidates_iff` — no argument is lost;
* `pathOf_eq_error_iff`, `baseFile_eq_error_iff`, `mergeSettings_eq_error_iff` — what stands in the
  way of a path, of the file and of the settings;
* `merge_eq_ok_iff`, `merge_eq_error_iff` — when there is something to merge, and what stands in the
  way;
* **`resolve_eq_ok_iff`** — when there are inputs, and what they are;
* `has_resolve_iff`, `strict_resolve` — the candidates and the strict rule of the inputs come from
  the file and from the command line, and from nowhere else;
* `sourceBy_eq_ok_iff`, `sourceBy_eq_error_iff` — the source of a check, and what stands in its way.
-/
import InlineAudit.Command.Inputs
import InlineAudit.Proofs.Candidates.Merge
import InlineAudit.Proofs.System.Place

namespace InlineAudit.Command

variable {h : Host} {o : CheckOptions} {inputs base : Inputs} {package symbol argument : String}
  {arguments : List String} {cs : Candidates} {problem : Problem}

/-- The candidates file holds the candidate, or an argument names it. -/
def CheckOptions.Asks (o : CheckOptions) (base : Inputs) (package symbol : String) : Prop :=
  base.file.candidates.Has package symbol ∨
    ∃ argument ∈ o.symbols, candidate? argument = some (package, symbol)

/-! ### Arguments -/

/-- All of these arguments name candidates. -/
def AllNamed (arguments : List String) : Prop :=
  ∀ argument ∈ arguments, candidate? argument ≠ none

/-- Of these arguments this is the first that names no candidate. -/
def FirstMalformed (arguments : List String) (argument : String) : Prop :=
  ∃ before after, arguments = before ++ argument :: after ∧ AllNamed before ∧
    candidate? argument = none

/-- The candidates that arguments name, as pairs in their order. -/
def argued (arguments : List String) : List (String × List String) :=
  (arguments.filterMap candidate?).map fun c => (c.1, [c.2])

theorem addCandidate_of_some (h : candidate? argument = some (package, symbol)) :
    addCandidate cs argument = .ok (cs.add package symbol) := by
  rw [addCandidate, h]

theorem addCandidate_of_none (h : candidate? argument = none) :
    addCandidate cs argument = .error (.badCandidate argument) := by
  rw [addCandidate, h]

theorem foldlM_addCandidate_append {before after : List String} (h : AllNamed before) :
    (before ++ after).foldlM addCandidate cs =
      after.foldlM addCandidate ((argued before).foldl (fun acc e => acc.append e.1 e.2) cs) := by
  induction before generalizing cs with
  | nil => rfl
  | cons argument before ih =>
    obtain ⟨⟨p, s⟩, hc⟩ := Option.ne_none_iff_exists'.1 (h argument List.mem_cons_self)
    have hbefore : AllNamed before := fun a ha => h a (List.mem_cons_of_mem _ ha)
    rw [List.cons_append, List.foldlM_cons, addCandidate_of_some hc]
    show (before ++ after).foldlM addCandidate (cs.add p s) = _
    rw [ih hbefore, argued, argued, List.filterMap_cons_some hc]
    rfl

theorem candidates_of_allNamed (h : AllNamed arguments) :
    candidates arguments = .ok (.ofList (argued arguments)) := by
  have hall : (arguments ++ []).foldlM addCandidate .empty = .ok (.ofList (argued arguments)) :=
    foldlM_addCandidate_append h
  rwa [List.append_nil] at hall

theorem candidates_of_firstMalformed (h : FirstMalformed arguments argument) :
    candidates arguments = .error (.badCandidate argument) := by
  obtain ⟨before, after, rfl, hbefore, hnone⟩ := h
  rw [candidates, foldlM_addCandidate_append hbefore, List.foldlM_cons, addCandidate_of_none hnone]
  rfl

theorem allNamed_or_exists_firstMalformed (arguments : List String) :
    AllNamed arguments ∨ ∃ argument, FirstMalformed arguments argument := by
  induction arguments with
  | nil => exact .inl fun _ h => nomatch h
  | cons a rest ih =>
    by_cases ha : candidate? a = none
    · exact .inr ⟨a, [], rest, rfl, fun _ h => (nomatch h), ha⟩
    · rcases ih with hrest | ⟨argument, before, after, rfl, hbefore, hnone⟩
      · exact .inl (List.forall_mem_cons.2 ⟨ha, hrest⟩)
      · exact .inr ⟨argument, a :: before, after, rfl, List.forall_mem_cons.2 ⟨ha, hbefore⟩, hnone⟩

theorem FirstMalformed.not_allNamed (h : FirstMalformed arguments argument) :
    ¬ AllNamed arguments := by
  obtain ⟨before, after, rfl, -, hnone⟩ := h
  exact fun hall => hall argument (List.mem_append_right _ List.mem_cons_self) hnone

/-- Arguments are candidates if all of them name one, and these are all that they name. -/
theorem candidates_eq_ok_iff :
    candidates arguments = .ok cs ↔ AllNamed arguments ∧ cs = .ofList (argued arguments) := by
  rcases allNamed_or_exists_firstMalformed arguments with hall | ⟨argument, hfirst⟩
  · rw [candidates_of_allNamed hall, Except.ok.injEq, eq_comm, and_iff_right hall]
  · rw [candidates_of_firstMalformed hfirst]
    exact ⟨fun h => (nomatch h), fun h => absurd h.1 hfirst.not_allNamed⟩

/-- Otherwise the first argument that names none is to blame. -/
theorem candidates_eq_error_iff :
    candidates arguments = .error problem ↔
      ∃ argument, FirstMalformed arguments argument ∧ problem = .badCandidate argument := by
  constructor
  · intro h
    rcases allNamed_or_exists_firstMalformed arguments with hall | ⟨argument, hfirst⟩
    · rw [candidates_of_allNamed hall] at h
      cases h
    · rw [candidates_of_firstMalformed hfirst] at h
      exact ⟨argument, hfirst, (Except.error.inj h).symm⟩
  · rintro ⟨argument, hfirst, rfl⟩
    exact candidates_of_firstMalformed hfirst

theorem mem_argued_iff {e : String × List String} :
    e ∈ argued arguments ↔
      ∃ argument ∈ arguments, ∃ symbol,
        candidate? argument = some (e.1, symbol) ∧ e.2 = [symbol] := by
  obtain ⟨p, symbols⟩ := e
  simp only [argued, List.mem_map, List.mem_filterMap, Prod.mk.injEq]
  constructor
  · rintro ⟨⟨q, s⟩, ⟨argument, harg, hc⟩, rfl, rfl⟩
    exact ⟨argument, harg, s, hc, rfl⟩
  · rintro ⟨argument, harg, s, hc, rfl⟩
    exact ⟨(p, s), ⟨argument, harg, hc⟩, rfl, rfl⟩

/-- The candidates of the command line are those that its arguments name. -/
theorem has_candidates_iff (hcs : candidates arguments = .ok cs) :
    cs.Has package symbol ↔
      ∃ argument ∈ arguments, candidate? argument = some (package, symbol) := by
  obtain ⟨-, rfl⟩ := candidates_eq_ok_iff.1 hcs
  rw [Candidates.ofList, Candidates.has_foldl_append_iff,
    or_iff_right (Candidates.not_has_empty _ _)]
  constructor
  · rintro ⟨symbols, hmem, hs⟩
    obtain ⟨argument, harg, s, hc, rfl⟩ := mem_argued_iff.1 hmem
    obtain rfl := List.mem_singleton.1 hs
    exact ⟨argument, harg, hc⟩
  · rintro ⟨argument, harg, hc⟩
    exact ⟨_, mem_argued_iff.2 ⟨argument, harg, symbol, hc, rfl⟩, List.mem_singleton_self symbol⟩

/-! ### Inputs -/

theorem pathOf_eq_ok_iff {path : Path} :
    pathOf h argument = .ok path ↔ h.absolutize (.ofString argument) = .ok path := by
  rw [pathOf]
  cases h.absolutize (.ofString argument) <;> simp [Except.mapError]

/-- What an argument means is not known where the current directory is asked for and gone. -/
theorem pathOf_eq_error_iff :
    pathOf h argument = .error problem ↔
      ¬ h.Sees (.ofString argument) ∧ problem = .noCurrentDirectory .noSuchFile := by
  rw [pathOf]
  cases ha : h.absolutize (.ofString argument) with
  | ok path =>
    refine iff_of_false (fun heq => nomatch heq) fun hgone => ?_
    cases ha.symm.trans (Host.absolutize_eq_error_iff.2 ⟨hgone.1, rfl⟩)
  | error e =>
    obtain ⟨hunseen, rfl⟩ := Host.absolutize_eq_error_iff.1 ha
    simp [Except.mapError, hunseen, eq_comm]

theorem baseFile_none_eq_ok_iff :
    baseFile h none = .ok base ↔ h.Stands ∧ base = ⟨{}, h.cwd.path⟩ := by
  rw [baseFile]
  cases hhere : h.currentDirectory with
  | error e => simp [(Host.currentDirectory_eq_error_iff.1 hhere).1]
  | ok here =>
    obtain ⟨rfl, hh⟩ := Host.currentDirectory_eq_ok_iff.1 hhere
    simp [hh, eq_comm]

theorem baseFile_some_eq_ok_iff {name : String} :
    baseFile h (some name) = .ok base ↔
      ∃ path file, h.absolutize (.ofString name) = .ok path ∧
        CandidatesFile.load h path = .ok file ∧ base = ⟨file, path.parent?.getD ⟨[]⟩⟩ := by
  simp only [← pathOf_eq_ok_iff]
  rw [baseFile]
  cases pathOf h name with
  | error p => simp
  | ok path => cases hload : CandidatesFile.load h path <;> simp [hload, @eq_comm _ base]

/-- What is in the way of a file: that the current directory is asked for and gone, or that what is
named cannot be loaded. -/
theorem baseFile_eq_error_iff {name? : Option String} :
    baseFile h name? = .error problem ↔
      ¬ name?.elim h.Stands (h.Sees <| .ofString ·) ∧ problem = .noCurrentDirectory .noSuchFile ∨
        ∃ name path p, name? = some name ∧ h.absolutize (.ofString name) = .ok path ∧
          CandidatesFile.load h path = .error p ∧ problem = .file p := by
  rw [baseFile.eq_def]
  cases name? with
  | none =>
    cases hhere : h.currentDirectory with
    | error e =>
      obtain ⟨hgone, rfl⟩ := Host.currentDirectory_eq_error_iff.1 hhere
      simp [hgone, eq_comm]
    | ok here => simp [(Host.currentDirectory_eq_ok_iff.1 hhere).2]
  | some name =>
    simp only [Option.elim_some, ← pathOf_eq_error_iff, ← pathOf_eq_ok_iff]
    cases hpath : pathOf h name with
    | error p => simp [hpath]
    | ok path =>
      dsimp only
      cases hload : CandidatesFile.load h path <;> simp [hpath, hload, @eq_comm _ problem]

theorem mergeDir_eq_ok_iff {written given? dir? : Option String} :
    mergeDir h written given? = .ok dir? ↔
      given? = none ∧ dir? = written ∨
        ∃ given path, given? = some given ∧ h.absolutize (.ofString given) = .ok path ∧
          dir? = some path.text := by
  cases given? with
  | none => simp [mergeDir, eq_comm]
  | some given =>
    simp only [← pathOf_eq_ok_iff]
    rw [mergeDir]
    cases hpath : pathOf h given <;> simp [Except.map, hpath, @eq_comm _ dir?]

theorem mergeSettings_eq_ok_iff {s build : Build.Settings} :
    mergeSettings h s o = .ok build ↔
      ∃ dir, mergeDir h s.dir o.dir = .ok dir ∧
        build = ⟨o.go.or s.go, dir, s.args ++ o.args, s.strict || o.strict⟩ := by
  rw [mergeSettings]
  cases mergeDir h s.dir o.dir <;> simp [Except.map, eq_comm]

/-- Only a directory of the options is in the way of settings. -/
theorem mergeSettings_eq_error_iff {s : Build.Settings} :
    mergeSettings h s o = .error problem ↔
      ∃ d, o.dir = some d ∧ ¬ h.Sees (.ofString d) ∧
        problem = .noCurrentDirectory .noSuchFile := by
  simp only [← pathOf_eq_error_iff]
  rw [mergeSettings]
  cases o.dir with
  | none => simp [mergeDir, Except.map]
  | some d =>
    rw [mergeDir]
    cases hpath : pathOf h d <;> simp [Except.map, hpath]

theorem exists_mergeSettings_iff {s : Build.Settings} :
    (∃ build, mergeSettings h s o = .ok build) ↔ ∀ d, o.dir = some d → h.Sees (.ofString d) := by
  constructor
  · rintro ⟨build, hbuild⟩ d hd
    by_contra hunseen
    cases hbuild.symm.trans (mergeSettings_eq_error_iff.2 ⟨d, hd, hunseen, rfl⟩)
  · intro hseen
    cases hbuild : mergeSettings h s o with
    | ok build => exact ⟨build, rfl⟩
    | error problem =>
      obtain ⟨d, hd, hunseen, -⟩ := mergeSettings_eq_error_iff.1 hbuild
      exact absurd (hseen d hd) hunseen

theorem merge_eq_ok_iff :
    merge h o = .ok inputs ↔
      ∃ base extra build, baseFile h o.file = .ok base ∧ candidates o.symbols = .ok extra ∧
        mergeSettings h base.file.build o = .ok build ∧
        inputs = ⟨⟨build, base.file.candidates.merge extra⟩, base.base⟩ := by
  rw [merge]
  cases hbase : baseFile h o.file with
  | error problem => simp [bind, Except.bind]
  | ok base =>
    cases hextra : candidates o.symbols with
    | error problem => simp [bind, Except.bind]
    | ok extra =>
      cases hbuild : mergeSettings h base.file.build o with
      | error problem => simp [bind, Except.bind, hbuild]
      | ok build => simp [bind, Except.bind, pure, Except.pure, hbuild, eq_comm]

/-- There is nothing to merge when the file cannot be read or, after that, an argument or, after
that, the directory. -/
theorem merge_eq_error_iff :
    merge h o = .error problem ↔
      baseFile h o.file = .error problem ∨
        ∃ base, baseFile h o.file = .ok base ∧
          ((∃ argument, FirstMalformed o.symbols argument ∧ problem = .badCandidate argument) ∨
            AllNamed o.symbols ∧ mergeSettings h base.file.build o = .error problem) := by
  rw [merge]
  cases hbase : baseFile h o.file with
  | error problem => simp [bind, Except.bind]
  | ok base =>
    simp only [bind, Except.bind, reduceCtorEq, false_or, Except.ok.injEq, exists_eq_left']
    rw [← candidates_eq_error_iff]
    cases hextra : candidates o.symbols with
    | error problem' =>
      obtain ⟨argument, hfirst, rfl⟩ := candidates_eq_error_iff.1 hextra
      simp [hfirst.not_allNamed]
    | ok extra =>
      simp only [(candidates_eq_ok_iff.1 hextra).1, reduceCtorEq, false_or, true_and]
      cases mergeSettings h base.file.build o <;> simp [pure, Except.pure]

/-- Candidates are called invalid after they are merged. -/
theorem resolve_eq_invalid_iff {cause : InvalidCandidates} :
    resolve h o = .error (.invalid cause) ↔
      ∃ inputs, merge h o = .ok inputs ∧ inputs.file.candidates.validate = .error cause := by
  rw [resolve]
  cases hmerge : merge h o with
  | error problem =>
    simp only [bind, Except.bind, reduceCtorEq, false_and, exists_false, iff_false,
      Except.error.injEq]
    rintro rfl
    -- nothing that comes before says so
    rcases merge_eq_error_iff.1 hmerge with hbase | ⟨base, -, ⟨argument, -, heq⟩ | ⟨-, hbuild⟩⟩
    · rcases baseFile_eq_error_iff.1 hbase with ⟨-, heq⟩ | ⟨name, path, p, -, -, -, heq⟩ <;>
        cases heq
    · cases heq
    · obtain ⟨d, -, -, heq⟩ := mergeSettings_eq_error_iff.1 hbuild
      cases heq
  | ok inputs =>
    simp only [bind, Except.bind, Except.ok.injEq, exists_eq_left']
    cases hv : inputs.file.candidates.validate with
    | error cause' => simp
    | ok p =>
      dsimp only
      split <;> simp

/-- **There are inputs exactly when the file and all arguments can be read, and the candidates of
both together are valid and not empty.** -/
theorem resolve_eq_ok_iff :
    resolve h o = .ok inputs ↔
      merge h o = .ok inputs ∧ (∃ p, inputs.file.candidates.validate = .ok p) ∧
        inputs.file.candidates.isEmpty = false := by
  rw [resolve]
  cases hmerge : merge h o with
  | error problem => simp [bind, Except.bind]
  | ok merged =>
    simp only [bind, Except.bind, Except.ok.injEq]
    cases hv : merged.file.candidates.validate with
    | error cause =>
      constructor
      · intro h
        cases h
      · rintro ⟨rfl, ⟨p, hp⟩, -⟩
        rw [hv] at hp
        cases hp
    | ok p =>
      dsimp only
      split
      · rename_i hempty
        constructor
        · intro h
          cases h
        · rintro ⟨rfl, -, hsome⟩
          rw [hempty] at hsome
          cases hsome
      · rename_i hsome
        constructor
        · intro h
          obtain rfl := Except.ok.inj h
          exact ⟨rfl, ⟨p, hv⟩, eq_false_of_ne_true hsome⟩
        · rintro ⟨rfl, -, -⟩
          rfl

/-- The inputs hold what the file and the command line ask for, and nothing else. -/
theorem has_resolve_iff (hresolve : resolve h o = .ok inputs)
    (hbase : baseFile h o.file = .ok base) :
    inputs.file.candidates.Has package symbol ↔ o.Asks base package symbol := by
  obtain ⟨hmerge, -, -⟩ := resolve_eq_ok_iff.1 hresolve
  obtain ⟨base', extra, build, hbase', hextra, -, rfl⟩ := merge_eq_ok_iff.1 hmerge
  obtain rfl : base' = base := Except.ok.inj (hbase'.symm.trans hbase)
  rw [Candidates.has_merge_iff, has_candidates_iff hextra]
  rfl

/-- The strict rule holds if the file or the command line asks for it. -/
theorem strict_resolve (hresolve : resolve h o = .ok inputs)
    (hbase : baseFile h o.file = .ok base) :
    inputs.file.build.strict = (base.file.build.strict || o.strict) := by
  obtain ⟨hmerge, -, -⟩ := resolve_eq_ok_iff.1 hresolve
  obtain ⟨base', extra, build, hbase', -, hbuild, rfl⟩ := merge_eq_ok_iff.1 hmerge
  obtain rfl : base' = base := Except.ok.inj (hbase'.symm.trans hbase)
  obtain ⟨dir, -, rfl⟩ := mergeSettings_eq_ok_iff.1 hbuild
  rfl

theorem exists_baseFile (hresolve : resolve h o = .ok inputs) :
    ∃ base, baseFile h o.file = .ok base := by
  obtain ⟨hmerge, -, -⟩ := resolve_eq_ok_iff.1 hresolve
  obtain ⟨base, -, -, hbase, -⟩ := merge_eq_ok_iff.1 hmerge
  exact ⟨base, hbase⟩

/-! ### Sources -/

theorem sourceBy_eq_ok_iff {run : Executor} {source : Source} :
    inputs.sourceBy run h o = .ok source ↔
      o.fromLog = none ∧ source = (inputs.toolchain h).sourceBy run h ∨
        ∃ log path, o.fromLog = some log ∧ h.absolutize (.ofString log) = .ok path ∧
          source = Log.fileSource h path := by
  simp only [← pathOf_eq_ok_iff]
  rw [Inputs.sourceBy]
  cases o.fromLog with
  | none => simp [eq_comm]
  | some log => cases hpath : pathOf h log <;> simp [Except.map, hpath, @eq_comm _ source]

/-- Only the path of a log is in the way of a source. -/
theorem sourceBy_eq_error_iff {run : Executor} :
    inputs.sourceBy run h o = .error problem ↔
      ∃ log, o.fromLog = some log ∧ ¬ h.Sees (.ofString log) ∧
        problem = .noCurrentDirectory .noSuchFile := by
  simp only [← pathOf_eq_error_iff]
  rw [Inputs.sourceBy]
  cases o.fromLog with
  | none => simp
  | some log => cases hpath : pathOf h log <;> simp [Except.map, hpath]

end InlineAudit.Command
