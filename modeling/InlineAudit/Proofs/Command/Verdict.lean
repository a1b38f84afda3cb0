/-
The verdict of the command line.

A candidate passes many stages on its way: the file or an argument, the merge of both, two
validations, the scan, the judgement on the build, and the print.  A check that ends well has lost
none of them:

* `reportFrom_eq_ok_iff` — when there is a report, and on what;
* `problem_eq_none_iff` — the check ends well if the report is clean, and then the log proves every
  candidate;
* `verdict_of_perm`, `reportText_of_issues` — otherwise every candidate without a proof is counted,
  and printed;
* **`check_succeeds_iff`** — all of this, for any source of output.

Design notes: the statements are about any source that the inputs may be checked against, so that
a build may do anything that a source can do; the source that the options ask for is one of them,
and is known once the path of a log is.
-/
import InlineAudit.Command.Program
import InlineAudit.Proofs.Check.Credit
import InlineAudit.Proofs.Command.Inputs
import InlineAudit.Proofs.Report.RoundTrip
import Mathlib.Data.List.Permutation

namespace InlineAudit.Command

open Log

variable {sourceOf : Inputs → Except Problem Source} {h : Host} {o : CheckOptions}
  {clock : Check.Clock} {report : Report}

/-- A log that a source brings to its end for the inputs, under a strict rule that lets the end of
the build pass. -/
structure Reads (source : Source) (inputs : Inputs) (log : Bytes) (status : Build.Status) :
    Prop where
  delivers : source.Delivers inputs.file.candidates.packages log status
  passes : inputs.file.build.strict = true → status = .succeeded ∨ status = .replayed

theorem validate_of_resolve {inputs : Inputs} (hresolve : resolve h o = .ok inputs) :
    inputs.file.candidates.validate =
      .ok (Pending.unexplained inputs.file.candidates.names) := by
  obtain ⟨-, ⟨p, hv⟩, -⟩ := resolve_eq_ok_iff.1 hresolve
  obtain ⟨-, -, rfl⟩ := Candidates.validate_eq_ok_iff.1 hv
  exact hv

theorem nodup_names_of_resolve {inputs : Inputs} (hresolve : resolve h o = .ok inputs) :
    inputs.file.candidates.names.Nodup :=
  (Candidates.validate_eq_ok_iff.1 (validate_of_resolve hresolve)).2.1

/-! ### Reports -/

/-- The check of inputs against their source is that of their candidates, under their strict rule. -/
theorem reportFrom_of_resolve {inputs : Inputs} {source : Source}
    (hresolve : resolve h o = .ok inputs) (hsource : sourceOf inputs = .ok source) :
    reportFrom sourceOf h o clock =
      (Check.run source inputs.file.build.strict inputs.file.candidates clock).mapError
        .checkFailed := by
  rw [reportFrom, hresolve]
  simp only [bind, Except.bind, hsource]

/-- **There is a report exactly when there are inputs and their source is read to its end.** -/
theorem reportFrom_eq_ok_iff :
    reportFrom sourceOf h o clock = .ok report ↔
      ∃ inputs source log status, resolve h o = .ok inputs ∧ sourceOf inputs = .ok source ∧
        Reads source inputs log status ∧
        report = Check.reportOn source inputs.file.candidates clock
          ((Pending.unexplained inputs.file.candidates.names).scan log) status := by
  cases hresolve : resolve h o with
  | error problem => simp [reportFrom, hresolve, bind, Except.bind]
  | ok inputs =>
    cases hsource : sourceOf inputs with
    | error problem => simp [reportFrom, hresolve, hsource, bind, Except.bind]
    | ok source =>
      rw [reportFrom_of_resolve hresolve hsource]
      simp only [Except.ok.injEq, exists_and_left, exists_eq_left', hsource]
      constructor
      · intro hreport
        cases hrun : Check.run source inputs.file.build.strict inputs.file.candidates clock with
        | error failure =>
          rw [hrun] at hreport
          cases hreport
        | ok r =>
          rw [hrun] at hreport
          obtain rfl := Except.ok.inj hreport
          obtain ⟨p, log, status, hv, hd, hs, hr⟩ := Check.run_eq_ok_iff.1 hrun
          obtain rfl := Except.ok.inj ((validate_of_resolve hresolve).symm.trans hv)
          exact ⟨log, status, ⟨hd, hs⟩, hr⟩
      · rintro ⟨log, status, hreads, rfl⟩
        rw [Check.run_of_delivers clock (validate_of_resolve hresolve) hreads.delivers
          hreads.passes]
        rfl

/-! ### Verdicts -/

theorem problem_checkFrom_eq_none_iff :
    (checkFrom sourceOf h o clock).problem = none ↔
      ∃ report, reportFrom sourceOf h o clock = .ok report ∧ report.isClean = true := by
  rw [checkFrom]
  cases reportFrom sourceOf h o clock with
  | error problem => simp
  | ok report =>
    dsimp only
    rw [verdict]
    by_cases hclean : report.isClean = true <;> simp [hclean]

theorem checkFrom_of_report (hreport : reportFrom sourceOf h o clock = .ok report) :
    checkFrom sourceOf h o clock =
      { stdout := reportText o.json report
        stderr := buildWarning report.build
        tree := treeAfterCheck h o
        problem := verdict report } := by
  rw [checkFrom, hreport]

theorem isClean_iff_length_issues : report.isClean = true ↔ report.issues.length = 0 := by
  rw [Report.isClean, List.isEmpty_iff, List.length_eq_zero_iff]

/-- The report names what the log does not prove, and the verdict counts it. -/
theorem verdict_of_perm {ns : List String} (hnames : (report.issues.map Issue.name).Perm ns) :
    verdict report = if ns = [] then none else some (.unproven ns.length) := by
  have hlen : report.issues.length = ns.length := by rw [← hnames.length_eq, List.length_map]
  rw [verdict, hlen]
  simp only [isClean_iff_length_issues, hlen, List.length_eq_zero_iff]

/-- As text a report that is not clean is a line for each of its issues. -/
theorem reportText_of_issues {names : List String} {reason : String → String}
    (hissues : report.issues = names.map fun n => ⟨n, reason n⟩) (hne : names ≠ []) :
    reportText false report =
      String.join (names.map fun n => n ++ ": " ++ reason n ++ "\n") := by
  have hdirty : ¬ report.isClean = true := by
    rwa [isClean_iff_length_issues, hissues, List.length_map, List.length_eq_zero_iff]
  rw [reportText, if_neg (by decide), if_neg hdirty, Report.lines, hissues, List.map_map,
    List.map_map]
  rfl

/-- Issues whose reasons are known from their names are known from their names. -/
theorem issues_of_reason {is : List Issue} (reason : String → String)
    (hreason : ∀ i ∈ is, i.reason = reason i.name) :
    is = (is.map Issue.name).map fun n => ⟨n, reason n⟩ := by
  rw [List.map_map]
  refine (List.map_id _).symm.trans (List.map_congr_left fun i hi => ?_)
  rw [Function.comp_apply, ← hreason i hi]
  rfl

theorem reads_iff {inputs base : Inputs} {source : Source} {log : Bytes} {status : Build.Status}
    (hresolve : resolve h o = .ok inputs) (hbase : baseFile h o.file = .ok base) :
    Reads source inputs log status ↔
      source.Delivers inputs.file.candidates.packages log status ∧
        (status.isSuccess = true ∨ base.file.build.strict = false ∧ o.strict = false) := by
  have hpasses : (inputs.file.build.strict = true → status = .succeeded ∨ status = .replayed) ↔
      (status.isSuccess = true ∨ base.file.build.strict = false ∧ o.strict = false) := by
    rw [strict_resolve hresolve hbase, ← Check.isSuccess_iff, ← Bool.or_eq_false_iff,
      imp_iff_or_not, Bool.not_eq_true]
  rw [← hpasses]
  exact ⟨fun h => ⟨h.delivers, h.passes⟩, fun h => ⟨h.1, h.2⟩⟩

/-- The log proves all names of the inputs exactly when it proves what the file and the command line
ask for. -/
theorem unproven_eq_nil_iff {inputs base : Inputs} {log : Bytes}
    (hresolve : resolve h o = .ok inputs) (hbase : baseFile h o.file = .ok base) :
    Check.unproven inputs.file.candidates.names log = [] ↔
      ∀ package symbol, o.Asks base package symbol →
        Proven (readings log) (fullName package symbol) := by
  rw [Check.unproven, List.filter_eq_nil_iff]
  simp only [decide_eq_true_iff, not_not]
  constructor
  · intro hall package symbol hasks
    rw [← has_resolve_iff hresolve hbase] at hasks
    exact hall _ (Candidates.mem_names_iff.2 ⟨package, symbol, hasks, rfl⟩)
  · intro hall n hn
    obtain ⟨package, symbol, hhas, rfl⟩ := Candidates.mem_names_iff.1 hn
    exact hall package symbol ((has_resolve_iff hresolve hbase).1 hhas)

/-- A check ends well exactly when its log proves every candidate. -/
theorem problem_eq_none_iff :
    (checkFrom sourceOf h o clock).problem = none ↔
      ∃ base inputs source log status, baseFile h o.file = .ok base ∧ resolve h o = .ok inputs ∧
        sourceOf inputs = .ok source ∧
        source.Delivers inputs.file.candidates.packages log status ∧
        (status.isSuccess = true ∨ base.file.build.strict = false ∧ o.strict = false) ∧
        ∀ package symbol, o.Asks base package symbol →
          Proven (readings log) (fullName package symbol) := by
  have hclean {inputs source log status} (hresolve : resolve h o = .ok inputs) :
      (Check.reportOn source inputs.file.candidates clock
        ((Pending.unexplained inputs.file.candidates.names).scan log) status).isClean = true ↔
          Check.unproven inputs.file.candidates.names log = [] := by
    have hlen := (Check.perm_unproven (nodup_names_of_resolve hresolve) log).length_eq
    rw [List.length_map] at hlen
    rw [isClean_iff_length_issues, ← List.length_eq_zero_iff, ← hlen]
    rfl
  rw [problem_checkFrom_eq_none_iff]
  constructor
  · rintro ⟨report, hreport, hc⟩
    obtain ⟨inputs, source, log, status, hresolve, hsource, hreads, rfl⟩ :=
      reportFrom_eq_ok_iff.1 hreport
    obtain ⟨base, hbase⟩ := exists_baseFile hresolve
    rw [hclean hresolve, unproven_eq_nil_iff hresolve hbase] at hc
    obtain ⟨hd, hs⟩ := (reads_iff hresolve hbase).1 hreads
    exact ⟨base, inputs, source, log, status, hbase, hresolve, hsource, hd, hs, hc⟩
  · rintro ⟨base, inputs, source, log, status, hbase, hresolve, hsource, hd, hs, hc⟩
    have hreads := (reads_iff hresolve hbase).2 ⟨hd, hs⟩
    rw [← unproven_eq_nil_iff hresolve hbase] at hc
    exact ⟨_, reportFrom_eq_ok_iff.2
      ⟨inputs, source, log, status, hresolve, hsource, hreads, rfl⟩, (hclean hresolve).2 hc⟩

/-- **No check ends well without a proof of every candidate.**  Against any source of output, a
check ends well if and only if its inputs can be resolved, the source brings a log to its end, the
build succeeded or neither the file nor the command line asks for that, and some line of the log
proves each candidate of either.  A check that comes to a report prints, as text, one line for each
candidate without a proof, in order, and fails with their number; in JSON it prints the same report
and comes to the same verdict.  The check that a command line asks for is one of these, and the
program prints what the check does and exits with zero exactly if it ends well. -/
theorem check_succeeds_iff (sourceOf : Inputs → Except Problem Source) (h : Host)
    (o : CheckOptions) (clock : Check.Clock) :
    ((checkFrom sourceOf h o clock).problem = none ↔
      ∃ base inputs source log status, baseFile h o.file = .ok base ∧ resolve h o = .ok inputs ∧
        sourceOf inputs = .ok source ∧
        source.Delivers inputs.file.candidates.packages log status ∧
        (status.isSuccess = true ∨ base.file.build.strict = false ∧ o.strict = false) ∧
        ∀ package symbol, o.Asks base package symbol →
          Proven (readings log) (fullName package symbol)) ∧
    (∀ report, reportFrom sourceOf h o clock = .ok report → ∃ inputs source log names,
      resolve h o = .ok inputs ∧ sourceOf inputs = .ok source ∧
      source.Delivers inputs.file.candidates.packages log report.build ∧
      names.Perm (Check.unproven inputs.file.candidates.names log) ∧
      let reason := fun n => (lastReason? (readings log) n).getD "unknown reason"
      (names.map fun n => Utf8.encode (n ++ ": " ++ reason n)).Pairwise (· ≤ ·) ∧
      report.issues = (names.map fun n => ⟨n, reason n⟩) ∧
      (o.json = false → names ≠ [] → (checkFrom sourceOf h o clock).stdout =
        String.join (names.map fun n => n ++ ": " ++ reason n ++ "\n")) ∧
      (o.json = true → Report.ofText? (checkFrom sourceOf h o clock).stdout = some report) ∧
      ((checkFrom sourceOf h o clock).problem =
        if names = [] then none else some (.unproven names.length)) ∧
      (Problem.unproven names.length).text =
        toString names.length ++ " symbol(s) not proven inlineable") ∧
    (∀ json, reportFrom sourceOf h { o with json } clock = reportFrom sourceOf h o clock ∧
      (checkFrom sourceOf h { o with json } clock).problem =
        (checkFrom sourceOf h o clock).problem) ∧
    check h o clock = checkFrom (fun inputs => inputs.source h o) h o clock ∧
    ∀ args verbosity time, Invocation.ofArguments args = .run verbosity (.check o) →
      (perform h args clock time).stdout = (check h o clock).stdout ∧
        ((perform h args clock time).code = 0 ↔ (check h o clock).problem = none) := by
  refine ⟨problem_eq_none_iff, fun report hreport => ?_, fun json => ⟨rfl, ?_⟩, rfl,
    fun args verbosity time hargs => ?_⟩
  · obtain ⟨inputs, source, log, status, hresolve, hsource, hreads, rfl⟩ :=
      reportFrom_eq_ok_iff.1 hreport
    have hnodup := nodup_names_of_resolve hresolve
    have hperm := Check.perm_unproven hnodup log
    have hcheck := checkFrom_of_report hreport
    have hissues := issues_of_reason (fun n => (lastReason? (readings log) n).getD unknownReason)
      fun i hi => ((Check.mem_issues_scan_iff hnodup log).1 hi).2.2
    have hsorted := Issue.pairwise_bytes_sorted <|
      ((Pending.unexplained inputs.file.candidates.names).scan log).entries.map fun e => ⟨e.1, e.2⟩
    refine ⟨inputs, source, log, _, hresolve, hsource, hreads.delivers, hperm, ?_, hissues,
      fun hjson hne => ?_, fun hjson => ?_, ?_, rfl⟩
    · rw [← Pending.issues, hissues, List.map_map] at hsorted
      exact hsorted
    · rw [hcheck, hjson]
      exact reportText_of_issues hissues hne
    · rw [hcheck, hjson]
      exact Report.ofText?_reportText _
    · rw [hcheck]
      exact verdict_of_perm (.refl _)
  · have hsame : reportFrom sourceOf h { o with json } clock = reportFrom sourceOf h o clock := rfl
    rw [checkFrom, checkFrom, hsame]
    cases reportFrom sourceOf h o clock <;> rfl
  · rw [perform, hargs]
    dsimp only [Invoked.outcome]
    cases (check h o clock).problem <;> simp

/-- No files and no environment. -/
def bareHost : Host := { tree := ⟨[]⟩, cwd := [], env := [] }

/-- The three candidates of `Check.mixedLog`, by the command line. -/
def threeSymbols : CheckOptions := { symbols := ["a.F", "a.G", "b.G"], strict := true }

theorem stands_bareHost : bareHost.Stands := ⟨.root, rfl⟩

theorem baseFile_bareHost : baseFile bareHost none = .ok ⟨{}, ⟨[slash]⟩⟩ :=
  baseFile_none_eq_ok_iff.2 ⟨stands_bareHost, rfl⟩

/-- Without a file the arguments alone are what is checked. -/
theorem merge_bareHost {symbols : List String} (hnamed : AllNamed symbols) :
    merge bareHost { threeSymbols with symbols } =
      .ok ⟨⟨{ strict := true }, Candidates.empty.merge (.ofList (argued symbols))⟩, ⟨[slash]⟩⟩ :=
  merge_eq_ok_iff.2
    ⟨_, _, _, baseFile_bareHost, candidates_of_allNamed hnamed, rfl, rfl⟩

theorem resolve_threeSymbols :
    ∃ inputs, resolve bareHost threeSymbols = .ok inputs ∧
      inputs.file.candidates.names = ["a.F", "a.G", "b.G"] := by
  have hnamed : ∀ argument ∈ threeSymbols.symbols, candidate? argument ≠ none := by decide
  exact ⟨_, resolve_eq_ok_iff.2 ⟨merge_bareHost hnamed, ⟨_, rfl⟩, rfl⟩, rfl⟩

theorem unproven_threeSymbols :
    Check.unproven ["a.F", "a.G", "b.G"] Check.mixedLog = ["a.G", "b.G"] := by
  rw [Check.unproven, Check.readings_mixedLog]
  decide

/-- Of these three one is proven, so that the check of all fails with two, and is printed with two
lines, while the check of the one ends well; a build that fails makes the strict check fail. -/
theorem check_threeSymbols :
    let replayed := fun _ : Inputs => Except.ok (textSource Check.mixedLog)
    ((∃ report, reportFrom replayed bareHost threeSymbols default = .ok report) ∧
      (checkFrom replayed bareHost threeSymbols default).stdout = "a.G: huge\nb.G: first\n" ∧
      (checkFrom replayed bareHost threeSymbols default).problem = some (.unproven 2)) ∧
    (checkFrom replayed bareHost { threeSymbols with symbols := ["a.F"] } default).problem =
      none ∧
    (checkFrom (fun _ => .ok Check.mixedSource) bareHost { threeSymbols with symbols := ["a.F"] }
      default).problem ≠ none := by
  intro replayed
  have hdelivers (packages : List String) := Check.delivers_textSource packages Check.mixedLog
  refine ⟨?_, ?_, ?_⟩
  · obtain ⟨inputs, hresolve, hnames⟩ := resolve_threeSymbols
    obtain ⟨report, hreport⟩ : ∃ report,
        reportFrom replayed bareHost threeSymbols default = .ok report :=
      ⟨_, reportFrom_eq_ok_iff.2
        ⟨inputs, _, _, _, hresolve, rfl, ⟨hdelivers _, fun _ => .inr rfl⟩, rfl⟩⟩
    obtain ⟨-, hprinted, -⟩ := check_succeeds_iff replayed bareHost threeSymbols default
    obtain ⟨inputs', source, log, names, hresolve', hsource, hd, hperm, hsorted, -, hout, -,
      hproblem, -⟩ := hprinted _ hreport
    obtain rfl := Except.ok.inj (hresolve.symm.trans hresolve')
    obtain rfl := Except.ok.inj hsource
    obtain ⟨rfl, -⟩ := (hdelivers _).unique hd
    rw [hnames, unproven_threeSymbols] at hperm
    rw [Check.readings_mixedLog] at hsorted hout
    -- of the two orders of the names one is ascending
    rcases List.perm_pair.1 hperm with rfl | rfl
    · exact ⟨⟨report, hreport⟩, hout rfl (by decide), hproblem⟩
    · exact absurd hsorted (by decide)
  · have hnamed : ∀ argument ∈ ["a.F"], candidate? argument ≠ none := by decide
    refine (check_succeeds_iff replayed bareHost _ default).1.2
      ⟨_, _, _, _, _, baseFile_bareHost, resolve_eq_ok_iff.2 ⟨merge_bareHost hnamed, ⟨_, rfl⟩, rfl⟩,
        rfl, hdelivers _, .inl rfl, ?_⟩
    rintro package symbol (hfile | ⟨argument, harg, hcandidate⟩)
    · exact absurd hfile (Candidates.not_has_empty _ _)
    · obtain rfl := List.mem_singleton.1 harg
      have hone : candidate? "a.F" = some ("a", "F") := rfl
      rw [hone, Option.some.injEq, Prod.mk.injEq] at hcandidate
      obtain ⟨rfl, rfl⟩ := hcandidate
      rw [Check.readings_mixedLog]
      decide
  · intro hnone
    obtain ⟨base, inputs, source, log, status, -, -, hsource, hd, hs, -⟩ :=
      (check_succeeds_iff _ bareHost _ default).1.1 hnone
    obtain rfl := Except.ok.inj hsource
    obtain ⟨-, rfl⟩ := (Check.delivers_mixedSource _).unique hd
    rcases hs with hs | ⟨-, hs⟩ <;> exact absurd hs (by decide)

end InlineAudit.Command
