/-
Each candidate is judged on its own.

All candidates of a set share one list of pending names, one cursor and one order of the report.
Still, what a check says of a candidate is known from the log and its full name, so a set can be
checked in parts:

* `unprovenIssues` — the issues of some names, each known from the log and the name;
* `issues_scan_perm`, `lines_scan` — a scan leaves these, and its lines are theirs in order;
* **`lines_merge`** — the lines of two sets checked together are those of both checked apart.
-/
import InlineAudit.Proofs.Candidates.Merge
import InlineAudit.Proofs.Check.Delivery

namespace InlineAudit

namespace Check

open Log

variable {ns : List String} {source : Source} {strict : Bool} {cs : Candidates} {log : Bytes}
  {status : Build.Status}

/-- The issues of some names: one for each that the log does not prove, with the last reason that
the log gives for it, or the unknown one. -/
def unprovenIssues (ns : List String) (log : Bytes) : List Issue :=
  (unproven ns log).map fun n => ⟨n, (lastReason? (readings log) n).getD unknownReason⟩

theorem mem_unprovenIssues_iff {n why : String} :
    ⟨n, why⟩ ∈ unprovenIssues ns log ↔
      n ∈ ns ∧ ¬ Proven (readings log) n ∧
        why = (lastReason? (readings log) n).getD unknownReason := by
  simp only [unprovenIssues, unproven, List.mem_map, List.mem_filter, decide_eq_true_iff,
    Issue.mk.injEq]
  constructor
  · rintro ⟨m, ⟨hm, hnot⟩, rfl, rfl⟩
    exact ⟨hm, hnot, rfl⟩
  · rintro ⟨hn, hnot, rfl⟩
    exact ⟨n, ⟨hn, hnot⟩, rfl, rfl⟩

theorem unprovenIssues_append (ns ms : List String) (log : Bytes) :
    unprovenIssues (ns ++ ms) log = unprovenIssues ns log ++ unprovenIssues ms log := by
  simp only [unprovenIssues, unproven, List.filter_append, List.map_append]

theorem unprovenIssues_perm {ms : List String} (h : ns.Perm ms) (log : Bytes) :
    (unprovenIssues ns log).Perm (unprovenIssues ms log) :=
  (h.filter _).map _

/-- A scan leaves exactly the issues of its names. -/
theorem issues_scan_perm (h : ns.Nodup) (log : Bytes) :
    ((Pending.unexplained ns).scan log).issues.Perm (unprovenIssues ns log) := by
  have hdistinct : ∀ {is : List Issue}, (is.map Issue.name).Nodup → is.Nodup := fun his =>
    List.Pairwise.of_map Issue.name (fun _ _ hne heq => hne (congrArg _ heq)) his
  have hscan := hdistinct (Pending.nodup_names_issues (nodup_names_scan_unexplained h log))
  have hnames : (unprovenIssues ns log).map Issue.name = unproven ns log := by
    rw [unprovenIssues, List.map_map]
    exact List.map_id _
  have hnodup : (unprovenIssues ns log).Nodup := hdistinct (by rw [hnames]; exact h.filter _)
  refine (List.perm_ext_iff_of_nodup hscan hnodup).2 fun i => ?_
  rw [mem_issues_scan_iff h, mem_unprovenIssues_iff]

/-- The issues of a report are those of the names of the set. -/
theorem issues_reportOn_perm (clock : Clock) {p : Pending} (hv : cs.validate = .ok p)
    (log : Bytes) :
    (reportOn source cs clock (p.scan log) status).issues.Perm (unprovenIssues cs.names log) := by
  obtain ⟨-, hnodup, rfl⟩ := Candidates.validate_eq_ok_iff.1 hv
  exact issues_scan_perm hnodup log

/-- The lines of a report are the lines of these issues in ascending order. -/
theorem lines_reportOn (clock : Clock) {p : Pending} (hv : cs.validate = .ok p) (log : Bytes) :
    (reportOn source cs clock (p.scan log) status).lines =
      Text.ascending ((unprovenIssues cs.names log).map Issue.text) := by
  obtain ⟨-, hnodup, rfl⟩ := Candidates.validate_eq_ok_iff.1 hv
  rw [Report.lines, reportOn, Pending.issues, Issue.map_text_sorted]
  refine Text.ascending_of_perm ?_
  exact ((Issue.perm_sorted _).symm.trans (issues_scan_perm hnodup log)).map _

/-- **Each candidate is judged on its own.**  Where two sets merged are valid, both are, and from
sources that bring the same log to its end there are three reports: the lines of the merged set are
those of the first set followed by those of the second, in ascending order, and its issues are the
issues of both, each with its reason. -/
theorem lines_merge {a b : Candidates} (hv : ∃ p, (a.merge b).validate = .ok p) :
    (∃ p, a.validate = .ok p) ∧ (∃ p, b.validate = .ok p) ∧
      ∀ (source : Source) (log : Bytes), (∀ packages, source.Delivers packages log .replayed) →
        ∀ strict clock clock' clock'', ∃ first second both,
          run source strict a clock = .ok first ∧ run source strict b clock' = .ok second ∧
            run source strict (a.merge b) clock'' = .ok both ∧
            both.lines = Text.ascending (first.lines ++ second.lines) ∧
            both.issues.Perm (first.issues ++ second.issues) := by
  obtain ⟨⟨p, ha⟩, q, hb⟩ := Candidates.validate_merge hv
  obtain ⟨r, hab⟩ := hv
  refine ⟨⟨p, ha⟩, ⟨q, hb⟩, fun source log hd strict clock clock' clock'' => ?_⟩
  have hreplayed : strict = true →
      Build.Status.replayed = .succeeded ∨ Build.Status.replayed = .replayed :=
    fun _ => .inr rfl
  have hissues : (unprovenIssues (a.merge b).names log).Perm
      (unprovenIssues a.names log ++ unprovenIssues b.names log) := by
    rw [← unprovenIssues_append]
    exact unprovenIssues_perm (Candidates.names_merge_perm a b) log
  -- all three reports are those of a successful run, and differ in the names only
  refine ⟨_, _, _, run_of_delivers clock ha (hd _) hreplayed,
    run_of_delivers clock' hb (hd _) hreplayed, run_of_delivers clock'' hab (hd _) hreplayed,
    ?_, ?_⟩
  · rw [lines_reportOn _ hab, lines_reportOn _ ha, lines_reportOn _ hb]
    refine Text.ascending_of_perm ((hissues.map Issue.text).trans ?_)
    rw [List.map_append]
    exact ((Text.ascending_perm _).append (Text.ascending_perm _)).symm
  · refine (issues_reportOn_perm _ hab log).trans (hissues.trans ?_)
    exact ((issues_reportOn_perm _ ha log).append (issues_reportOn_perm _ hb log)).symm

/-- One symbol of each package of `mixed`. -/
def mixedLeft : Candidates := ⟨[("a", ["F"]), ("b", ["G"])], by decide⟩

/-- The symbol of `mixed` that is left, in a package that the first part has too. -/
def mixedRight : Candidates := ⟨[("a", ["G"])], by decide⟩

theorem merge_mixedLeft : mixedLeft.merge mixedRight = mixed := by decide +kernel

/-- The report on `mixed`, put together from its parts: the line of the second part comes first. -/
theorem lines_of_mixed_parts :
    ∃ first second both, run (textSource mixedLog) false mixedLeft default = .ok first ∧
      run (textSource mixedLog) false mixedRight default = .ok second ∧
      run (textSource mixedLog) false (mixedLeft.merge mixedRight) default = .ok both ∧
      first.lines = ["b.G: first"] ∧ second.lines = ["a.G: huge"] ∧
      both.lines = ["a.G: huge", "b.G: first"] := by
  have hv : ∃ p, (mixedLeft.merge mixedRight).validate = .ok p := by
    rw [merge_mixedLeft]
    exact ⟨_, rfl⟩
  obtain ⟨-, -, hreports⟩ := lines_merge hv
  obtain ⟨first, second, both, hfirst, hsecond, hboth, hlines, -⟩ :=
    hreports (textSource mixedLog) mixedLog (fun ps => delivers_textSource ps mixedLog) false
      default default default
  have hleft : (run (textSource mixedLog) false mixedLeft default).toOption.map Report.lines =
      some ["b.G: first"] := by decide +kernel
  have hright : (run (textSource mixedLog) false mixedRight default).toOption.map Report.lines =
      some ["a.G: huge"] := by decide +kernel
  rw [hfirst] at hleft
  rw [hsecond] at hright
  have hleft : first.lines = ["b.G: first"] := Option.some.inj hleft
  have hright : second.lines = ["a.G: huge"] := Option.some.inj hright
  refine ⟨first, second, both, hfirst, hsecond, hboth, hleft, hright, ?_⟩
  rw [hlines, hleft, hright]
  have hswap : (["b.G: first"] ++ ["a.G: huge"]).Perm ["a.G: huge", "b.G: first"] := .swap _ _ _
  rw [Text.ascending_of_perm hswap]
  exact List.mergeSort_of_pairwise (by decide +kernel)

end Check

end InlineAudit
