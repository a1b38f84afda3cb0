/-
Checks against logs that are put together.

Logs that were captured apart can be replayed as one.  Where the first of two ends with a line and
the second starts with a header, a check of the two together is known from the checks against each
of them:

* `Pending.scan_twice` — to scan a log twice is to scan it once;
* `Check.ReportsOn` — the reports that a log can lead to;
* **`issues_join`** — two logs leave the names that both of them leave, each with its reason for the
  second log, if that refuses it, and for the first one otherwise; and a log replayed twice leaves
  what it leaves when it is replayed once.
-/
import InlineAudit.Proofs.Check.Credit
import InlineAudit.Proofs.Log.Joining
import InlineAudit.Proofs.Pending.Agreement
import InlineAudit.Proofs.Pending.Enumeration

namespace InlineAudit

open Log

namespace Pending

/-- The second time a log says nothing new. -/
theorem scan_twice {p : Pending} (hp : p.names.Nodup) {log : Bytes} (hwhole : Whole log)
    (hheader : HeaderFirst (diagnostics log)) : p.scan (log ++ log) = p.scan log := by
  have hproven (n : String) : Proven (readingsFrom p.package (diagnostics (log ++ log))) n ↔
      Proven (readingsFrom p.package (diagnostics log)) n := by
    rw [proven_readingsFrom_join hwhole hheader p.package, or_self]
  have hreason (n : String) : lastReason? (readingsFrom p.package (diagnostics (log ++ log))) n =
      lastReason? (readingsFrom p.package (diagnostics log)) n := by
    rw [lastReason?_readingsFrom_join hwhole hheader p.package, Option.or_self]
  have hagree : (p.scan (log ++ log)).Agrees (p.scan log) := by
    refine ⟨?_, fun n => ?_⟩
    · rw [scan_eq_foldl_apply, scan_eq_foldl_apply, package_foldl_apply, package_foldl_apply,
        diagnostics_join hwhole, cursor_append, cursor_cursor]
    · rw [scan_eq_foldl_apply, scan_eq_foldl_apply, reason?_foldl_apply, reason?_foldl_apply]
      simp only [hproven, hreason]
  refine hagree.eq ?_ ?_
  · rw [scan_eq_foldl_apply, scan_eq_foldl_apply, names_foldl_apply, names_foldl_apply]
    simp only [hproven]
  · rw [scan_eq_foldl_apply]
    exact nodup_names_foldl_apply hp _

end Pending

namespace Check

variable {cs : Candidates} {log first second : Bytes} {report : Report}

/-- A check of the set, against a source that brings this log to its end, comes to this report. -/
def ReportsOn (cs : Candidates) (log : Bytes) (report : Report) : Prop :=
  ∃ source status strict clock, source.Delivers cs.packages log status ∧
    run source strict cs clock = .ok report

theorem ReportsOn.issues_eq (h : ReportsOn cs log report) {p : Pending}
    (hv : cs.validate = .ok p) : report.issues = (p.scan log).issues := by
  obtain ⟨source, status, strict, clock, hd, hrun⟩ := h
  obtain ⟨p', log', status', hv', hd', -, rfl⟩ := run_eq_ok_iff.1 hrun
  obtain rfl := Except.ok.inj (hv.symm.trans hv')
  obtain ⟨rfl, -⟩ := hd.unique hd'
  rfl

/-- Every log leads to a report, if the set is valid. -/
theorem exists_reportsOn {p : Pending} (hv : cs.validate = .ok p) (log : Bytes) :
    ∃ report, ReportsOn cs log report :=
  ⟨_, textSource log, .replayed, false, default, delivers_textSource cs.packages log,
    run_of_delivers default hv (delivers_textSource cs.packages log) (by simp)⟩

theorem ReportsOn.names_nodup (h : ReportsOn cs log report) {p : Pending}
    (hv : cs.validate = .ok p) : (report.issues.map Issue.name).Nodup := by
  obtain ⟨-, hnodup, rfl⟩ := Candidates.validate_eq_ok_iff.1 hv
  rw [h.issues_eq hv]
  exact Pending.nodup_names_issues (nodup_names_scan_unexplained hnodup log)

theorem ReportsOn.mem_issues_iff (h : ReportsOn cs log report) {p : Pending}
    (hv : cs.validate = .ok p) {n why : String} :
    ⟨n, why⟩ ∈ report.issues ↔
      n ∈ cs.names ∧ ¬ Proven (readings log) n ∧
        why = (lastReason? (readings log) n).getD unknownReason := by
  obtain ⟨-, hnodup, rfl⟩ := Candidates.validate_eq_ok_iff.1 hv
  rw [h.issues_eq hv, mem_issues_scan_iff hnodup]

theorem ReportsOn.mem_names_iff (h : ReportsOn cs log report) {p : Pending}
    (hv : cs.validate = .ok p) {n : String} :
    n ∈ report.issues.map Issue.name ↔ n ∈ cs.names ∧ ¬ Proven (readings log) n := by
  rw [List.mem_map]
  constructor
  · rintro ⟨⟨m, why⟩, hi, rfl⟩
    obtain ⟨hn, hnot, -⟩ := (h.mem_issues_iff hv).1 hi
    exact ⟨hn, hnot⟩
  · rintro ⟨hn, hnot⟩
    exact ⟨_, (h.mem_issues_iff hv).2 ⟨hn, hnot, rfl⟩, rfl⟩

/-- **Logs can be put together.**  Every log leads to a report.  Where the first of two logs ends
with a line, and the second starts with a header before it says anything else, a check of both
together reports the names that it reports for each of them, once each: with the reason for the second
log, if a line of that refuses the name, and with the reason for the first log otherwise.  In
particular a log of this kind can be replayed twice: the issues are the same, and the lines are so in
whatever order a map gives its entries. -/
theorem issues_join (hv : ∃ p, cs.validate = .ok p) :
    (∀ log, ∃ report, ReportsOn cs log report) ∧
    (∀ first second one two both, Whole first → HeaderFirst (diagnostics second) →
      ReportsOn cs first one → ReportsOn cs second two → ReportsOn cs (first ++ second) both →
        (both.issues.map Issue.name).Nodup ∧
        (∀ n, n ∈ both.issues.map Issue.name ↔
          n ∈ one.issues.map Issue.name ∧ n ∈ two.issues.map Issue.name) ∧
        ∀ n why, ⟨n, why⟩ ∈ both.issues →
          Refused (readings second) n ∧ ⟨n, why⟩ ∈ two.issues ∨
            ¬ Refused (readings second) n ∧ ⟨n, why⟩ ∈ one.issues) ∧
    ∀ log, Whole log → HeaderFirst (diagnostics log) →
      (∀ once twice, ReportsOn cs log once → ReportsOn cs (log ++ log) twice →
        twice.issues = once.issues) ∧
      ∀ p q r, cs.validate = .ok p → (p.scan (log ++ log)).Reordered q →
        (p.scan log).Reordered r →
          q.issues.Perm r.issues ∧ q.issues.map Issue.text = r.issues.map Issue.text := by
  obtain ⟨p, hv⟩ := hv
  have htwice : ∀ log, Whole log → HeaderFirst (diagnostics log) →
      p.scan (log ++ log) = p.scan log := by
    obtain ⟨-, hnodup, rfl⟩ := Candidates.validate_eq_ok_iff.1 hv
    exact fun log => Pending.scan_twice (by rwa [Pending.names_unexplained])
  refine ⟨exists_reportsOn hv, ?_, fun log hwhole hheader => ⟨?_, ?_⟩⟩
  · intro first second one two both hwhole hheader hone htwo hboth
    refine ⟨hboth.names_nodup hv, fun n => ?_, fun n why hwhy => ?_⟩
    · rw [hboth.mem_names_iff hv, hone.mem_names_iff hv, htwo.mem_names_iff hv,
        proven_join hwhole hheader, not_or, and_and_left]
    · obtain ⟨hn, hnot, rfl⟩ := (hboth.mem_issues_iff hv).1 hwhy
      rw [proven_join hwhole hheader, not_or] at hnot
      rw [hone.mem_issues_iff hv, htwo.mem_issues_iff hv, lastReason?_join hwhole hheader]
      -- the second log gives a reason, or the first one is heard
      cases hlast : lastReason? (readings second) n with
      | none =>
        rw [Option.none_or]
        exact .inr ⟨lastReason?_eq_none_iff_not_refused.1 hlast, hn, hnot.1, rfl⟩
      | some last =>
        refine .inl ⟨?_, hn, hnot.2, rfl⟩
        by_contra hquiet
        rw [lastReason?_eq_none_iff_not_refused.2 hquiet] at hlast
        cases hlast
  · intro once twice honce htwo
    rw [htwo.issues_eq hv, honce.issues_eq hv, htwice log hwhole hheader]
  · intro p' q r hv' hq hr
    obtain rfl := Except.ok.inj (hv.symm.trans hv')
    rw [htwice log hwhole hheader] at hq
    exact ⟨hq.issues_perm.symm.trans hr.issues_perm,
      (Pending.map_text_issues_of_reordered hq).symm.trans
        (Pending.map_text_issues_of_reordered hr)⟩

/-- A log that proves one symbol of `mixed` and refuses another. -/
def earlierLog : Bytes :=
  Utf8.encode "# a\nf: can inline F with cost 4\nf: cannot inline G: big\n"

/-- A log with a line that says nothing, a header, and the third symbol refused twice. -/
def laterLog : Bytes :=
  Utf8.encode "go: done\n# b\nf: cannot inline G: first\nf: cannot inline G: last"

theorem readings_earlierLog :
    readings earlierLog = [⟨"", .header "a"⟩, ⟨"a", .canInline "F"⟩,
      ⟨"a", .cannotInline "G" "big"⟩] := by
  decide

theorem readings_laterLog :
    readings laterLog = [⟨"", .other⟩, ⟨"", .header "b"⟩, ⟨"b", .cannotInline "G" "first"⟩,
      ⟨"b", .cannotInline "G" "last"⟩] := by
  decide

/-- Of the two reasons that are left one is from the first log and one is from the second; and the
first log can be replayed. -/
theorem issues_join_of_mixed :
    (∃ both, ReportsOn mixed (earlierLog ++ laterLog) both ∧ ⟨"a.G", "big"⟩ ∈ both.issues ∧
      ⟨"b.G", "last"⟩ ∈ both.issues ∧ "a.F" ∉ both.issues.map Issue.name) ∧
    ∃ once twice, ReportsOn mixed earlierLog once ∧
      ReportsOn mixed (earlierLog ++ earlierLog) twice ∧ twice.issues = once.issues ∧
      ⟨"a.G", "big"⟩ ∈ twice.issues := by
  have hv : mixed.validate = .ok (.unexplained mixed.names) := rfl
  obtain ⟨hreports, hjoin, hreplay⟩ := issues_join ⟨_, hv⟩
  have hwhole : Whole earlierLog := .inr (by decide)
  obtain ⟨one, hone⟩ := hreports earlierLog
  constructor
  · have hfind : (diagnostics laterLog).find? (· ≠ .other) = some (.header "b") := by
      decide
    have hheader : HeaderFirst (diagnostics laterLog) :=
      fun d hd => ⟨"b", Option.some.inj (hd.symm.trans hfind)⟩
    obtain ⟨two, htwo⟩ := hreports laterLog
    obtain ⟨both, hboth⟩ := hreports (earlierLog ++ laterLog)
    obtain ⟨-, hnames, hreasons⟩ := hjoin _ _ one two both hwhole hheader hone htwo hboth
    simp only [hone.mem_names_iff hv, htwo.mem_names_iff hv, readings_earlierLog,
      readings_laterLog] at hnames
    simp only [hone.mem_issues_iff hv, htwo.mem_issues_iff hv, readings_earlierLog,
      readings_laterLog] at hreasons
    refine ⟨both, hboth, ?_, ?_, fun hn => ?_⟩
    · obtain ⟨⟨_, why⟩, hi, rfl⟩ := List.mem_map.1 ((hnames "a.G").2 (by decide))
      rcases hreasons _ why hi with ⟨hrefused, -⟩ | ⟨-, -, -, rfl⟩
      · exact absurd hrefused (by decide)
      · exact hi
    · obtain ⟨⟨_, why⟩, hi, rfl⟩ := List.mem_map.1 ((hnames "b.G").2 (by decide))
      rcases hreasons _ why hi with ⟨-, -, -, rfl⟩ | ⟨hquiet, -⟩
      · exact hi
      · exact absurd hquiet (by decide)
    · exact absurd ((hnames "a.F").1 hn) (by decide)
  · have hfind : (diagnostics earlierLog).find? (· ≠ .other) = some (.header "a") := by
      decide
    have hheader : HeaderFirst (diagnostics earlierLog) :=
      fun d hd => ⟨"a", Option.some.inj (hd.symm.trans hfind)⟩
    obtain ⟨two, htwo⟩ := hreports (earlierLog ++ earlierLog)
    have hsame := (hreplay earlierLog hwhole hheader).1 one two hone htwo
    refine ⟨one, two, hone, htwo, hsame, ?_⟩
    rw [hsame, hone.mem_issues_iff hv, readings_earlierLog]
    decide

end Check

end InlineAudit
