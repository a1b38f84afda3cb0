/-
The verdict of a check, read off the bytes of the log.

A check sees its log through chunks, lines, a cursor and a set of names that shrinks.  Its report
can be stated without any of them but the lines:

* `Source.Delivers` — a source brings a log to its end;
* `run_of_delivers`, `run_eq_ok_iff` — then there is a report, on the scan of that log, and there is
  none otherwise;
* `mem_issues_scan_iff` — what that scan leaves is known from the readings of the log;
* **`issues_eq_unproven`** — and it lists every candidate that no line proves, once, with the last
  reason that a line gives, in the order of what is printed.
-/
import InlineAudit.Proofs.Check.Outcome
import InlineAudit.Proofs.Pending.Issues
import InlineAudit.Proofs.Pending.Validation
import InlineAudit.Proofs.Text.Pieces

namespace InlineAudit

open Log

/-- A source, asked for these packages, brings a log to its end, and what is behind it ends with
this status. -/
def Source.Delivers (source : Source) (packages : List String) (log : Bytes)
    (status : Build.Status) : Prop :=
  ∃ stream, source.openFor packages = .ok stream ∧ stream.failure = none ∧ stream.bytes = log ∧
    stream.completion.await = .ok status

/-- A source brings one log to its end, and the build behind it ends in one way. -/
theorem Source.Delivers.unique {source : Source} {packages : List String} {log log' : Bytes}
    {status status' : Build.Status} (h : source.Delivers packages log status)
    (h' : source.Delivers packages log' status') : log = log' ∧ status = status' := by
  obtain ⟨stream, ho, -, rfl, ha⟩ := h
  obtain ⟨stream', ho', -, rfl, ha'⟩ := h'
  obtain rfl := Except.ok.inj (ho.symm.trans ho')
  exact ⟨rfl, Except.ok.inj (ha.symm.trans ha')⟩

namespace Check

variable {source : Source} {strict : Bool} {cs : Candidates} {log : Bytes}
  {status : Build.Status}

/-- A stream without a failure is scanned like its bytes, whatever the chunks. -/
theorem scanned_eq_scan (p : Pending) {stream : Stream} (h : stream.failure = none) :
    scanned p stream = p.scan stream.bytes := by
  rw [scanned, Stream.pieces, h, Stream.cutter, Cutter.foldl_feed]
  rfl

theorem run_of_delivers (clock : Clock) {p : Pending} (hv : cs.validate = .ok p)
    (hd : source.Delivers cs.packages log status)
    (hs : strict = true → status = .succeeded ∨ status = .replayed) :
    run source strict cs clock = .ok (reportOn source cs clock (p.scan log) status) := by
  obtain ⟨stream, ho, hf, rfl, ha⟩ := hd
  rw [← scanned_eq_scan p hf]
  exact (run_goes_iff.2 (.reported hv ho ha hf hs)).1

/-- There is a report exactly when the set is valid, the source brings a log to its end, and the
strict rule lets the end of the build pass. -/
theorem run_eq_ok_iff {clock : Clock} {report : Report} :
    run source strict cs clock = .ok report ↔
      ∃ p log status, cs.validate = .ok p ∧ source.Delivers cs.packages log status ∧
        (strict = true → status = .succeeded ∨ status = .replayed) ∧
        report = reportOn source cs clock (p.scan log) status := by
  constructor
  · intro h
    have hgoes := goes_session source strict cs clock
    rw [h] at hgoes
    generalize calls source strict cs clock = made at hgoes
    cases hgoes with
    | @reported p stream status hv ho ha hf hs =>
      rw [scanned_eq_scan p hf]
      exact ⟨p, stream.bytes, status, hv, ⟨stream, ho, hf, rfl, ha⟩, hs, rfl⟩
  · rintro ⟨p, log, status, hv, hd, hs, rfl⟩
    exact run_of_delivers clock hv hd hs

/-- What a scan leaves of the names of a set. -/
theorem reason?_scan_unexplained (ns : List String) (log : Bytes) (n : String) :
    ((Pending.unexplained ns).scan log).reason? n =
      if Proven (readings log) n ∨ n ∉ ns then none
      else some ((lastReason? (readings log) n).getD unknownReason) := by
  rw [Pending.scan_eq_foldl_apply, Pending.reason?_foldl_apply, Pending.package_unexplained,
    Pending.reason?_unexplained, ← readings]
  by_cases hn : n ∈ ns
  · by_cases hp : Proven (readings log) n <;> simp [hn, hp]
  · simp [hn]

theorem nodup_names_scan_unexplained {ns : List String} (h : ns.Nodup) (log : Bytes) :
    ((Pending.unexplained ns).scan log).names.Nodup := by
  rw [Pending.scan_eq_foldl_apply]
  exact Pending.nodup_names_foldl_apply (by rwa [Pending.names_unexplained]) _

/-- The issues that a scan leaves of the names of a set. -/
theorem mem_issues_scan_iff {ns : List String} (h : ns.Nodup) (log : Bytes) {n why : String} :
    ⟨n, why⟩ ∈ ((Pending.unexplained ns).scan log).issues ↔
      n ∈ ns ∧ ¬ Proven (readings log) n ∧
        why = (lastReason? (readings log) n).getD unknownReason := by
  rw [Pending.mem_issues_iff (nodup_names_scan_unexplained h log), reason?_scan_unexplained]
  by_cases hp : Proven (readings log) n
  · simp [hp]
  · by_cases hn : n ∈ ns
    · simp [hp, hn, eq_comm]
    · simp [hn]

/-- The names that a log does not prove. -/
def unproven (ns : List String) (log : Bytes) : List String :=
  ns.filter fun n => ¬ Proven (readings log) n

/-- There is one issue for each name that the log does not prove. -/
theorem perm_unproven {ns : List String} (h : ns.Nodup) (log : Bytes) :
    (((Pending.unexplained ns).scan log).issues.map Issue.name).Perm (unproven ns log) := by
  refine (List.perm_ext_iff_of_nodup
    (Pending.nodup_names_issues (nodup_names_scan_unexplained h log)) (h.filter _)).2 fun n => ?_
  rw [List.mem_map, List.mem_filter, decide_eq_true_iff]
  constructor
  · rintro ⟨⟨m, why⟩, hi, rfl⟩
    obtain ⟨hn, hnot, -⟩ := (mem_issues_scan_iff h log).1 hi
    exact ⟨hn, hnot⟩
  · rintro ⟨hn, hnot⟩
    exact ⟨_, (mem_issues_scan_iff h log).2 ⟨hn, hnot, rfl⟩, rfl⟩

/-- **The issues of a check are its unproven candidates.**  When a source brings a log to its end,
a name is reported if and only if it is that of a candidate and no line of the log proves it; its
reason is that of the last line that refuses it, or the unknown one; no name is reported twice; and
the lines of the report are in ascending order of their bytes. -/
theorem issues_eq_unproven (clock : Clock) (hv : ∃ p, cs.validate = .ok p)
    (hd : source.Delivers cs.packages log status)
    (hs : strict = true → status = .succeeded ∨ status = .replayed) :
    ∃ report, run source strict cs clock = .ok report ∧
      (∀ n why, ⟨n, why⟩ ∈ report.issues ↔
        (∃ package symbol, cs.Has package symbol ∧ fullName package symbol = n) ∧
          ¬ Proven (readings log) n ∧
          why = (lastReason? (readings log) n).getD unknownReason) ∧
      (report.issues.map Issue.name).Nodup ∧
      (report.issues.map fun i => Utf8.encode i.text).Pairwise (· ≤ ·) := by
  obtain ⟨p, hv⟩ := hv
  obtain ⟨-, hnodup, rfl⟩ := Candidates.validate_eq_ok_iff.1 hv
  refine ⟨_, run_of_delivers clock hv hd hs, fun n why => ?_,
    Pending.nodup_names_issues (nodup_names_scan_unexplained hnodup log),
    Issue.pairwise_bytes_sorted _⟩
  rw [reportOn, mem_issues_scan_iff hnodup, Candidates.mem_names_iff]

/-- Three candidates in two packages. -/
def mixed : Candidates := ⟨[("a", ["F", "G"]), ("b", ["G"])], by decide⟩

/-- A log that proves one of them and refuses the others, one of these twice, with both line ends
and without the last one. -/
def mixedLog : Bytes :=
  Utf8.encode ("# a\r\nf: can inline F with cost 4\nf: cannot inline G: big\r\n" ++
    "# b\nf: cannot inline G: first\n# a\nf: cannot inline G: huge")

theorem readings_mixedLog :
    readings mixedLog = [⟨"", .header "a"⟩, ⟨"a", .canInline "F"⟩, ⟨"a", .cannotInline "G" "big"⟩,
      ⟨"a", .header "b"⟩, ⟨"b", .cannotInline "G" "first"⟩, ⟨"b", .header "a"⟩,
      ⟨"a", .cannotInline "G" "huge"⟩] := by
  decide +kernel

/-- The log of a build that fails, cut inside a line end. -/
def mixedSource : Source where
  name := "mixed"
  openFor _ := .ok ⟨[mixedLog.take 4, mixedLog.drop 4], none, .producer (.ok (.failed (some 1))),
    by decide +kernel⟩

theorem delivers_mixedSource (packages : List String) :
    mixedSource.Delivers packages mixedLog (.failed (some 1)) :=
  ⟨_, rfl, rfl, by simp [Stream.bytes], rfl⟩

theorem issues_of_mixedLog :
    ∃ report, run mixedSource false mixed default = .ok report ∧
      ⟨"a.G", "huge"⟩ ∈ report.issues ∧ ⟨"b.G", "first"⟩ ∈ report.issues ∧
      ∀ why, ⟨"a.F", why⟩ ∉ report.issues := by
  have hv : ∃ p, mixed.validate = .ok p := ⟨_, rfl⟩
  have hd := delivers_mixedSource mixed.packages
  have hs : false = true → Build.Status.failed (some 1) = .succeeded ∨
      Build.Status.failed (some 1) = .replayed := by decide
  obtain ⟨report, hrun, hissues, -, -⟩ := issues_eq_unproven default hv hd hs
  rw [readings_mixedLog] at hissues
  refine ⟨report, hrun, (hissues _ _).2 ⟨⟨"a", "G", ⟨["F", "G"], ?_, ?_⟩, rfl⟩, ?_, ?_⟩,
    (hissues _ _).2 ⟨⟨"b", "G", ⟨["G"], ?_, ?_⟩, rfl⟩, ?_, ?_⟩,
    fun why hF => ((hissues _ _).1 hF).2.1 ?_⟩ <;>
    decide

end Check

end InlineAudit
