/-
What a check owes to the way its log is delivered.

A log may come from a build, a file or a text, in one read or in many, and be cut anywhere: inside a
character, inside a line end, in the middle of a phrase.  A check depends on none of this:

* `length_lines` — how many lines there are, said of the bytes;
* `scan_ofReads` — reading a log in pieces is scanning it, and `scanned_eq_scan_ofReads` — a check
  reads its stream so;
* `delivers_sourceBy`, `delivers_fileSource` — what a build and a file deliver;
* **`only_bytes_matter`** — scans and reports are known from the bytes alone, and so is what is left
  of a log that breaks off.
-/
import InlineAudit.Build.Toolchain
import InlineAudit.Proofs.Check.Credit
import InlineAudit.Proofs.Log.Reader

namespace InlineAudit

namespace Log

/-- There is a line for each newline, and one more where the log goes on after the last of them. -/
theorem length_lines (log : Bytes) :
    (lines log).length = log.count 10 + if log = [] ∨ log.getLast? = some 10 then 0 else 1 := by
  have hend : (∀ b ∈ log.getLast?, isNewline b = true) ↔ log = [] ∨ log.getLast? = some 10 := by
    rw [← List.getLast?_eq_none_iff]
    cases log.getLast? <;> simp [isNewline]
  have hcount : log.countP isNewline = log.count 10 := rfl
  rw [lines, List.length_map, length_pieces, hcount]
  simp only [hend]

namespace Reader

theorem left_ofReads (cut : List Bytes) (failure : Option IoError) :
    (ofReads cut failure).left = cut.flatten := rfl

/-- A log that is read to its end is scanned, in however many reads. -/
theorem scan_ofReads {cut : List Bytes} (hcut : ∀ read ∈ cut, read ≠ []) (p : Pending) :
    (ofReads cut none).scan p 0 = (p.scan cut.flatten, .ok (lines cut.flatten).length) := by
  rw [scan_eq p 0 hcut, left_ofReads, Nat.zero_add]
  rfl

/-- Of a log that breaks off the lines that have their newline are observed. -/
theorem scan_ofReads_failed {cut : List Bytes} (hcut : ∀ read ∈ cut, read ≠ []) (p : Pending)
    (cause : IoError) :
    (ofReads cut (some cause)).scan p 0 =
      ((endedLines cut.flatten).foldl Pending.observe p, .error cause) := by
  rw [scan_eq p 0 hcut, left_ofReads]
  rfl

end Reader

end Log

open Log

/-- The lines that a stream is read in are those of its bytes. -/
theorem Stream.map_lineText_pieces (stream : Stream) :
    (stream.pieces isNewline).map lineText = linesBefore stream.failure stream.bytes := by
  rw [Stream.pieces, Stream.cutter, Cutter.foldl_feed]
  cases stream.failure with
  | none => rfl
  | some cause =>
    dsimp only
    rw [complete_feed]
    rfl

theorem Toolchain.delivers_sourceBy (run : Executor) (h : Host) (t : Toolchain)
    (packages : List String) :
    (t.sourceBy run h).Delivers packages (t.buildBy run h packages).1
      (t.buildBy run h packages).2 :=
  ⟨_, rfl, rfl, Stream.bytes_atOnce _ _, rfl⟩

theorem Log.delivers_fileSource {h : Host} {path : Path} {log : Bytes}
    (hread : h.tree.read h.cwd path = .ok log) (packages : List String) :
    (fileSource h path).Delivers packages log .replayed := by
  refine ⟨.ofBytes log .replayed, ?_, rfl, Stream.bytes_atOnce _ _, rfl⟩
  rw [fileSource, Source.replay, openFile, hread]
  rfl

namespace Check

/-- A check reads its stream line by line. -/
theorem scanned_eq_scan_ofReads (p : Pending) (stream : Stream) :
    scanned p stream = ((Reader.ofReads stream.chunks stream.failure).scan p 0).1 := by
  rw [Reader.scan_eq p 0 stream.nonempty, scanned, Stream.map_lineText_pieces]
  rfl

/-- **Only the bytes of a log matter.**  In whatever reads it arrives, its scan ends in one state
and counts one number of lines; where it breaks off, the lines that have their newline are observed,
and the error is given back; the check of a stream is such a scan; and all sources that deliver the
log get reports with the same lines, however the builds behind them ended.  A build delivers its
output, whatever programs do, and a file and a text what they hold. -/
theorem only_bytes_matter (log : Bytes) :
    (∀ (p : Pending) (cut : List Bytes), (∀ read ∈ cut, read ≠ []) → cut.flatten = log →
      (Reader.ofReads cut none).scan p 0 =
          (p.scan log,
            .ok (log.count 10 + if log = [] ∨ log.getLast? = some 10 then 0 else 1)) ∧
        ∀ cause, (Reader.ofReads cut (some cause)).scan p 0 =
          ((endedLines log).foldl Pending.observe p, .error cause)) ∧
    (∀ (p : Pending) (stream : Stream),
      scanned p stream = ((Reader.ofReads stream.chunks stream.failure).scan p 0).1) ∧
    (∀ cs : Candidates, (∃ p, cs.validate = .ok p) → ∃ lines, ∀ source status clock,
      source.Delivers cs.packages log status →
        ∃ report, run source false cs clock = .ok report ∧ report.build = status ∧
          report.lines = lines ∧ report.packages = cs.packages ∧ report.digest = cs.digest) ∧
    (∀ (run : Executor) (h : Host) (t : Toolchain) packages, (t.buildBy run h packages).1 = log →
      (t.sourceBy run h).Delivers packages log (t.buildBy run h packages).2) ∧
    (∀ (h : Host) path packages, h.tree.read h.cwd path = .ok log →
      (fileSource h path).Delivers packages log .replayed) ∧
    ∀ packages, (textSource log).Delivers packages log .replayed := by
  refine ⟨?_, scanned_eq_scan_ofReads, ?_, ?_, ?_, ?_⟩
  · rintro p cut hcut rfl
    rw [← length_lines]
    exact ⟨Reader.scan_ofReads hcut p, Reader.scan_ofReads_failed hcut p⟩
  · rintro cs ⟨p, hv⟩
    refine ⟨(p.scan log).issues.map Issue.text, fun source status clock hd => ?_⟩
    exact ⟨_, run_of_delivers clock hv hd (by simp), rfl, rfl, rfl, rfl⟩
  · rintro run h t packages rfl
    exact t.delivers_sourceBy run h packages
  · exact fun h path packages hread => delivers_fileSource hread packages
  · exact fun packages => delivers_textSource packages log

/-- The log of `mixedSource`, byte by byte, in two reads and from a text: it has seven lines, and
six before an error. -/
theorem mixedLog_in_reads :
    let bytewise := mixedLog.map fun b => [b]
    (∀ p, ((Reader.ofReads bytewise none).scan p 0).1 = p.scan mixedLog) ∧
      (∀ p, ((Reader.ofReads bytewise none).scan p 0).2 = .ok 7) ∧
      (∀ p cause, ((Reader.ofReads bytewise (some cause)).scan p 0).2 = .error cause) ∧
      (endedLines mixedLog).length = 6 ∧
      ∃ built replayed, run mixedSource false mixed default = .ok built ∧
        run (textSource mixedLog) false mixed default = .ok replayed ∧
          built.build ≠ replayed.build ∧ built.lines = replayed.lines := by
  intro bytewise
  have hne : ∀ read ∈ bytewise, read ≠ [] := by simp [bytewise]
  have hflat : bytewise.flatten = mixedLog := List.flatMap_singleton' mixedLog
  obtain ⟨hscan, -, hreport, -, -, htext⟩ := only_bytes_matter mixedLog
  obtain ⟨lines, hlines⟩ := hreport mixed ⟨_, rfl⟩
  obtain ⟨built, hbuilt, hfailed, hbuiltLines, -⟩ :=
    hlines _ _ default (delivers_mixedSource mixed.packages)
  obtain ⟨replayed, hreplayed, hreplay, hreplayedLines, -⟩ := hlines _ _ default (htext _)
  refine ⟨fun p => ?_, fun p => ?_, fun p cause => ?_, ?_, built, replayed, hbuilt, hreplayed, ?_,
    hbuiltLines.trans hreplayedLines.symm⟩
  · rw [(hscan p bytewise hne hflat).1]
  · have hcount : mixedLog.count 10 +
        (if mixedLog = [] ∨ mixedLog.getLast? = some 10 then 0 else 1) = 7 := by decide +kernel
    rw [(hscan p bytewise hne hflat).1, hcount]
  · rw [(hscan p bytewise hne hflat).2 cause]
  · decide +kernel
  · rw [hfailed, hreplay]
    decide

end Check

end InlineAudit
