/-
Which lines of a log a candidate is credited with.

A check knows a candidate by its full name alone.  Packages and symbols may hold dots, so a full
name can be cut in several places, and a line may name a candidate under a header of another
package:

* `fullName_eq_iff` — the pairs that have one full name;
* `Log.Spells` — the ways in which a line, under the header before it, comes to a full name;
* **`credited_iff_spelled`** — a candidate is proven or refused by the lines that spell its name,
  its own or not;
* `foreign_lines_credit` — a check in which no candidate has a line of its own.

Design notes: the foreign lines are no accident of the check.  The full name is what a candidate
is known by everywhere, and a set that holds one name twice, cut in two ways, is refused.
-/
import InlineAudit.Log.File
import InlineAudit.Proofs.Check.Verdict

namespace InlineAudit

/-- A full name whose other cut is further to the right. -/
theorem fullName_cut {p s q t : String} {front : List Char}
    (hq : q.toList = p.toList ++ front) (hs : '.' :: s.toList = front ++ '.' :: t.toList) :
    p = q ∧ s = t ∨ ∃ u, q = fullName p u ∧ s = fullName u t := by
  cases front with
  | nil =>
    rw [List.append_nil] at hq
    rw [List.nil_append, List.cons.injEq] at hs
    exact .inl ⟨String.toList_inj.1 hq.symm, String.toList_inj.1 hs.2⟩
  | cons c u =>
    rw [List.cons_append, List.cons.injEq] at hs
    obtain ⟨rfl, hs⟩ := hs
    refine .inr ⟨String.ofList u, String.toList_inj.1 ?_, String.toList_inj.1 ?_⟩
    · rw [toList_fullName, String.toList_ofList, hq]
    · rw [toList_fullName, String.toList_ofList, hs]

/-- Two pairs have one full name exactly when they are equal, or one package goes on where the
other one ends. -/
theorem fullName_eq_iff {p s q t : String} :
    fullName p s = fullName q t ↔
      p = q ∧ s = t ∨ (∃ u, p = fullName q u ∧ t = fullName u s) ∨
        ∃ u, q = fullName p u ∧ s = fullName u t := by
  constructor
  · intro h
    have hchars := congrArg String.toList h
    rw [toList_fullName, toList_fullName, List.append_eq_append_iff] at hchars
    rcases hchars with ⟨front, hq, hs⟩ | ⟨front, hp, ht⟩
    · rcases fullName_cut hq hs with heq | hcut
      · exact .inl heq
      · exact .inr (.inr hcut)
    · rcases fullName_cut hp ht with ⟨rfl, rfl⟩ | hcut
      · exact .inl ⟨rfl, rfl⟩
      · exact .inr (.inl hcut)
  · rintro (⟨rfl, rfl⟩ | ⟨u, rfl, rfl⟩ | ⟨u, rfl, rfl⟩)
    · rfl
    · simp [fullName, String.append_assoc]
    · simp [fullName, String.append_assoc]

namespace Log

/-- A line with this token, after these lines, spells the full name of a pair. -/
inductive Spells (before : List Diagnostic) : String → String → String → Prop
  /-- The line names the symbol, under a header of the package. -/
  | own {package symbol : String} (under : Announces before package) :
      Spells before symbol package symbol
  /-- The header announces a shorter path, and the line names the rest of the package too. -/
  | shorter {path rest symbol : String} (under : Announces before path) :
      Spells before (fullName rest symbol) (fullName path rest) symbol
  /-- There is no header, and the line names all of the package but a dot in front. -/
  | bare {rest symbol : String} (none : ∀ d ∈ before, d.package? = none) :
      Spells before (fullName rest symbol) (fullName "" rest) symbol
  /-- The header announces a longer path, which holds a part of the symbol. -/
  | longer {package rest token : String} (under : Announces before (fullName package rest)) :
      Spells before token package (fullName rest token)

theorem Spells.fullName_cursor {before : List Diagnostic} {token package symbol : String}
    (h : Spells before token package symbol) :
    fullName (cursor "" before) token = fullName package symbol := by
  cases h with
  | own under => rw [under.cursor_eq]
  | @shorter path rest symbol under =>
    rw [under.cursor_eq]
    exact fullName_eq_iff.2 (.inr (.inr ⟨rest, rfl, rfl⟩))
  | @bare rest symbol none =>
    have hc : cursor "" before = "" := @cursor_append_of_silent "" [] before none
    rw [hc]
    exact fullName_eq_iff.2 (.inr (.inr ⟨rest, rfl, rfl⟩))
  | @longer package rest token under =>
    rw [under.cursor_eq]
    exact fullName_eq_iff.2 (.inr (.inl ⟨rest, rfl, rfl⟩))

/-- The names that come out equal are spelled. -/
theorem spells_iff {before : List Diagnostic} {token package symbol : String}
    (hne : package ≠ "") :
    Spells before token package symbol ↔
      fullName (cursor "" before) token = fullName package symbol := by
  constructor
  · exact Spells.fullName_cursor
  · intro h
    rcases announces_cursor_or_silent "" before with under | ⟨silent, hc⟩
    · generalize cursor "" before = path at h under
      rcases fullName_eq_iff.1 h with ⟨rfl, rfl⟩ | ⟨u, rfl, rfl⟩ | ⟨u, rfl, rfl⟩
      · exact .own under
      · exact .longer under
      · exact .shorter under
    · rw [hc] at h
      rcases fullName_eq_iff.1 h with ⟨rfl, rfl⟩ | ⟨u, hu, rfl⟩ | ⟨u, rfl, rfl⟩
      · exact absurd rfl hne
      · have hchars := congrArg String.toList hu
        rw [toList_fullName] at hchars
        simp at hchars
      · exact .bare silent

/-- Without a header before it a line spells only names that start with a dot. -/
theorem Spells.of_silent {before : List Diagnostic} {token package symbol : String}
    (h : Spells before token package symbol) (silent : ∀ d ∈ before, d.package? = none) :
    ∃ rest, package = "." ++ rest := by
  have hquiet : ∀ {path}, ¬ Announces before path := by
    rintro path ⟨earlier, between, rfl, -⟩
    have := silent (.header path) (by simp)
    cases this
  cases h with
  | own under => exact absurd under hquiet
  | shorter under => exact absurd under hquiet
  | longer under => exact absurd under hquiet
  | @bare rest symbol none => exact ⟨rest, by simp [fullName]⟩

/-- Where neither the symbol nor the token has a dot, a line spells its own pairs only. -/
theorem Spells.own_of_undotted {before : List Diagnostic} {token package symbol : String}
    (h : Spells before token package symbol) (hs : '.' ∉ symbol.toList) (ht : '.' ∉ token.toList) :
    Announces before package ∧ token = symbol := by
  cases h with
  | own under => exact ⟨under, rfl⟩
  | shorter under => exact absurd (by simp [toList_fullName]) ht
  | bare none => exact absurd (by simp [toList_fullName]) ht
  | longer under => exact absurd (by simp [toList_fullName]) hs

end Log

namespace Check

open Log

variable {source : Source} {strict : Bool} {cs : Candidates} {log : Bytes}
  {status : Build.Status}

/-- A log that is at hand is brought to its end. -/
theorem delivers_textSource (packages : List String) (log : Bytes) :
    (textSource log).Delivers packages log .replayed :=
  ⟨.ofBytes log .replayed, rfl, rfl, Stream.bytes_atOnce _ _, rfl⟩

/-- **A candidate is credited with the lines that spell its name.**  It is missing from the report
exactly when a line that proves inlineability spells it, and its reason is the unknown one or that
of a line which spells it.  Before the first header only packages that start with a dot are
spelled, and without dots in symbols and tokens a line spells nothing but its own pair. -/
theorem credited_iff_spelled (clock : Clock) (hv : ∃ p, cs.validate = .ok p)
    (hd : source.Delivers cs.packages log status)
    (hs : strict = true → status = .succeeded ∨ status = .replayed) :
    ∃ report, run source strict cs clock = .ok report ∧ ∀ package symbol, cs.Has package symbol →
      ((∀ why, ⟨fullName package symbol, why⟩ ∉ report.issues) ↔
        ∃ before token after, (diagnostics log = before ++ .inliningCall token :: after ∨
          diagnostics log = before ++ .canInline token :: after) ∧
            Spells before token package symbol) ∧
      (∀ why, ⟨fullName package symbol, why⟩ ∈ report.issues →
        (∃ before token after, diagnostics log = before ++ .cannotInline token why :: after ∧
          Spells before token package symbol) ∨
        why = unknownReason ∧ ∀ before token why' after,
          diagnostics log = before ++ .cannotInline token why' :: after →
            ¬ Spells before token package symbol) ∧
      (∀ before token, (∀ d ∈ before, d.package? = none) → Spells before token package symbol →
        ∃ rest, package = "." ++ rest) ∧
      (∀ before token, '.' ∉ symbol.toList → '.' ∉ token.toList →
        Spells before token package symbol → Announces before package ∧ token = symbol) := by
  obtain ⟨p, hp⟩ := hv
  obtain ⟨hnames, hnodup, rfl⟩ := Candidates.validate_eq_ok_iff.1 hp
  refine ⟨_, run_of_delivers clock hp hd hs, fun package symbol hhas => ?_⟩
  have hmem : fullName package symbol ∈ cs.names :=
    Candidates.mem_names_iff.2 ⟨package, symbol, hhas, rfl⟩
  have hne : package ≠ "" := by
    obtain ⟨symbols, he, -⟩ := hhas
    exact hnames _ he
  have hissue : ∀ why, ⟨fullName package symbol, why⟩ ∈
      ((Pending.unexplained cs.names).scan log).issues ↔
        ¬ Proven (readings log) (fullName package symbol) ∧
          why = (lastReason? (readings log) (fullName package symbol)).getD unknownReason := by
    intro why
    rw [mem_issues_scan_iff hnodup]
    exact and_iff_right hmem
  refine ⟨?_, fun why hwhy => ?_, fun before token silent h => h.of_silent silent,
    fun before token hsym htok h => h.own_of_undotted hsym htok⟩
  · have hproven : Proven (readings log) (fullName package symbol) ↔
        ∃ before token after, (diagnostics log = before ++ .inliningCall token :: after ∨
          diagnostics log = before ++ .canInline token :: after) ∧
            Spells before token package symbol := by
      simp only [spells_iff hne]
      exact proven_readingsFrom_iff
    rw [← hproven]
    constructor
    · intro hmissing
      by_contra hnot
      exact hmissing _ ((hissue _).2 ⟨hnot, rfl⟩)
    · exact fun hp why hwhy => ((hissue why).1 hwhy).1 hp
  · obtain ⟨-, hreason⟩ := (hissue why).1 hwhy
    cases hlast : lastReason? (readings log) (fullName package symbol) with
    | none =>
      rw [hlast] at hreason
      refine .inr ⟨hreason, fun before token why' after hline hspells => ?_⟩
      exact lastReason?_eq_none_iff.1 hlast before token why' after hline hspells.fullName_cursor
    | some last =>
      obtain ⟨before, token, after, hline, hn⟩ := refusal_of_lastReason? hlast
      rw [hlast] at hreason
      obtain rfl : why = last := hreason
      exact .inl ⟨before, token, after, hline, (spells_iff hne).2 hn⟩

/-- Four candidates with dots in their names. -/
def dotted : Candidates :=
  ⟨[(".x", ["G"]), ("a", ["b.C"]), ("d.e", ["F"]), ("g", ["h.K"])], by decide⟩

/-- A log with a line for each of them, and none under its own header. -/
def dottedLog : Bytes :=
  Utf8.encode ("f: can inline x.G\n# a.b\nf: can inline C\n# d\nf: can inline e.F\n" ++
    "# g.h\nf: cannot inline K: big\n")

theorem diagnostics_dottedLog :
    diagnostics dottedLog = [.canInline "x.G", .header "a.b", .canInline "C", .header "d",
      .canInline "e.F", .header "g.h", .cannotInline "K" "big"] := by
  decide +kernel

/-- Lines of other packages prove three candidates, one of them before any header, and explain a
fourth one. -/
theorem foreign_lines_credit :
    ∃ report, run (textSource dottedLog) false dotted default = .ok report ∧
      report.issues = [⟨"g.h.K", "big"⟩] ∧
      ∀ package symbol, dotted.Has package symbol →
        ¬ ∃ before after, (diagnostics dottedLog = before ++ .inliningCall symbol :: after ∨
          diagnostics dottedLog = before ++ .canInline symbol :: after ∨
          ∃ why, diagnostics dottedLog = before ++ .cannotInline symbol why :: after) ∧
            Announces before package := by
  have hd := delivers_textSource dotted.packages dottedLog
  refine ⟨_, run_of_delivers default rfl hd (by decide), ?_, ?_⟩
  · rw [reportOn, Pending.issues, Pending.scan_eq_foldl_apply, diagnostics_dottedLog]
    decide +kernel
  · rintro package symbol ⟨symbols, he, hsymbol⟩ ⟨before, after, hline, -⟩
    have hsplit : ∀ {d : Diagnostic}, diagnostics dottedLog = before ++ d :: after →
        d ∈ diagnostics dottedLog := by
      intro d hd
      rw [hd]
      simp
    -- no line has the symbol of a candidate for its token
    have htoken : symbol = "x.G" ∨ symbol = "C" ∨ symbol = "e.F" ∨ symbol = "K" := by
      rw [diagnostics_dottedLog] at hsplit
      rcases hline with h | h | ⟨why, h⟩ <;> have hd := hsplit (diagnostics_dottedLog ▸ h)
      · simp at hd
      · simp only [List.mem_cons, Diagnostic.canInline.injEq, reduceCtorEq, List.not_mem_nil] at hd
        tauto
      · simp only [List.mem_cons, Diagnostic.cannotInline.injEq, reduceCtorEq,
          List.not_mem_nil] at hd
        tauto
    simp only [dotted, List.mem_cons, Prod.mk.injEq, List.not_mem_nil, or_false] at he
    rcases he with ⟨-, rfl⟩ | ⟨-, rfl⟩ | ⟨-, rfl⟩ | ⟨-, rfl⟩ <;>
      obtain rfl := List.mem_singleton.1 hsymbol <;> simp at htoken

/-- The three are spelled in three ways. -/
theorem credited_of_dottedLog :
    ∃ report, run (textSource dottedLog) false dotted default = .ok report ∧
      (∀ why, ⟨".x.G", why⟩ ∉ report.issues) ∧ (∀ why, ⟨"a.b.C", why⟩ ∉ report.issues) ∧
      ∀ why, ⟨"d.e.F", why⟩ ∉ report.issues := by
  have hd := delivers_textSource dotted.packages dottedLog
  have hv : ∃ p, dotted.validate = .ok p := ⟨_, rfl⟩
  have hs : false = true → Build.Status.replayed = .succeeded ∨
      Build.Status.replayed = .replayed := by decide
  obtain ⟨report, hrun, hcredit⟩ := credited_iff_spelled default hv hd hs
  have hbare : Spells [] "x.G" ".x" "G" := @Spells.bare [] "x" "G" (List.forall_mem_nil _)
  have hlonger : Spells [.canInline "x.G", .header "a.b"] "C" "a" "b.C" :=
    @Spells.longer _ "a" "b" "C" ⟨[.canInline "x.G"], [], rfl, List.forall_mem_nil _⟩
  have hshorter : Spells [.canInline "x.G", .header "a.b", .canInline "C", .header "d"] "e.F"
      "d.e" "F" :=
    @Spells.shorter _ "d" "e" "F"
      ⟨[.canInline "x.G", .header "a.b", .canInline "C"], [], rfl, List.forall_mem_nil _⟩
  refine ⟨report, hrun, (hcredit ".x" "G" ?_).1.2 ⟨_, _, _, .inr diagnostics_dottedLog, hbare⟩,
    (hcredit "a" "b.C" ?_).1.2 ⟨_, _, _, .inr diagnostics_dottedLog, hlonger⟩,
    (hcredit "d.e" "F" ?_).1.2 ⟨_, _, _, .inr diagnostics_dottedLog, hshorter⟩⟩
  · exact ⟨["G"], by simp [dotted], by simp⟩
  · exact ⟨["b.C"], by simp [dotted], by simp⟩
  · exact ⟨["F"], by simp [dotted], by simp⟩

end Check

end InlineAudit
