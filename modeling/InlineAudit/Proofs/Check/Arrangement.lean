/-
How a candidate set was put together does not matter to a check.

Two sets with the same packages, whose lists differ in the order of their symbols, are checked
against sources that answer alike:

* `Stream.Alike`, `Source.AnswersLike` — the same bytes with the same end, in whatever chunks;
* `Agree` — outcomes that differ in the time of day at most, and in the order of issues that are
  printed alike;
* `Goes.rearranged` — a check of the one set goes like a check of the other;
* **`agree_of_rearranges`** — so both fail for the same kind of reason before a source is asked for
  anything, or both ask their sources for the same and agree in what comes of it.
-/
import InlineAudit.Proofs.Candidates.Arrangement
import InlineAudit.Proofs.Check.Independence

namespace InlineAudit

open Log

/-- The same bytes with the same end. -/
structure Stream.Alike (s t : Stream) : Prop where
  bytes : s.bytes = t.bytes
  failure : s.failure = t.failure
  ended : s.completion.await = t.completion.await

/-- Asked for the same packages, both sources refuse in the same way, or both open streams that are
alike. -/
def Source.AnswersLike (source source' : Source) : Prop :=
  ∀ packages, match source.openFor packages, source'.openFor packages with
    | .ok stream, .ok stream' => stream.Alike stream'
    | .error cause, .error cause' => cause = cause'
    | .ok _, .error _ | .error _, .ok _ => False

namespace Source.AnswersLike

variable {source source' : Source} {packages : List String}

theorem refl (source : Source) : source.AnswersLike source := by
  intro packages
  cases source.openFor packages with
  | error cause => rfl
  | ok stream => exact ⟨rfl, rfl, rfl⟩

theorem refused (h : source.AnswersLike source') {cause : Check.CheckError}
    (ho : source.openFor packages = .error cause) : source'.openFor packages = .error cause := by
  have hlike := h packages
  rw [ho] at hlike
  cases ho' : source'.openFor packages with
  | error cause' =>
    rw [ho'] at hlike
    exact congrArg _ (Eq.symm hlike)
  | ok stream' =>
    rw [ho'] at hlike
    exact hlike.elim

theorem opened (h : source.AnswersLike source') {stream : Stream}
    (ho : source.openFor packages = .ok stream) :
    ∃ stream', source'.openFor packages = .ok stream' ∧ stream.Alike stream' := by
  have hlike := h packages
  rw [ho] at hlike
  cases ho' : source'.openFor packages with
  | error cause' =>
    rw [ho'] at hlike
    exact hlike.elim
  | ok stream' =>
    rw [ho'] at hlike
    exact ⟨stream', rfl, hlike⟩

end Source.AnswersLike

namespace Check

variable {source source' : Source} {strict : Bool} {a b : Candidates} {clock clock' : Clock}

/-- Outcomes that a reader cannot tell apart: the same failure, or reports with the same packages,
digest, end of the build and lines, on the same issues. -/
def Agree : Except Failure Report → Except Failure Report → Prop
  | .ok r, .ok r' => r.packages = r'.packages ∧ r.digest = r'.digest ∧ r.build = r'.build ∧
      r.lines = r'.lines ∧ r.issues.Perm r'.issues
  | .error failure, .error failure' => failure = failure'
  | .ok _, .error _ | .error _, .ok _ => False

/-- Reports on the same log, for the same full names in some order. -/
theorem agree_reportOn (h : a.Rearranges b) {p q : Pending} (ha : a.validate = .ok p)
    (hb : b.validate = .ok q) (log : Bytes) (status : Build.Status) :
    Agree (.ok (reportOn source a clock (p.scan log) status))
      (.ok (reportOn source' b clock' (q.scan log) status)) := by
  have hissues := unprovenIssues_perm h.names_perm log
  refine ⟨h.packages, h.digest_eq, rfl, ?_, ?_⟩
  · rw [lines_reportOn _ ha, lines_reportOn _ hb]
    exact Text.ascending_of_perm (hissues.map _)
  · exact (issues_reportOn_perm _ ha log).trans
      (hissues.trans (issues_reportOn_perm _ hb log).symm)

/-- A check of one of the sets goes like a check of the other. -/
theorem Goes.rearranged (h : a.Rearranges b) (hlike : source.AnswersLike source')
    {p q : Pending} (ha : a.validate = .ok p) (hb : b.validate = .ok q)
    {outcome : Except Failure Report} {made : List Call}
    (hgoes : Goes source strict a clock outcome made) (clock' : Clock) :
    ∃ outcome', Goes source' strict b clock' outcome' made ∧ Agree outcome outcome' := by
  have hcalls : allCalls a = allCalls b := by rw [allCalls, allCalls, h.packages]
  -- the cases of a check: each of them is decided by what the two have in common
  cases hgoes with
  | invalid hv =>
    rw [ha] at hv
    cases hv
  | refused hv ho =>
    rw [h.packages] at ho ⊢
    exact ⟨_, .refused hb (hlike.refused ho), rfl⟩
  | died hv ho hdied =>
    obtain ⟨stream', ho', -, -, hended⟩ := hlike.opened ho
    rw [h.packages] at ho'
    rw [hcalls]
    exact ⟨_, .died hb ho' (hended.symm.trans hdied), rfl⟩
  | unreadable hv ho hended hf =>
    obtain ⟨stream', ho', -, hfailure, hended'⟩ := hlike.opened ho
    rw [h.packages] at ho'
    rw [hcalls]
    exact ⟨_, .unreadable hb ho' (hended'.symm.trans hended) (hfailure.symm.trans hf), rfl⟩
  | buildFailed hv ho hended hf hstrict hsucceeded hreplayed =>
    obtain ⟨stream', ho', -, hfailure, hended'⟩ := hlike.opened ho
    rw [h.packages] at ho'
    rw [hcalls]
    exact ⟨_, .buildFailed hb ho' (hended'.symm.trans hended) (hfailure.symm.trans hf) hstrict
      hsucceeded hreplayed, rfl⟩
  | @reported p' stream status hv ho hended hf hpasses =>
    obtain ⟨stream', ho', hbytes, hfailure, hended'⟩ := hlike.opened ho
    have hf' : stream'.failure = none := hfailure.symm.trans hf
    rw [h.packages] at ho'
    rw [hcalls]
    refine ⟨_, .reported hb ho' (hended'.symm.trans hended) hf' hpasses, ?_⟩
    -- a stream that ends cleanly is scanned like its bytes, and these are the same
    rw [scanned_eq_scan p' hf, scanned_eq_scan q hf', ← hbytes]
    exact agree_reportOn h hv hb stream.bytes status

/-- **How a set was put together does not matter.**  Of two sets with the same packages and the same
symbols in some order, checked against sources that answer alike, either both are invalid for the
same kind of reason, and no source is asked for anything; or both are valid, the sources are opened
for the same packages, each once and in ascending order, the checks make the same calls, and their
outcomes agree. -/
theorem agree_of_rearranges (h : a.Rearranges b) (hlike : source.AnswersLike source')
    (strict : Bool) (clock clock' : Clock) :
    (∃ cause cause', cause.SameKind cause' ∧
      a.validate = .error cause ∧ b.validate = .error cause' ∧
      run source strict a clock = .error (.error (.invalid cause)) ∧
      run source' strict b clock' = .error (.error (.invalid cause')) ∧
      calls source strict a clock = [] ∧ calls source' strict b clock' = []) ∨
    (∃ p q, a.validate = .ok p ∧ b.validate = .ok q) ∧
      a.packages.Pairwise (· < ·) ∧
      (∀ packages, .openFor packages ∈ calls source strict a clock ↔ packages = a.packages) ∧
      calls source' strict b clock' = calls source strict a clock ∧
      Agree (run source strict a clock) (run source' strict b clock') := by
  rcases Candidates.validate_of_rearranges h with
    ⟨p, q, ha, hb⟩ | ⟨cause, cause', ha, hb, hkind⟩
  · refine .inr ⟨⟨p, q, ha, hb⟩, List.pairwise_map.2 a.ascending, fun packages => ?_, ?_⟩
    · rw [openFor_mem_calls_iff]
      exact and_iff_left ⟨p, ha⟩
    · obtain ⟨outcome', hgoes, hagree⟩ :=
        (goes_session source strict a clock).rearranged h hlike ha hb clock'
      obtain ⟨hrun, hcalls⟩ := run_goes_iff.2 hgoes
      rw [hrun]
      exact ⟨hcalls, hagree⟩
  · have hgoes : Goes source strict a clock _ _ := .invalid ha
    have hgoes' : Goes source' strict b clock' _ _ := .invalid hb
    obtain ⟨hrun, hcalls⟩ := run_goes_iff.2 hgoes
    obtain ⟨hrun', hcalls'⟩ := run_goes_iff.2 hgoes'
    exact .inl ⟨cause, cause', hkind, ha, hb, hrun, hrun', hcalls, hcalls'⟩

/-- The candidates of `mixed`, put together in another order. -/
def mixedSwapped : Candidates := ⟨[("a", ["G", "F"]), ("b", ["G"])], by decide⟩

/-- The log of `mixedSource` in one piece. -/
def mixedWhole : Source where
  name := "whole"
  openFor _ := .ok (.ofBytes mixedLog (.failed (some 1)))

/-- Two symbols that occur twice each, in both orders. -/
def repeated : Candidates := ⟨[("a", ["F", "G", "F", "G"])], by decide⟩

/-- Of these the other name comes twice first. -/
def repeatedSwapped : Candidates := ⟨[("a", ["G", "F", "G", "F"])], by decide⟩

/-- Two valid sets with equal reports from two sources, and two invalid ones of which different
names are said to be there twice. -/
theorem agree_of_mixedSwapped :
    (∃ r r', run mixedSource false mixed default = .ok r ∧
      run mixedWhole false mixedSwapped default = .ok r' ∧
      r.digest = r'.digest ∧ r.build = .failed (some 1) ∧ r'.build = .failed (some 1) ∧
      r.lines = r'.lines ∧ mixed ≠ mixedSwapped) ∧
    run mixedSource false repeated default = .error (.error (.invalid (.duplicate "a.F"))) ∧
      run mixedWhole false repeatedSwapped default = .error (.error (.invalid (.duplicate "a.G"))) ∧
      calls mixedWhole false repeatedSwapped default = [] := by
  have hlike : mixedSource.AnswersLike mixedWhole := by
    refine fun packages => ⟨?_, rfl, rfl⟩
    rw [Stream.ofBytes, Stream.bytes_atOnce]
    simp [Stream.bytes]
  have hvalid : mixed.Rearranges mixedSwapped := by
    refine ⟨rfl, ?_⟩
    simp only [mixed, mixedSwapped, List.mem_cons, List.not_mem_nil, or_false, Prod.mk.injEq]
    rintro package as bs (⟨rfl, rfl⟩ | ⟨rfl, rfl⟩) (⟨h, rfl⟩ | ⟨h, rfl⟩)
    · exact .swap _ _ _
    · exact absurd h (by decide)
    · exact absurd h (by decide)
    · exact .refl _
  have hinvalid : repeated.Rearranges repeatedSwapped := by
    refine ⟨rfl, ?_⟩
    simp only [repeated, repeatedSwapped, List.mem_singleton, Prod.mk.injEq]
    rintro package as bs ⟨rfl, rfl⟩ ⟨-, rfl⟩
    exact (List.Perm.swap _ _ _).trans (((List.Perm.swap _ _ _).cons _).cons _)
  have hmixed : mixed.validate = .ok (.unexplained mixed.names) := rfl
  have hrepeated : repeated.validate = .error (.duplicate "a.F") := by decide +kernel
  have hrepeatedSwapped : repeatedSwapped.validate = .error (.duplicate "a.G") := by
    decide +kernel
  constructor
  · rcases agree_of_rearranges hvalid hlike false default default with
      ⟨cause, -, -, hv, -⟩ | ⟨-, -, -, -, hagree⟩
    · rw [hmixed] at hv
      cases hv
    · have hdelivers := delivers_mixedSource mixed.packages
      have hrun := run_of_delivers default hmixed hdelivers (show false = true → _ by simp)
      rw [hrun] at hagree
      cases hrun' : run mixedWhole false mixedSwapped default with
      | error failure =>
        rw [hrun'] at hagree
        exact hagree.elim
      | ok r' =>
        rw [hrun'] at hagree
        obtain ⟨-, hdigest, hbuild, hlines, -⟩ := hagree
        exact ⟨_, r', hrun, rfl, hdigest, rfl, hbuild.symm, hlines, by decide⟩
  · rcases agree_of_rearranges hinvalid hlike false default default with
      ⟨cause, cause', -, hv, hv', hrun, hrun', -, hcalls⟩ | ⟨⟨p, q, hv, -⟩, -⟩
    · rw [hrepeated] at hv
      rw [hrepeatedSwapped] at hv'
      cases hv
      cases hv'
      exact ⟨hrun, hrun', hcalls⟩
    · rw [hrepeated] at hv
      cases hv

end Check

end InlineAudit
