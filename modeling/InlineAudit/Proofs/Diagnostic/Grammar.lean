/-
The grammar of a line.

What a line says is given here without the way it is found: by where phrases stand in it and how far
words reach.

* `Refuses` — a text that starts with a refusal, with its symbol and reason;
* `Says` — what a line says, one case for each kind of line;
* `firstRefusal?_eq_some_iff` — the search for a refusal finds the first;
* **`ofLine_eq_iff`** — a line is read as what it says.

A phrase "cannot inline" that no symbol with a colon and a space follows is passed over, and what
follows it may hold the phrase again, even one that overlaps it.
-/
import InlineAudit.Diagnostic
import InlineAudit.Proofs.Text.Occurrence

namespace InlineAudit.Diagnostic

/-- The text starts with a refusal: the phrase, a longest run without a space that ends in a colon,
and a space after it.  The symbol is the run without that colon, and the reason is what follows the
space, up to the end of the line. -/
def Refuses (text symbol reason : List Char) : Prop :=
  ∃ rest tail, text = cannotInlineMark ++ rest ∧ LongestRun ' ' rest (symbol ++ [':']) ∧
    rest = symbol ++ [':'] ++ ' ' :: tail ∧ LongestRun '\n' tail reason

/-- The text starts with some refusal. -/
def IsRefusal (text : List Char) : Prop :=
  ∃ symbol reason, Refuses text symbol reason

/-- What a line says. -/
inductive Says (line : List Char) : Diagnostic → Prop
  /-- The line starts with the mark of a header. -/
  | header {package : List Char} :
      line = headerMark ++ package → Says line (.header (.ofList package))
  /-- The word after the first "inlining call to". -/
  | inliningCall {rest symbol : List Char} :
      ¬ headerMark <+: line →
      Leftmost (inliningCallMark <+: ·) line (inliningCallMark ++ rest) →
      LongestRun ' ' rest symbol → Says line (.inliningCall (.ofList symbol))
  /-- The word after the first "can inline". -/
  | canInline {rest symbol : List Char} :
      ¬ headerMark <+: line → ¬ inliningCallMark <:+: line →
      Leftmost (canInlineMark <+: ·) line (canInlineMark ++ rest) →
      LongestRun ' ' rest symbol → Says line (.canInline (.ofList symbol))
  /-- The first refusal. -/
  | cannotInline {here symbol reason : List Char} :
      ¬ headerMark <+: line → ¬ inliningCallMark <:+: line → ¬ canInlineMark <:+: line →
      Leftmost IsRefusal line here →
      Refuses here symbol reason → Says line (.cannotInline (.ofList symbol) (.ofList reason))
  /-- None of these. -/
  | other :
      ¬ headerMark <+: line → ¬ inliningCallMark <:+: line → ¬ canInlineMark <:+: line →
      (∀ here, here <:+ line → ¬ IsRefusal here) → Says line .other

/-! ### Refusals -/

variable {text here symbol reason : List Char}

theorem refusal?_eq_some_iff {rest : List Char} :
    refusal? rest = some (symbol, reason) ↔
      ∃ tail, LongestRun ' ' rest (symbol ++ [':']) ∧ rest = symbol ++ [':'] ++ ' ' :: tail ∧
        LongestRun '\n' tail reason := by
  rw [refusal?]
  constructor
  · intro h
    cases hsplit : splitAtFirst? ' ' rest with
    | none =>
      rw [hsplit] at h
      cases h
    | some cut =>
      obtain ⟨run, tail⟩ := cut
      rw [hsplit] at h
      obtain ⟨hrest, hrun⟩ := splitAtFirst?_eq_some_iff.1 hsplit
      by_cases hcolon : run.getLast? = some ':'
      · simp only [if_pos hcolon, Option.some.injEq, Prod.mk.injEq] at h
        obtain ⟨rfl, rfl⟩ := h
        obtain ⟨symbol, rfl⟩ := List.getLast?_eq_some_iff.1 hcolon
        rw [List.dropLast_concat]
        exact ⟨tail, hrun, hrest, longestRun_takeWhile '\n' tail⟩
      · simp only [if_neg hcolon] at h
        cases h
  · rintro ⟨tail, hrun, hrest, hreason⟩
    have hsplit := splitAtFirst?_eq_some_iff.2 ⟨hrest, hrun⟩
    rw [longestRun_iff] at hreason
    rw [hsplit]
    simp only [List.getLast?_concat, List.dropLast_concat, hreason, if_true]

theorem refuses_iff :
    Refuses text symbol reason ↔
      (dropPhrase? cannotInlineMark text).bind refusal? = some (symbol, reason) := by
  simp only [Option.bind_eq_some_iff, dropPhrase?_eq_some_iff, refusal?_eq_some_iff]
  constructor
  · rintro ⟨rest, tail, htext, h⟩
    exact ⟨rest, htext, tail, h⟩
  · rintro ⟨rest, htext, tail, h⟩
    exact ⟨rest, tail, htext, h⟩

theorem firstRefusal?_eq_some_iff :
    firstRefusal? text = some (symbol, reason) ↔
      ∃ here, Leftmost IsRefusal text here ∧ Refuses here symbol reason := by
  -- a phrase that starts no refusal is left by one character only, so no later one is skipped
  induction text with
  | nil =>
    have hnone : ¬ Refuses [] symbol reason := by
      rw [refuses_iff]
      exact fun h => nomatch h
    constructor
    · intro h
      cases h
    · rintro ⟨here, hfirst, hhere⟩
      obtain ⟨rfl, -⟩ := leftmost_nil_iff.1 hfirst
      exact absurd hhere hnone
  | cons c text ih =>
    rw [firstRefusal?]
    cases hhere : (dropPhrase? cannotInlineMark (c :: text)).bind refusal? with
    | none =>
      have hnot : ¬ IsRefusal (c :: text) := by
        rintro ⟨s, r, h⟩
        rw [refuses_iff, hhere] at h
        cases h
      simp only [leftmost_cons_of_not_holds hnot]
      exact ih
    | some found =>
      have hrefusal : IsRefusal (c :: text) := ⟨found.1, found.2, refuses_iff.2 hhere⟩
      simp only [leftmost_cons_of_holds hrefusal, exists_eq_left]
      rw [refuses_iff, hhere]

theorem firstRefusal?_eq_none_iff :
    firstRefusal? text = none ↔ ∀ here, here <:+ text → ¬ IsRefusal here := by
  have hfound : (∃ r, firstRefusal? text = some r) ↔ ∃ here, here <:+ text ∧ IsRefusal here := by
    rw [← exists_leftmost_iff, Prod.exists]
    simp only [firstRefusal?_eq_some_iff]
    constructor
    · rintro ⟨symbol, reason, here, hfirst, -⟩
      exact ⟨here, hfirst⟩
    · rintro ⟨here, hfirst⟩
      obtain ⟨symbol, reason, hhere⟩ := hfirst.holds
      exact ⟨symbol, reason, here, hfirst, hhere⟩
  rw [Option.eq_none_iff_forall_ne_some]
  constructor
  · intro h here hsuffix hhere
    obtain ⟨r, hr⟩ := hfound.2 ⟨here, hsuffix, hhere⟩
    exact h r hr
  · intro h r hr
    obtain ⟨here, hsuffix, hhere⟩ := hfound.1 ⟨r, hr⟩
    exact h here hsuffix hhere

/-! ### Lines -/

theorem says_ofChars (line : List Char) : Says line (ofChars line) := by
  rw [ofChars]
  -- the searches one by one, each after those before it have found nothing
  cases hheader : dropPhrase? headerMark line with
  | some package => exact .header (dropPhrase?_eq_some_iff.1 hheader)
  | none =>
  rw [dropPhrase?_eq_none_iff] at hheader
  cases hcall : after? inliningCallMark line with
  | some rest =>
    exact .inliningCall hheader (after?_eq_some_iff.1 hcall) (longestRun_takeWhile ' ' rest)
  | none =>
  rw [after?_eq_none_iff] at hcall
  cases hcan : after? canInlineMark line with
  | some rest =>
    exact .canInline hheader hcall (after?_eq_some_iff.1 hcan) (longestRun_takeWhile ' ' rest)
  | none =>
  rw [after?_eq_none_iff] at hcan
  cases hrefusal : firstRefusal? line with
  | some found =>
    obtain ⟨here, hfirst, hhere⟩ := firstRefusal?_eq_some_iff.1 hrefusal
    exact .cannotInline hheader hcall hcan hfirst hhere
  | none => exact .other hheader hcall hcan (firstRefusal?_eq_none_iff.1 hrefusal)

theorem Says.ofChars_eq {line : List Char} {d : Diagnostic} (h : Says line d) :
    ofChars line = d := by
  -- each case fixes what its search finds, and that the searches before it find nothing
  cases h with
  | header hline => simp only [ofChars, dropPhrase?_eq_some_iff.2 hline]
  | inliningCall hheader hfirst hword =>
    simp only [ofChars, dropPhrase?_eq_none_iff.2 hheader, after?_eq_some_iff.2 hfirst, word,
      longestRun_iff.1 hword]
  | canInline hheader hcall hfirst hword =>
    simp only [ofChars, dropPhrase?_eq_none_iff.2 hheader, after?_eq_none_iff.2 hcall,
      after?_eq_some_iff.2 hfirst, word, longestRun_iff.1 hword]
  | cannotInline hheader hcall hcan hfirst hhere =>
    simp only [ofChars, dropPhrase?_eq_none_iff.2 hheader, after?_eq_none_iff.2 hcall,
      after?_eq_none_iff.2 hcan, firstRefusal?_eq_some_iff.2 ⟨_, hfirst, hhere⟩]
  | other hheader hcall hcan hnone =>
    simp only [ofChars, dropPhrase?_eq_none_iff.2 hheader, after?_eq_none_iff.2 hcall,
      after?_eq_none_iff.2 hcan, firstRefusal?_eq_none_iff.2 hnone]

/-- **A line is read as what it says.** -/
theorem ofLine_eq_iff (line : String) (d : Diagnostic) : ofLine line = d ↔ Says line.toList d := by
  constructor
  · rintro rfl
    exact says_ofChars line.toList
  · exact Says.ofChars_eq

example : ofLine "x: cannot inline F : cannot inline G:: a: b" = .cannotInline "G:" "a: b" := by
  decide +kernel

end InlineAudit.Diagnostic
