/-
What a carriage return at the end of a line changes.

A line is read without its end.  Where a carriage return is left on it, the reading is that of the
line without it, but for the last word or text that the line holds:

* `Diagnostic.ReachesEnd` — the reading goes on to the very end of the line;
* `Diagnostic.returned` — a reading whose last text has a carriage return more;
* **`ofChars_return`** — the first kind of line is read with the carriage return, and any other
  line is read as before.
-/
import InlineAudit.Diagnostic
import InlineAudit.Proofs.Text.Search

namespace InlineAudit.Diagnostic

/-- The reading of a line goes on to its end: its last text is a word that no space has ended, or
the rest of the line. -/
def ReachesEnd (cs : List Char) : Prop :=
  match ofChars cs with
  | .header _ => True
  | .inliningCall _ => ∃ rest, after? inliningCallMark cs = some rest ∧ ' ' ∉ rest
  | .canInline _ => ∃ rest, after? canInlineMark cs = some rest ∧ ' ' ∉ rest
  | .cannotInline _ _ => True
  | .other => False

/-- The reading with a carriage return after its last text. -/
def returned : Diagnostic → Diagnostic
  | .header package => .header (package ++ "\r")
  | .inliningCall symbol => .inliningCall (symbol ++ "\r")
  | .canInline symbol => .canInline (symbol ++ "\r")
  | .cannotInline symbol reason => .cannotInline symbol (reason ++ "\r")
  | .other => .other

/-! ### Refusals -/

theorem refusal?_return {cs : List Char} (hn : '\n' ∉ cs) :
    refusal? (cs ++ ['\r']) = (refusal? cs).map fun r => (r.1, r.2 ++ ['\r']) := by
  rw [refusal?, refusal?, splitAtFirst?_concat (by decide)]
  cases hsplit : splitAtFirst? ' ' cs with
  | none => rfl
  | some r =>
    obtain ⟨w, rest⟩ := r
    have hrest : '\n' ∉ rest := by
      rw [of_splitAtFirst?_eq_some hsplit] at hn
      intro h
      exact hn (by simp [h])
    have htake : (rest ++ ['\r']).takeWhile (· ≠ '\n') = rest.takeWhile (· ≠ '\n') ++ ['\r'] := by
      have hnil := takeWhile_ne_of_notMem hrest []
      rw [List.append_nil] at hnil
      rw [takeWhile_ne_of_notMem hrest, hnil]
      simp
    by_cases hw : w.getLast? = some ':'
    · simp only [Option.map_some, if_pos hw, htake]
    · simp only [Option.map_some, if_neg hw, Option.map_none]

theorem firstRefusal?_return {cs : List Char} (hn : '\n' ∉ cs) :
    firstRefusal? (cs ++ ['\r']) = (firstRefusal? cs).map fun r => (r.1, r.2 ++ ['\r']) := by
  induction cs with
  | nil => rfl
  | cons c cs ih =>
    have hdrop := @dropPhrase?_concat cannotInlineMark '\r' (by decide) (c :: cs)
    have hhere : (dropPhrase? cannotInlineMark (c :: cs ++ ['\r'])).bind refusal? =
        ((dropPhrase? cannotInlineMark (c :: cs)).bind refusal?).map
          fun r => (r.1, r.2 ++ ['\r']) := by
      rw [hdrop]
      cases hphrase : dropPhrase? cannotInlineMark (c :: cs) with
      | none => rfl
      | some rest =>
        have hrest : '\n' ∉ rest := by
          rw [dropPhrase?_eq_some_iff.1 hphrase] at hn
          exact fun h => hn (List.mem_append_right _ h)
        exact refusal?_return hrest
    rw [List.cons_append] at hhere
    rw [List.cons_append, firstRefusal?, firstRefusal?, hhere]
    cases (dropPhrase? cannotInlineMark (c :: cs)).bind refusal? with
    | none => exact ih fun h => hn (List.mem_cons_of_mem _ h)
    | some r => rfl

/-! ### Lines -/

/-- A symbol whose text is the rest of the line takes the carriage return in; a space keeps it
out. -/
theorem word_return (rest : List Char) :
    (' ' ∉ rest → String.ofList (word (rest ++ ['\r'])) = String.ofList (word rest) ++ "\r") ∧
      (' ' ∈ rest → word (rest ++ ['\r']) = word rest) := by
  refine ⟨fun h => ?_, fun h => word_concat h '\r'⟩
  have hlonger : ' ' ∉ rest ++ ['\r'] := by simp [h]
  rw [word_of_notMem h, word_of_notMem hlonger, String.ofList_append]

/-- **A carriage return at the end of a line** is read with the text that reaches the end, and
otherwise it is not read at all. -/
theorem ofChars_return {cs : List Char} (hn : '\n' ∉ cs) :
    (ReachesEnd cs → ofChars (cs ++ ['\r']) = (ofChars cs).returned) ∧
      (¬ ReachesEnd cs → ofChars (cs ++ ['\r']) = ofChars cs) := by
  have hheader := @dropPhrase?_concat headerMark '\r' (by decide) cs
  have hcall := @after?_concat inliningCallMark '\r' (by decide) cs
  have hcan := @after?_concat canInlineMark '\r' (by decide) cs
  have hcannot := firstRefusal?_return hn
  -- the searches are those of `ofChars`, in its order
  unfold ReachesEnd ofChars
  rw [hheader, hcall, hcan, hcannot]
  cases dropPhrase? headerMark cs with
  | some package => simp [returned, String.ofList_append]
  | none =>
  cases after? inliningCallMark cs with
  | some rest =>
    simp only [Option.map_some, Option.map_none, Option.some.injEq, exists_eq_left', returned,
      Classical.not_not, inliningCall.injEq]
    exact ⟨(word_return rest).1, fun h => congrArg String.ofList ((word_return rest).2 h)⟩
  | none =>
  cases after? canInlineMark cs with
  | some rest =>
    simp only [Option.map_some, Option.map_none, Option.some.injEq, exists_eq_left', returned,
      Classical.not_not, canInline.injEq]
    exact ⟨(word_return rest).1, fun h => congrArg String.ofList ((word_return rest).2 h)⟩
  | none =>
  cases firstRefusal? cs with
  | some r => simp [returned, String.ofList_append]
  | none => simp

/-- The carriage return shows where it is read. -/
theorem returned_ne {cs : List Char} (h : ReachesEnd cs) : (ofChars cs).returned ≠ ofChars cs := by
  rw [ReachesEnd] at h
  cases hd : ofChars cs with
  | other => simp [hd] at h
  | _ => simp [returned]

/-- A line keeps its reading exactly when that does not reach its end. -/
theorem ofChars_return_eq_iff {cs : List Char} (hn : '\n' ∉ cs) :
    ofChars (cs ++ ['\r']) = ofChars cs ↔ ¬ ReachesEnd cs := by
  refine ⟨fun h hreach => returned_ne hreach ?_, (ofChars_return hn).2⟩
  rw [← (ofChars_return hn).1 hreach, h]

end InlineAudit.Diagnostic
