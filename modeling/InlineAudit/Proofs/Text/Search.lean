/-
Searches in a text that goes on by one character.

A phrase that does not hold the new character is found where it was found before, and what follows
it goes on:

* `dropPhrase?_eq_some_iff` — what a phrase leaves of a text that starts with it;
* `dropPhrase?_concat`, `after?_concat`, `splitAtFirst?_concat` — the searches, one by one;
* `word_of_notMem`, `word_append_space` — where a word ends, and `word_concat` — a word that has
  ended does not go on.
-/
import InlineAudit.Text.Search

namespace InlineAudit

theorem dropPhrase?_eq_some_iff {phrase cs rest : List Char} :
    dropPhrase? phrase cs = some rest ↔ cs = phrase ++ rest := by
  induction phrase generalizing cs with
  | nil => simp [dropPhrase?]
  | cons p ps ih =>
    cases cs with
    | nil => simp [dropPhrase?]
    | cons c cs =>
      by_cases h : p = c
      · simp [dropPhrase?, h, ih]
      · simp [dropPhrase?, h, Ne.symm h]

variable {phrase : List Char} {c : Char}

theorem dropPhrase?_concat (h : c ∉ phrase) (cs : List Char) :
    dropPhrase? phrase (cs ++ [c]) = (dropPhrase? phrase cs).map (· ++ [c]) := by
  induction phrase generalizing cs with
  | nil => rfl
  | cons p ps ih =>
    rw [List.mem_cons, not_or] at h
    cases cs with
    | nil => simp [dropPhrase?, Ne.symm h.1]
    | cons d ds =>
      rw [List.cons_append, dropPhrase?, dropPhrase?]
      by_cases hp : p = d
      · rw [if_pos hp, if_pos hp]
        exact ih h.2 ds
      · rw [if_neg hp, if_neg hp]
        rfl

theorem after?_concat (h : c ∉ phrase) (cs : List Char) :
    after? phrase (cs ++ [c]) = (after? phrase cs).map (· ++ [c]) := by
  induction cs with
  | nil =>
    have hdrop := dropPhrase?_concat h []
    rw [List.nil_append] at hdrop
    simp only [List.nil_append, after?]
    rw [hdrop]
    cases dropPhrase? phrase [] <;> rfl
  | cons d ds ih =>
    have hdrop := dropPhrase?_concat h (d :: ds)
    rw [List.cons_append] at hdrop
    rw [List.cons_append, after?, after?, hdrop]
    cases dropPhrase? phrase (d :: ds) with
    | none => exact ih
    | some rest => rfl

/-! ### Words and cuts -/

theorem takeWhile_ne_of_notMem {sep : Char} {w : List Char} (h : sep ∉ w) (cs : List Char) :
    (w ++ cs).takeWhile (· ≠ sep) = w ++ cs.takeWhile (· ≠ sep) := by
  refine List.takeWhile_append_of_pos fun a ha => ?_
  rw [decide_eq_true_iff]
  rintro rfl
  exact h ha

theorem dropWhile_ne_of_notMem {sep : Char} {w : List Char} (h : sep ∉ w) (cs : List Char) :
    (w ++ cs).dropWhile (· ≠ sep) = cs.dropWhile (· ≠ sep) := by
  refine List.dropWhile_append_of_pos fun a ha => ?_
  rw [decide_eq_true_iff]
  rintro rfl
  exact h ha

theorem word_of_notMem {w : List Char} (h : ' ' ∉ w) : word w = w := by
  have hw := takeWhile_ne_of_notMem h []
  rwa [List.append_nil, List.takeWhile_nil, List.append_nil] at hw

theorem word_append_space {w : List Char} (h : ' ' ∉ w) (cs : List Char) :
    word (w ++ ' ' :: cs) = w := by
  rw [word, takeWhile_ne_of_notMem h, List.takeWhile_cons_of_neg (by simp), List.append_nil]

/-- A word that a space has ended stays as it is. -/
theorem word_concat {cs : List Char} (h : ' ' ∈ cs) (c : Char) : word (cs ++ [c]) = word cs := by
  obtain ⟨w, rest, rfl, hw⟩ := List.eq_append_cons_of_mem h
  rw [List.append_assoc, List.cons_append, word_append_space hw, word_append_space hw]

theorem splitAtFirst?_of_notMem {sep : Char} {w : List Char} (h : sep ∉ w) :
    splitAtFirst? sep w = none := by
  have hw := dropWhile_ne_of_notMem h []
  rw [List.append_nil, List.dropWhile_nil] at hw
  rw [splitAtFirst?, hw]

theorem splitAtFirst?_append {sep : Char} {w : List Char} (h : sep ∉ w) (cs : List Char) :
    splitAtFirst? sep (w ++ sep :: cs) = some (w, cs) := by
  rw [splitAtFirst?, dropWhile_ne_of_notMem h, takeWhile_ne_of_notMem h,
    List.dropWhile_cons_of_neg (by simp), List.takeWhile_cons_of_neg (by simp), List.append_nil]

theorem splitAtFirst?_concat {sep : Char} (h : c ≠ sep) (cs : List Char) :
    splitAtFirst? sep (cs ++ [c]) = (splitAtFirst? sep cs).map fun r => (r.1, r.2 ++ [c]) := by
  by_cases hcs : sep ∈ cs
  · obtain ⟨w, rest, rfl, hw⟩ := List.eq_append_cons_of_mem hcs
    rw [List.append_assoc, List.cons_append, splitAtFirst?_append hw, splitAtFirst?_append hw]
    rfl
  · have hlonger : sep ∉ cs ++ [c] := by simp [hcs, Ne.symm h]
    rw [splitAtFirst?_of_notMem hcs, splitAtFirst?_of_notMem hlonger]
    rfl

theorem of_splitAtFirst?_eq_some {sep : Char} {cs w rest : List Char}
    (h : splitAtFirst? sep cs = some (w, rest)) : cs = w ++ sep :: rest := by
  by_cases hcs : sep ∈ cs
  · obtain ⟨w', rest', rfl, hw⟩ := List.eq_append_cons_of_mem hcs
    rw [splitAtFirst?_append hw, Option.some.injEq, Prod.mk.injEq] at h
    rw [h.1, h.2]
  · rw [splitAtFirst?_of_notMem hcs] at h
    exact absurd h.symm (Option.some_ne_none _)

end InlineAudit
