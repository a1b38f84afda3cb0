/-
What a search finds, said without the search.

* `Leftmost` — of the places in a text from which on a property holds, the one that comes first;
* `LongestRun` — the longest start of a text that is free of a character;
* `exists_leftmost_iff` — where there is such a place at all, one comes first;
* `after?_eq_some_iff`, `after?_eq_none_iff` — the search for a phrase;
* `longestRun_iff`, `splitAtFirst?_eq_some_iff` — a run, and a run that a separator ends.

A place is given by the text from there on, an end of the whole text, so that the first place is the
longest of such ends.
-/
import InlineAudit.Proofs.Text.Search

namespace InlineAudit

/-- Of the places in a text from which on a property holds, the one that comes first. -/
structure Leftmost (Holds : List Char → Prop) (text here : List Char) : Prop where
  suffix : here <:+ text
  holds : Holds here
  longest : ∀ other, other <:+ text → Holds other → other.length ≤ here.length

/-- The longest start of a text that is free of a character. -/
structure LongestRun (sep : Char) (text run : List Char) : Prop where
  starts : run <+: text
  free : sep ∉ run
  longest : ∀ other, other <+: text → sep ∉ other → other.length ≤ run.length

/-! ### The first place -/

section Leftmost

variable {Holds : List Char → Prop} {c : Char} {text here : List Char}

theorem leftmost_nil_iff : Leftmost Holds [] here ↔ here = [] ∧ Holds [] := by
  constructor
  · rintro ⟨hsuffix, hholds, -⟩
    obtain rfl := List.suffix_nil.1 hsuffix
    exact ⟨rfl, hholds⟩
  · rintro ⟨rfl, hholds⟩
    exact ⟨List.suffix_rfl, hholds, fun other hother _ => hother.length_le⟩

theorem leftmost_cons_of_holds (h : Holds (c :: text)) :
    Leftmost Holds (c :: text) here ↔ here = c :: text := by
  constructor
  · intro hhere
    exact hhere.suffix.eq_of_length_le (hhere.longest _ List.suffix_rfl h)
  · rintro rfl
    exact ⟨List.suffix_rfl, h, fun other hother _ => hother.length_le⟩

theorem leftmost_cons_of_not_holds (h : ¬ Holds (c :: text)) :
    Leftmost Holds (c :: text) here ↔ Leftmost Holds text here := by
  -- an end of the longer text that has the property is an end of the shorter one
  have hshorter : ∀ other, other <:+ c :: text → Holds other → other <:+ text := by
    intro other hother hholds
    rcases List.suffix_cons_iff.1 hother with rfl | hother
    · exact absurd hholds h
    · exact hother
  constructor
  · rintro ⟨hsuffix, hholds, hlongest⟩
    refine ⟨hshorter _ hsuffix hholds, hholds, fun other hother => ?_⟩
    exact hlongest other (hother.trans (List.suffix_cons c text))
  · rintro ⟨hsuffix, hholds, hlongest⟩
    refine ⟨hsuffix.trans (List.suffix_cons c text), hholds, fun other hother hother' => ?_⟩
    exact hlongest other (hshorter other hother hother') hother'

theorem exists_leftmost_iff :
    (∃ here, Leftmost Holds text here) ↔ ∃ here, here <:+ text ∧ Holds here := by
  refine ⟨fun ⟨here, h⟩ => ⟨here, h.suffix, h.holds⟩, ?_⟩
  rintro ⟨here, hsuffix, hholds⟩
  -- the whole text comes before all its other ends
  induction text with
  | nil =>
    obtain rfl := List.suffix_nil.1 hsuffix
    exact ⟨[], leftmost_nil_iff.2 ⟨rfl, hholds⟩⟩
  | cons c text ih =>
    by_cases hc : Holds (c :: text)
    · exact ⟨c :: text, (leftmost_cons_of_holds hc).2 rfl⟩
    · rcases List.suffix_cons_iff.1 hsuffix with rfl | hsuffix
      · exact absurd hholds hc
      · obtain ⟨first, hfirst⟩ := ih hsuffix
        exact ⟨first, (leftmost_cons_of_not_holds hc).2 hfirst⟩

end Leftmost

/-! ### Phrases -/

variable {phrase text rest : List Char}

theorem dropPhrase?_eq_none_iff : dropPhrase? phrase text = none ↔ ¬ phrase <+: text := by
  rw [Option.eq_none_iff_forall_ne_some]
  simp only [ne_eq, dropPhrase?_eq_some_iff]
  exact ⟨fun h ⟨rest, hrest⟩ => h rest hrest.symm, fun h rest hrest => h ⟨rest, hrest.symm⟩⟩

theorem after?_eq_some_iff :
    after? phrase text = some rest ↔ Leftmost (phrase <+: ·) text (phrase ++ rest) := by
  -- on the text: its first character is where the phrase begins, or every place is further on
  induction text with
  | nil =>
    rw [after?, dropPhrase?_eq_some_iff, leftmost_nil_iff, eq_comm]
    exact ⟨fun h => ⟨h, h ▸ List.prefix_append phrase rest⟩, And.left⟩
  | cons c text ih =>
    rw [after?]
    cases hdrop : dropPhrase? phrase (c :: text) with
    | none =>
      rw [leftmost_cons_of_not_holds (dropPhrase?_eq_none_iff.1 hdrop)]
      exact ih
    | some tail =>
      have htail := dropPhrase?_eq_some_iff.1 hdrop
      have hstarts : phrase <+: c :: text := ⟨tail, htail.symm⟩
      rw [leftmost_cons_of_holds hstarts, htail, List.append_cancel_left_eq, Option.some.injEq,
        eq_comm]

theorem after?_eq_none_iff : after? phrase text = none ↔ ¬ phrase <:+: text := by
  have hfound : (∃ rest, after? phrase text = some rest) ↔ phrase <:+: text := by
    simp only [after?_eq_some_iff]
    rw [List.infix_iff_prefix_suffix]
    constructor
    · rintro ⟨rest, h⟩
      exact ⟨phrase ++ rest, h.holds, h.suffix⟩
    · rintro ⟨here, hholds, hsuffix⟩
      -- there is an occurrence, so there is a first one
      obtain ⟨first, hfirst⟩ := exists_leftmost_iff.2 ⟨here, hsuffix, hholds⟩
      obtain ⟨rest, rfl⟩ := hfirst.holds
      exact ⟨rest, hfirst⟩
  rw [← hfound, Option.eq_none_iff_forall_ne_some]
  exact not_exists.symm

/-! ### Runs -/

variable {sep : Char} {run : List Char}

theorem longestRun_takeWhile (sep : Char) (text : List Char) :
    LongestRun sep text (text.takeWhile (· ≠ sep)) where
  starts := List.takeWhile_prefix _
  free := by
    intro h
    have hne := List.all_eq_true.1 List.all_takeWhile sep h
    exact of_decide_eq_true hne rfl
  longest := by
    rintro other ⟨tail, rfl⟩ hother
    rw [takeWhile_ne_of_notMem hother, List.length_append]
    exact Nat.le_add_right _ _

theorem longestRun_iff : LongestRun sep text run ↔ text.takeWhile (· ≠ sep) = run := by
  constructor
  · intro h
    have htake := longestRun_takeWhile sep text
    -- two starts of one text, neither longer than the other
    refine (List.prefix_of_prefix_length_le htake.starts h.starts ?_).eq_of_length_le ?_
    · exact h.longest _ htake.starts htake.free
    · exact htake.longest _ h.starts h.free
  · rintro rfl
    exact longestRun_takeWhile sep text

theorem splitAtFirst?_eq_some_iff {tail : List Char} :
    splitAtFirst? sep text = some (run, tail) ↔
      text = run ++ sep :: tail ∧ LongestRun sep text run := by
  constructor
  · intro h
    obtain rfl := of_splitAtFirst?_eq_some h
    refine ⟨rfl, ?_⟩
    rw [longestRun_iff]
    rw [splitAtFirst?] at h
    split at h
    · cases h
    · exact congrArg Prod.fst (Option.some.inj h)
  · rintro ⟨rfl, hrun⟩
    exact splitAtFirst?_append hrun.free tail

end InlineAudit
