/-
When the order of the names shows.

What is pending is a finite map, and a map may give its entries in any order.  The issues are sorted
by their lines, and entries whose lines are equal are left in the order in which they come.

* `text_eq_text_iff` — two issues have one line when the name of one goes on, after a colon and a
  space, where the other has its reason;
* `Pending.Reordered` — the same map, with its entries in another order;
* `Pending.Clashes` — two entries that have one line;
* `map_text_issues_of_reordered` — the lines do not depend on the order;
* **`forall_reordered_iff`** — the issues do, exactly where two entries clash.
-/
import InlineAudit.Proofs.Pending.Issues
import Mathlib.Data.List.Nodup

open scoped List

namespace InlineAudit

/-! ### Lines that are equal -/

/-- Where a colon and a space end a text and also stand further left, the two places are the same or
do not overlap. -/
theorem colon_space_append_eq_iff {gap a b : List Char} :
    ':' :: ' ' :: a = gap ++ ':' :: ' ' :: b ↔
      gap = [] ∧ a = b ∨
        ∃ between, gap = ':' :: ' ' :: between ∧ a = between ++ ':' :: ' ' :: b := by
  rcases gap with _ | ⟨c, _ | ⟨d, between⟩⟩
  · simp
  · -- a gap of one character would be the colon, and the space would be a colon
    simp
  · simp only [List.cons_append, List.cons.injEq, reduceCtorEq, false_and, false_or]
    constructor
    · rintro ⟨rfl, rfl, rfl⟩
      exact ⟨between, ⟨rfl, rfl, rfl⟩, rfl⟩
    · rintro ⟨_, ⟨rfl, rfl, rfl⟩, rfl⟩
      exact ⟨rfl, rfl, rfl⟩

namespace Issue

variable {i j : Issue}

theorem eq_of_fields (hname : i.name = j.name) (hreason : i.reason = j.reason) : i = j := by
  cases i
  cases j
  cases hname
  cases hreason
  rfl

/-- The name of the second goes on where the first has its reason. -/
def Overlaps (i j : Issue) : Prop :=
  ∃ between, j.name = i.name ++ ": " ++ between ∧ i.reason = between ++ ": " ++ j.reason

theorem Overlaps.text_eq (h : i.Overlaps j) : i.text = j.text := by
  obtain ⟨between, hname, hreason⟩ := h
  rw [text, text, hname, hreason]
  simp only [String.append_assoc]

theorem Overlaps.ne (h : i.Overlaps j) : i ≠ j := by
  obtain ⟨between, hname, -⟩ := h
  rintro rfl
  -- the second name is longer
  have hlength := congrArg (fun s : String => s.toList.length) hname
  simp only [String.toList_append, List.length_append] at hlength
  have hsep : ": ".toList.length = 2 := rfl
  omega

theorem toList_text (i : Issue) :
    i.text.toList = i.name.toList ++ ':' :: ' ' :: i.reason.toList := by
  rw [text, String.toList_append, String.toList_append, List.append_assoc]
  rfl

theorem overlaps_of_append {gap : List Char} (hname : j.name.toList = i.name.toList ++ gap)
    (hrest : ':' :: ' ' :: i.reason.toList = gap ++ ':' :: ' ' :: j.reason.toList) :
    i = j ∨ i.Overlaps j := by
  -- the second name is at least as long as the first; what it has more is the gap
  rcases colon_space_append_eq_iff.1 hrest with ⟨rfl, hreason⟩ | ⟨between, rfl, hreason⟩
  · rw [List.append_nil, String.toList_inj] at hname
    rw [String.toList_inj] at hreason
    exact .inl (eq_of_fields hname.symm hreason)
  · refine .inr ⟨String.ofList between, ?_, ?_⟩
    · rw [← String.toList_inj, hname]
      simp
    · rw [← String.toList_inj, hreason]
      simp

/-- **Two issues have one line** when they are the same, or when one of them goes on with its name
where the other has its reason. -/
theorem text_eq_text_iff : i.text = j.text ↔ i = j ∨ i.Overlaps j ∨ j.Overlaps i := by
  constructor
  · intro h
    rw [← String.toList_inj, toList_text, toList_text] at h
    rcases List.append_eq_append_iff.1 h with ⟨gap, hname, hrest⟩ | ⟨gap, hname, hrest⟩
    · rcases overlaps_of_append hname hrest with heq | hover
      · exact .inl heq
      · exact .inr (.inl hover)
    · rcases overlaps_of_append hname hrest with heq | hover
      · exact .inl heq.symm
      · exact .inr (.inr hover)
  · rintro (rfl | h | h)
    · rfl
    · exact h.text_eq
    · exact h.text_eq.symm

/-! ### Sorting leaves equal lines as they come -/

/-- Of two issues with one line the one that comes first stays first. -/
theorem pair_sublist_sorted {is : List Issue} (h : i.text = j.text) (hij : [i, j] <+ is) :
    [i, j] <+ sorted is := by
  refine List.pair_sublist_mergeSort (fun a b c => Text.decide_le_trans a.text b.text c.text)
    (fun a b => Text.decide_le_total a.text b.text) ?_ hij
  rw [h]
  exact decide_eq_true (String.le_refl j.text)

/-- Issues that all have lines of their own are sorted in one way. -/
theorem sorted_eq_of_perm {is js : List Issue} (h : is.Perm js)
    (hinj : ∀ i ∈ is, ∀ j ∈ is, i.text = j.text → i = j) : sorted is = sorted js := by
  have hperm : (sorted is).Perm (sorted js) :=
    (perm_sorted is).trans (h.trans (perm_sorted js).symm)
  refine hperm.eq_of_pairwise ?_ (pairwise_sorted is) (pairwise_sorted js)
  intro i j hi hj hij hji
  have hi := (perm_sorted is).mem_iff.1 hi
  have hj := h.mem_iff.2 ((perm_sorted js).mem_iff.1 hj)
  exact hinj i hi j hj (String.le_antisymm hij hji)

end Issue

/-- In a list without repetitions two elements have one order. -/
theorem not_sublist_swap {α : Type} {a b : α} {xs : List α} (hxs : xs.Nodup)
    (hab : [a, b] <+ xs) : ¬ [b, a] <+ xs := by
  intro hba
  obtain ⟨front, back, rfl, ha, hb⟩ := List.cons_sublist_iff.1 hab
  obtain ⟨front', back', hcut, hb', ha'⟩ := List.cons_sublist_iff.1 hba
  rw [List.singleton_sublist] at hb ha'
  obtain ⟨-, -, hapart⟩ := List.nodup_append.1 hxs
  rw [hcut] at hxs
  obtain ⟨-, -, hapart'⟩ := List.nodup_append.1 hxs
  -- one of the two fronts is a part of the other, and so holds both elements
  rcases List.append_eq_append_iff.1 hcut with ⟨gap, rfl, -⟩ | ⟨gap, rfl, -⟩
  · exact hapart' a (List.mem_append_left _ ha) a ha' rfl
  · exact hapart b (List.mem_append_left _ hb') b hb rfl

namespace Pending

variable {p q r : Pending}

/-- The same map, with its entries in another order. -/
structure Reordered (p q : Pending) : Prop where
  entries : p.entries.Perm q.entries
  package : p.package = q.package

/-- Two entries have one line: a name that goes on, after a colon and a space, where another has its
reason. -/
def Clashes (p : Pending) : Prop :=
  ∃ name between reason, (name, between ++ ": " ++ reason) ∈ p.entries ∧
    (name ++ ": " ++ between, reason) ∈ p.entries

/-- The issues of the entries, in their order. -/
def unsorted (p : Pending) : List Issue :=
  p.entries.map fun e => ⟨e.1, e.2⟩

theorem mem_unsorted_iff {i : Issue} : i ∈ p.unsorted ↔ (i.name, i.reason) ∈ p.entries := by
  rw [unsorted, List.mem_map]
  constructor
  · rintro ⟨e, he, rfl⟩
    exact he
  · intro h
    exact ⟨_, h, rfl⟩

theorem clashes_iff : p.Clashes ↔ ∃ i ∈ p.unsorted, ∃ j ∈ p.unsorted, i.Overlaps j := by
  constructor
  · rintro ⟨name, between, reason, hi, hj⟩
    exact ⟨⟨name, between ++ ": " ++ reason⟩, mem_unsorted_iff.2 hi,
      ⟨name ++ ": " ++ between, reason⟩, mem_unsorted_iff.2 hj, between, rfl, rfl⟩
  · rintro ⟨i, hi, j, hj, between, hname, hreason⟩
    rw [mem_unsorted_iff] at hi hj
    exact ⟨i.name, between, j.reason, hreason ▸ hi, hname ▸ hj⟩

theorem Reordered.unsorted (h : p.Reordered q) : p.unsorted.Perm q.unsorted :=
  h.entries.map _

theorem Reordered.issues_perm (h : p.Reordered q) : p.issues.Perm q.issues :=
  (Issue.perm_sorted _).trans (h.unsorted.trans (Issue.perm_sorted _).symm)

theorem map_text_issues_of_reordered (h : p.Reordered q) :
    p.issues.map Issue.text = q.issues.map Issue.text := by
  show (Issue.sorted p.unsorted).map Issue.text = (Issue.sorted q.unsorted).map Issue.text
  rw [Issue.map_text_sorted, Issue.map_text_sorted]
  exact Text.ascending_of_perm (h.unsorted.map _)

theorem issues_eq_of_not_clashes (hclash : ¬ p.Clashes) (h : p.Reordered q) :
    p.issues = q.issues := by
  refine Issue.sorted_eq_of_perm h.unsorted fun i hi j hj htext => ?_
  rw [clashes_iff] at hclash
  rcases Issue.text_eq_text_iff.1 htext with heq | hover | hover
  · exact heq
  · exact absurd ⟨i, hi, j, hj, hover⟩ hclash
  · exact absurd ⟨j, hj, i, hi, hover⟩ hclash

/-- Two entries that clash can be put first, in both orders, and stay in that order. -/
theorem exists_reordered_of_clashes (hnames : p.names.Nodup) (hclash : p.Clashes) :
    ∃ q r, p.Reordered q ∧ p.Reordered r ∧ q.issues ≠ r.issues := by
  obtain ⟨i, hi, j, hj, hover⟩ := clashes_iff.1 hclash
  rw [mem_unsorted_iff] at hi hj
  have hj' : (j.name, j.reason) ∈ p.entries.erase (i.name, i.reason) := by
    refine (List.mem_erase_of_ne fun heq => hover.ne ?_).2 hj
    obtain ⟨hname, hreason⟩ := Prod.mk.inj heq
    exact Issue.eq_of_fields hname.symm hreason.symm
  let rest := (p.entries.erase (i.name, i.reason)).erase (j.name, j.reason)
  have hrest : p.entries.Perm ((i.name, i.reason) :: (j.name, j.reason) :: rest) :=
    (List.perm_cons_erase hi).trans ((List.perm_cons_erase hj').cons _)
  let q : Pending := ⟨(i.name, i.reason) :: (j.name, j.reason) :: rest, p.package⟩
  let r : Pending := ⟨(j.name, j.reason) :: (i.name, i.reason) :: rest, p.package⟩
  have hq : p.Reordered q := ⟨hrest, rfl⟩
  have hr : p.Reordered r := ⟨hrest.trans (.swap _ _ _), rfl⟩
  refine ⟨q, r, hq, hr, fun heq => ?_⟩
  -- sorting leaves the two in the order in which they come, and the orders are opposite
  have hnodup : q.issues.Nodup := by
    refine List.Nodup.of_map Issue.name (nodup_names_issues ?_)
    exact (hq.entries.map Prod.fst).nodup_iff.1 hnames
  have hfirst : [i, j] <+ q.issues :=
    Issue.pair_sublist_sorted hover.text_eq (((List.nil_sublist _).cons_cons _).cons_cons _)
  have hsecond : [j, i] <+ r.issues :=
    Issue.pair_sublist_sorted hover.text_eq.symm (((List.nil_sublist _).cons_cons _).cons_cons _)
  rw [← heq] at hsecond
  exact not_sublist_swap hnodup hfirst hsecond

/-- **The order of the entries does not show unless two of them clash.** -/
theorem forall_reordered_iff (hnames : p.names.Nodup) :
    (∀ q r, p.Reordered q → p.Reordered r → q.issues = r.issues) ↔ ¬ p.Clashes := by
  constructor
  · intro h hclash
    obtain ⟨q, r, hq, hr, hne⟩ := exists_reordered_of_clashes hnames hclash
    exact hne (h q r hq hr)
  · intro hclash q r hq hr
    rw [← issues_eq_of_not_clashes hclash hq, issues_eq_of_not_clashes hclash hr]

end Pending

end InlineAudit
