/-
What is left, as issues.

* `Issue.perm_sorted`, `Issue.pairwise_sorted` — sorting keeps the issues and puts their lines in
  order, and the order is that of the printed bytes;
* `Text.ascending_of_perm`, `Issue.map_text_sorted` — the lines in order are known from the lines in
  any order;
* `Pending.mem_issues_iff`, `Pending.nodup_names_issues` — one issue for each name that is left,
  with its reason.
-/
import InlineAudit.Proofs.Pending.Scan
import InlineAudit.Proofs.Text.ByteOrder

namespace InlineAudit

namespace Text

/-- Some texts in ascending order. -/
def ascending (texts : List String) : List String :=
  texts.mergeSort fun a b => decide (a ≤ b)

theorem ascending_perm (texts : List String) : (ascending texts).Perm texts :=
  List.mergeSort_perm texts _

theorem decide_le_trans (a b c : String) (hab : decide (a ≤ b) = true)
    (hbc : decide (b ≤ c) = true) : decide (a ≤ c) = true := by
  rw [decide_eq_true_iff] at hab hbc ⊢
  exact String.le_trans hab hbc

theorem decide_le_total (a b : String) : (decide (a ≤ b) || decide (b ≤ a)) = true := by
  rw [Bool.or_eq_true, decide_eq_true_iff, decide_eq_true_iff]
  exact String.le_total a b

theorem pairwise_ascending (texts : List String) : (ascending texts).Pairwise (· ≤ ·) :=
  (List.pairwise_mergeSort decide_le_trans decide_le_total texts).imp of_decide_eq_true

/-- Texts in ascending order are known from the texts in any order. -/
theorem ascending_of_perm {as bs : List String} (h : as.Perm bs) : ascending as = ascending bs := by
  have hperm : (ascending as).Perm (ascending bs) :=
    (ascending_perm as).trans (h.trans (ascending_perm bs).symm)
  exact hperm.eq_of_pairwise (fun a b _ _ hab hba => String.le_antisymm hab hba)
    (pairwise_ascending as) (pairwise_ascending bs)

theorem ascending_eq_self {texts : List String} (h : texts.Pairwise (· ≤ ·)) :
    ascending texts = texts :=
  (ascending_perm texts).eq_of_pairwise (fun _ _ _ _ hab hba => String.le_antisymm hab hba)
    (pairwise_ascending texts) h

end Text

namespace Issue

theorem perm_sorted (is : List Issue) : (sorted is).Perm is :=
  List.mergeSort_perm is _

/-- The lines of sorted issues are their lines in ascending order. -/
theorem map_text_sorted (is : List Issue) :
    (sorted is).map text = Text.ascending (is.map text) :=
  List.map_mergeSort fun _ _ _ _ => rfl

theorem pairwise_sorted (is : List Issue) :
    (sorted is).Pairwise fun a b => a.text ≤ b.text := by
  rw [← List.pairwise_map, map_text_sorted]
  exact Text.pairwise_ascending _

/-- Sorted issues are in ascending order of the bytes that are printed. -/
theorem pairwise_bytes_sorted (is : List Issue) :
    ((sorted is).map fun i => Utf8.encode i.text).Pairwise (· ≤ ·) := by
  rw [List.pairwise_map]
  exact (pairwise_sorted is).imp fun hab => Utf8.encode_le_encode_iff.2 hab

end Issue

namespace Pending

theorem map_name_entries (p : Pending) :
    (p.entries.map fun e => (⟨e.1, e.2⟩ : Issue)).map Issue.name = p.names := by
  rw [List.map_map]
  rfl

theorem mem_issues_iff {p : Pending} (h : p.names.Nodup) {i : Issue} :
    i ∈ p.issues ↔ p.reason? i.name = some i.reason := by
  rw [issues, (Issue.perm_sorted _).mem_iff, ← mem_entries_iff h]
  constructor
  · rw [List.mem_map]
    rintro ⟨e, he, rfl⟩
    exact he
  · exact fun he => List.mem_map_of_mem (f := fun e : String × String => (⟨e.1, e.2⟩ : Issue)) he

theorem nodup_names_issues {p : Pending} (h : p.names.Nodup) :
    (p.issues.map Issue.name).Nodup := by
  rw [issues, ((Issue.perm_sorted _).map Issue.name).nodup_iff, map_name_entries]
  exact h

end Pending

end InlineAudit
