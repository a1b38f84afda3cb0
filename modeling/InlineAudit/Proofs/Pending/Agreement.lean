/-
When two pending sets say the same.

The order of registration shows nowhere, so two sets are compared by the reasons that they hold:

* `Pending.Agrees` — the same names with the same reasons, in the same package;
* `Agrees.eq` — such sets are equal, if their names stand in the same order;
* `agrees_discharge_iff`, `agrees_explain_iff` — two steps from one set lead to sets that agree
  only when neither step does anything.
-/
import InlineAudit.Proofs.Pending.Scan

namespace InlineAudit.Pending

/-- The same names with the same reasons, in the same package. -/
def Agrees (p q : Pending) : Prop :=
  p.package = q.package ∧ ∀ n, p.reason? n = q.reason? n

theorem reason?_eq_none_iff {p : Pending} {n : String} : p.reason? n = none ↔ n ∉ p.names := by
  rw [reason?, List.lookup_eq_none_iff, names, List.mem_map, not_exists]
  refine forall_congr' fun e => ?_
  rw [not_and, bne_iff_ne, ne_comm]

/-- Entries are known from the names and from what is found for them. -/
theorem entries_eq_map_names {p : Pending} (h : p.names.Nodup) :
    p.entries = p.names.map fun n => (n, (p.reason? n).getD unknownReason) := by
  rw [names, List.map_map]
  refine (List.map_id _).symm.trans (List.map_congr_left fun e he => ?_)
  have hreason : p.reason? e.1 = some e.2 := (mem_entries_iff h).1 he
  rw [Function.comp_apply, hreason]
  rfl

/-- Two sets that agree are equal, if their names stand in the same order. -/
theorem Agrees.eq {p q : Pending} (h : p.Agrees q) (hnames : p.names = q.names)
    (hnodup : p.names.Nodup) : p = q := by
  have hentries : p.entries = q.entries := by
    rw [entries_eq_map_names hnodup, entries_eq_map_names (hnames ▸ hnodup), hnames]
    simp only [h.2]
  obtain ⟨hpackage, -⟩ := h
  cases p
  cases q
  cases hentries
  cases hpackage
  rfl

theorem agrees_discharge_iff {p : Pending} {m n : String} (hne : m ≠ n) :
    (p.discharge m).Agrees (p.discharge n) ↔ m ∉ p.names ∧ n ∉ p.names := by
  simp only [Agrees, reason?_discharge, ← reason?_eq_none_iff]
  constructor
  · rintro ⟨-, h⟩
    have hm := h m
    have hn := h n
    rw [if_pos rfl, if_neg hne.symm] at hm
    rw [if_neg hne, if_pos rfl] at hn
    exact ⟨hm.symm, hn⟩
  · rintro ⟨hm, hn⟩
    refine ⟨rfl, fun k => ?_⟩
    by_cases hmk : m = k
    · subst hmk
      simp [hne.symm, hm]
    · by_cases hnk : n = k
      · subst hnk
        simp [hne, hn]
      · rw [if_neg hmk, if_neg hnk]

theorem agrees_explain_iff {p : Pending} {n why why' : String} (hne : why ≠ why') :
    (p.explain n why).Agrees (p.explain n why') ↔ n ∉ p.names := by
  simp only [Agrees, reason?_explain, ← reason?_eq_none_iff]
  constructor
  · rintro ⟨-, h⟩
    have hn := h n
    rw [if_pos rfl, if_pos rfl] at hn
    cases hr : p.reason? n with
    | none => rfl
    | some last =>
      rw [hr, Option.map_some, Option.map_some, Option.some.injEq] at hn
      exact absurd hn hne
  · intro hn
    refine ⟨rfl, fun k => ?_⟩
    by_cases hk : n = k
    · subst hk
      simp [hn]
    · rw [if_neg hk, if_neg hk]

end InlineAudit.Pending
