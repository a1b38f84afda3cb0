/-
What a log leaves pending.

Every line changes one name at most, and forgets how it came to its name; what is left at the end
can still be read off the log:

* `Pending.reason?_apply` — what one line does to a name;
* **`Pending.reason?_foldl_apply`** — what all lines do: a name that some line proves is gone, and
  any other has the last reason given for it;
* `Pending.names_foldl_apply`, `Pending.nodup_names_foldl_apply` — the names that are left stand in
  their old order, and none of them is there twice.
-/
import InlineAudit.Proofs.Log.Reading

namespace InlineAudit

open Log

/-! ### Lists by their keys -/

theorem lookup_cons_eq_ite {β : Type} (e : String × β) (es : List (String × β)) (n : String) :
    (e :: es).lookup n = if n = e.1 then some e.2 else es.lookup n := by
  rw [List.lookup_cons]
  by_cases h : n = e.1
  · simp [h]
  · rw [beq_eq_false_iff_ne.2 h, if_neg h]

/-- Where no key is there twice an entry is what is found for its key. -/
theorem lookup_eq_some_iff_mem {β : Type} {es : List (String × β)} {n : String} {v : β}
    (h : (es.map (·.1)).Nodup) : es.lookup n = some v ↔ (n, v) ∈ es := by
  induction es with
  | nil => simp
  | cons e es ih =>
    obtain ⟨m, w⟩ := e
    obtain ⟨hm, hes⟩ := List.nodup_cons.1 h
    rw [List.mem_cons, lookup_cons_eq_ite]
    by_cases hn : n = m
    · subst hn
      have habsent : (n, v) ∉ es := fun hmem => hm (List.mem_map.2 ⟨_, hmem, rfl⟩)
      simp [habsent, eq_comm]
    · rw [if_neg hn, ih hes]
      simp [hn]

namespace Pending

/-- The names that are there. -/
def names (p : Pending) : List String := p.entries.map (·.1)

/-! ### One operation -/

theorem contains_iff_mem_names {p : Pending} {n : String} :
    p.contains n = true ↔ n ∈ p.names := by
  simp [contains, names]

theorem mem_entries_iff {p : Pending} (h : p.names.Nodup) {n why : String} :
    (n, why) ∈ p.entries ↔ p.reason? n = some why :=
  (lookup_eq_some_iff_mem h).symm

theorem reason?_discharge (p : Pending) (m n : String) :
    (p.discharge m).reason? n = if m = n then none else p.reason? n := by
  obtain ⟨es, pkg⟩ := p
  simp only [discharge, reason?]
  induction es with
  | nil => simp
  | cons e es ih =>
    by_cases hk : e.1 = m
    · subst hk
      rw [List.filter_cons_of_neg (by simp), ih, lookup_cons_eq_ite]
      by_cases hn : e.1 = n
      · simp [hn]
      · simp [hn, Ne.symm hn]
    · rw [List.filter_cons_of_pos (by simpa using hk), lookup_cons_eq_ite, lookup_cons_eq_ite, ih]
      by_cases hn : n = e.1
      · subst hn
        simp [Ne.symm hk]
      · simp [hn]

theorem reason?_explain (p : Pending) (m why n : String) :
    (p.explain m why).reason? n = if m = n then (p.reason? n).map fun _ => why else p.reason? n := by
  obtain ⟨es, pkg⟩ := p
  simp only [explain, reason?]
  induction es with
  | nil => simp
  | cons e es ih =>
    rw [List.map_cons, lookup_cons_eq_ite, lookup_cons_eq_ite, ih]
    by_cases hk : e.1 = m
    · subst hk
      by_cases hn : n = e.1
      · simp [hn]
      · simp [hn, Ne.symm hn]
    · by_cases hn : n = e.1
      · subst hn
        simp [hk, Ne.symm hk]
      · simp [hk, hn]

@[simp] theorem names_explain (p : Pending) (m why : String) :
    (p.explain m why).names = p.names := by
  simp only [names, explain, List.map_map]
  refine List.map_congr_left fun e _ => ?_
  by_cases h : e.1 = m <;> simp [h]

theorem names_discharge (p : Pending) (m : String) :
    (p.discharge m).names = p.names.filter (· != m) := by
  simp only [names, discharge, List.filter_map]
  rfl

/-! ### One line -/

theorem package_apply (p : Pending) (d : Diagnostic) : (p.apply d).package = cursor p.package [d] := by
  cases d <;> rfl

/-- One line takes away the names that it proves, and leaves the others in their order. -/
theorem names_apply (p : Pending) (d : Diagnostic) :
    (p.apply d).names = p.names.filter fun n => ¬ Reading.Proves ⟨p.package, d⟩ n := by
  have hdischarge (s : String) : (p.discharge (fullName p.package s)).names =
      p.names.filter fun n => ¬ fullName p.package s = n := by
    rw [names_discharge]
    refine List.filter_congr fun n _ => ?_
    rw [bne, Bool.eq_iff_iff, Bool.not_eq_true', beq_eq_false_iff_ne, decide_eq_true_iff, ne_comm]
  -- the other lines prove no name
  have hkept (hd : ∀ n, ¬ Reading.Proves ⟨p.package, d⟩ n) :
      p.names.filter (fun n => ¬ Reading.Proves ⟨p.package, d⟩ n) = p.names :=
    List.filter_eq_self.2 fun n _ => decide_eq_true (hd n)
  cases d with
  | header package => exact (hkept (by simp [Reading.Proves])).symm
  | inliningCall s => simp [apply, Reading.Proves, hdischarge]
  | canInline s => simp [apply, Reading.Proves, hdischarge]
  | cannotInline s why =>
    rw [hkept (by simp [Reading.Proves])]
    exact names_explain p _ why
  | other => exact (hkept (by simp [Reading.Proves])).symm

theorem nodup_names_apply {p : Pending} (h : p.names.Nodup) (d : Diagnostic) :
    (p.apply d).names.Nodup := by
  rw [names_apply]
  exact h.filter _

/-- What one line does to a name, read under the package that is current. -/
theorem reason?_apply (p : Pending) (d : Diagnostic) (n : String) :
    (p.apply d).reason? n =
      if Reading.Proves ⟨p.package, d⟩ n then none
      else (p.reason? n).map fun why => (Reading.reason? ⟨p.package, d⟩ n).getD why := by
  cases d with
  | header package => simp [apply, Reading.Proves, Reading.reason?, reason?]
  | inliningCall s => simp [apply, Reading.Proves, Reading.reason?, reason?_discharge]
  | canInline s => simp [apply, Reading.Proves, Reading.reason?, reason?_discharge]
  | cannotInline s why =>
    rw [apply, reason?_explain]
    by_cases h : fullName p.package s = n <;> simp [Reading.Proves, Reading.reason?, h]
  | other => simp [apply, Reading.Proves, Reading.reason?]

/-! ### All lines -/

theorem package_foldl_apply (p : Pending) (ds : List Diagnostic) :
    (ds.foldl apply p).package = cursor p.package ds := by
  induction ds generalizing p with
  | nil => rfl
  | cons d ds ih =>
    rw [List.foldl_cons, ih, package_apply, ← cursor_append]
    rfl

/-- Lines take away the names that one of them proves, and leave the others in their order. -/
theorem names_foldl_apply (p : Pending) (ds : List Diagnostic) :
    (ds.foldl apply p).names =
      p.names.filter fun n => ¬ Proven (readingsFrom p.package ds) n := by
  induction ds generalizing p with
  | nil => exact (List.filter_eq_self.2 fun n _ => by simp [Proven]).symm
  | cons d ds ih =>
    rw [List.foldl_cons, ih, names_apply, package_apply, List.filter_filter, readingsFrom_cons]
    exact List.filter_congr fun n _ => by simp [proven_cons, and_comm]

theorem nodup_names_foldl_apply {p : Pending} (h : p.names.Nodup) (ds : List Diagnostic) :
    (ds.foldl apply p).names.Nodup := by
  rw [names_foldl_apply]
  exact h.filter _

/-- **What lines leave of a name**: nothing if one of them proves it, and otherwise the last reason
that they give for it, or the one that it had. -/
theorem reason?_foldl_apply (p : Pending) (ds : List Diagnostic) (n : String) :
    (ds.foldl apply p).reason? n =
      if Proven (readingsFrom p.package ds) n then none
      else (p.reason? n).map fun why => (lastReason? (readingsFrom p.package ds) n).getD why := by
  -- the lines after the first are read under the package that it leaves
  induction ds generalizing p with
  | nil => simp [Proven, lastReason?]
  | cons d ds ih =>
    rw [List.foldl_cons, ih, package_apply, reason?_apply, readingsFrom_cons]
    simp only [proven_cons, lastReason?_cons]
    by_cases hd : Reading.Proves ⟨p.package, d⟩ n
    · simp [hd]
    · by_cases hds : Proven (readingsFrom (cursor p.package [d]) ds) n
      · simp [hds]
      · simp only [hd, hds, or_self, if_false, Option.map_map]
        congr 1
        funext why
        cases lastReason? (readingsFrom (cursor p.package [d]) ds) n <;> rfl

/-! ### Logs -/

theorem scan_eq_foldl_apply (p : Pending) (log : Bytes) :
    p.scan log = (diagnostics log).foldl apply p := by
  rw [scan, diagnostics, List.foldl_map]
  rfl

end Pending

end InlineAudit
