/-
A candidate set put together so that the last list of a package stands.

The lists of a package that is named again later are lost, whatever they hold.  What is left is
written down here without a set:

* `standing` — the pairs whose package does not come again;
* **`entries_ofListLast_perm`** — they are what the set holds;
* **`validate_ofListLast_eq_ok_iff`** — so the set is valid when no package is without a name and no
  full name is given twice by the pairs that stand, and what is registered is what these give.

Where no package is named twice everything stands (`standing_eq_self`).
-/
import InlineAudit.Proofs.Pending.Validation

namespace InlineAudit.Candidates

variable {p : String} {symbols : List String} {e : String × List String}
  {es ws : List (String × List String)}

/-! ### What stands -/

/-- The pairs whose package does not come again after them. -/
def standing : List (String × List String) → List (String × List String)
  | [] => []
  | e :: rest => if e.1 ∈ rest.map (·.1) then standing rest else e :: standing rest

/-- The full names that some pairs give, one after the other. -/
def listed (ws : List (String × List String)) : List String :=
  ws.flatMap fun e => e.2.map (fullName e.1)

theorem mem_listed_iff {n : String} :
    n ∈ listed ws ↔ ∃ e ∈ ws, ∃ s ∈ e.2, fullName e.1 s = n := by
  simp only [listed, List.mem_flatMap, List.mem_map]

/-- A pair stands where it is the last of its package. -/
theorem mem_standing_iff :
    e ∈ standing ws ↔ ∃ before after, ws = before ++ e :: after ∧ e.1 ∉ after.map (·.1) := by
  induction ws with
  | nil => simp [standing]
  | cons f ws ih =>
    have hstep : e ∈ standing (f :: ws) ↔ e ∈ standing ws ∨ e = f ∧ f.1 ∉ ws.map (·.1) := by
      rw [standing]
      by_cases hf : f.1 ∈ ws.map (·.1)
      · rw [if_pos hf]
        simp [hf]
      · rw [if_neg hf, List.mem_cons, or_comm]
        simp [hf]
    rw [hstep, ih]
    constructor
    · rintro (⟨before, after, rfl, hafter⟩ | ⟨rfl, hlast⟩)
      · exact ⟨f :: before, after, rfl, hafter⟩
      · exact ⟨[], ws, rfl, hlast⟩
    · rintro ⟨before, after, hcut, hafter⟩
      cases before with
      | nil =>
        obtain ⟨rfl, rfl⟩ := List.cons.inj hcut
        exact .inr ⟨rfl, hafter⟩
      | cons g before =>
        obtain ⟨rfl, rfl⟩ := List.cons.inj hcut
        exact .inl ⟨before, after, rfl, hafter⟩

/-- A name that stands is given by the last pair of a package. -/
theorem mem_listed_standing_iff {n : String} :
    n ∈ listed (standing ws) ↔ ∃ before e after, ws = before ++ e :: after ∧
      e.1 ∉ after.map (·.1) ∧ ∃ s ∈ e.2, fullName e.1 s = n := by
  rw [mem_listed_iff]
  constructor
  · rintro ⟨e, he, hn⟩
    obtain ⟨before, after, hcut, hlast⟩ := mem_standing_iff.1 he
    exact ⟨before, e, after, hcut, hlast, hn⟩
  · rintro ⟨before, e, after, hcut, hlast, hn⟩
    exact ⟨e, mem_standing_iff.2 ⟨before, after, hcut, hlast⟩, hn⟩

/-- Some pair of every package stands. -/
theorem mem_packages_standing_iff :
    p ∈ (standing ws).map (·.1) ↔ p ∈ ws.map (·.1) := by
  induction ws with
  | nil => rfl
  | cons e ws ih =>
    rw [standing]
    by_cases he : e.1 ∈ ws.map (·.1)
    · rw [if_pos he, ih, List.map_cons, List.mem_cons]
      constructor
      · exact .inr
      · rintro (rfl | hp)
        · exact he
        · exact hp
    · rw [if_neg he, List.map_cons, List.map_cons, List.mem_cons, List.mem_cons, ih]

theorem nodup_packages_standing (ws : List (String × List String)) :
    ((standing ws).map (·.1)).Nodup := by
  induction ws with
  | nil => exact List.nodup_nil
  | cons e ws ih =>
    rw [standing]
    split
    · exact ih
    · rename_i he
      exact List.nodup_cons.2 ⟨fun h => he (mem_packages_standing_iff.1 h), ih⟩

theorem standing_eq_self (h : (ws.map (·.1)).Nodup) : standing ws = ws := by
  induction ws with
  | nil => rfl
  | cons e ws ih =>
    obtain ⟨he, hws⟩ := List.nodup_cons.1 h
    rw [standing, if_neg he, ih hws]

/-! ### What the set holds -/

theorem mem_alter_const_iff (hes : es.Pairwise (fun a b => a.1 < b.1)) :
    e ∈ alter p (fun _ => symbols) es ↔ e = (p, symbols) ∨ e ∈ es ∧ e.1 ≠ p := by
  induction es with
  | nil => simp [alter]
  | cons f es ih =>
    obtain ⟨q, ts⟩ := f
    obtain ⟨hq, hes⟩ := List.pairwise_cons.1 hes
    -- the packages after one that is not below the new one are all others
    have hother : ¬ q < p → e ∈ es → e.1 ≠ p := by
      rintro hpq he rfl
      exact hpq (hq e he)
    rw [alter]
    split
    · rename_i hpq
      rw [List.mem_cons]
      refine or_congr_right (iff_self_and.2 fun he => ?_)
      rcases List.mem_cons.1 he with rfl | he
      · rintro rfl
        exact String.lt_irrefl _ hpq
      · exact hother (fun hqp => String.lt_irrefl _ (String.lt_trans hpq hqp)) he
    · split
      · rename_i hpq
        subst hpq
        rw [List.mem_cons, List.mem_cons]
        constructor
        · rintro (rfl | he)
          · exact .inl rfl
          · exact .inr ⟨.inr he, hother (String.lt_irrefl _) he⟩
        · rintro (rfl | ⟨rfl | he, hne⟩)
          · exact .inl rfl
          · exact absurd rfl hne
          · exact .inr he
      · rename_i hne
        rw [List.mem_cons, List.mem_cons, ih hes]
        constructor
        · rintro (rfl | rfl | ⟨he, hep⟩)
          · exact .inr ⟨.inl rfl, Ne.symm hne⟩
          · exact .inl rfl
          · exact .inr ⟨.inr he, hep⟩
        · rintro (rfl | ⟨rfl | he, hep⟩)
          · exact .inr (.inl rfl)
          · exact .inl rfl
          · exact .inr (.inr ⟨he, hep⟩)

/-- Pairs that are set one after the other leave what stands of them, and what the set held for
other packages. -/
theorem mem_entries_foldl_set_iff {cs : Candidates} :
    e ∈ (ws.foldl (fun acc e => acc.set e.1 e.2) cs).entries ↔
      e ∈ standing ws ∨ e ∈ cs.entries ∧ e.1 ∉ ws.map (·.1) := by
  -- a pair that is set first stands unless its package comes again
  induction ws generalizing cs with
  | nil => simp [standing]
  | cons f ws ih =>
    rw [List.foldl_cons, ih, set, mem_alter_const_iff cs.ascending, standing]
    by_cases hf : f.1 ∈ ws.map (·.1)
    · rw [if_pos hf]
      refine or_congr_right ?_
      constructor
      · rintro ⟨rfl | ⟨he, hef⟩, hews⟩
        · exact absurd hf hews
        · exact ⟨he, fun h => (List.mem_cons.1 h).elim hef hews⟩
      · rintro ⟨he, hefws⟩
        exact ⟨.inr ⟨he, fun h => hefws (List.mem_cons.2 (.inl h))⟩,
          fun h => hefws (List.mem_cons_of_mem _ h)⟩
    · rw [if_neg hf, List.map_cons, List.mem_cons, List.mem_cons, not_or]
      constructor
      · rintro (he | ⟨rfl | ⟨he, hef⟩, hews⟩)
        · exact .inl (.inr he)
        · exact .inl (.inl rfl)
        · exact .inr ⟨he, hef, hews⟩
      · rintro ((rfl | he) | ⟨he, hef, hews⟩)
        · exact .inr ⟨.inl rfl, hf⟩
        · exact .inl he
        · exact .inr ⟨.inr ⟨he, hef⟩, hews⟩

/-- **The set holds exactly the pairs that stand.** -/
theorem entries_ofListLast_perm (ws : List (String × List String)) :
    (ofListLast ws).entries.Perm (standing ws) := by
  have hstanding : (standing ws).Nodup :=
    List.Pairwise.of_map (·.1) (fun _ _ hne heq => hne (congrArg _ heq)) (nodup_packages_standing ws)
  refine (List.perm_ext_iff_of_nodup (ofListLast ws).nodup_entries hstanding).2 fun e => ?_
  rw [ofListLast, mem_entries_foldl_set_iff]
  simp [empty]

theorem names_ofListLast_perm (ws : List (String × List String)) :
    (ofListLast ws).names.Perm (listed (standing ws)) :=
  (entries_ofListLast_perm ws).flatMap_right _

/-! ### What is registered -/

/-- **A set in which the last list stands is valid exactly when all packages have names and the
full names that stand differ**; then these are registered, and none of them is explained. -/
theorem validate_ofListLast_eq_ok_iff {pending : Pending} :
    (ofListLast ws).validate = .ok pending ↔
      (∀ e ∈ ws, e.1 ≠ "") ∧ (listed (standing ws)).Nodup ∧
        pending = Pending.unexplained (ofListLast ws).names := by
  rw [validate_eq_ok_iff, (names_ofListLast_perm ws).nodup_iff]
  refine and_congr_left fun _ => ?_
  have hpackages : ∀ es : List (String × List String),
      (∀ e ∈ es, e.1 ≠ "") ↔ "" ∉ es.map (·.1) := by
    intro es
    rw [List.mem_map]
    exact ⟨fun h ⟨e, he, hempty⟩ => h e he hempty, fun h e he hempty => h ⟨e, he, hempty⟩⟩
  rw [hpackages, hpackages, ((entries_ofListLast_perm ws).map _).mem_iff, mem_packages_standing_iff]

end InlineAudit.Candidates
