/-
What a candidate set holds after it is put together.

* `has_append_iff` — further symbols for a package;
* `has_merge_iff` — another set;
* `names_merge_perm`, `mem_packages_merge_iff` — the full names and packages after that;
* `validate_merge` — the parts of a valid set are valid.

Nothing is lost, and nothing else comes in; of the full names none comes in more often than the two
sets have it.
-/
import InlineAudit.Proofs.Pending.Validation

namespace InlineAudit.Candidates

variable {p q s : String} {es : List (String × List String)}

theorem exists_mem_cons_iff {symbols : List String} :
    (∃ ts, (q, ts) ∈ (p, symbols) :: es ∧ s ∈ ts) ↔
      q = p ∧ s ∈ symbols ∨ ∃ ts, (q, ts) ∈ es ∧ s ∈ ts := by
  simp only [List.mem_cons, Prod.mk.injEq, or_and_right, exists_or, and_assoc, exists_and_left,
    exists_eq_left]

/-- Wherever a package is put, its list is longer by the further symbols. -/
theorem exists_mem_alter_append_iff {extra : List String} :
    (∃ ts, (q, ts) ∈ alter p (· ++ extra) es ∧ s ∈ ts) ↔
      (∃ ts, (q, ts) ∈ es ∧ s ∈ ts) ∨ q = p ∧ s ∈ extra := by
  induction es with
  | nil => simp [alter]
  | cons e es ih =>
    obtain ⟨r, symbols⟩ := e
    simp only [alter]
    split
    · rw [exists_mem_cons_iff, List.nil_append, or_comm]
    · split
      · rename_i hpr
        subst hpr
        rw [exists_mem_cons_iff, exists_mem_cons_iff, List.mem_append, and_or_left, or_right_comm]
      · rw [exists_mem_cons_iff, exists_mem_cons_iff, ih, or_assoc]

theorem has_append_iff {cs : Candidates} {package : String} {symbols : List String} :
    (cs.append package symbols).Has p s ↔ cs.Has p s ∨ p = package ∧ s ∈ symbols :=
  exists_mem_alter_append_iff

theorem not_has_empty (p s : String) : ¬ empty.Has p s := by
  rintro ⟨symbols, he, -⟩
  exact List.not_mem_nil he

theorem has_foldl_append_iff {cs : Candidates} (entries : List (String × List String)) :
    (entries.foldl (fun acc e => acc.append e.1 e.2) cs).Has p s ↔
      cs.Has p s ∨ ∃ symbols, (p, symbols) ∈ entries ∧ s ∈ symbols := by
  induction entries generalizing cs with
  | nil => simp
  | cons e entries ih => rw [List.foldl_cons, ih, has_append_iff, exists_mem_cons_iff, or_assoc]

/-- Two sets merged hold the candidates of both, and no others. -/
theorem has_merge_iff {cs other : Candidates} :
    (cs.merge other).Has p s ↔ cs.Has p s ∨ other.Has p s :=
  has_foldl_append_iff other.entries

/-! ### Names and packages -/

theorem names_alter_append_perm (p : String) (extra : List String)
    (es : List (String × List String)) :
    ((alter p (· ++ extra) es).flatMap fun e => e.2.map (fullName e.1)).Perm
      ((es.flatMap fun e => e.2.map (fullName e.1)) ++ extra.map (fullName p)) := by
  induction es with
  | nil => simp [alter]
  | cons e es ih =>
    obtain ⟨q, symbols⟩ := e
    simp only [alter]
    split
    · rw [List.nil_append]
      exact List.perm_append_comm
    · split
      · rename_i hpq
        subst hpq
        -- the further names stand right after those of their package
        simp only [List.flatMap_cons, List.map_append, List.append_assoc]
        exact List.perm_append_comm.append_left _
      · simp only [List.flatMap_cons, List.append_assoc]
        exact ih.append_left _

theorem names_foldl_append_perm (cs : Candidates) (entries : List (String × List String)) :
    (entries.foldl (fun acc e => acc.append e.1 e.2) cs).names.Perm
      (cs.names ++ entries.flatMap fun e => e.2.map (fullName e.1)) := by
  induction entries generalizing cs with
  | nil => simp
  | cons e entries ih =>
    rw [List.foldl_cons, List.flatMap_cons, ← List.append_assoc]
    exact (ih _).trans ((names_alter_append_perm e.1 e.2 cs.entries).append_right _)

/-- The full names of two sets merged are those of both. -/
theorem names_merge_perm (cs other : Candidates) :
    (cs.merge other).names.Perm (cs.names ++ other.names) :=
  names_foldl_append_perm cs other.entries

theorem mem_map_fst_alter_iff {f : List String → List String} :
    q ∈ (alter p f es).map (·.1) ↔ q = p ∨ q ∈ es.map (·.1) := by
  induction es with
  | nil => simp [alter]
  | cons e es ih =>
    obtain ⟨r, symbols⟩ := e
    simp only [alter]
    split
    · simp
    · split
      · rename_i hpr
        simp [hpr]
      · rw [List.map_cons, List.map_cons, List.mem_cons, List.mem_cons, ih, or_left_comm]

theorem mem_packages_foldl_append_iff {cs : Candidates} (entries : List (String × List String)) :
    q ∈ (entries.foldl (fun acc e => acc.append e.1 e.2) cs).packages ↔
      q ∈ cs.packages ∨ q ∈ entries.map (·.1) := by
  induction entries generalizing cs with
  | nil => simp
  | cons e entries ih =>
    have hone : q ∈ (cs.append e.1 e.2).packages ↔ q = e.1 ∨ q ∈ cs.packages :=
      mem_map_fst_alter_iff
    rw [List.foldl_cons, ih, hone, List.map_cons, List.mem_cons, or_left_comm, or_assoc]

/-- Two sets merged have the packages of both, also those without symbols. -/
theorem mem_packages_merge_iff {cs other : Candidates} :
    q ∈ (cs.merge other).packages ↔ q ∈ cs.packages ∨ q ∈ other.packages :=
  mem_packages_foldl_append_iff other.entries

/-- The parts of a valid set are valid. -/
theorem validate_merge {cs other : Candidates} (h : ∃ p, (cs.merge other).validate = .ok p) :
    (∃ p, cs.validate = .ok p) ∧ ∃ p, other.validate = .ok p := by
  rw [exists_validate_iff, mem_packages_merge_iff, not_or, (names_merge_perm cs other).nodup_iff,
    List.nodup_append] at h
  obtain ⟨⟨hcs, hother⟩, hcsNames, hotherNames, -⟩ := h
  exact ⟨exists_validate_iff.2 ⟨hcs, hcsNames⟩, exists_validate_iff.2 ⟨hother, hotherNames⟩⟩

end InlineAudit.Candidates
