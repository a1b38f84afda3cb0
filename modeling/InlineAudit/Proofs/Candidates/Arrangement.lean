/-
Candidate sets that differ in the order of their symbols only.

A set keeps symbols in the order in which they were added, so the same candidates put together in
two ways may give two sets.  What is made of them does not tell the two apart:

* `Rearranges` — the same packages, each with the same symbols in some order;
* `names_perm` — the same full names, each as often;
* `digest_eq` — the same digest;
* `validate_eq_emptyPackage_iff` — a package without a name is found whatever else is wrong;
* **`validate_of_rearranges`** — both sets are valid, or neither is, for the same kind of reason.

Which full name is said to occur twice may differ, since validation stops at the first.
-/
import InlineAudit.Proofs.Pending.Issues
import InlineAudit.Proofs.Pending.Validation

namespace InlineAudit

/-- Two causes of the same kind. -/
def InvalidCandidates.SameKind : InvalidCandidates → InvalidCandidates → Prop
  | .emptyPackage, .emptyPackage | .duplicate _, .duplicate _ => True
  | .emptyPackage, .duplicate _ | .duplicate _, .emptyPackage => False

namespace Candidates

variable {a b cs : Candidates}

/-- The same packages, each with the same symbols in some order. -/
structure Rearranges (a b : Candidates) : Prop where
  packages : a.packages = b.packages
  symbols : ∀ package as bs, (package, as) ∈ a.entries → (package, bs) ∈ b.entries → as.Perm bs

/-- Entries that correspond have the same full names. -/
theorem names_perm_of_entries {es fs : List (String × List String)}
    (hpackages : es.map (·.1) = fs.map (·.1))
    (hsymbols : ∀ package as bs, (package, as) ∈ es → (package, bs) ∈ fs → as.Perm bs) :
    (es.flatMap fun e => e.2.map (fullName e.1)).Perm
      (fs.flatMap fun e => e.2.map (fullName e.1)) := by
  -- the packages are the same, so the entries correspond one by one
  induction es generalizing fs with
  | nil =>
    obtain rfl : fs = [] := List.map_eq_nil_iff.1 hpackages.symm
    exact .refl _
  | cons e es ih =>
    obtain ⟨package, as⟩ := e
    cases fs with
    | nil => cases hpackages
    | cons f fs =>
      obtain ⟨package', bs⟩ := f
      obtain ⟨hhead, htail⟩ := List.cons.inj hpackages
      obtain rfl : package = package' := hhead
      have hone : as.Perm bs := hsymbols package as bs List.mem_cons_self List.mem_cons_self
      refine (hone.map _).append (ih htail fun q ss ts hs ht => ?_)
      exact hsymbols q ss ts (List.mem_cons_of_mem _ hs) (List.mem_cons_of_mem _ ht)

theorem Rearranges.names_perm (h : a.Rearranges b) : a.names.Perm b.names :=
  names_perm_of_entries h.packages h.symbols

/-- The digest is taken of the sorted full names, and so does not depend on their order. -/
theorem Rearranges.digest_eq (h : a.Rearranges b) : a.digest = b.digest := by
  have hsorted : Text.ascending a.names = Text.ascending b.names :=
    Text.ascending_of_perm h.names_perm
  have hinput : a.digestInput = b.digestInput :=
    congrArg (List.flatMap fun n => Utf8.encode (n ++ "\n")) hsorted
  rw [digest, digest, hinput]

/-! ### What is wrong with a set -/

theorem registerSymbols_ne_emptyPackage (package : String) (symbols : List String) (p : Pending) :
    registerSymbols package symbols p ≠ .error .emptyPackage := by
  induction symbols generalizing p with
  | nil =>
    intro h
    cases h
  | cons s rest ih =>
    rw [registerSymbols]
    split
    · intro h
      cases h
    · exact ih _

theorem mem_of_registerAll_eq_emptyPackage {es : List (String × List String)} {p : Pending}
    (h : registerAll es p = .error .emptyPackage) : "" ∈ es.map (·.1) := by
  induction es generalizing p with
  | nil => cases h
  | cons e es ih =>
    obtain ⟨package, symbols⟩ := e
    rw [registerAll] at h
    by_cases hpackage : package = ""
    · exact List.mem_cons.2 (.inl hpackage.symm)
    · rw [if_neg (by simpa using hpackage)] at h
      cases hone : registerSymbols package symbols p with
      | error cause =>
        rw [hone] at h
        cases h
        exact absurd hone (registerSymbols_ne_emptyPackage package symbols p)
      | ok q =>
        rw [hone] at h
        exact List.mem_cons_of_mem _ (ih h)

/-- A package without a name comes first, and so it is found before anything else. -/
theorem validate_eq_emptyPackage_iff :
    cs.validate = .error .emptyPackage ↔ "" ∈ cs.packages := by
  refine ⟨mem_of_registerAll_eq_emptyPackage, fun h => ?_⟩
  obtain ⟨entries, ascending⟩ := cs
  cases entries with
  | nil => cases h
  | cons e rest =>
    obtain ⟨package, symbols⟩ := e
    have hfirst : package = "" := by
      rcases List.mem_cons.1 h with hpackage | hrest
      · exact hpackage.symm
      · obtain ⟨f, hf, hempty⟩ := List.mem_map.1 hrest
        have hlt : package < f.1 := (List.pairwise_cons.1 ascending).1 f hf
        rw [hempty] at hlt
        exact absurd hlt (List.not_lt_nil _)
    subst hfirst
    rfl

/-- **Both sets are valid, or neither is, for the same kind of reason.** -/
theorem validate_of_rearranges (h : a.Rearranges b) :
    (∃ p q, a.validate = .ok p ∧ b.validate = .ok q) ∨
      ∃ cause cause', a.validate = .error cause ∧ b.validate = .error cause' ∧
        cause.SameKind cause' := by
  have hok : (∃ p, a.validate = .ok p) ↔ ∃ q, b.validate = .ok q := by
    rw [exists_validate_iff, exists_validate_iff, h.packages, h.names_perm.nodup_iff]
  have hempty : a.validate = .error .emptyPackage ↔ b.validate = .error .emptyPackage := by
    rw [validate_eq_emptyPackage_iff, validate_eq_emptyPackage_iff, h.packages]
  cases ha : a.validate with
  | ok p =>
    obtain ⟨q, hb⟩ := hok.1 ⟨p, ha⟩
    exact .inl ⟨p, q, rfl, hb⟩
  | error cause =>
    cases hb : b.validate with
    | ok q =>
      obtain ⟨p, hp⟩ := hok.2 ⟨q, hb⟩
      rw [ha] at hp
      cases hp
    | error cause' =>
      refine .inr ⟨cause, cause', rfl, rfl, ?_⟩
      rw [ha, hb] at hempty
      -- a cause is either that of a nameless package or that of a name given twice
      cases cause <;> cases cause' <;> simp_all [InvalidCandidates.SameKind]

end Candidates

end InlineAudit
