/-
What validation answers.

Validation walks over a set, packages in ascending order and the symbols of each in list order, and
checks two kinds of things on the way.  The packages ascend, so a package without a name comes
first, and the two kinds do not mix: but for that package a walk over the set is a walk over its
list of names.

* `registerNames` — names registered in order, up to the first that is there;
* `validate_eq_registerNames` — what validation comes to when every package has a name;
* `registerNames_eq_duplicate_iff` — it stops at the first name that was there before;
* **`validate_exact`** — each answer of validation, with the sets that get it.
-/
import InlineAudit.Proofs.Candidates.Arrangement
import InlineAudit.Proofs.Candidates.Merge
import InlineAudit.Proofs.Candidates.Position
import Mathlib.Data.List.Induction
import Mathlib.Data.List.Nodup

namespace InlineAudit

/-! ### The first repetition -/

namespace FirstRepeated

variable {ns : List String} {n m : String}

theorem not_nodup (h : FirstRepeated ns n) : ¬ ns.Nodup := by
  obtain ⟨before, after, rfl, -, hn⟩ := h
  intro hnodup
  exact (List.nodup_append.1 hnodup).2.2 _ hn _ List.mem_cons_self rfl

theorem unique (hn : FirstRepeated ns n) (hm : FirstRepeated ns m) : n = m := by
  obtain ⟨before, after, rfl, hbefore, hn⟩ := hn
  obtain ⟨before', after', hcut, hbefore', hm⟩ := hm
  -- two cuts of one list: if they differ, the longer front holds the name at the shorter cut twice
  rcases List.append_eq_append_iff.1 hcut with ⟨gap, rfl, hgap⟩ | ⟨gap, rfl, hgap⟩
  · cases gap with
    | nil => exact (List.cons.inj hgap).1
    | cons k gap =>
      obtain ⟨rfl, -⟩ := List.cons.inj hgap
      exact absurd hbefore' (not_nodup ⟨before, gap, rfl, hbefore, hn⟩)
  · cases gap with
    | nil => exact (List.cons.inj hgap).1.symm
    | cons k gap =>
      obtain ⟨rfl, -⟩ := List.cons.inj hgap
      exact absurd hbefore (not_nodup ⟨before', gap, rfl, hbefore', hm⟩)

end FirstRepeated

theorem exists_firstRepeated_iff {ns : List String} : (∃ n, FirstRepeated ns n) ↔ ¬ ns.Nodup := by
  refine ⟨fun ⟨n, hn⟩ => hn.not_nodup, fun h => ?_⟩
  -- from the back: the last name is the first repetition unless there is one before it
  induction ns using List.reverseRecOn with
  | nil => exact absurd List.nodup_nil h
  | append_singleton ns n ih =>
    rw [← List.concat_eq_append, List.nodup_concat] at h
    by_cases hns : ns.Nodup
    · have hmem : n ∈ ns := Decidable.not_not.1 fun hn => h ⟨hn, hns⟩
      exact ⟨n, ns, [], rfl, hns, hmem⟩
    · obtain ⟨m, before, after, rfl, hbefore, hm⟩ := ih hns
      exact ⟨m, before, after ++ [n], by simp, hbefore, hm⟩

namespace Candidates

variable {cs : Candidates} {p : Pending} {n : String}

/-! ### Names registered one after another -/

/-- Names are registered in order, up to the first that is there. -/
def registerNames : List String → Pending → Except InvalidCandidates Pending
  | [], p => .ok p
  | n :: rest, p =>
    if p.contains n then .error (.duplicate n) else registerNames rest (p.register n)

theorem registerNames_append (ns ms : List String) (p : Pending) :
    registerNames (ns ++ ms) p = (do registerNames ms (← registerNames ns p)) := by
  induction ns generalizing p with
  | nil => rfl
  | cons n ns ih =>
    simp only [List.cons_append, registerNames]
    split
    · rfl
    · exact ih _

theorem registerSymbols_eq_registerNames (package : String) (symbols : List String) (p : Pending) :
    registerSymbols package symbols p = registerNames (symbols.map (fullName package)) p := by
  induction symbols generalizing p with
  | nil => rfl
  | cons s rest ih => simp only [registerSymbols, List.map_cons, registerNames, ih]

theorem registerAll_eq_registerNames {es : List (String × List String)}
    (hes : "" ∉ es.map (·.1)) (p : Pending) :
    registerAll es p = registerNames (es.flatMap fun e => e.2.map (fullName e.1)) p := by
  induction es generalizing p with
  | nil => rfl
  | cons e es ih =>
    obtain ⟨package, symbols⟩ := e
    rw [List.map_cons, List.mem_cons, not_or] at hes
    obtain ⟨hpackage, hes⟩ := hes
    have hnamed : ¬ package.isEmpty := by
      rw [String.isEmpty_iff]
      exact Ne.symm hpackage
    rw [registerAll, if_neg hnamed, List.flatMap_cons, registerNames_append,
      registerSymbols_eq_registerNames]
    cases registerNames (symbols.map (fullName package)) p with
    | error cause => rfl
    | ok q => exact ih hes q

theorem validate_eq_registerNames (h : "" ∉ cs.packages) :
    cs.validate = registerNames cs.names .empty :=
  registerAll_eq_registerNames h .empty

/-- Registration stops at the first name that was there before, among those it started with or
those it has put in. -/
theorem registerNames_eq_duplicate_iff {ns : List String} (hp : p.names.Nodup) :
    registerNames ns p = .error (.duplicate n) ↔ FirstRepeated (p.names ++ ns) n := by
  -- the names that are there grow by those that are walked over, so the two together stay
  induction ns generalizing p with
  | nil =>
    rw [List.append_nil]
    constructor
    · intro h
      cases h
    · intro h
      exact absurd hp h.not_nodup
  | cons m ns ih =>
    rw [registerNames]
    by_cases hm : m ∈ p.names
    · have hfirst : FirstRepeated (p.names ++ m :: ns) m := ⟨p.names, ns, rfl, hp, hm⟩
      rw [if_pos (Pending.contains_iff_mem_names.2 hm)]
      constructor
      · intro h
        cases h
        exact hfirst
      · intro h
        rw [h.unique hfirst]
    · have hone : (p.withNames [m]).names.Nodup := by
        rw [Pending.names_withNames, ← List.concat_eq_append, List.nodup_concat]
        exact ⟨hm, hp⟩
      rw [if_neg (fun h => hm (Pending.contains_iff_mem_names.1 h)),
        Pending.register_of_notMem hm, ih hone, Pending.names_withNames, List.append_assoc,
        List.singleton_append]

theorem validate_eq_duplicate_iff :
    cs.validate = .error (.duplicate n) ↔ "" ∉ cs.packages ∧ cs.FirstRepeatedAt n := by
  rw [firstRepeatedAt_iff]
  by_cases hempty : "" ∈ cs.packages
  · rw [validate_eq_emptyPackage_iff.2 hempty]
    constructor
    · intro h
      cases h
    · exact fun h => absurd hempty h.1
  · have hstart : Pending.empty.names.Nodup := List.nodup_nil
    rw [validate_eq_registerNames hempty, registerNames_eq_duplicate_iff hstart]
    exact ⟨fun h => ⟨hempty, h⟩, And.right⟩

/-! ### The answers -/

/-- A pending set with the full names of a candidate set, before anything is known of them. -/
structure Starts (cs : Candidates) (p : Pending) : Prop where
  contains_iff : ∀ n, p.contains n ↔ ∃ a, cs.NameAt a n
  reason? : ∀ n, p.contains n → p.reason? n = some unknownReason
  nodup : p.names.Nodup
  size : p.size = cs.size
  package : p.package = ""

theorem mem_names_iff_nameAt : n ∈ cs.names ↔ ∃ a, cs.NameAt a n := by
  rw [← map_snd_walk, List.mem_map]
  constructor
  · rintro ⟨⟨a, m⟩, hm, rfl⟩
    exact ⟨a, mem_walk_iff.1 hm⟩
  · rintro ⟨a, ha⟩
    exact ⟨(a, n), mem_walk_iff.2 ha, rfl⟩

theorem length_names (cs : Candidates) : cs.names.length = cs.size := by
  simp only [names, size, List.length_flatMap, List.length_map]

theorem starts_unexplained (h : cs.names.Nodup) : cs.Starts (.unexplained cs.names) where
  contains_iff n := by
    rw [Pending.contains_iff_mem_names, Pending.names_unexplained, mem_names_iff_nameAt]
  reason? n hn := by
    rw [Pending.contains_iff_mem_names, Pending.names_unexplained] at hn
    rw [Pending.reason?_unexplained, if_pos hn]
  nodup := by rwa [Pending.names_unexplained]
  size := by
    have hsize : (Pending.unexplained cs.names).size = cs.names.length := by
      rw [← congrArg List.length (Pending.names_unexplained cs.names)]
      exact (List.length_map _).symm
    rw [hsize, length_names]
  package := Pending.package_unexplained _

theorem exists_validate_merge_iff {cs other : Candidates} :
    (∃ p, (cs.merge other).validate = .ok p) ↔
      (∃ p, cs.validate = .ok p) ∧ (∃ p, other.validate = .ok p) ∧
        ∀ n, ¬ (n ∈ cs.names ∧ n ∈ other.names) := by
  simp only [exists_validate_iff]
  rw [mem_packages_merge_iff, not_or, (names_merge_perm cs other).nodup_iff, List.nodup_append]
  have hshare : (∀ a ∈ cs.names, ∀ b ∈ other.names, a ≠ b) ↔
      ∀ n, ¬ (n ∈ cs.names ∧ n ∈ other.names) := by
    constructor
    · rintro h n ⟨hcs, hother⟩
      exact h n hcs n hother rfl
    · rintro h a ha b hb rfl
      exact h a ⟨ha, hb⟩
  rw [hshare]
  constructor
  · rintro ⟨⟨hcs, hother⟩, hcsNames, hotherNames, hnone⟩
    exact ⟨⟨hcs, hcsNames⟩, ⟨hother, hotherNames⟩, hnone⟩
  · rintro ⟨⟨hcs, hcsNames⟩, ⟨hother, hotherNames⟩, hnone⟩
    exact ⟨⟨hcs, hother⟩, hcsNames, hotherNames, hnone⟩

/-- **Validation is exact.**  A set with a nameless package is refused for it, whatever else is
wrong.  Of the others one in which two positions have one name is refused for the name that is the
first to repeat an earlier one, and the rest give the pending set that a check starts from.  So two
sets put together are valid when each of them is and no name is in both. -/
theorem validate_exact (cs : Candidates) :
    (cs.validate = .error .emptyPackage ↔ "" ∈ cs.packages) ∧
      (∀ n, cs.validate = .error (.duplicate n) ↔ "" ∉ cs.packages ∧ cs.FirstRepeatedAt n) ∧
      ((∃ n, cs.FirstRepeatedAt n) ↔ ¬ cs.Distinct) ∧
      ((∃ p, cs.validate = .ok p ∧ cs.Starts p) ↔ "" ∉ cs.packages ∧ cs.Distinct) ∧
      ∀ other : Candidates, (∃ p, (cs.merge other).validate = .ok p) ↔
        (∃ p, cs.validate = .ok p) ∧ (∃ p, other.validate = .ok p) ∧
          ∀ n, ¬ (n ∈ cs.names ∧ n ∈ other.names) := by
  refine ⟨validate_eq_emptyPackage_iff, fun n => validate_eq_duplicate_iff, ?_, ?_, ?_⟩
  · simp only [firstRepeatedAt_iff]
    rw [exists_firstRepeated_iff, distinct_iff_nodup_names]
  · rw [distinct_iff_nodup_names, ← exists_validate_iff]
    constructor
    · rintro ⟨p, hp, -⟩
      exact ⟨p, hp⟩
    · rintro ⟨p, hp⟩
      obtain ⟨-, hnodup, rfl⟩ := validate_eq_ok_iff.1 hp
      exact ⟨_, hp, starts_unexplained hnodup⟩
  · intro other
    exact exists_validate_merge_iff

example : (ofList [("a", ["b.C"]), ("a.b", ["C"])]).validate = .error (.duplicate "a.b.C") := by
  decide +kernel

end Candidates

end InlineAudit
