/-
Which candidate sets are valid.

Validation registers one name after another and stops at the first that is there already.  When it
does not stop, what it has built is known: every name of the set, in order, with the unknown
reason.

* **`validate_eq_ok_iff`** — a set is valid exactly when no package is without a name and no full
  name occurs twice, and then the pending set is `Pending.unexplained` of its names;
* `exists_validate_iff` — the same of the packages and names alone.
-/
import InlineAudit.Proofs.Pending.Scan

namespace InlineAudit

namespace Pending

/-- Further names, none of them explained yet. -/
def withNames (p : Pending) (ns : List String) : Pending :=
  { p with entries := p.entries ++ ns.map fun n => (n, unknownReason) }

/-- Names of which nothing is known, before any header. -/
def unexplained (ns : List String) : Pending := empty.withNames ns

@[simp] theorem names_withNames (p : Pending) (ns : List String) :
    (p.withNames ns).names = p.names ++ ns := by
  simp [names, withNames, Function.comp_def]

@[simp] theorem names_unexplained (ns : List String) : (unexplained ns).names = ns := by
  rw [unexplained, names_withNames]
  rfl

@[simp] theorem package_unexplained (ns : List String) : (unexplained ns).package = "" := rfl

theorem withNames_nil (p : Pending) : p.withNames [] = p := by
  simp [withNames]

theorem withNames_append (p : Pending) (ns ms : List String) :
    p.withNames (ns ++ ms) = (p.withNames ns).withNames ms := by
  simp [withNames]

theorem register_of_notMem {p : Pending} {n : String} (h : n ∉ p.names) :
    p.register n = p.withNames [n] := by
  rw [← contains_iff_mem_names] at h
  rw [register, if_neg h]
  rfl

theorem reason?_unexplained (ns : List String) (n : String) :
    (unexplained ns).reason? n = if n ∈ ns then some unknownReason else none := by
  simp only [reason?, unexplained, withNames, empty, List.nil_append]
  induction ns with
  | nil => rfl
  | cons m ns ih =>
    rw [List.map_cons, lookup_cons_eq_ite, ih]
    by_cases hn : n = m <;> simp [hn]

end Pending

namespace Candidates

/-- A candidate of a set: a package and one of its symbols. -/
def Has (cs : Candidates) (package symbol : String) : Prop :=
  ∃ symbols, (package, symbols) ∈ cs.entries ∧ symbol ∈ symbols

theorem mem_names_iff {cs : Candidates} {n : String} :
    n ∈ cs.names ↔ ∃ package symbol, cs.Has package symbol ∧ fullName package symbol = n := by
  simp only [names, List.mem_flatMap, List.mem_map]
  constructor
  · rintro ⟨⟨package, symbols⟩, he, s, hs, rfl⟩
    exact ⟨package, s, ⟨symbols, he, hs⟩, rfl⟩
  · rintro ⟨package, s, ⟨symbols, he, hs⟩, rfl⟩
    exact ⟨(package, symbols), he, s, hs, rfl⟩

/-- The names of one package can be registered exactly when all of them are new and differ. -/
theorem registerSymbols_eq_ok_iff {package : String} {symbols : List String} {p q : Pending}
    (hp : p.names.Nodup) :
    registerSymbols package symbols p = .ok q ↔
      (p.names ++ symbols.map (fullName package)).Nodup ∧
        q = p.withNames (symbols.map (fullName package)) := by
  induction symbols generalizing p with
  | nil => simp [registerSymbols, hp, Pending.withNames_nil, eq_comm]
  | cons s rest ih =>
    rw [registerSymbols]
    by_cases hs : fullName package s ∈ p.names
    · have hdup : ¬ (p.names ++ (s :: rest).map (fullName package)).Nodup := by
        intro hnodup
        exact (List.nodup_append.1 hnodup).2.2 _ hs _ List.mem_cons_self rfl
      rw [if_pos (Pending.contains_iff_mem_names.2 hs)]
      constructor
      · intro h
        cases h
      · exact fun h => absurd h.1 hdup
    · have hone : (p.withNames [fullName package s]).names.Nodup := by
        rw [Pending.names_withNames, List.nodup_append]
        refine ⟨hp, by simp, fun a ha b hb hab => hs ?_⟩
        rw [List.mem_singleton] at hb
        rwa [← hb, ← hab]
      rw [if_neg (fun h => hs (Pending.contains_iff_mem_names.1 h)),
        Pending.register_of_notMem hs, ih hone, Pending.names_withNames,
        ← Pending.withNames_append, List.append_assoc, List.map_cons, List.singleton_append]

theorem registerAll_eq_ok_iff {es : List (String × List String)} {p q : Pending}
    (hp : p.names.Nodup) :
    registerAll es p = .ok q ↔
      (∀ e ∈ es, e.1 ≠ "") ∧ (p.names ++ es.flatMap fun e => e.2.map (fullName e.1)).Nodup ∧
        q = p.withNames (es.flatMap fun e => e.2.map (fullName e.1)) := by
  induction es generalizing p with
  | nil => simp only [registerAll, Except.ok.injEq, List.flatMap_nil, List.append_nil, hp,
      Pending.withNames_nil, List.not_mem_nil, false_implies, implies_true, true_and, eq_comm]
  | cons e es ih =>
    obtain ⟨package, symbols⟩ := e
    rw [registerAll]
    by_cases hpkg : package = ""
    · simp [hpkg]
    · rw [if_neg (by simpa using hpkg)]
      cases hone : registerSymbols package symbols p with
      | error cause =>
        -- a name of this package is there twice, whatever comes after it
        have hdup : ¬ (p.names ++ symbols.map (fullName package)).Nodup := by
          intro hnodup
          have hok := (registerSymbols_eq_ok_iff hp).2 ⟨hnodup, rfl⟩
          rw [hone] at hok
          cases hok
        constructor
        · intro h
          cases h
        · rintro ⟨-, hnodup, -⟩
          rw [List.flatMap_cons, ← List.append_assoc] at hnodup
          exact absurd (List.nodup_append.1 hnodup).1 hdup
      | ok r =>
        obtain ⟨hnodup, rfl⟩ := (registerSymbols_eq_ok_iff hp).1 hone
        show registerAll es (p.withNames (symbols.map (fullName package))) = .ok q ↔ _
        rw [ih (by rwa [Pending.names_withNames]), Pending.names_withNames, List.append_assoc,
          ← Pending.withNames_append]
        simp [hpkg]

/-- **A set is valid exactly when its packages have names and its full names differ.** -/
theorem validate_eq_ok_iff {cs : Candidates} {p : Pending} :
    cs.validate = .ok p ↔
      (∀ e ∈ cs.entries, e.1 ≠ "") ∧ cs.names.Nodup ∧ p = Pending.unexplained cs.names :=
  registerAll_eq_ok_iff List.nodup_nil

theorem exists_validate_iff {cs : Candidates} :
    (∃ p, cs.validate = .ok p) ↔ "" ∉ cs.packages ∧ cs.names.Nodup := by
  have hpackages : (∀ e ∈ cs.entries, e.1 ≠ "") ↔ "" ∉ cs.packages := by
    rw [packages, List.mem_map]
    exact ⟨fun h ⟨e, he, hempty⟩ => h e he hempty, fun h e he hempty => h ⟨e, he, hempty⟩⟩
  simp only [validate_eq_ok_iff, exists_and_left, exists_eq, and_true, hpackages]

end Candidates

end InlineAudit
