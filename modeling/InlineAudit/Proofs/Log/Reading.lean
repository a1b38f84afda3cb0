/-
What a log says of a name.

A line of a log names a symbol; the package that it means is that of the nearest header before it.
This file says so without a state that is carried along:

* `Log.cursor`, `Log.Announces` — the package that is current after some lines, and the header that
  made it so;
* `Log.readings` — every line of a log with the package that it speaks of;
* `Log.Proven`, `Log.lastReason?` — what the lines say of a full name;
* **`mem_readingsFrom`** — a reading is a line at some place of the log, under the last header
  before that place.

Design notes: `readingsFrom` starts under any package, since a log can be read after another one;
a log of its own starts under no package, which is written as the empty one.
-/
import InlineAudit.Pending
import Mathlib.Data.List.Induction

namespace InlineAudit

/-- The package that a line announces. -/
def Diagnostic.package? : Diagnostic → Option String
  | .header package => some package
  | .inliningCall _ | .canInline _ | .cannotInline _ _ | .other => none

namespace Log

/-- The package that is current after some lines: that of the last header among them, or else the
one that was current before. -/
def cursor (start : String) (ds : List Diagnostic) : String :=
  (ds.filterMap Diagnostic.package?).getLast?.getD start

/-- The nearest header before a place in a log announces this package. -/
def Announces (before : List Diagnostic) (package : String) : Prop :=
  ∃ earlier between, before = earlier ++ .header package :: between ∧
    ∀ d ∈ between, d.package? = none

/-- A line of a log and the package that it speaks of. -/
structure Reading where
  cursor : String
  diagnostic : Diagnostic
  deriving Repr, DecidableEq

namespace Reading

/-- The line proves a name inlineable. -/
def Proves (r : Reading) (n : String) : Prop :=
  ∃ s, (r.diagnostic = .inliningCall s ∨ r.diagnostic = .canInline s) ∧ fullName r.cursor s = n

/-- The line refuses a name, for this reason. -/
def Refuses (r : Reading) (n why : String) : Prop :=
  ∃ s, r.diagnostic = .cannotInline s why ∧ fullName r.cursor s = n

/-- The reason that the line gives for a name. -/
def reason? (r : Reading) (n : String) : Option String :=
  match r.diagnostic with
  | .cannotInline s why => if fullName r.cursor s = n then some why else none
  | _ => none

theorem reason?_eq_some_iff {r : Reading} {n why : String} :
    r.reason? n = some why ↔ r.Refuses n why := by
  obtain ⟨c, d⟩ := r
  cases d with
  | cannotInline s w =>
    simp only [reason?, Refuses, Option.ite_none_right_eq_some, Option.some.injEq,
      Diagnostic.cannotInline.injEq]
    constructor
    · rintro ⟨hn, rfl⟩
      exact ⟨s, ⟨rfl, rfl⟩, hn⟩
    · rintro ⟨s', ⟨rfl, rfl⟩, hn⟩
      exact ⟨hn, rfl⟩
  | _ => simp [reason?, Refuses]

instance (r : Reading) (n : String) : Decidable (r.Proves n) :=
  match hd : r.diagnostic with
  | .inliningCall s =>
    decidable_of_iff (fullName r.cursor s = n) (by simp [Proves, hd])
  | .canInline s =>
    decidable_of_iff (fullName r.cursor s = n) (by simp [Proves, hd])
  | .header _ => .isFalse (by simp [Proves, hd])
  | .cannotInline _ _ => .isFalse (by simp [Proves, hd])
  | .other => .isFalse (by simp [Proves, hd])

end Reading

/-- The lines of a log, each under the package of the nearest header before it. -/
def readingsFrom (start : String) (ds : List Diagnostic) : List Reading :=
  ds.mapIdx fun k d => ⟨cursor start (ds.take k), d⟩

/-- What the lines of a log say. -/
def diagnostics (log : Bytes) : List Diagnostic :=
  (lines log).map Diagnostic.ofLine

/-- The lines of a log of its own. -/
def readings (log : Bytes) : List Reading :=
  readingsFrom "" (diagnostics log)

/-- Some line proves a name. -/
def Proven (rs : List Reading) (n : String) : Prop := ∃ r ∈ rs, r.Proves n

/-- The reason that the last line which refuses a name gives. -/
def lastReason? (rs : List Reading) (n : String) : Option String :=
  (rs.filterMap (·.reason? n)).getLast?

instance (rs : List Reading) (n : String) : Decidable (Proven rs n) :=
  inferInstanceAs (Decidable (∃ r ∈ rs, r.Proves n))

/-! ### Cursors -/

@[simp] theorem cursor_nil (start : String) : cursor start [] = start := rfl

theorem cursor_append (start : String) (ds es : List Diagnostic) :
    cursor start (ds ++ es) = cursor (cursor start ds) es := by
  simp only [cursor, List.filterMap_append, List.getLast?_append]
  cases (es.filterMap Diagnostic.package?).getLast? <;> rfl

theorem package?_eq_some_iff {d : Diagnostic} {package : String} :
    d.package? = some package ↔ d = .header package := by
  cases d <;> simp [Diagnostic.package?]

theorem cursor_append_of_silent {start : String} {ds es : List Diagnostic}
    (h : ∀ d ∈ es, d.package? = none) : cursor start (ds ++ es) = cursor start ds := by
  have hnone : es.filterMap Diagnostic.package? = [] := List.filterMap_eq_nil_iff.2 h
  rw [cursor_append, cursor, hnone]
  rfl

theorem Announces.cursor_eq {ds : List Diagnostic} {package : String} (h : Announces ds package)
    (start : String) : cursor start ds = package := by
  obtain ⟨earlier, between, rfl, hb⟩ := h
  rw [List.append_cons, cursor_append_of_silent hb, cursor_append]
  rfl

/-- The cursor is a package that was announced, or there was no header. -/
theorem announces_cursor_or_silent (start : String) (ds : List Diagnostic) :
    Announces ds (cursor start ds) ∨ (∀ d ∈ ds, d.package? = none) ∧ cursor start ds = start := by
  induction ds using List.reverseRecOn with
  | nil => exact .inr ⟨by simp, rfl⟩
  | append_singleton ds d ih =>
    cases hd : d.package? with
    | some package =>
      rw [package?_eq_some_iff] at hd
      subst hd
      have hc : cursor start (ds ++ [.header package]) = package := by
        rw [cursor_append]
        rfl
      rw [hc]
      exact .inl ⟨ds, [], rfl, by simp⟩
    | none =>
      have hsilent : ∀ d' ∈ [d], d'.package? = none := by simpa using hd
      rw [cursor_append_of_silent hsilent]
      rcases ih with ⟨earlier, between, he, hb⟩ | ⟨hds, hc⟩
      · refine .inl ⟨earlier, between ++ [d], ?_, ?_⟩
        · rw [← List.cons_append, ← List.append_assoc, ← he]
        · exact List.forall_mem_append.2 ⟨hb, hsilent⟩
      · exact .inr ⟨List.forall_mem_append.2 ⟨hds, hsilent⟩, hc⟩

/-! ### Readings -/

@[simp] theorem readingsFrom_nil (start : String) : readingsFrom start [] = [] := rfl

theorem readingsFrom_cons (start : String) (d : Diagnostic) (ds : List Diagnostic) :
    readingsFrom start (d :: ds) = ⟨start, d⟩ :: readingsFrom (cursor start [d]) ds := by
  have h : ∀ k, cursor start (d :: ds.take k) = cursor (cursor start [d]) (ds.take k) :=
    fun k => cursor_append start [d] (ds.take k)
  simp [readingsFrom, List.mapIdx_cons, h]

theorem readingsFrom_append (start : String) (ds es : List Diagnostic) :
    readingsFrom start (ds ++ es) =
      readingsFrom start ds ++ readingsFrom (cursor start ds) es := by
  induction ds generalizing start with
  | nil => rfl
  | cons d ds ih =>
    rw [List.cons_append, readingsFrom_cons, readingsFrom_cons, ih, ← cursor_append,
      List.cons_append]
    rfl

/-- **A reading is a line under the last header before it.** -/
theorem mem_readingsFrom {start : String} {ds : List Diagnostic} {r : Reading} :
    r ∈ readingsFrom start ds ↔
      ∃ before after, ds = before ++ r.diagnostic :: after ∧ r.cursor = cursor start before := by
  constructor
  · intro h
    obtain ⟨k, hk, rfl⟩ := List.mem_mapIdx.1 h
    exact ⟨ds.take k, ds.drop (k + 1), by simp, rfl⟩
  · rintro ⟨before, after, rfl, hc⟩
    rw [readingsFrom_append, readingsFrom_cons, ← hc]
    exact List.mem_append_right _ List.mem_cons_self

/-! ### Proofs and reasons -/

theorem proven_cons {r : Reading} {rs : List Reading} {n : String} :
    Proven (r :: rs) n ↔ r.Proves n ∨ Proven rs n := by
  simp [Proven]

theorem proven_append {rs ss : List Reading} {n : String} :
    Proven (rs ++ ss) n ↔ Proven rs n ∨ Proven ss n := by
  simp [Proven, or_and_right, exists_or]

theorem proven_readingsFrom_iff {start : String} {ds : List Diagnostic} {n : String} :
    Proven (readingsFrom start ds) n ↔ ∃ before token after,
      (ds = before ++ .inliningCall token :: after ∨ ds = before ++ .canInline token :: after) ∧
        fullName (cursor start before) token = n := by
  constructor
  · rintro ⟨r, hr, token, hd, hn⟩
    obtain ⟨before, after, rfl, hc⟩ := mem_readingsFrom.1 hr
    rw [hc] at hn
    refine ⟨before, token, after, ?_, hn⟩
    rcases hd with hd | hd
    · exact .inl (by rw [hd])
    · exact .inr (by rw [hd])
  · rintro ⟨before, token, after, hd, hn⟩
    rcases hd with rfl | rfl
    · exact ⟨⟨_, .inliningCall token⟩, mem_readingsFrom.2 ⟨before, after, rfl, rfl⟩,
        token, .inl rfl, hn⟩
    · exact ⟨⟨_, .canInline token⟩, mem_readingsFrom.2 ⟨before, after, rfl, rfl⟩,
        token, .inr rfl, hn⟩

theorem lastReason?_eq_none_iff {start : String} {ds : List Diagnostic} {n : String} :
    lastReason? (readingsFrom start ds) n = none ↔ ∀ before token why after,
      ds = before ++ .cannotInline token why :: after → fullName (cursor start before) token ≠ n := by
  rw [lastReason?, List.getLast?_eq_none_iff, List.filterMap_eq_nil_iff]
  constructor
  · rintro h before token why after rfl hn
    have hr := h ⟨cursor start before, .cannotInline token why⟩
      (mem_readingsFrom.2 ⟨before, after, rfl, rfl⟩)
    have hsome : Reading.reason? ⟨cursor start before, .cannotInline token why⟩ n = some why :=
      Reading.reason?_eq_some_iff.2 ⟨token, rfl, hn⟩
    rw [hsome] at hr
    cases hr
  · intro h r hr
    obtain ⟨before, after, hds, hc⟩ := mem_readingsFrom.1 hr
    rw [Option.eq_none_iff_forall_ne_some]
    intro why hwhy
    obtain ⟨token, hd, hn⟩ := Reading.reason?_eq_some_iff.1 hwhy
    rw [hd] at hds
    rw [hc] at hn
    exact h before token why after hds hn

theorem refusal_of_lastReason? {start : String} {ds : List Diagnostic} {n why : String}
    (h : lastReason? (readingsFrom start ds) n = some why) :
    ∃ before token after, ds = before ++ .cannotInline token why :: after ∧
      fullName (cursor start before) token = n := by
  obtain ⟨r, hr, hwhy⟩ := List.mem_filterMap.1 (List.mem_of_getLast? h)
  obtain ⟨before, after, hds, hc⟩ := mem_readingsFrom.1 hr
  obtain ⟨token, hd, hn⟩ := Reading.reason?_eq_some_iff.1 hwhy
  rw [hd] at hds
  rw [hc] at hn
  exact ⟨before, token, after, hds, hn⟩

theorem lastReason?_append (rs ss : List Reading) (n : String) :
    lastReason? (rs ++ ss) n = (lastReason? ss n).or (lastReason? rs n) := by
  rw [lastReason?, List.filterMap_append, List.getLast?_append]
  rfl

theorem lastReason?_cons (r : Reading) (rs : List Reading) (n : String) :
    lastReason? (r :: rs) n = (lastReason? rs n).or (r.reason? n) := by
  rw [← List.singleton_append, lastReason?_append]
  congr 1
  simp only [lastReason?, List.filterMap_cons, List.filterMap_nil]
  cases r.reason? n <;> rfl

end Log

end InlineAudit
