/-
One log after another.

A log can be read after another one, and then its lines speak of the package that the other left
behind, until a header comes.  Where a header comes before any other line that says something, the
log says after another one what it says on its own:

* `Log.Whole`, `Log.HeaderFirst` — a log that ends where a line ends, and lines of which the first
  that says something is a header;
* `says_readingsFrom` — such lines say the same under every package;
* **`proven_join`**, **`lastReason?_join`** — so two logs, one after the other, prove what either of
  them proves, and the second has the last word on reasons.
-/
import InlineAudit.Proofs.Log.Reading
import InlineAudit.Proofs.Text.Pieces

namespace InlineAudit.Log

variable {first second : Bytes} {start n : String}

/-- The log ends where a line ends. -/
def Whole (log : Bytes) : Prop := log = [] ∨ log.getLast? = some 10

/-- The first line that says something, if there is one, is a header. -/
def HeaderFirst (ds : List Diagnostic) : Prop :=
  ∀ d, ds.find? (· ≠ .other) = some d → ∃ package, d = .header package

/-- Some line refuses a name. -/
def Refused (rs : List Reading) (n : String) : Prop := ∃ r ∈ rs, ∃ why, r.Refuses n why

theorem lastReason?_eq_none_iff_not_refused {rs : List Reading} :
    lastReason? rs n = none ↔ ¬ Refused rs n := by
  rw [lastReason?, List.getLast?_eq_none_iff, List.filterMap_eq_nil_iff, Refused]
  simp only [← Reading.reason?_eq_some_iff, not_exists, not_and]
  exact forall₂_congr fun r _ => Option.eq_none_iff_forall_ne_some

instance (rs : List Reading) (n : String) : Decidable (Refused rs n) :=
  decidable_of_iff (lastReason? rs n ≠ none) (by
    rw [ne_eq, lastReason?_eq_none_iff_not_refused, not_not])

/-- The package after some lines is the same when they are read a second time. -/
theorem cursor_cursor (start : String) (ds : List Diagnostic) :
    cursor (cursor start ds) ds = cursor start ds := by
  simp only [cursor]
  cases (ds.filterMap Diagnostic.package?).getLast? <;> rfl

/-! ### The cut between two logs -/

theorem Whole.isNewline_of_mem_getLast? (h : Whole first) :
    ∀ b ∈ first.getLast?, isNewline b = true := by
  intro b hb
  rcases h with rfl | h
  · cases hb
  · rw [h, Option.mem_some_iff] at hb
    subst hb
    rfl

/-- After whole lines the lines of a log are its own. -/
theorem diagnostics_join (h : Whole first) (second : Bytes) :
    diagnostics (first ++ second) = diagnostics first ++ diagnostics second := by
  simp only [diagnostics, lines, pieces_append h.isNewline_of_mem_getLast?, List.map_append]

/-! ### The package at the start -/

/-- A header, like a line that says nothing, neither proves nor refuses a name. -/
theorem Reading.quiet {r : Reading}
    (h : r.diagnostic = .other ∨ ∃ package, r.diagnostic = .header package) (n : String) :
    ¬ r.Proves n ∧ r.reason? n = none := by
  rcases h with h | ⟨package, h⟩ <;> simp [Proves, reason?, h]

theorem HeaderFirst.of_cons_other {ds : List Diagnostic} (h : HeaderFirst (.other :: ds)) :
    HeaderFirst ds := by
  intro d hd
  exact h d (by rw [List.find?_cons_of_neg (by simp), hd])

/-- Where a header comes first, the package at the start makes no difference. -/
theorem says_readingsFrom {ds : List Diagnostic} (h : HeaderFirst ds) (start start' n : String) :
    (Proven (readingsFrom start ds) n ↔ Proven (readingsFrom start' ds) n) ∧
      lastReason? (readingsFrom start ds) n = lastReason? (readingsFrom start' ds) n := by
  induction ds with
  | nil => exact ⟨Iff.rfl, rfl⟩
  | cons d ds ih =>
    simp only [readingsFrom_cons, proven_cons, lastReason?_cons]
    by_cases hd : d = .other
    · -- a line that says nothing leaves the package as it is
      subst hd
      have hcursor (c : String) : cursor c [.other] = c := rfl
      have hquiet (c : String) := Reading.quiet (r := ⟨c, .other⟩) (.inl rfl) n
      simp only [hcursor, (hquiet _).1, (hquiet _).2, false_or, Option.or_none]
      exact ih h.of_cons_other
    · -- a header sets it, whatever it was
      obtain ⟨package, rfl⟩ := h d (List.find?_cons_of_pos (by simpa using hd))
      have hcursor (c : String) : cursor c [.header package] = package := rfl
      have hquiet (c : String) := Reading.quiet (r := ⟨c, .header package⟩) (.inr ⟨_, rfl⟩) n
      simp only [hcursor, (hquiet _).1, (hquiet _).2, false_or, and_self]

/-! ### Two logs -/

theorem proven_readingsFrom_join (hwhole : Whole first) (hheader : HeaderFirst (diagnostics second))
    (start' : String) :
    Proven (readingsFrom start (diagnostics (first ++ second))) n ↔
      Proven (readingsFrom start (diagnostics first)) n ∨
        Proven (readingsFrom start' (diagnostics second)) n := by
  rw [diagnostics_join hwhole, readingsFrom_append, proven_append,
    (says_readingsFrom hheader _ start' n).1]

theorem lastReason?_readingsFrom_join (hwhole : Whole first)
    (hheader : HeaderFirst (diagnostics second)) (start' : String) :
    lastReason? (readingsFrom start (diagnostics (first ++ second))) n =
      (lastReason? (readingsFrom start' (diagnostics second)) n).or
        (lastReason? (readingsFrom start (diagnostics first)) n) := by
  rw [diagnostics_join hwhole, readingsFrom_append, lastReason?_append,
    (says_readingsFrom hheader _ start' n).2]

/-- **Two logs prove what either of them proves.** -/
theorem proven_join (hwhole : Whole first) (hheader : HeaderFirst (diagnostics second)) :
    Proven (readings (first ++ second)) n ↔
      Proven (readings first) n ∨ Proven (readings second) n :=
  proven_readingsFrom_join hwhole hheader ""

/-- **The second log has the last word on reasons.** -/
theorem lastReason?_join (hwhole : Whole first) (hheader : HeaderFirst (diagnostics second)) :
    lastReason? (readings (first ++ second)) n =
      (lastReason? (readings second) n).or (lastReason? (readings first) n) :=
  lastReason?_readingsFrom_join hwhole hheader ""

end InlineAudit.Log
