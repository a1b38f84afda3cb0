/-
Records that are written as objects and read back.

* `mapM_of_inverse` — items that are read back one by one are read back together;
* `members?_ofMembers`, `fields?_ofMembers`, `listOf?_ofStrings` — members, fields and lists of
  strings are found as they were written;
* `wellFormed_array`, `wellFormed_ofMembers` — what is written of well formed values is well formed.
-/
import InlineAudit.Json.Record
import InlineAudit.Proofs.Json.Integer
import InlineAudit.Proofs.Json.Lexing

namespace InlineAudit.Json

/-- Items that are read back one by one are read back together. -/
theorem mapM_of_inverse {α β : Type} {f : α → β} {read : β → Option α}
    (h : ∀ a, read (f a) = some a) (as : List α) : (as.map f).mapM read = some as := by
  have hread : read ∘ f = fun a => pure a := funext h
  rw [List.mapM_map, hread, List.mapM_pure, List.map_id']
  rfl

theorem members?_ofMembers (ms : List (String × Json)) : (ofMembers ms).members? = some ms := by
  rw [ofMembers, members?]
  exact mapM_of_inverse (f := fun m : String × Json => (some m.1, m.2)) (fun _ => rfl) ms

theorem listOf?_ofStrings (ss : List String) : listOf? text? (ofStrings ss) = some ss := by
  rw [ofStrings, listOf?]
  exact mapM_of_inverse (f := ofString) (fun _ => rfl) ss

/-- The fields of an object are looked up among its members. -/
theorem fields?_ofMembers (names : List String) (ms : List (String × Json)) :
    (ofMembers ms).fields? names = names.mapM (unique? ms) := by
  show (ofMembers ms).members?.bind _ = _
  rw [members?_ofMembers, Option.bind_some]

theorem wellFormed_ofString (s : String) : (ofString s).WellFormed := trivial

theorem wellFormed_ofInt (n : Int) : (ofInt n).WellFormed := Number.isWellFormed_toString n

theorem wellFormed_array {items : List Json} (h : ∀ j ∈ items, j.WellFormed) :
    (array items).WellFormed := by
  rw [WellFormed]
  induction items with
  | nil => exact trivial
  | cons j items ih =>
    obtain ⟨hj, hitems⟩ := List.forall_mem_cons.1 h
    exact ⟨hj, ih hitems⟩

theorem wellFormed_ofStrings (ss : List String) : (ofStrings ss).WellFormed := by
  refine wellFormed_array fun j hj => ?_
  obtain ⟨s, -, rfl⟩ := List.mem_map.1 hj
  exact wellFormed_ofString s

theorem wellFormed_ofMembers {ms : List (String × Json)} (h : ∀ m ∈ ms, m.2.WellFormed) :
    (ofMembers ms).WellFormed := by
  rw [ofMembers, WellFormed]
  induction ms with
  | nil => exact trivial
  | cons m ms ih =>
    obtain ⟨hm, hms⟩ := List.forall_mem_cons.1 h
    exact ⟨hm, ih hms⟩

end InlineAudit.Json
