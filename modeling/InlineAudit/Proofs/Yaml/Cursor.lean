/-
Places in a YAML text that is known piece by piece.

* `separation_induction` — a text as words with separators between them;
* `Cursor.past` — the place after some characters that stand here;
* `Cursor.advance_eq_past`, `Cursor.takeBreak?_of_firm` — the moves of a reader lead to such places;
* `indentation`, `unindented` — the two parts of the rest of a text at the start of a line.

Design notes: a carriage return does not come into it, since in what is written there is none; so a
line break is one character.
-/
import InlineAudit.Yaml.Cursor
import InlineAudit.Yaml.Scalar.Written
import Mathlib.Data.List.TakeWhile

namespace InlineAudit.Yaml

section Separation

variable {α : Type}

/-- A list up to the first member with a property. -/
theorem exists_cut (p : α → Bool) (cs : List α) :
    ∃ w rest, cs = w ++ rest ∧ (∀ a ∈ w, p a = false) ∧ ∀ a ∈ rest.head?, p a = true := by
  induction cs with
  | nil => exact ⟨[], [], rfl, by simp, by simp⟩
  | cons a cs ih =>
    cases ha : p a with
    | true => exact ⟨[], a :: cs, rfl, by simp, by simpa using ha⟩
    | false =>
      obtain ⟨w, rest, rfl, hw, hrest⟩ := ih
      exact ⟨a :: w, rest, rfl, by simpa using ⟨ha, hw⟩, hrest⟩

/-- Every list is a word, or a word and separators before a list that does not start with one.  The
words may be empty, the separators between them may not. -/
theorem separation_induction (p : α → Bool) {motive : List α → Prop}
    (word : ∀ w, (∀ a ∈ w, p a = false) → motive w)
    (separated : ∀ w gap cs, (∀ a ∈ w, p a = false) → gap ≠ [] → (∀ a ∈ gap, p a = true) →
      (∀ a ∈ cs.head?, p a = false) → motive cs → motive (w ++ (gap ++ cs)))
    (cs : List α) : motive cs := by
  induction hn : cs.length using Nat.strong_induction_on generalizing cs with
  | _ n ih =>
    obtain ⟨w, rest, rfl, hw, hrest⟩ := exists_cut p cs
    cases rest with
    | nil => simpa using word w hw
    | cons b rest =>
      obtain ⟨gap, after, rfl, hgap, hafter⟩ := exists_cut (! p ·) rest
      have hb : p b = true := hrest b rfl
      refine separated w (b :: gap) after hw (List.cons_ne_nil _ _) ?_ (by simpa using hafter)
        (ih after.length ?_ after rfl)
      · simpa using ⟨hb, fun a ha => by simpa using hgap a ha⟩
      · subst hn
        simp only [List.length_append, List.length_cons]
        omega

end Separation

/-- Bytes that are counted already are only added to. -/
theorem foldl_utf8Size (cs : List Char) (n : Nat) :
    cs.foldl (fun n c => n + c.utf8Size) n = n + byteCount cs := by
  induction cs generalizing n with
  | nil => rfl
  | cons c cs ih =>
    rw [byteCount, List.foldl_cons, List.foldl_cons, ih, ih, Nat.zero_add, Nat.add_assoc]

@[simp]
theorem byteCount_nil : byteCount [] = 0 := rfl

@[simp]
theorem byteCount_cons (c : Char) (cs : List Char) :
    byteCount (c :: cs) = c.utf8Size + byteCount cs := by
  rw [byteCount, List.foldl_cons, foldl_utf8Size, Nat.zero_add]

@[simp]
theorem byteCount_append (cs ds : List Char) :
    byteCount (cs ++ ds) = byteCount cs + byteCount ds := by
  rw [byteCount, List.foldl_append, foldl_utf8Size]
  rfl

/-- A line break that stands for itself in the value of a scalar. -/
def isFirmBreak (c : Char) : Bool := c == '\n' || c == '\u2028' || c == '\u2029'

theorem isFirmBreak_of_isPrintable {c : Char} (hbreak : isBreak c = true)
    (hprintable : isPrintable c = true) : isFirmBreak c = true := by
  simp only [isBreak, Bool.or_eq_true, beq_iff_eq] at hbreak
  rcases hbreak with (((rfl | rfl) | rfl) | rfl) | rfl
  · decide
  · exact absurd hprintable (by decide)
  · exact absurd hprintable (by decide)
  · decide
  · decide

theorem isBreak_of_isFirmBreak {c : Char} (h : isFirmBreak c = true) : isBreak c = true := by
  simp only [isFirmBreak, Bool.or_eq_true, beq_iff_eq] at h
  rcases h with (rfl | rfl) | rfl <;> decide

theorem isBlank_of_isPrintable {c : Char} (hprintable : isPrintable c = true) :
    isBlank c = isSpaceChar c := by
  rw [isBlank, isSpaceChar]
  by_cases hc : c = '\t'
  · subst hc
    exact absurd hprintable (by decide)
  · simp [hc]

theorem isBlank_of_isSpace {a : Char} (h : isSpace a = false) : isBlank a = false := by
  rw [isSpace, Bool.or_eq_false_iff] at h
  exact h.1

theorem isBreak_of_isSpace {a : Char} (h : isSpace a = false) : isBreak a = false := by
  rw [isSpace, Bool.or_eq_false_iff] at h
  exact h.2

theorem isBreak_of_any {cs : List Char} (h : cs.any isBreak = false) :
    ∀ a ∈ cs, isBreak a = false := fun a ha => by
  simpa using List.any_eq_false.1 h a ha

namespace Cursor

variable {c : Cursor} {w v rest : List Char}

/-- The column after some characters. -/
def columnAfter : Nat → List Char → Nat
  | n, [] => n
  | n, a :: w => columnAfter (if isBreak a then 0 else n + 1) w

/-- The place after some characters that stand here. -/
def past (c : Cursor) (w : List Char) : Cursor where
  rest := c.rest.drop w.length
  index := c.index + byteCount w
  line := c.line + w.countP isBreak
  column := columnAfter c.column w
  bound := c.bound

theorem columnAfter_append (n : Nat) (w v : List Char) :
    columnAfter n (w ++ v) = columnAfter (columnAfter n w) v := by
  induction w generalizing n with
  | nil => rfl
  | cons a w ih => exact ih _

theorem columnAfter_of_no_break {n : Nat} (h : ∀ a ∈ w, isBreak a = false) :
    columnAfter n w = n + w.length := by
  induction w generalizing n with
  | nil => rfl
  | cons a w ih =>
    rw [columnAfter, h a (List.mem_cons_self ..), ih fun b hb => h b (List.mem_cons_of_mem _ hb),
      List.length_cons]
    simp only [Bool.false_eq_true, if_false]
    omega

@[simp]
theorem past_nil : c.past [] = c := rfl

@[simp]
theorem bound_past : (c.past w).bound = c.bound := rfl

@[simp]
theorem past_past : (c.past w).past v = c.past (w ++ v) := by
  simp only [past, List.drop_drop, List.length_append, byteCount_append, List.countP_append,
    columnAfter_append, Nat.add_assoc]

theorem rest_past (h : c.rest = w ++ rest) : (c.past w).rest = rest := by
  rw [past, h, List.drop_left]

theorem column_past (h : ∀ a ∈ w, isBreak a = false) :
    (c.past w).column = c.column + w.length :=
  columnAfter_of_no_break h

theorem column_past_append (h : ∀ a ∈ v, isBreak a = false) :
    (c.past (w ++ v)).column = (c.past w).column + v.length := by
  rw [← past_past, column_past h]

theorem line_past (h : ∀ a ∈ w, isBreak a = false) : (c.past w).line = c.line := by
  rw [past, List.countP_eq_zero.2 (by simpa using h), Nat.add_zero]

theorem line_le_line_past : c.line ≤ (c.past w).line := Nat.le_add_right _ _

theorem index_past : (c.past w).index = c.index + byteCount w := rfl

theorem columnAfter_of_breaks {n : Nat} {bs : List Char} (hne : bs ≠ [])
    (hbs : ∀ b ∈ bs, isBreak b = true) : columnAfter n bs = 0 := by
  induction bs generalizing n with
  | nil => exact absurd rfl hne
  | cons b bs ih =>
    rw [columnAfter, if_pos (hbs b (List.mem_cons_self ..))]
    by_cases hend : bs = []
    · rw [hend, columnAfter]
    · exact ih hend fun a ha => hbs a (List.mem_cons_of_mem _ ha)

theorem column_past_breaks {u : List Char} (hne : u ≠ []) (hu : ∀ b ∈ u, isBreak b = true)
    (h : ∀ a ∈ v, isBreak a = false) : (c.past (w ++ (u ++ v))).column = v.length := by
  rw [past, columnAfter_append, columnAfter_append]
  dsimp only
  rw [columnAfter_of_breaks hne hu, columnAfter_of_no_break h, Nat.zero_add]

theorem column_past_break {b : Char} (hb : isBreak b = true) (h : ∀ a ∈ v, isBreak a = false) :
    (c.past (w ++ b :: v)).column = v.length :=
  column_past_breaks (u := [b]) (List.cons_ne_nil _ _) (by simpa using hb) h

/-- There are enough steps to read all that is left. -/
def Fits (c : Cursor) : Prop := c.rest.length < c.bound

theorem Fits.past (h : c.Fits) : (c.past w).Fits := by
  have hdrop : (c.rest.drop w.length).length ≤ c.rest.length := by simp
  exact Nat.lt_of_le_of_lt hdrop h

theorem Fits.length_lt (h : c.Fits) (hc : c.rest = w ++ rest) : w.length < c.bound := by
  rw [Fits, hc, List.length_append] at h
  omega

theorem advance_eq_past (hc : c.rest = w ++ rest) (h : ∀ a ∈ w, isBreak a = false) :
    c.advance w.length = c.past w := by
  rw [advance, past, hc, List.take_left, columnAfter_of_no_break h]
  simp [List.countP_eq_zero.2 (by simpa using h)]

theorem advance_one {a : Char} (hc : c.rest = a :: rest) (h : isBreak a = false) :
    c.advance 1 = c.past [a] :=
  advance_eq_past (w := [a]) hc (by simpa using h)

@[simp]
theorem advance_zero : c.advance 0 = c := by
  simp [advance]

theorem takeWhile_eq {p : Char → Bool} (h : ∀ a ∈ w, p a = true)
    (hrest : ∀ a ∈ rest.head?, p a = false) : (w ++ rest).takeWhile p = w := by
  rw [List.takeWhile_append_of_pos h]
  cases rest with
  | nil => simp
  | cons a rest => rw [List.takeWhile_cons_of_neg (by simp [hrest a rfl]), List.append_nil]

theorem skipWhile_eq_past {p : Char → Bool} (hc : c.rest = w ++ rest) (h : ∀ a ∈ w, p a = true)
    (hrest : ∀ a ∈ rest.head?, p a = false) (hline : ∀ a ∈ w, isBreak a = false) :
    c.skipWhile p = c.past w := by
  rw [skipWhile, hc, takeWhile_eq h hrest, advance_eq_past hc hline]

theorem takeBreak?_of_firm {b : Char} (hc : c.rest = b :: rest) (hb : isFirmBreak b = true) :
    c.takeBreak? = some ([b], c.past [b]) := by
  have hbreak := isBreak_of_isFirmBreak hb
  have hcr : b ≠ '\r' := by
    rintro rfl
    exact absurd hb (by decide)
  have hself : (if b = '\u2028' ∨ b = '\u2029' then [b] else ['\n']) = [b] := by
    simp only [isFirmBreak, Bool.or_eq_true, beq_iff_eq] at hb
    rcases hb with (rfl | rfl) | rfl <;> decide
  rw [takeBreak?, hc]
  simp only [past, hc, List.length_singleton, List.drop_one, List.tail_cons, columnAfter, hbreak,
    if_true]
  split
  · rename_i heq
    exact absurd (List.cons.inj heq).1 hcr
  · rename_i heq
    obtain ⟨rfl, rfl⟩ := List.cons.inj heq
    simp [hbreak, hself]
  · rename_i heq
    cases heq

theorem takeBreak?_eq_none (h : ∀ a ∈ c.rest.head?, isBreak a = false) : c.takeBreak? = none := by
  rw [takeBreak?]
  split
  · rename_i heq
    have hcr := h '\r' (by rw [heq]; rfl)
    exact absurd hcr (by decide)
  · rename_i b rest _ heq
    rw [h b (by rw [heq]; rfl)]
    rfl
  · rfl

theorem skipComment_eq_self (h : ∀ a ∈ c.rest.head?, isBlank a = false ∧ a ≠ '#') :
    c.skipComment = c := by
  have hblank : c.skipWhile isBlank = c :=
    skipWhile_eq_past (w := []) rfl (by simp) (fun a ha => (h a ha).1) (by simp)
  rw [skipComment, hblank, head?]
  exact if_neg fun hhash => (h '#' hhash).2 rfl

theorem documentMark?_of_column_pos (h : 0 < c.column) : c.documentMark? = none := by
  rw [documentMark?, if_neg (Nat.pos_iff_ne_zero.1 h)]

end Cursor

section Lines

variable {n : Nat} {text rest : List Char}

theorem isSpaceChar_iff {c : Char} : isSpaceChar c = true ↔ c = ' ' := beq_iff_eq

theorem mem_spaces {a : Char} (h : a ∈ spaces n) : a = ' ' := List.eq_of_mem_replicate h

@[simp]
theorem length_spaces : (spaces n).length = n := List.length_replicate

theorem isBreak_of_mem_spaces {a : Char} (h : a ∈ spaces n) : isBreak a = false := by
  rw [mem_spaces h]
  decide

theorem eq_spaces_of_forall (h : ∀ a ∈ text, isSpaceChar a = true) : text = spaces text.length :=
  List.eq_replicate_of_mem fun a ha => isSpaceChar_iff.1 (h a ha)

theorem exists_spaces_succ (hne : text ≠ []) (h : ∀ a ∈ text, isSpaceChar a = true) :
    ∃ n, text = spaces (n + 1) := by
  refine ⟨text.length - 1, ?_⟩
  rw [Nat.sub_add_cancel (List.length_pos_iff.2 hne)]
  exact eq_spaces_of_forall h

/-- The number of spaces at the start of a text. -/
def indentation (text : List Char) : Nat := (text.takeWhile isSpaceChar).length

/-- A text without the spaces at its start. -/
def unindented (text : List Char) : List Char := text.dropWhile isSpaceChar

theorem spaces_indentation_append (text : List Char) :
    spaces (indentation text) ++ unindented text = text := by
  rw [indentation, ← eq_spaces_of_forall fun a ha => List.mem_takeWhile_imp ha]
  exact List.takeWhile_append_dropWhile

theorem indentation_spaces_append (h : ∀ a ∈ rest.head?, isSpaceChar a = false) :
    indentation (spaces n ++ rest) = n := by
  rw [indentation, Cursor.takeWhile_eq (fun a ha => isSpaceChar_iff.2 (mem_spaces ha)) h,
    length_spaces]

theorem unindented_spaces_append (h : ∀ a ∈ rest.head?, isSpaceChar a = false) :
    unindented (spaces n ++ rest) = rest := by
  have hall := spaces_indentation_append (spaces n ++ rest)
  rw [indentation_spaces_append h] at hall
  exact List.append_cancel_left hall

/-- A token starts here, or the text is over: this is no blank, no line break, no comment and no
byte order mark. -/
def Solid (rest : List Char) : Prop :=
  ∀ a ∈ rest.head?, isSpace a = false ∧ a ≠ '#' ∧ a ≠ byteOrderMark

theorem Solid.isBlank_eq_false (h : Solid rest) {a : Char} (ha : a ∈ rest.head?) :
    isBlank a = false :=
  isBlank_of_isSpace (h a ha).1

theorem Solid.isBreak_eq_false (h : Solid rest) {a : Char} (ha : a ∈ rest.head?) :
    isBreak a = false :=
  isBreak_of_isSpace (h a ha).1

theorem Solid.isSpaceChar_eq_false (h : Solid rest) {a : Char} (ha : a ∈ rest.head?) :
    isSpaceChar a = false := by
  have hblank := h.isBlank_eq_false ha
  rw [isBlank, Bool.or_eq_false_iff] at hblank
  exact hblank.1

/-- A text starts with a line that holds a token and is indented by at most some number of spaces,
or with nothing after its indentation. -/
structure Begins (n : Nat) (text : List Char) : Prop where
  shallow : indentation text ≤ n
  solid : Solid (unindented text)

theorem begins_spaces_append {k : Nat} (h : k ≤ n) (hrest : Solid rest) :
    Begins n (spaces k ++ rest) := by
  have hspace := fun a (ha : a ∈ rest.head?) => hrest.isSpaceChar_eq_false ha
  exact ⟨(indentation_spaces_append hspace).le.trans h,
    (unindented_spaces_append (n := k) hspace).symm ▸ hrest⟩

theorem Begins.mono {m : Nat} (h : Begins n text) (hnm : n ≤ m) : Begins m text :=
  ⟨h.shallow.trans hnm, h.solid⟩

end Lines

end InlineAudit.Yaml
