/-
Plain scalars that are known to be plain.

* `PlainText` — a text that nothing interrupts;
* **`plain?_of_plainText`** — where such a text stands it is the plain scalar, and it is read up to
  the colon or the line break behind it.

Design notes: a plain scalar that ends its line takes the line break and the indentation of the next
line with it, and finds out only then that it is over.
-/
import InlineAudit.Yaml.Scalar.Plain
import InlineAudit.Proofs.Yaml.Scalar.Gap
import Mathlib.Data.List.Chain

namespace InlineAudit.Yaml

/-- No colon of a text ends a word. -/
def ColonsInside (cs : List Char) : Prop :=
  ∀ before after, cs = before ++ ':' :: after → Cursor.atSpace after = false

/-- A word of a plain scalar ends here: with a space, or with a colon before one. -/
def EndsWord (cs : List Char) : Prop :=
  ∀ a rest, cs = a :: rest → isSpace a = true ∨ (a = ':' ∧ Cursor.atSpace rest = true)

theorem atSpace_append {cs ds : List Char} (h : Cursor.atSpace cs = false) :
    Cursor.atSpace (cs ++ ds) = false := by
  cases cs with
  | nil => exact absurd h (by decide)
  | cons a cs => exact h

theorem ColonsInside.of_append {w cs : List Char} (h : ColonsInside (w ++ cs)) :
    ColonsInside cs := by
  rintro before after rfl
  exact h (w ++ before) after (by simp)

theorem ColonsInside.word {w rest : List Char} (h : ColonsInside (w ++ rest))
    (hrest : Cursor.atSpace rest = true) : ColonsInside w := by
  rintro before after rfl
  have hafter := h before (after ++ rest) (by simp)
  cases after with
  | nil =>
    rw [List.nil_append, hrest] at hafter
    cases hafter
  | cons a after => exact hafter

theorem plainWord?_append {w tail : List Char} (hspace : ∀ a ∈ w, isSpace a = false)
    (hcolons : ColonsInside w) (htail : EndsWord tail) :
    plainWord? false (w ++ tail) = some (w, tail) := by
  induction w with
  | nil =>
    cases tail with
    | nil => rfl
    | cons a rest =>
      rw [List.nil_append, plainWord?]
      rcases htail a rest rfl with ha | ⟨rfl, hrest⟩
      · rw [if_pos ha]
      · simp [hrest, show isSpace ':' = false from rfl]
  | cons a w ih =>
    have ha := hspace a (List.mem_cons_self ..)
    have hmore := ih (fun b hb => hspace b (List.mem_cons_of_mem _ hb))
      (ColonsInside.of_append (w := [a]) hcolons)
    rw [List.cons_append, plainWord?, if_neg (by simp [ha])]
    have hcolon : (a == ':' && Cursor.atSpace (w ++ tail)) = false := by
      cases hac : a == ':' with
      | false => rfl
      | true =>
        obtain rfl := beq_iff_eq.1 hac
        exact atSpace_append (hcolons [] w rfl)
    simp [hcolon, hmore]

/-- A text that stands plain without an interruption: its blanks are spaces between words, no colon
ends a word, and no word begins a comment. -/
structure PlainText (cs : List Char) : Prop where
  ne_nil : cs ≠ []
  isSpace_eq : ∀ a ∈ cs, isSpace a = isSpaceChar a
  colons : ColonsInside cs
  comments : cs.IsChain fun a b => ¬ (isSpaceChar a = true ∧ b = '#')
  head : ∀ a ∈ cs.head?, isSpaceChar a = false ∧ a ≠ '#'
  last : ∀ a ∈ cs.getLast?, isSpaceChar a = false

section Separated

variable {w cs : List Char} {n : Nat}

/-- A plain text begins with a word. -/
theorem PlainText.word_ne_nil (h : PlainText (w ++ (spaces (n + 1) ++ cs))) : w ≠ [] := by
  rintro rfl
  exact absurd (h.head ' ' rfl).1 (by decide)

/-- What follows the spaces in a plain text is plain too. -/
theorem PlainText.after_spaces (h : PlainText (w ++ (spaces (n + 1) ++ cs)))
    (hcs : ∀ a ∈ cs.head?, isSpaceChar a = false) : PlainText cs := by
  have hne : cs ≠ [] := by
    rintro rfl
    have hlast := h.last ' ' (by simp [spaces, List.getLast?_append, List.getLast?_replicate])
    exact absurd hlast (by decide)
  refine ⟨hne, fun a ha => h.isSpace_eq a (by simp [ha]), h.colons.of_append.of_append, ?_, ?_, ?_⟩
  · exact h.comments.right_of_append.right_of_append
  · intro a ha
    refine ⟨hcs a ha, fun hhash => ?_⟩
    have hmark := (List.isChain_append.1 h.comments.right_of_append).2.2 ' '
      (by simp [spaces, List.getLast?_replicate]) a ha
    exact hmark ⟨rfl, hhash⟩
  · intro a ha
    refine h.last a ?_
    rw [List.getLast?_append_of_ne_nil _ (by simp [hne]), List.getLast?_append_of_ne_nil _ hne]
    exact ha

end Separated

/-- What follows a plain scalar ends it: either there is no gap, or the gap ends left of the
margin.  `white` is the gap as it is written. -/
structure PlainEnd (margin : Int) (tail : List Char) (gap : Gap) (white : List Char) : Prop where
  endsWord : EndsWord tail
  gap : ∀ c : Cursor, c.rest = tail → c.Fits →
    if tail.head?.any isSpace then
      Gap.read? margin c.bound .empty c = some (gap, c.past white) ∧
        ((c.past white).column : Int) < margin
    else gap = .empty ∧ white = []

/-- A plain scalar ends with the colon behind it. -/
theorem plainEnd_colon {margin : Int} {rest : List Char} (h : Cursor.atSpace rest = true) :
    PlainEnd margin (':' :: rest) .empty [] where
  endsWord := by
    rintro a after heq
    obtain ⟨rfl, rfl⟩ := List.cons.inj heq
    exact .inr ⟨rfl, h⟩
  gap := fun c _ _ => by simp [show isSpace ':' = false from rfl]

/-- A plain scalar ends with its line, if the next one is not indented enough. -/
theorem plainEnd_line {n : Nat} {text : List Char} (h : Begins n text) :
    PlainEnd (n + 1) ('\n' :: text) ⟨[], true, ['\n'], []⟩
      ('\n' :: spaces (indentation text)) where
  endsWord := by
    rintro a after heq
    obtain ⟨rfl, rfl⟩ := List.cons.inj heq
    exact .inl rfl
  gap := fun c hc hfits => by
    have htext := spaces_indentation_append text
    have hread : Gap.read? (n + 1) c.bound .empty c =
        some (⟨[], true, ['\n'], []⟩, c.past ('\n' :: spaces (indentation text))) := by
      refine Gap.read?_breaks ?_ rfl (List.forall_mem_nil _)
        (by rw [hc, List.nil_append, htext]) fun a ha => (h.solid a ha).1
      rw [Cursor.Fits, hc, List.length_cons, ← htext, List.length_append, length_spaces] at hfits
      simp only [List.length_nil]
      omega
    have hcolumn := Cursor.column_past_break (c := c) (w := []) (b := '\n') rfl
      (fun a (ha : a ∈ spaces (indentation text)) => isBreak_of_mem_spaces ha)
    have hshallow := h.shallow
    rw [List.head?_cons, Option.any_some, if_pos (by decide)]
    refine ⟨by simpa using hread, ?_⟩
    rw [List.nil_append, length_spaces] at hcolumn
    rw [hcolumn]
    omega

section Words

variable {margin : Int} {tail white : List Char} {gap : Gap}

/-- One word is read, and the gap behind it tells what comes next. -/
theorem plainWords?_word {w rest : List Char} {fuel : Nat} {seen : List Char} {before : Gap}
    {c : Cursor} (hne : w ≠ []) (hw : ∀ a ∈ w, isSpace a = false) (hcolons : ColonsInside w)
    (hhash : ∀ a ∈ w.head?, a ≠ '#') (hrest : EndsWord rest) (hc : c.rest = w ++ rest)
    (hmark : c.documentMark? = none) :
    plainWords? false margin (fuel + 1) seen before c =
      if rest.head?.any isSpace then
        (Gap.read? margin c.bound .empty (c.past w)).bind fun (gap, c') =>
          if (c'.column : Int) < margin then
            some (w.reverse ++ (before.text.reverse ++ seen), gap, c')
          else plainWords? false margin fuel (w.reverse ++ (before.text.reverse ++ seen)) gap c'
      else some (w.reverse ++ (before.text.reverse ++ seen), .empty, c.past w) := by
  have hhead : (c.head? == some '#') = false := by
    obtain ⟨a, w, rfl⟩ := List.exists_cons_of_ne_nil hne
    rw [Cursor.head?, hc]
    simpa using hhash a rfl
  have hadvance := Cursor.advance_eq_past hc fun a ha => isBreak_of_isSpace (hw a ha)
  rw [plainWords?, hmark, hhead]
  simp only [Option.isSome_none, Bool.or_self, Bool.false_eq_true, if_false, hc,
    plainWord?_append hw hcolons hrest, Option.bind_eq_bind, Option.bind_some,
    List.isEmpty_iff, hne, hadvance, Cursor.head?, Cursor.rest_past hc, Cursor.bound_past,
    Bool.not_false, Bool.true_and, decide_eq_true_eq]

/-- The last word of a plain text is read with the gap that ends the scalar. -/
theorem plainWords?_last (hend : PlainEnd margin tail gap white) {w : List Char}
    (htext : PlainText w) (hw : ∀ a ∈ w, isSpaceChar a = false) {seen : List Char} {before : Gap}
    {c : Cursor} (hc : c.rest = w ++ tail) (hfits : c.Fits) (hmark : c.documentMark? = none)
    (fuel : Nat) :
    plainWords? false margin (fuel + 1) seen before c =
      some (w.reverse ++ (before.text.reverse ++ seen), gap, c.past (w ++ white)) := by
  rw [plainWords?_word htext.ne_nil (fun a ha => (htext.isSpace_eq a ha).trans (hw a ha))
    htext.colons (fun a ha => (htext.head a ha).2) hend.endsWord hc hmark]
  have hgap := hend.gap (c.past w) (Cursor.rest_past hc) hfits.past
  cases hblank : tail.head?.any isSpace with
  | true =>
    rw [hblank, if_pos rfl] at hgap
    rw [if_pos rfl, ← Cursor.bound_past (w := w), hgap.1, Option.bind_some]
    dsimp only
    rw [if_pos hgap.2, Cursor.past_past]
  | false =>
    rw [hblank, if_neg (by simp)] at hgap
    rw [if_neg (by simp), hgap.1, hgap.2, List.append_nil]

/-- A word of a plain text is read with the spaces behind it, and the rest is read after them. -/
theorem plainWords?_spaces {w cs : List Char} {n : Nat}
    (htext : PlainText (w ++ (spaces (n + 1) ++ cs))) (hw : ∀ a ∈ w, isSpaceChar a = false)
    (hcs : ∀ a ∈ cs.head?, isSpaceChar a = false) {seen : List Char} {before : Gap} {c : Cursor}
    (hc : c.rest = w ++ (spaces (n + 1) ++ (cs ++ tail))) (hfits : c.Fits)
    (hmark : c.documentMark? = none)
    (hmargin : margin ≤ (c.past (w ++ spaces (n + 1))).column) (fuel : Nat) :
    plainWords? false margin (fuel + 1) seen before c =
      plainWords? false margin fuel (w.reverse ++ (before.text.reverse ++ seen))
        ⟨spaces (n + 1), false, [], []⟩ (c.past (w ++ spaces (n + 1))) := by
  have hspace : ∀ a ∈ w, isSpace a = false := fun a ha =>
    (htext.isSpace_eq a (by simp [ha])).trans (hw a ha)
  have hhash : ∀ a ∈ w.head?, a ≠ '#' := fun a ha =>
    (htext.head a (by simp [List.head?_append, Option.mem_def.1 ha])).2
  have hends : EndsWord (spaces (n + 1) ++ (cs ++ tail)) := by
    rintro a rest heq
    obtain ⟨rfl, -⟩ := List.cons.inj heq
    exact .inl rfl
  have hread : Gap.read? margin c.bound .empty (c.past w) =
      some (⟨spaces (n + 1), false, [], []⟩, (c.past w).past (spaces (n + 1))) := by
    refine Gap.read?_empty_spaces ?_ (Cursor.rest_past hc) fun a ha => ?_
    · have hlength := hfits
      rw [Cursor.Fits, hc] at hlength
      simp only [List.length_append, length_spaces] at hlength
      omega
    · -- the gap ends at the next word, whatever stands behind the text
      have hafter := htext.after_spaces hcs
      obtain ⟨b, cs, rfl⟩ := List.exists_cons_of_ne_nil hafter.ne_nil
      rw [hafter.isSpace_eq a (by simp [show a = b by simpa using ha.symm])]
      exact hcs a ha
  rw [plainWords?_word htext.word_ne_nil hspace (htext.colons.word rfl) hhash hends hc hmark,
    if_pos (show (spaces (n + 1) ++ (cs ++ tail)).head?.any isSpace = true from rfl), hread,
    Option.bind_some, Cursor.past_past]
  dsimp only
  rw [if_neg (by omega)]

/-- The words of a plain text are read up to its end. -/
theorem plainWords?_of_plainText (hend : PlainEnd margin tail gap white) {cs : List Char}
    (htext : PlainText cs) {fuel : Nat} {seen : List Char} {before : Gap} {c : Cursor}
    (hfuel : cs.length < fuel) (hc : c.rest = cs ++ tail) (hfits : c.Fits)
    (hmark : c.documentMark? = none) (hmargin : margin ≤ c.column + 1) :
    plainWords? false margin fuel seen before c =
      some (cs.reverse ++ (before.text.reverse ++ seen), gap, c.past (cs ++ white)) := by
  -- one turn of the loop for each word
  induction cs using separation_induction isSpaceChar generalizing fuel seen before c with
  | word w hw =>
    obtain ⟨fuel, rfl⟩ := Nat.exists_eq_succ_of_ne_zero (Nat.ne_of_gt (Nat.zero_lt_of_lt hfuel))
    exact plainWords?_last hend htext hw hc hfits hmark fuel
  | separated w sep cs hw hsep hspaces hcs ih =>
    obtain ⟨fuel, rfl⟩ := Nat.exists_eq_succ_of_ne_zero (Nat.ne_of_gt (Nat.zero_lt_of_lt hfuel))
    obtain ⟨n, rfl⟩ := exists_spaces_succ hsep hspaces
    have hparts : c.rest = w ++ (spaces (n + 1) ++ (cs ++ tail)) := by simp [hc]
    have hcolumn : (c.past (w ++ spaces (n + 1))).column = c.column + (w.length + (n + 1)) := by
      rw [Cursor.column_past, List.length_append, length_spaces]
      intro a ha
      rcases List.mem_append.1 ha with ha | ha
      · exact isBreak_of_isSpace ((htext.isSpace_eq a (by simp [ha])).trans (hw a ha))
      · exact isBreak_of_mem_spaces ha
    -- a word and a space are two columns, so the margin is passed and no mark can begin here
    rw [plainWords?_spaces htext hw hcs hparts hfits hmark (by rw [hcolumn]; omega),
      ih (htext.after_spaces hcs) ?_ ?_ hfits.past ?_ ?_]
    · simp [Gap.text, spaces]
    · simp only [List.length_append, length_spaces] at hfuel
      omega
    · exact Cursor.rest_past (by simp [hc])
    · exact Cursor.documentMark?_of_column_pos (by rw [hcolumn]; omega)
    · rw [hcolumn]
      omega

/-- **Where a plain text stands it is the plain scalar.** -/
theorem plain?_of_plainText {indent : Int} (hend : PlainEnd (indent + 1) tail gap white)
    {cs : List Char} (htext : PlainText cs) {c : Cursor} (hc : c.rest = cs ++ tail)
    (hfits : c.Fits) (hmark : c.documentMark? = none) (hindent : indent ≤ c.column) :
    plain? false indent c = some (cs, gap.broken, c.past (cs ++ white)) := by
  rw [plain?, plainWords?_of_plainText hend htext (hfits.length_lt hc) hc hfits hmark (by omega)]
  simp [Gap.empty, Gap.text]

end Words

end InlineAudit.Yaml
