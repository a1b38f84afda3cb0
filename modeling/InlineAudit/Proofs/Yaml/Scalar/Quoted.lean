/-
Scalars in quotes that are known from what is written.

* `escape?_of_escaped` — an escape stands for the character that it was written for;
* `Spelling` — the inside of quotes, word for word and gap for gap;
* **`quoted?_of_spelling`** — what was spelled in this way is read;
* `spelling_escaped`, `spelling_singleQuotedBody` — the two ways in which a string is put in quotes.
-/
import InlineAudit.Yaml.Scalar.Quoted
import InlineAudit.Proofs.Yaml.Scalar.Gap
import Mathlib.Algebra.Group.Nat.Defs
import Mathlib.Data.List.Chain

namespace InlineAudit.Yaml

section Escapes

theorem digitValue?_upperDigit {n : Nat} (h : n < 16) : digitValue? (upperDigit n) = some n := by
  have hall : ∀ n : Fin 16, digitValue? (upperDigit n) = some n.val := by decide
  exact hall ⟨n, h⟩

theorem hexNumber?_hexDigits (width k : Nat) {n m : Nat} (hm : m < 16 ^ width)
    (rest : List Char) :
    hexNumber? (width + k) n (hexDigits width m ++ rest) =
      hexNumber? k (16 ^ width * n + m) rest := by
  induction width generalizing k m rest with
  | zero =>
    obtain rfl : m = 0 := by simpa using hm
    simp [hexDigits]
  | succ width ih =>
    have hhigh : m / 16 < 16 ^ width := by
      rw [Nat.div_lt_iff_lt_mul (by decide), ← Nat.pow_succ]
      exact hm
    rw [hexDigits, List.append_assoc, Nat.add_right_comm, Nat.add_assoc, ih (k + 1) hhigh,
      List.singleton_append, hexNumber?, digitValue?_upperDigit (Nat.mod_lt _ (by decide))]
    dsimp only
    congr 1
    rw [Nat.pow_succ]
    have hdigits := Nat.div_add_mod m 16
    have hassoc : 16 * (16 ^ width * n) = 16 ^ width * 16 * n := by
      rw [← Nat.mul_assoc, Nat.mul_comm 16]
    omega

theorem toNat_valid (c : Char) : c.toNat < 0xD800 ∨ (0xDFFF < c.toNat ∧ c.toNat < 0x110000) :=
  c.valid

theorem charOfNumber?_toNat (c : Char) : charOfNumber? c.toNat = some c := by
  rw [charOfNumber?, if_pos (toNat_valid c), Char.ofNat_toNat]

theorem length_hexDigits (width n : Nat) : (hexDigits width n).length = width := by
  induction width generalizing n with
  | zero => rfl
  | succ width ih => rw [hexDigits, List.length_append, ih, List.length_singleton]

theorem isBreak_upperDigit {n : Nat} (h : n < 16) : isBreak (upperDigit n) = false := by
  have hall : ∀ n : Fin 16, isBreak (upperDigit n) = false := by decide
  exact hall ⟨n, h⟩

theorem isBreak_of_mem_hexDigits {width n : Nat} {a : Char} (ha : a ∈ hexDigits width n) :
    isBreak a = false := by
  induction width generalizing n with
  | zero => cases ha
  | succ width ih =>
    rcases List.mem_append.1 ha with ha | ha
    · exact ih ha
    · rw [List.mem_singleton.1 ha]
      exact isBreak_upperDigit (Nat.mod_lt _ (by decide))

/-- An escape with the number of its character. -/
theorem escape?_hexDigits {letter : Char} {width : Nat} (hletter : escapeWidth? letter = some width)
    {c : Char} (hc : c.toNat < 16 ^ width) (rest : List Char) :
    escape? (letter :: hexDigits width c.toNat ++ rest) = some (c, width + 1) := by
  have hnumber := hexNumber?_hexDigits width 0 (n := 0) hc rest
  rw [Nat.add_zero, Nat.mul_zero, Nat.zero_add, hexNumber?] at hnumber
  rw [List.cons_append, escape?, hletter]
  simp only [hnumber, Option.bind_some, charOfNumber?_toNat, Option.map_some]

/-- What is written for a character between double quotes: the character, or an escape that stands
for it. -/
theorem escaped_cases (c : Char) :
    (escaped c = [c] ∧ isPrintable c = true ∧ isBreak c = false ∧ c ≠ '"' ∧ c ≠ '\\') ∨
      ∃ e, escaped c = '\\' :: e ∧ (∀ a ∈ e, isBreak a = false) ∧
        ∀ rest, escape? (e ++ rest) = some (c, e.length) := by
  have hnumber (letter : Char) (width : Nat) (hwidth : escapeWidth? letter = some width)
      (hbreak : isBreak letter = false) (hc : c.toNat < 16 ^ width) :
      ∃ e, '\\' :: letter :: hexDigits width c.toNat = '\\' :: e ∧
        (∀ a ∈ e, isBreak a = false) ∧ ∀ rest, escape? (e ++ rest) = some (c, e.length) := by
    refine ⟨_, rfl, fun a ha => ?_, fun rest => ?_⟩
    · rcases List.mem_cons.1 ha with rfl | ha
      · exact hbreak
      · exact isBreak_of_mem_hexDigits ha
    · rw [escape?_hexDigits hwidth hc, List.length_cons, length_hexDigits]
  unfold escaped
  split
  all_goals first
    | exact .inr ⟨_, rfl, isBreak_of_any rfl, fun rest => rfl⟩
    | skip
  rename_i h0 h1 h2 h3 hfeed h5 h6 hreturn h8 hquote hbackslash hnext hline hparagraph
  split_ifs with hprintable hbyte hshort
  · refine .inl ⟨rfl, hprintable, ?_, hquote, hbackslash⟩
    simp only [isBreak, Bool.or_eq_false_iff, beq_eq_false_iff_ne]
    exact ⟨⟨⟨⟨hfeed, hreturn⟩, hnext⟩, hline⟩, hparagraph⟩
  · exact .inr (hnumber 'x' 2 rfl rfl (by omega))
  · exact .inr (hnumber 'u' 4 rfl rfl (by omega))
  · exact .inr (hnumber 'U' 8 rfl rfl (by have := toNat_valid c; omega))

end Escapes

/-- A character that separates the words between quotes.  In double quotes all separators but a
space are escaped. -/
def separates (single : Bool) (a : Char) : Bool := if single then isSpace a else isSpaceChar a

/-- A character between quotes, unless it is a line break. -/
def spelled (single : Bool) (a : Char) : List Char :=
  if single then (if a == '\'' then ['\'', '\''] else [a]) else escaped a

/-- The quote of each kind. -/
def quoteOf (single : Bool) : Char := if single then '\'' else '"'

/-- How a string is written between quotes, without the quotes.  A line break that does not fold
stands for itself, and the next line is indented. -/
inductive Spelling (single : Bool) : List Char → List Char → Prop
  | word (w : List Char) (hw : ∀ a ∈ w, separates single a = false) :
    Spelling single w (w.flatMap (spelled single))
  | blanks (w : List Char) (n : Nat) (cs written : List Char)
    (hw : ∀ a ∈ w, separates single a = false) (hwritten : ∀ a ∈ written.head?, isSpace a = false)
    (h : Spelling single cs written) :
    Spelling single (w ++ (spaces (n + 1) ++ cs))
      (w.flatMap (spelled single) ++ (spaces (n + 1) ++ written))
  | breaks (w : List Char) (b : Char) (bs : List Char) (k : Nat) (cs written : List Char)
    (hw : ∀ a ∈ w, separates single a = false) (hb : isFirmBreak b = true) (hfeed : b ≠ '\n')
    (hbs : ∀ b ∈ bs, isFirmBreak b = true) (hwritten : ∀ a ∈ written.head?, isSpace a = false)
    (h : Spelling single cs written) :
    Spelling single (w ++ (b :: bs ++ cs))
      (w.flatMap (spelled single) ++ (b :: bs ++ (spaces (k + 1) ++ written)))

section Reading

variable {single : Bool} {c : Cursor} {rest : List Char}

theorem isBreak_of_mem_spelled {a b : Char} (ha : single = true → isBreak a = false)
    (hb : b ∈ spelled single a) : isBreak b = false := by
  cases single with
  | true =>
    rw [spelled, if_pos rfl] at hb
    split at hb
    · rcases List.mem_pair.1 hb with rfl | rfl <;> decide
    · rw [List.mem_singleton.1 hb]
      exact ha rfl
  | false =>
    rw [spelled, if_neg (by decide)] at hb
    rcases escaped_cases a with ⟨heq, -, hself, -⟩ | ⟨e, heq, hbreaks, -⟩
    · rw [heq] at hb
      rw [List.mem_singleton.1 hb]
      exact hself
    · rw [heq] at hb
      rcases List.mem_cons.1 hb with rfl | hb
      · decide
      · exact hbreaks b hb

theorem isBreak_of_separates {a : Char} (ha : separates single a = false) (h : single = true) :
    isBreak a = false := by
  subst h
  exact isBreak_of_isSpace ha

theorem spelled_ne_nil (single : Bool) (a : Char) : spelled single a ≠ [] := by
  rw [spelled]
  cases single with
  | true =>
    rw [if_pos rfl]
    split <;> exact List.cons_ne_nil _ _
  | false =>
    rw [if_neg (by decide)]
    rcases escaped_cases a with ⟨heq, -⟩ | ⟨e, heq, -⟩ <;> rw [heq] <;> exact List.cons_ne_nil _ _

theorem length_le_length_flatMap_spelled (single : Bool) (w : List Char) :
    w.length ≤ (w.flatMap (spelled single)).length := by
  induction w with
  | nil => exact Nat.le_refl _
  | cons a w ih =>
    have hpos := List.length_pos_iff.2 (spelled_ne_nil single a)
    rw [List.flatMap_cons, List.length_append, List.length_cons]
    omega

/-- A character that was spelled is read in one step. -/
theorem quotedRun?_spelled {a : Char} (ha : separates single a = false)
    (hc : c.rest = spelled single a ++ rest) (fuel : Nat) (seen : List Char) :
    quotedRun? single (fuel + 1) seen c =
      quotedRun? single fuel (a :: seen) (c.past (spelled single a)) := by
  have hpast := Cursor.advance_eq_past hc fun b hb =>
    isBreak_of_mem_spelled (isBreak_of_separates ha) hb
  cases single with
  | true =>
    have hspace : isSpace a = false := ha
    -- a quote is written twice, and anything else as it is
    by_cases hquote : a = '\''
    · subst hquote
      have hc' : c.rest = '\'' :: '\'' :: rest := hc
      have htwo : c.advance 2 = c.past (spelled true '\'') := hpast
      rw [quotedRun?, hc']
      simp only [show isSpace '\'' = false from rfl, Bool.false_eq_true, if_false, if_true,
        beq_self_eq_true, List.head?_cons, htwo]
    · have hone : spelled true a = [a] := by simp [spelled, hquote]
      rw [hone] at hc hpast ⊢
      have hadvance : c.advance 1 = c.past [a] := hpast
      rw [quotedRun?, hc, List.singleton_append]
      simp [hspace, hquote, hadvance]
  | false =>
    have hnotSpace : isSpaceChar a = false := ha
    change c.advance (escaped a).length = c.past (escaped a) at hpast
    change quotedRun? false (fuel + 1) seen c =
      quotedRun? false fuel (a :: seen) (c.past (escaped a))
    change c.rest = escaped a ++ rest at hc
    -- a character stands for itself or is escaped, and only the escapes begin with a backslash
    rcases escaped_cases a with ⟨heq, hprintable, hbreak, hquote, hbackslash⟩ | ⟨e, heq, hbreaks, he⟩
    · have hspace : isSpace a = false := by
        rw [isSpace, isBlank_of_isPrintable hprintable, hnotSpace, hbreak]
        rfl
      rw [heq] at hc hpast ⊢
      have hadvance : c.advance 1 = c.past [a] := hpast
      rw [quotedRun?, hc, List.singleton_append]
      simp [hspace, hquote, hbackslash, hadvance]
    · rw [heq] at hc hpast ⊢
      have hadvance : c.advance (e.length + 1) = c.past ('\\' :: e) := hpast
      have hhead : (e ++ rest).head?.any isBreak = false := by
        cases e with
        | nil => exact absurd (he []) (by simp [escape?])
        | cons b e => simpa using hbreaks b (List.mem_cons_self ..)
      rw [quotedRun?, hc, List.cons_append]
      simp [-List.head?_append, show isSpace '\\' = false from rfl, hhead, he rest, hadvance]

theorem quotedRun?_word {w : List Char} (hw : ∀ a ∈ w, separates single a = false)
    (hc : c.rest = w.flatMap (spelled single) ++ rest) (fuel : Nat) (seen : List Char) :
    quotedRun? single (fuel + w.length) seen c =
      quotedRun? single fuel (w.reverse ++ seen) (c.past (w.flatMap (spelled single))) := by
  induction w generalizing c seen with
  | nil => rfl
  | cons a w ih =>
    rw [List.flatMap_cons, List.append_assoc] at hc
    rw [List.length_cons, ← Nat.add_assoc, quotedRun?_spelled (hw a (List.mem_cons_self ..)) hc,
      ih (fun b hb => hw b (List.mem_cons_of_mem _ hb)) (Cursor.rest_past hc), Cursor.past_past,
      List.flatMap_cons]
    simp

theorem isBreak_of_mem_flatMap_spelled {w : List Char}
    (hw : ∀ a ∈ w, separates single a = false) :
    ∀ b ∈ w.flatMap (spelled single), isBreak b = false := fun b hb => by
  obtain ⟨a, ha, hb⟩ := List.mem_flatMap.1 hb
  exact isBreak_of_mem_spelled (isBreak_of_separates (hw a ha)) hb

theorem head_written {written : List Char} (h : ∀ a ∈ written.head?, isSpace a = false) :
    ∀ a ∈ (written ++ quoteOf single :: rest).head?, isSpace a = false := by
  cases written with
  | nil =>
    rintro a ha
    obtain rfl := Option.some.inj ha
    cases single <;> decide
  | cons b written => exact h

/-- The closing quote ends the scalar; single quotes must not be followed by another one. -/
theorem quotedRuns?_closed {w : List Char} (hw : ∀ a ∈ w, separates single a = false)
    (hc : c.rest = w.flatMap (spelled single) ++ quoteOf single :: rest)
    (hrest : rest.head? ≠ some '\'') (hfits : c.Fits) (hmark : c.documentMark? = none) (fuel : Nat)
    (seen : List Char) :
    quotedRuns? single (fuel + 1) seen c =
      some (seen.reverse ++ w, c.past (w.flatMap (spelled single) ++ [quoteOf single])) := by
  have hlength := length_le_length_flatMap_spelled single w
  -- the steps of a run suffice for the word and the quote behind it
  have hbound : c.bound = (c.bound - w.length - 1) + 1 + w.length := by
    have hfit := hfits
    rw [Cursor.Fits, hc, List.length_append] at hfit
    omega
  have hnext := Cursor.rest_past hc
  have hquote : quotedRun? single (c.bound - w.length - 1 + 1) (w.reverse ++ seen)
      (c.past (w.flatMap (spelled single))) =
      some (w.reverse ++ seen, .closed, c.past (w.flatMap (spelled single) ++ [quoteOf single])) := by
    rw [quotedRun?, hnext]
    cases single with
    | true =>
      have hadvance := Cursor.advance_one hnext (by decide)
      simp [quoteOf, show isSpace '\'' = false from rfl, hrest]
      simpa [quoteOf] using hadvance
    | false =>
      have hadvance := Cursor.advance_one hnext (by decide)
      simp [quoteOf, show isSpace '"' = false from rfl]
      simpa [quoteOf] using hadvance
  rw [quotedRuns?, hmark, hbound, quotedRun?_word hw hc, hquote]
  simp

/-- A gap stands for its text, and the scalar goes on after it. -/
theorem quotedRuns?_gap {w : List Char} {a : Char} (hw : ∀ a ∈ w, separates single a = false)
    (ha : isSpace a = true) (hc : c.rest = w.flatMap (spelled single) ++ a :: rest)
    (hfits : c.Fits) (hmark : c.documentMark? = none) (fuel : Nat) (seen : List Char) :
    quotedRuns? single (fuel + 1) seen c =
      (Gap.read? (-1) c.bound .empty (c.past (w.flatMap (spelled single)))).bind fun (gap, c') =>
        quotedRuns? single fuel (gap.text.reverse ++ (w.reverse ++ seen)) c' := by
  have hlength := length_le_length_flatMap_spelled single w
  have hbound : c.bound = (c.bound - w.length - 1) + 1 + w.length := by
    have hfit := hfits
    rw [Cursor.Fits, hc, List.length_append] at hfit
    omega
  have hstop : quotedRun? single (c.bound - w.length - 1 + 1) (w.reverse ++ seen)
      (c.past (w.flatMap (spelled single))) =
      some (w.reverse ++ seen, .space, c.past (w.flatMap (spelled single))) := by
    rw [quotedRun?, Cursor.rest_past hc]
    simp [ha]
  have hrun : quotedRun? single c.bound seen c =
      some (w.reverse ++ seen, .space, c.past (w.flatMap (spelled single))) := by
    rw [hbound, quotedRun?_word hw hc, hstop]
  rw [quotedRuns?, hmark, hrun]
  simp

/-- The runs and gaps of a scalar are read up to the closing quote. -/
theorem quotedRuns?_of_spelling {cs written : List Char} (h : Spelling single cs written)
    (hrest : rest.head? ≠ some '\'') {fuel : Nat} (hfuel : written.length < fuel)
    (hc : c.rest = written ++ quoteOf single :: rest) (hfits : c.Fits) (hcolumn : 0 < c.column)
    (seen : List Char) :
    quotedRuns? single fuel seen c =
      some (seen.reverse ++ cs, c.past (written ++ [quoteOf single])) := by
  -- one turn of the loop for each word, with the gap behind it
  induction h generalizing fuel c seen with
  | word w hw =>
    obtain ⟨fuel, rfl⟩ := Nat.exists_eq_succ_of_ne_zero (Nat.ne_of_gt (Nat.zero_lt_of_lt hfuel))
    exact quotedRuns?_closed hw hc hrest hfits (Cursor.documentMark?_of_column_pos hcolumn) _ _
  | blanks w n cs written hw hwritten h ih =>
    obtain ⟨fuel, rfl⟩ := Nat.exists_eq_succ_of_ne_zero (Nat.ne_of_gt (Nat.zero_lt_of_lt hfuel))
    have hc' : c.rest = w.flatMap (spelled single) ++
        (spaces (n + 1) ++ (written ++ quoteOf single :: rest)) := by simp [hc]
    have hread : Gap.read? (-1) c.bound .empty (c.past (w.flatMap (spelled single))) =
        some (⟨spaces (n + 1), false, [], []⟩,
          (c.past (w.flatMap (spelled single))).past (spaces (n + 1))) := by
      refine Gap.read?_empty_spaces ?_ (Cursor.rest_past hc') (head_written hwritten)
      have hlength := hfits.length_lt hc
      simp only [List.length_append, length_spaces] at hlength
      omega
    have hpos : 0 < (c.past (w.flatMap (spelled single) ++ spaces (n + 1))).column := by
      rw [Cursor.column_past fun a ha => ?_]
      · omega
      · rcases List.mem_append.1 ha with ha | ha
        · exact isBreak_of_mem_flatMap_spelled hw a ha
        · exact isBreak_of_mem_spaces ha
    simp only [List.length_append, length_spaces] at hfuel
    rw [quotedRuns?_gap hw (show isSpace ' ' = true from rfl) hc' hfits
        (Cursor.documentMark?_of_column_pos hcolumn), hread, Option.bind_some, Cursor.past_past]
    dsimp only
    rw [ih (by omega) (Cursor.rest_past (by simp [hc])) hfits.past hpos]
    simp [Gap.text, spaces]
  | breaks w b bs k cs written hw hb hfeed hbs hwritten h ih =>
    obtain ⟨fuel, rfl⟩ := Nat.exists_eq_succ_of_ne_zero (Nat.ne_of_gt (Nat.zero_lt_of_lt hfuel))
    have hc' : c.rest = w.flatMap (spelled single) ++
        (b :: (bs ++ (spaces (k + 1) ++ (written ++ quoteOf single :: rest)))) := by simp [hc]
    have hread : Gap.read? (-1) c.bound .empty (c.past (w.flatMap (spelled single))) =
        some (⟨[], true, [b], bs.reverse⟩,
          (c.past (w.flatMap (spelled single))).past (b :: (bs ++ spaces (k + 1)))) := by
      refine Gap.read?_breaks ?_ hb hbs (Cursor.rest_past hc') (head_written hwritten)
      have hlength := hfits.length_lt hc
      simp only [List.length_append, List.length_cons, length_spaces] at hlength
      omega
    have hpos : 0 < (c.past (w.flatMap (spelled single) ++ b :: (bs ++ spaces (k + 1)))).column := by
      rw [← List.cons_append, ← List.append_assoc,
        Cursor.column_past_append fun a ha => isBreak_of_mem_spaces ha, length_spaces]
      omega
    have htext : (⟨[], true, [b], bs.reverse⟩ : Gap).text = b :: bs := by
      simp [Gap.text, hfeed]
    have hspace : isSpace b = true := by
      rw [isSpace, isBreak_of_isFirmBreak hb, Bool.or_true]
    simp only [List.length_append, List.length_cons, length_spaces] at hfuel
    rw [quotedRuns?_gap hw hspace hc' hfits (Cursor.documentMark?_of_column_pos hcolumn), hread,
      Option.bind_some, Cursor.past_past]
    dsimp only
    rw [ih (by omega) (Cursor.rest_past (by simp [hc])) hfits.past hpos, htext]
    simp

/-- **What was spelled between quotes is read.** -/
theorem quoted?_of_spelling {cs written : List Char} (h : Spelling single cs written)
    (hrest : rest.head? ≠ some '\'') (hc : c.rest = written ++ quoteOf single :: rest)
    (hfits : c.Fits) (hcolumn : 0 < c.column) :
    quoted? single c = some (cs, c.past (written ++ [quoteOf single])) :=
  quotedRuns?_of_spelling h hrest (hfits.length_lt hc) hc hfits hcolumn []

end Reading

section Writing

variable {k : Nat} {cs rest : List Char}

theorem head_spelled (single : Bool) {a : Char} (ha : separates single a = false) :
    ∀ b ∈ (spelled single a).head?, isSpace b = false := by
  intro b hb
  cases single with
  | true =>
    rw [spelled, if_pos rfl] at hb
    split at hb
    · obtain rfl := Option.some.inj hb
      decide
    · obtain rfl := Option.some.inj hb
      exact ha
  | false =>
    rw [spelled, if_neg (by decide)] at hb
    rcases escaped_cases a with ⟨heq, hprintable, hbreak, -⟩ | ⟨e, heq, -⟩
    · rw [heq] at hb
      obtain rfl := Option.some.inj hb
      have hspace : isSpaceChar a = false := ha
      rw [isSpace, isBlank_of_isPrintable hprintable, hspace, hbreak]
      rfl
    · rw [heq] at hb
      obtain rfl := Option.some.inj hb
      decide

theorem flatMap_spelled_spaces (single : Bool) (n : Nat) :
    (spaces n).flatMap (spelled single) = spaces n := by
  have hself : spelled single ' ' = [' '] := by cases single <;> decide
  induction n with
  | zero => rfl
  | succ n ih =>
    have hcons : spaces (n + 1) = ' ' :: spaces n := rfl
    rw [hcons, List.flatMap_cons, hself, ih]
    rfl

/-- Between double quotes every string is spelled. -/
theorem spelling_escaped (cs : List Char) : Spelling false cs (cs.flatMap escaped) := by
  -- line breaks are escaped, so only spaces separate words
  induction cs using separation_induction isSpaceChar with
  | word w hw => exact .word w hw
  | separated w gap cs hw hgap hspaces hcs ih =>
    obtain ⟨n, rfl⟩ := exists_spaces_succ hgap hspaces
    have hself : (spaces (n + 1)).flatMap escaped = spaces (n + 1) :=
      flatMap_spelled_spaces false (n + 1)
    rw [List.flatMap_append, List.flatMap_append, hself]
    refine .blanks w n cs _ hw (fun a ha => ?_) ih
    cases cs with
    | nil => cases ha
    | cons b cs =>
      have hne : escaped b ≠ [] := spelled_ne_nil false b
      rw [List.flatMap_cons, List.head?_append_of_ne_nil _ hne] at ha
      exact head_spelled false (hcs b rfl) a ha

theorem singleQuotedBody_append {w : List Char} (hw : ∀ a ∈ w, isBreak a = false)
    (rest : List Char) :
    singleQuotedBody k false (w ++ rest) =
      w.flatMap (spelled true) ++ singleQuotedBody k false rest := by
  induction w with
  | nil => rfl
  | cons a w ih =>
    rw [List.cons_append, singleQuotedBody, hw a (List.mem_cons_self ..),
      ih fun b hb => hw b (List.mem_cons_of_mem _ hb), List.flatMap_cons]
    simp [spelled]

theorem singleQuotedBody_breaks {b : Char} {bs : List Char} (hb : isBreak b = true)
    (hbs : ∀ b ∈ bs, isBreak b = true) (afterBreak : Bool) :
    singleQuotedBody k afterBreak (b :: (bs ++ rest)) =
      b :: (bs ++ singleQuotedBody k true rest) := by
  induction bs generalizing b afterBreak with
  | nil => rw [List.nil_append, singleQuotedBody, if_pos hb, List.nil_append]
  | cons d bs ih =>
    rw [singleQuotedBody, if_pos hb, List.cons_append, ih (hbs d (List.mem_cons_self ..))
      fun a ha => hbs a (List.mem_cons_of_mem _ ha)]
    rfl

theorem singleQuotedBody_true (hrest : ∀ a ∈ rest.head?, isBreak a = false) :
    singleQuotedBody k true rest = spaces k ++ singleQuotedBody k false rest := by
  cases rest with
  | nil => simp [singleQuotedBody]
  | cons a rest => simp [singleQuotedBody, hrest a rfl]

/-- Separators of which none is a break next to a space are all spaces, or all of them are breaks. -/
theorem all_spaces_or_all_breaks {gap : List Char}
    (hgap : ∀ a ∈ gap, isSpaceChar a = true ∨ isBreak a = true)
    (hspaces : gap.IsChain fun a b => ¬ (isSpaceChar a = true ∧ isBreak b = true))
    (hbreaks : gap.IsChain fun a b => ¬ (isBreak a = true ∧ isSpaceChar b = true)) :
    (∀ a ∈ gap, isSpaceChar a = true) ∨ ∀ a ∈ gap, isBreak a = true := by
  induction gap with
  | nil => exact .inl (by simp)
  | cons a gap ih =>
    have hmore := ih (fun b hb => hgap b (List.mem_cons_of_mem _ hb)) hspaces.tail hbreaks.tail
    cases gap with
    | nil => simpa using hgap a (List.mem_cons_self ..)
    | cons b gap =>
      rw [List.isChain_cons_cons] at hspaces hbreaks
      rcases hmore with hmore | hmore
      · have hb := hmore b (List.mem_cons_self ..)
        have ha := (hgap a (List.mem_cons_self ..)).resolve_right fun ha => hbreaks.1 ⟨ha, hb⟩
        exact .inl (List.forall_mem_cons.2 ⟨ha, hmore⟩)
      · have hb := hmore b (List.mem_cons_self ..)
        have ha := (hgap a (List.mem_cons_self ..)).resolve_left fun ha => hspaces.1 ⟨ha, hb⟩
        exact .inr (List.forall_mem_cons.2 ⟨ha, hmore⟩)

/-- A string that has no line feed and can be written in single quotes is spelled there. -/
theorem spelling_singleQuotedBody (hprintable : ∀ a ∈ cs, isPrintable a = true) (hfeed : '\n' ∉ cs)
    (hspaces : cs.IsChain fun a b => ¬ (isSpaceChar a = true ∧ isBreak b = true))
    (hbreaks : cs.IsChain fun a b => ¬ (isBreak a = true ∧ isSpaceChar b = true)) :
    Spelling true cs (singleQuotedBody (k + 1) false cs) := by
  induction cs using separation_induction isSpace with
  | word w hw =>
    have hbody := singleQuotedBody_append (k := k + 1) (fun a ha => isBreak_of_isSpace (hw a ha)) []
    rw [List.append_nil] at hbody
    rw [hbody, singleQuotedBody, if_neg (by decide), List.append_nil]
    exact .word w hw
  | separated w gap cs hw hgap hseparators hcs ih =>
    have hbody := singleQuotedBody_append (k := k + 1) (fun a ha => isBreak_of_isSpace (hw a ha))
      (gap ++ cs)
    have hrest := ih (fun a ha => hprintable a (by simp [ha])) (fun h => hfeed (by simp [h]))
      hspaces.right_of_append.right_of_append hbreaks.right_of_append.right_of_append
    have hkinds : ∀ a ∈ gap, isSpaceChar a = true ∨ isBreak a = true := fun a ha => by
      have hspace := hseparators a ha
      rw [isSpace, isBlank_of_isPrintable (hprintable a (by simp [ha])), Bool.or_eq_true] at hspace
      exact hspace
    -- what follows a gap is no white space, or the gap would be read on
    have hhead : ∀ a ∈ (singleQuotedBody (k + 1) false cs).head?, isSpace a = false := by
      intro a ha
      cases cs with
      | nil => cases ha
      | cons b cs =>
        have hb := hcs b rfl
        have hone := singleQuotedBody_append (k := k + 1) (w := [b])
          (by simpa using isBreak_of_isSpace hb) cs
        rw [List.singleton_append] at hone
        rw [hone, List.flatMap_singleton,
          List.head?_append_of_ne_nil _ (spelled_ne_nil true b)] at ha
        exact head_spelled true hb a ha
    rw [hbody]
    -- a break next to a space would be lost, but there is none in such a string
    rcases all_spaces_or_all_breaks hkinds hspaces.right_of_append.left_of_append
      hbreaks.right_of_append.left_of_append with hall | hall
    · obtain ⟨n, rfl⟩ := exists_spaces_succ hgap hall
      rw [singleQuotedBody_append fun a ha => isBreak_of_mem_spaces ha, flatMap_spelled_spaces]
      exact .blanks w n cs _ hw hhead hrest
    · obtain ⟨b, bs, rfl⟩ := List.exists_cons_of_ne_nil hgap
      have hfirm : ∀ a ∈ b :: bs, isFirmBreak a = true := fun a ha =>
        isFirmBreak_of_isPrintable (hall a ha)
          (hprintable a (List.mem_append_right _ (List.mem_append_left _ ha)))
      have hb : b ≠ '\n' := by
        rintro rfl
        exact hfeed (by simp)
      rw [List.cons_append, singleQuotedBody_breaks (hall b (List.mem_cons_self ..))
          (fun a ha => hall a (List.mem_cons_of_mem _ ha)),
        singleQuotedBody_true fun a ha => isBreak_of_isSpace (hcs a ha)]
      exact .breaks w b bs k cs _ hw (hfirm b (List.mem_cons_self ..)) hb
        (fun a ha => hfirm a (List.mem_cons_of_mem _ ha)) hhead hrest

end Writing

end InlineAudit.Yaml
