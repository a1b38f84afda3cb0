/-
Literal blocks that are known from what is written.

* `blankLines?_breaks` — the empty lines before a line, and its indentation;
* `blockLines?_indented` — the lines of a block;
* **`block?_literal`** — the block that was written for a string is read as this string.

Design notes: a block ends at the first line that is indented less than its own.  Its last line
breaks are counted by the header, so they are told apart from the rest: `ends` below.
-/
import InlineAudit.Yaml.Scalar.Block
import InlineAudit.Proofs.Yaml.Cursor
import Mathlib.Data.List.Chain

namespace InlineAudit.Yaml

section Writing

variable {m : Nat} {w bs rest : List Char}

theorem indented_false_append (hw : ∀ a ∈ w, isBreak a = false) :
    indented m false (w ++ rest) = w ++ indented m false rest := by
  induction w with
  | nil => rfl
  | cons a w ih =>
    rw [List.cons_append, indented, hw a (List.mem_cons_self ..),
      ih fun b hb => hw b (List.mem_cons_of_mem _ hb)]
    rfl

theorem indented_true (hne : rest ≠ []) (hrest : ∀ a ∈ rest.head?, isBreak a = false) :
    indented m true rest = spaces m ++ indented m false rest := by
  cases rest with
  | nil => exact absurd rfl hne
  | cons a rest => simp [indented, hrest a rfl]

theorem indented_breaks (hbs : ∀ b ∈ bs, isBreak b = true) (atStart : Bool)
    (h : bs ≠ [] ∨ atStart = true) :
    indented m atStart (bs ++ rest) = bs ++ indented m true rest := by
  induction bs generalizing atStart with
  | nil => rw [h.resolve_left (fun h => h rfl), List.nil_append, List.nil_append]
  | cons b bs ih =>
    rw [List.cons_append, indented, hbs b (List.mem_cons_self ..),
      ih (fun a ha => hbs a (List.mem_cons_of_mem _ ha)) true (.inr rfl)]
    rfl

theorem length_le_indented {cs : List Char} {atStart : Bool} :
    cs.length ≤ (indented m atStart cs).length := by
  induction cs generalizing atStart with
  | nil => exact Nat.zero_le _
  | cons a cs ih =>
    rw [indented]
    split
    · exact Nat.succ_le_succ ih
    · rw [List.length_append, List.length_cons, List.length_cons]
      have hrest : cs.length ≤ (indented m false cs).length := ih
      omega

/-- The line break that ends the line of a scalar, unless the scalar ends it itself. -/
def lineEnd (cs : List Char) : List Char := if cs.getLast?.any isBreak then [] else ['\n']

theorem lineEnd_append (hne : rest ≠ []) : lineEnd (w ++ rest) = lineEnd rest := by
  rw [lineEnd, lineEnd, List.getLast?_append_of_ne_nil _ hne]

theorem lineEnd_of_breaks (hne : bs ≠ []) (hbs : ∀ b ∈ bs, isBreak b = true) :
    lineEnd bs = [] := by
  rw [lineEnd, if_pos]
  rw [List.getLast?_eq_getLast_of_ne_nil hne]
  exact hbs _ (List.getLast_mem hne)

theorem lineEnd_of_word (hw : ∀ a ∈ w, isBreak a = false) : lineEnd w = ['\n'] := by
  rw [lineEnd, if_neg]
  cases hlast : w.getLast? with
  | none => simp
  | some a => simp [hw a (List.mem_of_getLast? hlast)]

end Writing

section Lines

variable {m j : Nat} {c : Cursor} {rest : List Char}

/-- The indentation of a line ends after `j` spaces, at the margin or because there are no more. -/
structure Margin (m j : Nat) (rest : List Char) : Prop where
  le : j ≤ m
  isBreak : ∀ a ∈ rest.head?, isBreak a = false
  isBlank : j < m → ∀ a ∈ rest.head?, isBlank a = false

theorem Margin.min_takeWhile (h : Margin m j rest) :
    min ((spaces j ++ rest).takeWhile (· == ' ')).length m = j := by
  rw [List.takeWhile_append_of_pos fun a ha => by simp [mem_spaces ha], List.length_append,
    length_spaces]
  rcases Nat.lt_or_ge j m with hlt | hge
  · cases rest with
    | nil => simp [hlt.le]
    | cons a rest =>
      have hblank := h.isBlank hlt a rfl
      rw [InlineAudit.Yaml.isBlank, Bool.or_eq_false_iff] at hblank
      rw [List.takeWhile_cons_of_neg (by simp [hblank.1])]
      simp [hlt.le]
  · have hle := h.le
    omega

/-- Empty lines are passed up to a line with a margin. -/
theorem blankLines?_breaks {bs : List Char} (hbs : ∀ b ∈ bs, isFirmBreak b = true)
    (hmargin : Margin m j rest) (hc : c.rest = bs ++ (spaces j ++ rest)) (hcolumn : c.column = 0)
    {fuel : Nat} (hfuel : bs.length < fuel) (widest : Nat) (breaks : List Char) :
    ∃ w, blankLines? (some m) fuel widest breaks c =
      some (w, breaks.reverse ++ bs, c.past (bs ++ spaces j)) := by
  -- every empty line is a break at the start of a line
  induction bs generalizing c fuel widest breaks with
  | nil =>
    obtain ⟨fuel, rfl⟩ := Nat.exists_eq_succ_of_ne_zero (Nat.ne_of_gt (Nat.zero_lt_of_lt hfuel))
    rw [List.nil_append] at hc
    have hrest := Cursor.rest_past hc
    have hadvance : c.advance j = c.past (spaces j) := by
      simpa using Cursor.advance_eq_past hc fun a ha => isBreak_of_mem_spaces ha
    have hbreak : (c.past (spaces j)).takeBreak? = none :=
      Cursor.takeBreak?_eq_none fun a ha => hmargin.isBreak a (by rwa [hrest] at ha)
    have hpast : (c.past (spaces j)).column = j := by
      rw [Cursor.column_past fun a ha => isBreak_of_mem_spaces ha, hcolumn, length_spaces,
        Nat.zero_add]
    -- a tab would count as a fault only left of the margin
    have htab : ((c.past (spaces j)).head? == some '\t' && decide (j < m)) = false := by
      rw [Cursor.head?, hrest, Bool.and_eq_false_iff, beq_eq_false_iff_ne, decide_eq_false_iff_not]
      by_cases hlt : j < m
      · exact .inl fun hhead => absurd (hmargin.isBlank hlt '\t' hhead) (by decide)
      · exact .inr hlt
    refine ⟨max widest j, ?_⟩
    simp only [blankLines?, hc, hcolumn, Nat.sub_zero, hmargin.min_takeWhile, hadvance, hpast,
      Option.all_some, htab, hbreak, Bool.false_eq_true, if_false, List.append_nil, List.nil_append]
  | cons b bs ih =>
    obtain ⟨fuel, rfl⟩ := Nat.exists_eq_succ_of_ne_zero (Nat.ne_of_gt (Nat.zero_lt_of_lt hfuel))
    have hb := hbs b (List.mem_cons_self ..)
    have hspace : (b == ' ') = false := by
      rw [beq_eq_false_iff_ne]
      rintro rfl
      exact absurd hb (by decide)
    have htab : (c.head? == some '\t') = false := by
      rw [Cursor.head?, hc, beq_eq_false_iff_ne]
      intro hhead
      obtain rfl := Option.some.inj hhead
      exact absurd hb (by decide)
    have hpast : (c.past [b]).column = 0 :=
      Cursor.column_past_break (w := []) (v := []) (isBreak_of_isFirmBreak hb) (by simp)
    obtain ⟨w, hw⟩ := ih (c := c.past [b]) (fun a ha => hbs a (List.mem_cons_of_mem _ ha))
      (Cursor.rest_past (w := [b]) hc) hpast (show bs.length < fuel by simpa using hfuel)
      (max widest 0) (b :: breaks)
    refine ⟨w, ?_⟩
    have htake : (c.rest.takeWhile (· == ' ')).length = 0 := by
      rw [hc, List.cons_append, List.takeWhile_cons_of_neg (by simp [hspace])]
      rfl
    simp only [blankLines?, htake, Nat.zero_min, Cursor.advance_zero, htab, Bool.false_and,
      Bool.false_eq_true, if_false, Cursor.takeBreak?_of_firm hc hb, hcolumn, List.reverse_singleton,
      List.singleton_append, hw]
    simp

theorem margin_of_begins {n : Nat} {text : List Char} (h : Begins n text) (hn : n < m) :
    Margin m (indentation text) (unindented text) where
  le := h.shallow.trans hn.le
  isBreak := fun _ ha => h.solid.isBreak_eq_false ha
  isBlank := fun _ _ ha => h.solid.isBlank_eq_false ha

theorem margin_of_indented {cs text : List Char} (hne : cs ≠ [])
    (hhead : ∀ a ∈ cs.head?, isBreak a = false) : Margin m m (indented m false cs ++ text) where
  le := Nat.le_refl m
  isBreak a ha := by
    obtain ⟨d, cs, rfl⟩ := List.exists_cons_of_ne_nil hne
    have hd := hhead d rfl
    rw [indented, if_neg (by simp [hd])] at ha
    obtain rfl := Option.some.inj ha
    exact hd
  isBlank h := absurd h (Nat.lt_irrefl m)

/-- The first line of a block shows the margin, if it does not start with a blank. -/
theorem blankLines?_first {a : Char} (ha : isSpace a = false) (hc : c.rest = spaces m ++ a :: rest)
    (hcolumn : c.column = 0) (fuel : Nat) :
    blankLines? none (fuel + 1) 0 [] c = some (m, [], c.past (spaces m)) := by
  have hrest := Cursor.rest_past hc
  have hspace : (a == ' ') = false := by
    have hblank := isBlank_of_isSpace ha
    rw [isBlank, Bool.or_eq_false_iff] at hblank
    exact hblank.1
  have htake : (c.rest.takeWhile (· == ' ')).length = m := by
    rw [hc, Cursor.takeWhile_eq (fun b hb => by simp [mem_spaces hb]) (by simpa using hspace),
      length_spaces]
  have hadvance : c.advance m = c.past (spaces m) := by
    simpa using Cursor.advance_eq_past hc fun a ha => isBreak_of_mem_spaces ha
  have hpast : (c.past (spaces m)).column = m := by
    rw [Cursor.column_past fun a ha => isBreak_of_mem_spaces ha, hcolumn, length_spaces,
      Nat.zero_add]
  have hbreak : (c.past (spaces m)).takeBreak? = none :=
    Cursor.takeBreak?_eq_none fun b hb => by
      rw [hrest] at hb
      obtain rfl := Option.some.inj hb
      exact isBreak_of_isSpace ha
  have htab : (a == '\t') = false := by
    have hblank := isBlank_of_isSpace ha
    rw [isBlank, Bool.or_eq_false_iff] at hblank
    exact hblank.2
  simp only [blankLines?, htake, hadvance, hpast, hbreak, Cursor.head?, hrest]
  simp [htab]

/-- What a block has read so far, with the breaks before the next line. -/
def BlockText.whole (b : BlockText) : List Char := b.seen.reverse ++ (b.lineBreak ++ b.emptyLines)

theorem BlockText.joined_false (b : BlockText) (nextStartsBlank : Bool) :
    b.joined false nextStartsBlank = b.whole.reverse := by
  simp [joined, whole]

/-- One line is read, with the breaks behind it. -/
theorem blockLines?_line {line bs : List Char} {b : Char}
    (hword : ∀ a ∈ line, isBreak a = false)
    (hbs : ∀ a ∈ b :: bs, isFirmBreak a = true) (hmargin : Margin m j rest)
    (hc : c.rest = line ++ (b :: bs ++ (spaces j ++ rest))) (hcolumn : c.column = m)
    (hfits : c.Fits) (fuel : Nat) (text : BlockText) :
    ∃ startsBlank, blockLines? false m (fuel + 1) text c =
      blockLines? false m fuel ⟨line.reverse ++ text.whole.reverse, [b], bs, startsBlank⟩
        (c.past (line ++ (b :: bs ++ spaces j))) := by
  have hb := hbs b (List.mem_cons_self ..)
  have hne : c.rest ≠ [] := by
    rw [hc]
    simp
  have htake : c.rest.takeWhile (!isBreak ·) = line := by
    rw [hc, Cursor.takeWhile_eq fun a ha => by simp [hword a ha]]
    intro a ha
    obtain rfl := Option.some.inj ha
    simp [isBreak_of_isFirmBreak hb]
  have hadvance := Cursor.advance_eq_past hc hword
  have hnext : (c.past line).rest = b :: (bs ++ (spaces j ++ rest)) := Cursor.rest_past hc
  have hbreak := Cursor.takeBreak?_of_firm hnext hb
  have hzero : ((c.past line).past [b]).column = 0 :=
    Cursor.column_past_break (w := []) (v := []) (isBreak_of_isFirmBreak hb) (by simp)
  have hlength := hfits.length_lt hc
  obtain ⟨w, hw⟩ := blankLines?_breaks (fun a ha => hbs a (List.mem_cons_of_mem _ ha)) hmargin
    (Cursor.rest_past (w := [b]) hnext) hzero (show bs.length < c.bound by
      have hfit := hfits
      rw [Cursor.Fits, hc] at hfit
      simp only [List.length_append, List.length_cons] at hfit
      omega) 0 []
  refine ⟨c.head?.any isBlank, ?_⟩
  rw [blockLines?, if_pos ⟨hcolumn, hne⟩]
  simp only [htake, hadvance, hbreak, Option.getD_some, Cursor.bound_past, hw,
    BlockText.joined_false]
  simp

theorem blockLines?_of_column_ne {fuel : Nat} {text : BlockText} (h : c.column ≠ m) :
    blockLines? false m (fuel + 1) text c = some (text, c) := by
  rw [blockLines?, if_neg fun hboth => h hboth.1]

/-- The line after which a block ends. -/
theorem blockLines?_last {line bs text : List Char} {b : Char} {n : Nat}
    (hword : ∀ a ∈ line, isBreak a = false) (hbs : ∀ a ∈ b :: bs, isFirmBreak a = true)
    (htext : Begins n text) (hn : n < m) (hc : c.rest = line ++ (b :: bs ++ text))
    (hcolumn : c.column = m) (hfits : c.Fits) (fuel : Nat) (start : BlockText) :
    ∃ startsBlank, blockLines? false m (fuel + 2) start c =
      some (⟨line.reverse ++ start.whole.reverse, [b], bs, startsBlank⟩,
        c.past (line ++ (b :: bs ++ spaces (indentation text)))) := by
  have hshallow := htext.shallow
  obtain ⟨startsBlank, hline⟩ := blockLines?_line hword hbs (margin_of_begins htext hn)
    (by rw [hc, spaces_indentation_append]) hcolumn hfits (fuel + 1) start
  refine ⟨startsBlank, ?_⟩
  rw [hline, blockLines?_of_column_ne]
  rw [Cursor.column_past_breaks (List.cons_ne_nil _ _)
    (fun a ha => isBreak_of_isFirmBreak (hbs a ha)) fun a ha => isBreak_of_mem_spaces ha,
    length_spaces]
  omega

/-- The last line breaks of a string follow the last line of a block that has read it. -/
structure Ends (cs : List Char) (text : BlockText) (ends : List Char) : Prop where
  seen : text.seen.reverse ++ ends = cs
  last : ∃ a before, text.seen = a :: before ∧ isBreak a = false
  isBreak : ∀ b ∈ ends, isBreak b = true
  cons : ∀ b bs, ends = b :: bs → text.lineBreak = [b] ∧ text.emptyLines = bs

theorem ends_of_line {line bs : List Char} {start text : BlockText} (hne : line ≠ [])
    (hword : ∀ a ∈ line, isBreak a = false) (hbs : ∀ b ∈ bs, isBreak b = true)
    (hseen : text.seen = line.reverse ++ start.whole.reverse)
    (hcons : ∀ b ds, bs = b :: ds → text.lineBreak = [b] ∧ text.emptyLines = ds) :
    Ends (start.whole ++ (line ++ bs)) text bs where
  seen := by simp [hseen]
  last := by
    obtain ⟨a, before, hcons⟩ := List.exists_cons_of_ne_nil (List.reverse_ne_nil_iff.2 hne)
    refine ⟨a, before ++ start.whole.reverse, by rw [hseen, hcons, List.cons_append], ?_⟩
    exact hword a (List.mem_reverse.1 (hcons ▸ List.mem_cons_self ..))
  isBreak := hbs
  cons := hcons

/-- The lines of a string are read up to a line that is indented less. -/
theorem blockLines?_indented {cs text : List Char} {n : Nat} (hne : cs ≠ [])
    (hhead : ∀ a ∈ cs.head?, isBreak a = false) (hprintable : ∀ a ∈ cs, isPrintable a = true)
    (htext : Begins n text) (hn : n < m)
    (hc : c.rest = indented m false cs ++ (lineEnd cs ++ text)) (hcolumn : c.column = m)
    (hfits : c.Fits) {fuel : Nat} (hfuel : cs.length < fuel) (start : BlockText) :
    ∃ b ends, blockLines? false m fuel start c =
        some (b, c.past (indented m false cs ++ (lineEnd cs ++ spaces (indentation text)))) ∧
      Ends (start.whole ++ cs) b ends := by
  -- one turn of the loop for each line, with the breaks behind it
  induction cs using separation_induction isBreak generalizing c fuel start with
  | word w hw =>
    have hself : indented m false (w ++ []) = w ++ indented m false [] := indented_false_append hw
    rw [List.append_nil, indented, List.append_nil] at hself
    have hpos := List.length_pos_iff.2 hne
    obtain ⟨fuel, rfl⟩ : ∃ k, fuel = k + 2 := ⟨fuel - 2, by omega⟩
    rw [hself, lineEnd_of_word hw] at hc
    obtain ⟨startsBlank, hread⟩ := blockLines?_last hw
      (show ∀ a ∈ ['\n'], isFirmBreak a = true from List.forall_mem_singleton.2 rfl) htext hn hc
      hcolumn hfits fuel start
    rw [hself, lineEnd_of_word hw]
    refine ⟨_, [], hread, ?_⟩
    simpa using ends_of_line hne hw (List.forall_mem_nil _) rfl (by simp)
  | separated w gap cs hw hgap hbreaks hcs ih =>
    obtain ⟨b, bs, rfl⟩ := List.exists_cons_of_ne_nil hgap
    rw [List.length_append, List.length_append, List.length_cons] at hfuel
    obtain ⟨fuel, rfl⟩ : ∃ k, fuel = k + 2 := ⟨fuel - 2, by omega⟩
    have hfirm : ∀ a ∈ b :: bs, isFirmBreak a = true := fun a ha =>
      isFirmBreak_of_isPrintable (hbreaks a ha)
        (hprintable a (List.mem_append_right _ (List.mem_append_left _ ha)))
    have hlines : indented m false (w ++ (b :: bs ++ cs)) =
        w ++ (b :: bs ++ indented m true cs) := by
      rw [indented_false_append hw, indented_breaks hbreaks false (.inl hgap)]
    by_cases hend : cs = []
    · -- the string ends with these breaks, and they stay apart from what is read
      subst hend
      have hword : w ≠ [] := by
        rintro rfl
        exact Bool.noConfusion ((hhead b rfl).symm.trans (hbreaks b (List.mem_cons_self ..)))
      have hnone : lineEnd (w ++ (b :: bs ++ [])) = [] := by
        rw [List.append_nil, lineEnd_append hgap, lineEnd_of_breaks hgap hbreaks]
      rw [hlines, hnone, indented, List.append_nil, List.nil_append] at hc
      rw [hlines, hnone, indented, List.append_nil, List.nil_append]
      obtain ⟨startsBlank, hread⟩ := blockLines?_last hw hfirm htext hn
        (by simpa using hc) hcolumn hfits fuel start
      refine ⟨_, b :: bs, by simpa using hread, ?_⟩
      exact ends_of_line hword hw hbreaks rfl fun a ds heq => by
        obtain ⟨rfl, rfl⟩ := List.cons.inj heq
        exact ⟨rfl, rfl⟩
    · -- the breaks join the text once the next line is known to be one
      rw [hlines, indented_true hend hcs, lineEnd_append (by simp), lineEnd_append hend] at hc ⊢
      have hparts : c.rest = w ++ (b :: bs ++ (spaces m ++
          (indented m false cs ++ (lineEnd cs ++ text)))) := by simpa using hc
      obtain ⟨startsBlank, hread⟩ := blockLines?_line hw hfirm (margin_of_indented hend hcs) hparts
        hcolumn hfits (fuel + 1) start
      have hnext : (c.past (w ++ (b :: bs ++ spaces m))).column = m := by
        rw [Cursor.column_past_breaks hgap hbreaks fun a ha => isBreak_of_mem_spaces ha,
          length_spaces]
      obtain ⟨text', ends, hrest, hends⟩ := ih hend hcs
        (fun a ha => hprintable a (List.mem_append_right _ (List.mem_append_right _ ha)))
        (Cursor.rest_past (by simpa using hparts)) hnext hfits.past
        (show cs.length < fuel + 1 by omega) ⟨w.reverse ++ start.whole.reverse, [b], bs, startsBlank⟩
      refine ⟨text', ends, ?_, by simpa [BlockText.whole] using hends⟩
      rw [hread, hrest, Cursor.past_past]
      simp

end Lines

section Headers

variable {cs : List Char}

/-- The depth of a literal block, where the start of its lines does not show it. -/
def literalDepth (cs : List Char) : Option Nat :=
  if cs.head?.any fun c => c == ' ' || isBreak c then some 2 else none

/-- What the header of a literal block says of its last line breaks. -/
def literalChomp (cs : List Char) : Chomp :=
  match cs.reverse with
  | [] => .strip
  | last :: before =>
    if !isBreak last then .strip else if before.head?.all isBreak then .keep else .clip

/-- The sign for the last line breaks. -/
def Chomp.sign : Chomp → List Char
  | .strip => ['-']
  | .clip => []
  | .keep => ['+']

/-- The signs after the mark of a literal block. -/
def literalSigns (cs : List Char) : List Char :=
  (literalDepth cs).elim [] (fun _ => ['2']) ++ (literalChomp cs).sign

theorem literalHeader_eq (cs : List Char) : literalHeader cs = '|' :: literalSigns cs := by
  have hdepth : (literalDepth cs).elim [] (fun _ => ['2']) =
      if cs.head?.any fun c => c == ' ' || isBreak c then ['2'] else [] := by
    rw [literalDepth]
    split <;> rfl
  rw [literalHeader, literalSigns, hdepth, List.cons_append]
  congr 2
  rw [literalChomp]
  cases cs.reverse with
  | nil => rfl
  | cons last before =>
    dsimp only
    split_ifs <;> rfl

theorem literalDepth_cases (cs : List Char) : literalDepth cs = none ∨ literalDepth cs = some 2 := by
  rw [literalDepth]
  split
  · exact .inr rfl
  · exact .inl rfl

theorem isBreak_of_mem_literalSigns : ∀ a ∈ literalSigns cs, isBreak a = false := by
  rw [literalSigns]
  rcases literalDepth_cases cs with hdepth | hdepth <;> rw [hdepth] <;>
    cases literalChomp cs <;> exact isBreak_of_any rfl

/-- The header is read for what it says. -/
theorem blockHeader?_literal {rest : List Char} {c : Cursor}
    (hc : c.rest = literalSigns cs ++ '\n' :: rest) :
    blockHeader? c =
      some (⟨literalDepth cs, literalChomp cs⟩, c.past (literalSigns cs)) := by
  have hadvance := Cursor.advance_eq_past hc isBreak_of_mem_literalSigns
  rw [← hadvance, blockHeader?, hc, literalSigns]
  rcases literalDepth_cases cs with hdepth | hdepth <;> rw [hdepth] <;>
    cases literalChomp cs <;> rfl

/-- The last line breaks are what the header says of them. -/
theorem finish_of_ends {text : BlockText} {ends : List Char} (h : Ends cs text ends) :
    text.finish (literalChomp cs) = cs := by
  obtain ⟨a, seen, hcons, ha⟩ := h.last
  have hcs : cs.reverse = ends.reverse ++ a :: seen := by
    rw [← h.seen, List.reverse_append, List.reverse_reverse, hcons]
  -- the header counts the last breaks: none, one, or all of them
  cases hends : ends.reverse with
  | nil =>
    rw [hends, List.nil_append] at hcs
    have hchomp : literalChomp cs = .strip := by
      rw [literalChomp, hcs]
      simp [ha]
    rw [hchomp, BlockText.finish, ← h.seen, List.reverse_eq_nil_iff.1 hends, List.append_nil]
  | cons b before =>
    have hb := h.isBreak b (List.mem_reverse.1 (hends ▸ List.mem_cons_self ..))
    have hall : text.lineBreak ++ text.emptyLines = ends := by
      cases hsame : ends with
      | nil =>
        rw [hsame] at hends
        cases hends
      | cons d ds =>
        obtain ⟨hbreak, hempty⟩ := h.cons d ds hsame
        rw [hbreak, hempty]
        rfl
    rw [hends, List.cons_append] at hcs
    cases before with
    | nil =>
      have hchomp : literalChomp cs = .clip := by
        rw [literalChomp, hcs]
        simp [ha, hb]
      have hone : ends = [b] := by rw [← List.reverse_reverse ends, hends]; rfl
      rw [hchomp, BlockText.finish, (h.cons b [] hone).1, ← hone, h.seen]
    | cons d before =>
      have hd := h.isBreak d (List.mem_reverse.1 (hends ▸ by simp))
      have hchomp : literalChomp cs = .keep := by
        rw [literalChomp, hcs]
        simp [hb, hd]
      rw [hchomp, BlockText.finish, List.append_assoc, hall, h.seen]

/-- A string of nothing but line breaks has no line. -/
theorem literalChomp_of_breaks (hne : cs ≠ []) (h : ∀ b ∈ cs, isBreak b = true) :
    literalChomp cs = .keep := by
  have hreverse : ∀ b ∈ cs.reverse, isBreak b = true := fun b hb => h b (List.mem_reverse.1 hb)
  rw [literalChomp]
  cases hcs : cs.reverse with
  | nil => exact absurd (List.reverse_eq_nil_iff.1 hcs) hne
  | cons b before =>
    rw [hcs] at hreverse
    have hb := hreverse b (List.mem_cons_self ..)
    cases before with
    | nil => simp [hb]
    | cons d before => simp [hb, hreverse d (by simp)]

end Headers

section Reading

variable {cs text : List Char} {n : Nat} {c : Cursor}

theorem block?_eq_some (folded : Bool) {header : BlockHeader} {c₁ c₂ c₃ : Cursor}
    {widest margin : Nat} {emptyLines : List Char} {b : BlockText}
    (hheader : blockHeader? c = some (header, c₁)) (hbreak : Cursor.atBreak c₁.skipComment.rest)
    (hblank : blankLines? (header.depth.map (n + ·)) c₁.skipComment.skipBreak.bound 0 []
      c₁.skipComment.skipBreak = some (widest, emptyLines, c₂))
    (hmargin : (header.depth.map (n + ·)).getD (max (max widest (n + 1)) 1) = margin)
    (hlines : blockLines? folded margin c₂.bound ⟨[], [], emptyLines, false⟩ c₂ = some (b, c₃)) :
    block? folded n c = some (b.finish header.chomp, c₃) := by
  have hgiven : (header.depth.map fun k => if (0 : Int) ≤ n then (n : Int).toNat + k else k) =
      header.depth.map (n + ·) := by
    simp only [Int.natCast_nonneg, if_true, Int.toNat_natCast]
  have hnext : ((n : Int) + 1).toNat = n + 1 := rfl
  rw [block?, hheader]
  simp only [Option.bind_eq_bind, Option.bind_some, hbreak, Bool.not_true, Bool.false_eq_true,
    if_false, hgiven, hblank, hnext, hmargin, hlines]
  rfl

/-- The empty lines at the start of a literal block are read, and the margin is known. -/
theorem blankLines?_literal {bs lines : List Char} (hcs : cs = bs ++ lines) (hlines : lines ≠ [])
    (hbs : ∀ b ∈ bs, isBreak b = true) (hhead : ∀ a ∈ lines.head?, isBreak a = false)
    (hprintable : ∀ a ∈ cs, isPrintable a = true) {rest : List Char}
    (hc : c.rest = bs ++ (spaces (n + 2) ++ (indented (n + 2) false lines ++ rest)))
    (hcolumn : c.column = 0) (hfits : c.Fits) :
    ∃ widest, blankLines? ((literalDepth cs).map (n + ·)) c.bound 0 [] c =
        some (widest, bs, c.past (bs ++ spaces (n + 2))) ∧
      ((literalDepth cs).map (n + ·)).getD (max (max widest (n + 1)) 1) = n + 2 := by
  obtain ⟨a, lines, rfl⟩ := List.exists_cons_of_ne_nil hlines
  have ha := hhead a rfl
  have hfirst : indented (n + 2) false (a :: lines) = a :: indented (n + 2) false lines := by
    rw [indented, if_neg (by simp [ha])]
    rfl
  rw [hfirst, List.cons_append] at hc
  -- the header gives the margin just where the first line does not show it
  rcases literalDepth_cases cs with hdepth | hdepth
  · -- the first line shows the margin
    have hnone : bs = [] := by
      cases bs with
      | nil => rfl
      | cons b bs =>
        rw [literalDepth, hcs, if_pos (by simp [hbs b (List.mem_cons_self ..)])] at hdepth
        cases hdepth
    subst hnone
    rw [List.nil_append] at hcs hc
    have hspace : isSpace a = false := by
      have hblank : (a == ' ') = false := by
        rw [← Bool.not_eq_true]
        intro h
        rw [literalDepth, hcs, if_pos (by simp [beq_iff_eq.1 h])] at hdepth
        cases hdepth
      rw [isSpace, ha, Bool.or_false,
        isBlank_of_isPrintable (hprintable a (hcs ▸ List.mem_cons_self ..))]
      exact hblank
    obtain ⟨fuel, hfuel⟩ := Nat.exists_eq_succ_of_ne_zero
      (Nat.ne_of_gt (Nat.zero_lt_of_lt hfits))
    refine ⟨n + 2, ?_, ?_⟩
    · rw [hdepth, hfuel]
      exact blankLines?_first hspace hc hcolumn fuel
    · rw [hdepth]
      simp only [Option.map_none, Option.getD_none]
      omega
  · have hlength := hfits.length_lt hc
    obtain ⟨widest, hread⟩ := blankLines?_breaks
      (fun b hb => isFirmBreak_of_isPrintable (hbs b hb)
        (hprintable b (hcs ▸ List.mem_append_left _ hb)))
      (m := n + 2) ⟨Nat.le_refl _, fun d hd => by
        obtain rfl := Option.some.inj hd
        exact ha, fun h => absurd h (Nat.lt_irrefl _)⟩ hc hcolumn hlength 0 []
    refine ⟨widest, ?_, ?_⟩
    · rw [hdepth, Option.map_some, hread]
      rfl
    · rw [hdepth]
      rfl

/-- Behind the header of a literal block the margin is found, and the lines are read up to a line
that is indented less. -/
def ReadsLiteral (n : Nat) (cs text : List Char) (c : Cursor) : Prop :=
  ∃ widest emptyLines c' b,
    blankLines? ((literalDepth cs).map (n + ·)) c.bound 0 [] c = some (widest, emptyLines, c') ∧
      ((literalDepth cs).map (n + ·)).getD (max (max widest (n + 1)) 1) = n + 2 ∧
      blockLines? false (n + 2) c'.bound ⟨[], [], emptyLines, false⟩ c' =
        some (b, c.past (indented (n + 2) true cs ++ (lineEnd cs ++ spaces (indentation text)))) ∧
      b.finish (literalChomp cs) = cs

/-- A string of nothing but line breaks is all empty lines. -/
theorem readsLiteral_breaks (hne : cs ≠ []) (hbs : ∀ b ∈ cs, isBreak b = true)
    (hprintable : ∀ a ∈ cs, isPrintable a = true) (htext : Begins n text)
    (hc : c.rest = indented (n + 2) true cs ++ (lineEnd cs ++ text)) (hcolumn : c.column = 0)
    (hfits : c.Fits) : ReadsLiteral n cs text c := by
  have hself : indented (n + 2) true cs = cs := by
    have hbreaks : indented (n + 2) true (cs ++ []) = cs ++ indented (n + 2) true [] :=
      indented_breaks hbs true (.inr rfl)
    rwa [List.append_nil, indented, List.append_nil] at hbreaks
  have hend : lineEnd cs = [] := lineEnd_of_breaks hne hbs
  have hdepth : literalDepth cs = some 2 := by
    obtain ⟨b, bs, rfl⟩ := List.exists_cons_of_ne_nil hne
    rw [literalDepth, if_pos (by simp [hbs b (List.mem_cons_self ..)])]
  rw [hself, hend, List.nil_append] at hc
  obtain ⟨widest, hblank⟩ := blankLines?_breaks
    (fun b hb => isFirmBreak_of_isPrintable (hbs b hb) (hprintable b hb))
    (margin_of_begins htext (m := n + 2) (by omega))
    (by rw [hc, spaces_indentation_append]) hcolumn (hfits.length_lt hc) 0 []
  -- the next line is not indented enough to belong to the block
  have hleft : (c.past (cs ++ spaces (indentation text))).column ≠ n + 2 := by
    have hshallow := htext.shallow
    have hlast := Cursor.column_past_breaks (c := c) (w := []) hne hbs
      (v := spaces (indentation text)) fun a ha => isBreak_of_mem_spaces ha
    rw [List.nil_append, length_spaces] at hlast
    omega
  obtain ⟨fuel, hfuel⟩ := Nat.exists_eq_succ_of_ne_zero (Nat.ne_of_gt (Nat.zero_lt_of_lt hfits))
  refine ⟨widest, cs, c.past (cs ++ spaces (indentation text)), ⟨[], [], cs, false⟩, ?_, ?_, ?_, ?_⟩
  · rw [hdepth]
    exact hblank
  · rw [hdepth]
    rfl
  · rw [Cursor.bound_past, hfuel, hself, hend, List.nil_append]
    exact blockLines?_of_column_ne hleft
  · rw [literalChomp_of_breaks hne hbs]
    rfl

/-- The first line of a string that has one shows the margin, or the header gives it. -/
theorem readsLiteral_lines {bs lines : List Char} (hcs : cs = bs ++ lines) (hne : lines ≠ [])
    (hbs : ∀ b ∈ bs, isBreak b = true) (hlines : ∀ a ∈ lines.head?, isBreak a = false)
    (hprintable : ∀ a ∈ cs, isPrintable a = true) (htext : Begins n text)
    (hc : c.rest = indented (n + 2) true cs ++ (lineEnd cs ++ text)) (hcolumn : c.column = 0)
    (hfits : c.Fits) : ReadsLiteral n cs text c := by
  have hindent : indented (n + 2) true cs =
      bs ++ (spaces (n + 2) ++ indented (n + 2) false lines) := by
    rw [hcs, indented_breaks hbs true (.inr rfl), indented_true hne hlines]
  have hend : lineEnd cs = lineEnd lines := by rw [hcs, lineEnd_append hne]
  have hparts : c.rest = bs ++ (spaces (n + 2) ++
      (indented (n + 2) false lines ++ (lineEnd lines ++ text))) := by
    rw [hc, hindent, hend]
    simp
  obtain ⟨widest, hblank, hmargin⟩ := blankLines?_literal hcs hne hbs hlines hprintable hparts
    hcolumn hfits
  have hnext : (c.past (bs ++ spaces (n + 2))).rest =
      indented (n + 2) false lines ++ (lineEnd lines ++ text) :=
    Cursor.rest_past (by simpa using hparts)
  have hfirst : (c.past (bs ++ spaces (n + 2))).column = n + 2 := by
    cases bs with
    | nil =>
      rw [List.nil_append, Cursor.column_past fun a ha => isBreak_of_mem_spaces ha, hcolumn,
        length_spaces, Nat.zero_add]
    | cons b bs =>
      have hlast := Cursor.column_past_breaks (c := c) (w := []) (List.cons_ne_nil b bs) hbs
        (v := spaces (n + 2)) fun a ha => isBreak_of_mem_spaces ha
      rwa [List.nil_append, length_spaces] at hlast
  have hfuel : lines.length < c.bound := by
    have hle : lines.length ≤ (indented (n + 2) false lines).length := length_le_indented
    have hfit := hfits
    rw [Cursor.Fits, hparts] at hfit
    simp only [List.length_append] at hfit
    omega
  obtain ⟨b, ends, hread, hends⟩ := blockLines?_indented hne hlines
    (fun a ha => hprintable a (hcs ▸ List.mem_append_right _ ha)) htext
    (Nat.lt_add_of_pos_right (by decide)) hnext hfirst hfits.past hfuel ⟨[], [], bs, false⟩
  have hwhole : Ends cs b ends := by
    have hstart : (⟨[], [], bs, false⟩ : BlockText).whole = bs := by simp [BlockText.whole]
    rw [hcs, ← hstart]
    exact hends
  refine ⟨widest, bs, _, b, hblank, hmargin, ?_, finish_of_ends hwhole⟩
  rw [Cursor.bound_past, hread, Cursor.past_past, hindent, hend]
  simp

/-- **The literal block that was written for a string is read as this string**, where the next line
is indented less.  The place is right behind the mark of the block, and in the end at the first
token of the next line. -/
theorem block?_literal (hne : cs ≠ []) (hprintable : ∀ a ∈ cs, isPrintable a = true)
    (htext : Begins n text)
    (hc : c.rest = literalSigns cs ++
      '\n' :: (indented (n + 2) true cs ++ (lineEnd cs ++ text)))
    (hfits : c.Fits) :
    block? false n c = some (cs, c.past (literalSigns cs ++
      '\n' :: (indented (n + 2) true cs ++ (lineEnd cs ++ spaces (indentation text))))) := by
  have hrest := Cursor.rest_past hc
  have hskip : (c.past (literalSigns cs)).skipComment = c.past (literalSigns cs) :=
    Cursor.skipComment_eq_self fun a ha => by
      rw [hrest] at ha
      obtain rfl := Option.some.inj ha
      decide
  have hnext : (c.past (literalSigns cs)).skipBreak = c.past (literalSigns cs ++ ['\n']) := by
    rw [Cursor.skipBreak, Cursor.takeBreak?_of_firm hrest (by decide), Cursor.past_past]
  have hatBreak : Cursor.atBreak (c.past (literalSigns cs)).rest = true := by
    rw [hrest]
    rfl
  have hstart : (c.past (literalSigns cs ++ ['\n'])).rest =
      indented (n + 2) true cs ++ (lineEnd cs ++ text) := Cursor.rest_past (by simpa using hc)
  have hcolumn : (c.past (literalSigns cs ++ ['\n'])).column = 0 :=
    Cursor.column_past_break (v := []) (by decide) (by simp)
  have hreads : ReadsLiteral n cs text (c.past (literalSigns cs ++ ['\n'])) := by
    obtain ⟨bs, lines, hcs, hbs, hlines⟩ := exists_cut (! isBreak ·) cs
    simp only [Bool.not_eq_false', Bool.not_eq_true'] at hbs hlines
    by_cases hempty : lines = []
    · rw [hempty, List.append_nil] at hcs
      exact readsLiteral_breaks hne (hcs ▸ hbs) hprintable htext hstart hcolumn hfits.past
    · exact readsLiteral_lines hcs hempty hbs hlines hprintable htext hstart hcolumn hfits.past
  obtain ⟨widest, emptyLines, c', b, hblank, hmargin, hlines, hfinish⟩ := hreads
  rw [block?_eq_some false (blockHeader?_literal hc) (by rwa [hskip])
    (by rw [hskip, hnext]; exact hblank) hmargin hlines, hfinish, Cursor.past_past]
  simp

end Reading

end InlineAudit.Yaml
