/-
The gaps in a scalar that are known from what is written.

* `Gap.read?_spaces` — spaces in a line, or after a break;
* `Gap.read?_breaks` — line breaks, and the spaces after them.
-/
import InlineAudit.Yaml.Scalar.Gap
import InlineAudit.Proofs.Yaml.Cursor

namespace InlineAudit.Yaml.Gap

variable {margin : Int} {c : Cursor} {rest : List Char}

/-- Spaces before a break stand for themselves, and those after it for nothing. -/
theorem read?_spaces {n fuel : Nat} {blanks first others : List Char} {broken : Bool}
    (hfuel : n < fuel) (hc : c.rest = spaces n ++ rest)
    (hrest : ∀ a ∈ rest.head?, isSpace a = false) :
    read? margin fuel ⟨blanks, broken, first, others⟩ c =
      some (⟨if broken then blanks else spaces n ++ blanks, broken, first, others⟩,
        c.past (spaces n)) := by
  induction n generalizing fuel blanks c with
  | zero =>
    obtain ⟨fuel, rfl⟩ := Nat.exists_eq_succ_of_ne_zero (Nat.ne_of_gt hfuel)
    have hc' : c.rest = rest := hc
    have hbreak : c.takeBreak? = none := Cursor.takeBreak?_eq_none fun a ha =>
      isBreak_of_isSpace (hrest a (hc' ▸ ha))
    have hself : (if broken then blanks else spaces 0 ++ blanks) = blanks := ite_self _
    rw [read?, hbreak, hself, show spaces 0 = [] from rfl, Cursor.past_nil, Cursor.head?, hc']
    cases hhead : rest.head? with
    | none => rfl
    | some a => simp [isBlank_of_isSpace (hrest a hhead)]
  | succ n ih =>
    obtain ⟨fuel, rfl⟩ := Nat.exists_eq_succ_of_ne_zero (Nat.ne_of_gt (Nat.zero_lt_of_lt hfuel))
    have hc' : c.rest = ' ' :: (spaces n ++ rest) := hc
    have hbreak : c.takeBreak? = none := Cursor.takeBreak?_eq_none fun a ha => by
      rw [hc'] at ha
      obtain rfl := Option.some.inj ha
      decide
    have hnext := Cursor.rest_past (w := [' ']) hc'
    have hturn : spaces n ++ ' ' :: blanks = spaces (n + 1) ++ blanks := by
      rw [spaces, spaces, List.replicate_succ', List.append_assoc]
      rfl
    rw [read?, hbreak, Cursor.head?, hc']
    simp only [List.head?_cons, show isBlank ' ' = true from rfl, if_true,
      Cursor.advance_one hc' (by decide), show (' ' = '\t') = False by decide, false_and, if_false]
    -- spaces are collected until the first break, and skipped after it
    cases broken with
    | true =>
      rw [if_pos rfl, ih (by omega) hnext, Cursor.past_past]
      rfl
    | false =>
      rw [if_neg (by decide), ih (by omega) hnext, Cursor.past_past]
      simp only [Bool.false_eq_true, if_false, hturn]
      rfl

theorem read?_empty_spaces {n fuel : Nat} (hfuel : n < fuel) (hc : c.rest = spaces n ++ rest)
    (hrest : ∀ a ∈ rest.head?, isSpace a = false) :
    read? margin fuel .empty c = some (⟨spaces n, false, [], []⟩, c.past (spaces n)) := by
  rw [empty, read?_spaces hfuel hc hrest, if_neg (by decide), List.append_nil]

/-- Breaks after the first one are kept, and the spaces behind them are passed. -/
theorem read?_more_breaks {bs : List Char} {n fuel : Nat} {blanks first others : List Char}
    (hfuel : bs.length + n < fuel) (hbs : ∀ b ∈ bs, isFirmBreak b = true)
    (hc : c.rest = bs ++ (spaces n ++ rest)) (hrest : ∀ a ∈ rest.head?, isSpace a = false) :
    read? margin fuel ⟨blanks, true, first, others⟩ c =
      some (⟨blanks, true, first, bs.reverse ++ others⟩, c.past (bs ++ spaces n)) := by
  induction bs generalizing fuel others c with
  | nil => exact read?_spaces (by simpa using hfuel) hc hrest
  | cons b bs ih =>
    obtain ⟨fuel, rfl⟩ := Nat.exists_eq_succ_of_ne_zero (Nat.ne_of_gt (Nat.zero_lt_of_lt hfuel))
    have hnext := Cursor.rest_past (w := [b]) hc
    rw [List.length_cons] at hfuel
    rw [read?, Cursor.takeBreak?_of_firm hc (hbs b (List.mem_cons_self ..))]
    dsimp only
    rw [if_pos rfl, ih (by omega) (fun a ha => hbs a (List.mem_cons_of_mem _ ha)) hnext,
      Cursor.past_past]
    simp

/-- A gap of breaks, with the spaces behind them. -/
theorem read?_breaks {b : Char} {bs : List Char} {n fuel : Nat} (hfuel : bs.length + n + 1 < fuel)
    (hb : isFirmBreak b = true) (hbs : ∀ b ∈ bs, isFirmBreak b = true)
    (hc : c.rest = b :: (bs ++ (spaces n ++ rest)))
    (hrest : ∀ a ∈ rest.head?, isSpace a = false) :
    read? margin fuel .empty c =
      some (⟨[], true, [b], bs.reverse⟩, c.past (b :: (bs ++ spaces n))) := by
  obtain ⟨fuel, rfl⟩ := Nat.exists_eq_succ_of_ne_zero (Nat.ne_of_gt (Nat.zero_lt_of_lt hfuel))
  have hnext := Cursor.rest_past (w := [b]) hc
  rw [read?, Cursor.takeBreak?_of_firm hc hb]
  dsimp only
  rw [if_neg (by decide), read?_more_breaks (by omega) hbs hnext hrest, Cursor.past_past]
  simp

end InlineAudit.Yaml.Gap
