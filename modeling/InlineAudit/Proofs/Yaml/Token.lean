/-
The cut into tokens, step by step.

* `Lexer.Holds` — the tokens so far, with the marks of keys woven in;
* `Lexer.settle?` — what is done between two tokens, and `settle?_inline`, `settle?_line` what comes
  of it;
* `Lexer.At` — a lexer in front of a token, outside brackets;
* `Lexer.Yields`, `Lexer.Leads` — what comes of a whole run, and of one token;
* **`tokens?_of_yields`** — the tokens of a text.

Design notes: the marks of keys are kept apart from the tokens and are woven in at the end; but since
a key is found before the next one begins, it can be said at any time what the end will make of them.
The blocks around a place are given by their indentations, the innermost first, without the one that
is around all of them.
-/
import InlineAudit.Yaml.Token
import InlineAudit.Proofs.Yaml.Cursor
import Mathlib.Data.List.Sort

namespace InlineAudit.Yaml

section Weaving

variable {n : Nat} {t : Token} {ts : List Token} {keys : List (Nat × Bool)}

theorem weave_append (n : Nat) (ts : List Token) (keys : List (Nat × Bool)) (done more : List Token) :
    weave n ts keys (done ++ more) = weave n ts keys done ++ more := by
  -- the tokens are gone through from the last one on, and put before those that are done
  induction ts generalizing n keys done with
  | nil => rw [weave, weave]
  | cons t ts ih =>
    cases keys with
    | nil => rw [weave, weave, ← List.cons_append, ih]
    | cons k keys =>
      obtain ⟨k, opens⟩ := k
      rw [weave, weave]
      split
      · rw [← ih]
        cases opens <;> rfl
      · rw [← List.cons_append, ih]

theorem weave_push (h : ∀ k ∈ keys, k.1 < n) :
    weave (n + 1) (t :: ts) keys [] = weave n ts keys [] ++ [t] := by
  rw [← weave_append]
  cases keys with
  | nil => rfl
  | cons k keys =>
    have hk := h k (List.mem_cons_self ..)
    rw [weave, if_neg (by omega)]
    rfl

/-- The marks before a key: that of the key, and that of the mapping which begins with it. -/
def keyMarks (opens : Bool) : List Token := if opens then [.blockMappingStart, .key] else [.key]

theorem weave_key (opens : Bool) :
    weave (n + 1) (t :: ts) ((n, opens) :: keys) [] =
      weave n ts keys [] ++ (keyMarks opens ++ [t]) := by
  rw [← weave_append, weave, if_pos rfl]
  cases opens <;> rfl

end Weaving

namespace Lexer

section Tokens

variable {l l' : Lexer} {ts : List Token}

/-- The tokens so far, with the marks of the keys among them. -/
structure Holds (l : Lexer) (ts : List Token) : Prop where
  size : l.size = l.tokens.length
  keys_lt : ∀ k ∈ l.keys, k.1 < l.size
  sorted : l.keys.Pairwise fun a b => b.1 < a.1
  weave : weave l.size l.tokens l.keys [] = ts

/-- A further token that is no key. -/
theorem Holds.push (h : l.Holds ts) {t : Token} (htokens : l'.tokens = t :: l.tokens)
    (hsize : l'.size = l.size + 1) (hkeys : l'.keys = l.keys) : l'.Holds (ts ++ [t]) where
  size := by rw [htokens, hsize, h.size, List.length_cons]
  keys_lt := fun k hk => by
    rw [hkeys] at hk
    rw [hsize]
    exact Nat.lt_succ_of_lt (h.keys_lt k hk)
  sorted := hkeys ▸ h.sorted
  weave := by rw [htokens, hsize, hkeys, weave_push h.keys_lt, h.weave]

/-- A further token that turned out to be a key, and the colon behind it. -/
theorem Holds.pushKey (h : l.Holds ts) {t : Token} {opens : Bool}
    (htokens : l'.tokens = .value :: t :: l.tokens) (hsize : l'.size = l.size + 2)
    (hkeys : l'.keys = (l.size, opens) :: l.keys) :
    l'.Holds (ts ++ (keyMarks opens ++ [t, .value])) where
  size := by rw [htokens, hsize, h.size, List.length_cons, List.length_cons]
  keys_lt := fun k hk => by
    rw [hkeys] at hk
    rw [hsize]
    rcases List.mem_cons.1 hk with rfl | hk
    · exact Nat.lt_succ_of_lt (Nat.lt_succ_self _)
    · exact Nat.lt_succ_of_lt (Nat.lt_succ_of_lt (h.keys_lt k hk))
  sorted := by
    rw [hkeys]
    exact List.pairwise_cons.2 ⟨fun k hk => h.keys_lt k hk, h.sorted⟩
  weave := by
    rw [htokens, hsize, hkeys, weave_push (n := l.size + 1), weave_key, h.weave]
    · simp
    · intro k hk
      rcases List.mem_cons.1 hk with rfl | hk
      · exact Nat.lt_succ_self _
      · exact Nat.lt_succ_of_lt (h.keys_lt k hk)

/-- Nothing counts but the tokens and keys. -/
theorem Holds.congr (h : l.Holds ts) (htokens : l'.tokens = l.tokens) (hsize : l'.size = l.size)
    (hkeys : l'.keys = l.keys) : l'.Holds ts := by
  refine ⟨?_, ?_, ?_, ?_⟩
  · rw [htokens, hsize, h.size]
  · rw [hkeys, hsize]
    exact h.keys_lt
  · rw [hkeys]
    exact h.sorted
  · rw [htokens, hsize, hkeys, h.weave]

theorem Holds.pushEnds (h : l.Holds ts) {n : Nat}
    (htokens : l'.tokens = List.replicate n .blockEnd ++ l.tokens) (hsize : l'.size = l.size + n)
    (hkeys : l'.keys = l.keys) : l'.Holds (ts ++ List.replicate n .blockEnd) := by
  induction n generalizing l' with
  | zero =>
    rw [List.replicate_zero, List.append_nil]
    exact h.congr htokens hsize hkeys
  | succ n ih =>
    have hbefore : Holds { l with
        tokens := List.replicate n .blockEnd ++ l.tokens
        size := l.size + n } (ts ++ List.replicate n .blockEnd) := ih rfl rfl rfl
    rw [List.replicate_succ', ← List.append_assoc]
    exact hbefore.push htokens hsize hkeys

end Tokens

section Blocks

/-- The indentation of the innermost of some blocks, and of those around it. -/
def indents : List Nat → Int × List Int
  | [] => (-1, [])
  | b :: blocks => (b, (indents blocks).1 :: (indents blocks).2)

/-- The blocks that do not end at a column. -/
def blocksAt (column : Nat) (blocks : List Nat) : List Nat := blocks.dropWhile (column < ·)

/-- The ends of the blocks that do. -/
def endsAt (column : Nat) (blocks : List Nat) : List Token :=
  List.replicate (blocks.takeWhile (column < ·)).length .blockEnd

theorem closeBlocks_indents (column : Nat) (blocks : List Nat) (n : Nat) :
    closeBlocks column (indents blocks).1 (indents blocks).2 n =
      ((indents (blocksAt column blocks)).1, (indents (blocksAt column blocks)).2,
        n + (blocks.takeWhile (column < ·)).length) := by
  induction blocks generalizing n with
  | nil => rfl
  | cons b blocks ih =>
    rw [indents, closeBlocks, blocksAt]
    -- a block ends if it is indented more, and then so may the one around it
    by_cases h : column < b
    · rw [if_pos (by omega), ih, List.dropWhile_cons_of_pos (by simpa using h),
        List.takeWhile_cons_of_pos (by simpa using h), List.length_cons, Nat.add_right_comm]
      rfl
    · rw [if_neg (by omega), List.dropWhile_cons_of_neg (by simpa using h),
        List.takeWhile_cons_of_neg (by simpa using h)]
      rfl

theorem closeBlocks_all (blocks : List Nat) (n : Nat) :
    closeBlocks (-1) (indents blocks).1 (indents blocks).2 n = (-1, [], n + blocks.length) := by
  induction blocks generalizing n with
  | nil => rfl
  | cons b blocks ih =>
    rw [indents, closeBlocks, if_pos (by omega), ih, List.length_cons, Nat.add_right_comm]
    rfl

/-- All blocks that are left lie left of a column. -/
def Within (column : Nat) (blocks : List Nat) : Prop := ∀ b ∈ blocks.head?, b ≤ column

theorem Within.blocksAt_eq {column : Nat} {blocks : List Nat} (h : Within column blocks) :
    blocksAt column blocks = blocks ∧ endsAt column blocks = [] := by
  cases blocks with
  | nil => exact ⟨rfl, rfl⟩
  | cons b blocks =>
    have hb := h b rfl
    rw [blocksAt, endsAt, List.dropWhile_cons_of_neg (by simpa using hb),
      List.takeWhile_cons_of_neg (by simpa using hb)]
    exact ⟨rfl, rfl⟩

end Blocks

section Settling

variable {l : Lexer} {rest : List Char} {n fuel : Nat}

/-- What is done between two tokens: blanks are passed, candidates are given up, and blocks end. -/
def settle? (l : Lexer) : Option Lexer := do
  let l ← (toNextToken l.cursor.bound l).dropAllStale?
  return l.unroll l.cursor.column

theorem toNextToken_spaces (hfuel : 0 < fuel) (hl : l.cursor.rest = spaces n ++ rest)
    (hrest : Solid rest) :
    toNextToken fuel l = { l with cursor := l.cursor.past (spaces n) } := by
  obtain ⟨fuel, rfl⟩ := Nat.exists_eq_succ_of_ne_zero (Nat.ne_of_gt hfuel)
  have hmark : ¬ (l.cursor.column = 0 ∧ l.cursor.head? = some byteOrderMark) := by
    rintro ⟨-, hhead⟩
    rw [Cursor.head?, hl] at hhead
    cases n with
    | zero => exact (hrest _ hhead).2.2 rfl
    | succ n => exact absurd (Option.some.inj hhead) (by decide)
  have hskip : (l.cursor.skipWhile fun a =>
      a == ' ' || ((l.inFlow || !l.keyAllowed) && a == '\t')) = l.cursor.past (spaces n) := by
    refine Cursor.skipWhile_eq_past hl (fun a ha => by simp [mem_spaces ha]) (fun a ha => ?_)
      fun a ha => isBreak_of_mem_spaces ha
    have hblank := hrest.isBlank_eq_false ha
    rw [isBlank, Bool.or_eq_false_iff] at hblank
    simp [hblank.1, hblank.2]
  have hhead : (l.cursor.past (spaces n)).head? = rest.head? := by
    rw [Cursor.head?, Cursor.rest_past hl]
  have hhash : ¬ (l.cursor.past (spaces n)).head? = some '#' := by
    rw [hhead]
    exact fun h => (hrest '#' h).2.1 rfl
  have hbreak : (l.cursor.past (spaces n)).takeBreak? = none :=
    Cursor.takeBreak?_eq_none fun a ha => hrest.isBreak_eq_false (by rwa [Cursor.rest_past hl] at ha)
  rw [toNextToken]
  simp only [if_neg hmark, hskip, if_neg hhash, hbreak]

theorem toNextToken_line (hfuel : 1 < fuel) (hflow : l.around = [])
    (hl : l.cursor.rest = '\n' :: (spaces n ++ rest)) (hrest : Solid rest) :
    toNextToken fuel l =
      { l with cursor := l.cursor.past ('\n' :: spaces n), keyAllowed := true } := by
  obtain ⟨fuel, rfl⟩ := Nat.exists_eq_succ_of_ne_zero (Nat.ne_of_gt (Nat.zero_lt_of_lt hfuel))
  have hhead : l.cursor.head? = some '\n' := by
    rw [Cursor.head?, hl]
    rfl
  have hmark : ¬ (l.cursor.column = 0 ∧ l.cursor.head? = some byteOrderMark) := by
    rw [hhead]
    exact fun h => absurd (Option.some.inj h.2) (by decide)
  have hskip : (l.cursor.skipWhile fun a =>
      a == ' ' || ((l.inFlow || !l.keyAllowed) && a == '\t')) = l.cursor :=
    Cursor.skipWhile_eq_past (w := []) hl (by simp) (fun a ha => by
      obtain rfl := Option.some.inj ha
      simp) (by simp)
  have hbreak := Cursor.takeBreak?_of_firm hl (by decide)
  have hhash : ¬ l.cursor.head? = some '#' := by
    rw [hhead]
    decide
  have hnext := toNextToken_spaces
    (l := { l with cursor := l.cursor.past ['\n'], keyAllowed := l.keyAllowed || !l.inFlow })
    (show 0 < fuel by omega) (Cursor.rest_past (w := ['\n']) hl) hrest
  rw [toNextToken]
  simp only [if_neg hmark, hskip, if_neg hhash, hbreak]
  exact hnext.trans (by simp [inFlow, hflow])

theorem dropAllStale?_of_stale (hflow : l.around = [])
    (hstale : ∀ k ∈ l.candidate, k.line < l.cursor.line ∧ k.required = false) :
    l.dropAllStale? = some { l with candidate := none } := by
  have hdrop : dropStale? l.cursor l.candidate = some none := by
    cases hk : l.candidate with
    | none => rfl
    | some k =>
      obtain ⟨hline, hrequired⟩ := hstale k hk
      rw [dropStale?, if_pos (.inl hline), hrequired]
      rfl
  simp [dropAllStale?, hdrop, hflow]

theorem dropAllStale?_of_fresh (hflow : l.around = [])
    (hfresh : ∀ k ∈ l.candidate, k.line = l.cursor.line ∧ l.cursor.index ≤ k.index + 1024) :
    l.dropAllStale? = some l := by
  have hdrop : dropStale? l.cursor l.candidate = some l.candidate := by
    cases hk : l.candidate with
    | none => rfl
    | some k =>
      obtain ⟨hline, hindex⟩ := hfresh k hk
      rw [dropStale?, if_neg (by omega)]
  simp only [dropAllStale?, hdrop, hflow, Option.bind_eq_bind, Option.bind_some, List.mapM_nil]
  exact congrArg some (by rw [← hflow])

/-- A lexer outside brackets: the tokens that it has read, and the blocks that it is in. -/
structure Read (ts : List Token) (blocks : List Nat) (l : Lexer) : Prop where
  fits : l.cursor.Fits
  holds : l.Holds ts
  indents : (l.indent, l.outer) = indents blocks
  around : l.around = []

theorem Read.indent_eq {ts : List Token} {blocks : List Nat} (h : l.Read ts blocks) :
    l.indent = (Lexer.indents blocks).1 := congrArg Prod.fst h.indents

theorem Read.inFlow_eq {ts : List Token} {blocks : List Nat} (h : l.Read ts blocks) :
    l.inFlow = false := by
  rw [inFlow, h.around]
  rfl

theorem Read.indent_le {ts : List Token} {blocks : List Nat} {column : Nat}
    (h : l.Read ts blocks) (hblocks : Within column blocks) : l.indent ≤ column := by
  rw [h.indent_eq]
  cases blocks with
  | nil =>
    rw [Lexer.indents]
    omega
  | cons b blocks =>
    have hb := hblocks b rfl
    rw [Lexer.indents]
    omega

/-- A lexer in front of a token: the column and what stands there, the tokens that it has read, the
blocks that it is in, and whether a key may begin. -/
structure At (column : Nat) (rest : List Char) (ts : List Token) (blocks : List Nat)
    (keyAllowed : Bool) (l : Lexer) : Prop extends Read ts blocks l where
  column_eq : l.cursor.column = column
  rest_eq : l.cursor.rest = rest
  candidate_eq : l.candidate = none
  keyAllowed_eq : l.keyAllowed = keyAllowed

/-- A lexer in front of a token that may have ended some blocks. -/
def After (column : Nat) (rest : List Char) (ts : List Token) (blocks : List Nat)
    (keyAllowed : Bool) : Lexer → Prop :=
  At column rest (ts ++ endsAt column blocks) (blocksAt column blocks) keyAllowed

/-- A lexer in front of the first token of a line. -/
def Line (text : List Char) (ts : List Token) (blocks : List Nat) : Lexer → Prop :=
  After (indentation text) (unindented text) ts blocks true

theorem After.of_within {column : Nat} {rest : List Char} {ts : List Token} {blocks : List Nat}
    {keyAllowed : Bool} (h : After column rest ts blocks keyAllowed l)
    (hblocks : Within column blocks) : At column rest ts blocks keyAllowed l := by
  rw [After, hblocks.blocksAt_eq.1, hblocks.blocksAt_eq.2, List.append_nil] at h
  exact h

variable {ts : List Token} {blocks : List Nat}

theorem unroll_eq (h : l.Read ts blocks) (column : Nat) :
    l.unroll column = { l with
      indent := (indents (blocksAt column blocks)).1
      outer := (indents (blocksAt column blocks)).2
      tokens := List.replicate (blocks.takeWhile (column < ·)).length .blockEnd ++ l.tokens
      size := l.size + (blocks.takeWhile (column < ·)).length } := by
  have houter : l.outer = (indents blocks).2 := congrArg Prod.snd h.indents
  rw [unroll, h.inFlow_eq, h.indent_eq, houter, closeBlocks_indents]
  simp

/-- The blocks that are indented more end at a token. -/
theorem Read.unroll (h : l.Read ts blocks) (hcandidate : l.candidate = none) :
    After l.cursor.column l.cursor.rest ts blocks l.keyAllowed (l.unroll l.cursor.column) := by
  rw [unroll_eq h]
  exact ⟨⟨h.fits, h.holds.pushEnds rfl rfl rfl, rfl, h.around⟩, rfl, rfl, hcandidate, rfl⟩

theorem settle?_eq {l' : Lexer} (hnext : toNextToken l.cursor.bound l = l')
    (hdrop : l'.dropAllStale? = some { l' with candidate := none }) (h : l'.Read ts blocks) :
    ∃ m, l.settle? = some m ∧
      After l'.cursor.column l'.cursor.rest ts blocks l'.keyAllowed m := by
  have hread : Read ts blocks { l' with candidate := none } :=
    ⟨h.fits, h.holds.congr rfl rfl rfl, h.indents, h.around⟩
  refine ⟨_, ?_, hread.unroll rfl⟩
  rw [settle?, hnext]
  simp [hdrop]

/-- The end of a line, and the indentation of the next one. -/
theorem settle?_line {text : List Char} (h : l.Read ts blocks) (hl : l.cursor.rest = '\n' :: text)
    (htext : Begins n text)
    (hcandidate : ∀ k ∈ l.candidate, k.line ≤ l.cursor.line ∧ k.required = false) :
    ∃ m, l.settle? = some m ∧ Line text ts blocks m := by
  have hl' : l.cursor.rest = '\n' :: (spaces (indentation text) ++ unindented text) := by
    rw [hl, spaces_indentation_append]
  have hbound : 1 < l.cursor.bound := by
    have hfits := h.fits
    rw [Cursor.Fits, hl, List.length_cons] at hfits
    omega
  have hnext := toNextToken_line hbound h.around hl' htext.solid
  have hcolumn : (l.cursor.past ('\n' :: spaces (indentation text))).column = indentation text := by
    rw [← List.nil_append ('\n' :: _), Cursor.column_past_break rfl
      fun a ha => isBreak_of_mem_spaces ha, length_spaces]
  have hrest : (l.cursor.past ('\n' :: spaces (indentation text))).rest = unindented text :=
    Cursor.rest_past hl'
  have hline : l.cursor.line < (l.cursor.past ('\n' :: spaces (indentation text))).line := by
    simp [Cursor.past, show isBreak '\n' = true from rfl]
  -- the candidate was on the line that is over
  obtain ⟨m, hm, hafter⟩ := settle?_eq hnext
    (dropAllStale?_of_stale h.around fun k hk => by
      obtain ⟨hle, hrequired⟩ := hcandidate k hk
      exact ⟨hle.trans_lt hline, hrequired⟩)
    (show Read ts blocks _ from ⟨h.fits.past, h.holds.congr rfl rfl rfl, h.indents, h.around⟩)
  refine ⟨m, hm, ?_⟩
  rw [Line, ← hcolumn, ← hrest]
  exact hafter

/-- A line whose indentation has been passed. -/
theorem settle?_begun {text : List Char} (h : l.Read ts blocks)
    (hl : l.cursor.rest = unindented text) (hcolumn : l.cursor.column = indentation text)
    (htext : Begins n text) (hkey : l.keyAllowed = true)
    (hcandidate : ∀ k ∈ l.candidate, k.line < l.cursor.line ∧ k.required = false) :
    ∃ m, l.settle? = some m ∧ Line text ts blocks m := by
  have hnext := toNextToken_spaces (n := 0) (Nat.zero_lt_of_lt h.fits) hl htext.solid
  obtain ⟨m, hm, hafter⟩ := settle?_eq hnext
    (dropAllStale?_of_stale h.around hcandidate)
    (show Read ts blocks _ from ⟨h.fits, h.holds.congr rfl rfl rfl, h.indents, h.around⟩)
  refine ⟨m, hm, ?_⟩
  rw [Line, ← hcolumn, ← hl, ← hkey]
  exact hafter

/-- A space before the next token of a line. -/
theorem settle?_inline (h : l.Read ts blocks) (hl : l.cursor.rest = ' ' :: rest)
    (hrest : Solid rest) (hcandidate : l.candidate = none) :
    ∃ m, l.settle? = some m ∧
      After (l.cursor.column + 1) rest ts blocks l.keyAllowed m := by
  have hnext := toNextToken_spaces (n := 1) (Nat.zero_lt_of_lt h.fits) hl hrest
  have hcolumn : (l.cursor.past (spaces 1)).column = l.cursor.column + 1 :=
    Cursor.column_past fun a ha => isBreak_of_mem_spaces ha
  obtain ⟨m, hm, hafter⟩ := settle?_eq hnext
    (dropAllStale?_of_stale h.around (by simp [hcandidate]))
    (show Read ts blocks _ from ⟨h.fits.past, h.holds.congr rfl rfl rfl, h.indents, h.around⟩)
  refine ⟨m, hm, ?_⟩
  rw [← hcolumn, ← Cursor.rest_past (w := spaces 1) hl]
  exact hafter

/-- Another token right behind. -/
theorem settle?_here (h : l.Read ts blocks) (hrest : Solid l.cursor.rest)
    (hblocks : Within l.cursor.column blocks)
    (hfresh : ∀ k ∈ l.candidate, k.line = l.cursor.line ∧ l.cursor.index ≤ k.index + 1024) :
    l.settle? = some l := by
  have hnext : toNextToken l.cursor.bound l = l :=
    toNextToken_spaces (n := 0) (Nat.zero_lt_of_lt h.fits) rfl hrest
  have hself : l.unroll l.cursor.column = l := by
    have htake : blocks.takeWhile (l.cursor.column < ·) = [] := by
      have hends := hblocks.blocksAt_eq.2
      rw [endsAt, List.replicate_eq_nil_iff, List.length_eq_zero_iff] at hends
      exact hends
    rw [unroll_eq h, hblocks.blocksAt_eq.1, htake, ← h.indents]
    rfl
  rw [settle?, hnext, dropAllStale?_of_fresh h.around hfresh]
  simp [hself]

end Settling

section Runs

variable {column : Nat} {rest : List Char} {ts out : List Token} {blocks : List Nat}
  {keyAllowed : Bool} {P Q : Lexer → Prop}

/-- From such a place the run comes to its end, and these are the tokens. -/
def Yields (P : Lexer → Prop) (out : List Token) : Prop :=
  ∀ l m fuel, settle? l = some m → P m → m.cursor.rest.length < fuel →
    ∃ l', run? fuel l = some l' ∧ l'.Holds out

/-- From such a place one token is read, and then it is such a place. -/
def Leads (P Q : Lexer → Prop) : Prop :=
  ∀ m, P m → ∃ a rest l m', m.cursor.rest = a :: rest ∧ ¬ (m.cursor.column = 0 ∧ a = '%') ∧
    m.cursor.documentMark? = none ∧ m.dispatch? a rest = some l ∧ l.settle? = some m' ∧
    m'.cursor.rest.length < m.cursor.rest.length ∧ Q m'

theorem settle?_eq_some {l m : Lexer} (h : l.settle? = some m) :
    ∃ d, (toNextToken l.cursor.bound l).dropAllStale? = some d ∧
      d.unroll d.cursor.column = m := by
  obtain ⟨d, hd, hm⟩ := Option.bind_eq_some_iff.1 h
  exact ⟨d, hd, Option.some.inj hm⟩

theorem Yields.of_leads (hstep : Leads P Q) (h : Yields Q out) : Yields P out := by
  intro l m fuel hsettle hm hfuel
  obtain ⟨a, rest, l', m', hrest, hdirective, hmark, hdispatch, hsettle', hlength, hm'⟩ := hstep m hm
  obtain ⟨fuel, rfl⟩ := Nat.exists_eq_succ_of_ne_zero (Nat.ne_of_gt (Nat.zero_lt_of_lt hfuel))
  obtain ⟨last, hrun, hholds⟩ := h l' m' fuel hsettle' hm' (by omega)
  refine ⟨last, ?_, hholds⟩
  obtain ⟨d, hd, rfl⟩ := settle?_eq_some hsettle
  rw [run?, hd]
  simp only [Option.bind_eq_bind, Option.bind_some, hrest, if_neg hdirective, hmark, hdispatch,
    hrun]

theorem Yields.mono (hPQ : ∀ l, P l → Q l) (h : Yields Q out) : Yields P out :=
  fun l m fuel hsettle hm hfuel => h l m fuel hsettle (hPQ m hm) hfuel

/-- All blocks end. -/
theorem At.finish? {m : Lexer} (hm : At column rest ts blocks keyAllowed m) :
    ∃ l', m.finish? = some l' ∧ l'.Holds (ts ++ List.replicate blocks.length .blockEnd) := by
  have houter : m.outer = (Lexer.indents blocks).2 := congrArg Prod.snd hm.indents
  -- the end of the text is left of all blocks
  have hunroll : m.unroll (-1) = { m with
      indent := -1
      outer := []
      tokens := List.replicate blocks.length .blockEnd ++ m.tokens
      size := m.size + blocks.length } := by
    rw [unroll, hm.inFlow_eq, hm.indent_eq, houter, closeBlocks_all]
    simp
  refine ⟨{ m.unroll (-1) with candidate := none }, ?_, ?_⟩
  · rw [Lexer.finish?, dropCandidate?, hunroll]
    simp [hm.candidate_eq]
  · rw [hunroll]
    exact hm.holds.pushEnds rfl rfl rfl

/-- At the end of a text all blocks end. -/
theorem yields_end : Yields (At column [] ts blocks keyAllowed)
    (ts ++ List.replicate blocks.length .blockEnd) := by
  intro l m fuel hsettle hm hfuel
  obtain ⟨fuel, rfl⟩ := Nat.exists_eq_succ_of_ne_zero (Nat.ne_of_gt (Nat.zero_lt_of_lt hfuel))
  obtain ⟨d, hd, hunroll⟩ := settle?_eq_some hsettle
  obtain ⟨last, hfinish, hholds⟩ := hm.finish?
  refine ⟨last, ?_, hholds⟩
  rw [run?, hd]
  simp only [Option.bind_eq_bind, Option.bind_some, hunroll, hm.rest_eq, hfinish]

end Runs

end Lexer

/-- The tokens of a text are those that a run from its start yields. -/
theorem tokens?_of_yields {cs : List Char} {out : List Token} (hallowed : ∀ a ∈ cs, isAllowed a = true)
    (hsolid : Solid cs) (h : Lexer.Yields (Lexer.At 0 cs [] [] true) out) : tokens? cs = some out := by
  have hread : Lexer.Read [] [] (.start cs) :=
    ⟨Nat.lt_succ_self _, ⟨rfl, by simp [Lexer.start], List.Pairwise.nil, rfl⟩, rfl, rfl⟩
  have hsettle : (Lexer.start cs).settle? = some (.start cs) :=
    Lexer.settle?_here hread hsolid (by simp [Lexer.Within]) (by simp [Lexer.start])
  obtain ⟨l, hrun, hholds⟩ := h _ _ (cs.length + 2) hsettle ⟨hread, rfl, rfl, rfl, rfl⟩
    (Nat.lt_succ_of_lt (Nat.lt_succ_self _))
  have hsorted : l.keys.mergeSort (fun a b => decide (b.1 ≤ a.1)) = l.keys :=
    List.mergeSort_of_pairwise (hholds.sorted.imp fun hlt => by simpa using hlt.le)
  rw [tokens?, if_pos (List.all_eq_true.2 hallowed), hrun, Option.map_some, hsorted, hholds.weave]

end InlineAudit.Yaml
