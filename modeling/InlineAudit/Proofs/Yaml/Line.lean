/-
The tokens of a line, for each kind of line that is written.

* `Lexer.leads_indicator` — an item, an explicit key or its value begins;
* `Lexer.leads_scalarLine` — a scalar that ends a line, with the line break;
* `Lexer.yields_key_inline`, `Lexer.yields_key_line` — a simple key with its colon;
* `Lexer.yields_emptyFlow` — brackets with nothing between them.

Design notes: a scalar where a key may begin is remembered as a candidate until its line is over.
The proofs about a scalar therefore end where the next line begins, and those about a simple key
take the colon along.
-/
import InlineAudit.Proofs.Yaml.Scalar.Written
import InlineAudit.Proofs.Yaml.Token

namespace InlineAudit.Yaml

theorem Cursor.documentMark?_eq_none {c : Cursor} {a : Char} {rest : List Char}
    (hc : c.rest = a :: rest) (h : 0 < c.column ∨ a ≠ '-' ∧ a ≠ '.') : c.documentMark? = none := by
  rcases h with h | ⟨hhyphen, hdot⟩
  · exact documentMark?_of_column_pos h
  · rw [documentMark?, hc]
    split
    · split
      · rename_i heq
        exact absurd (List.cons.inj heq).1 hhyphen
      · rename_i heq
        exact absurd (List.cons.inj heq).1 hdot
      · rfl
    · rfl

/-- Three characters make a mark, and a space is none of them. -/
theorem Cursor.documentMark?_of_space {c : Cursor} {a : Char} {rest : List Char}
    (hc : c.rest = a :: ' ' :: rest) (hdot : a ≠ '.') : c.documentMark? = none := by
  rw [documentMark?, hc]
  split
  · split
    · rename_i heq
      exact absurd (List.cons.inj (List.cons.inj heq).2).1 (by decide)
    · rename_i heq
      exact absurd (List.cons.inj heq).1 hdot
    · rfl
  · rfl

section Heads

theorem solid_singleton {a : Char} (h : isSpace a = false ∧ a ≠ '#' ∧ a ≠ byteOrderMark) :
    Solid [a] := by
  rintro b hb
  obtain rfl := Option.some.inj hb
  exact h

/-- What a scalar starts with: not with a blank, a comment or a mark of another kind. -/
theorem scalarChars_head (s : String) (k : Nat) :
    ∃ a rest, scalarChars k s = a :: rest ∧ Solid [a] := by
  rw [scalarChars]
  cases hstyle : styleFor s with
  | plain =>
    obtain ⟨htext, -⟩ := plainText_of_styleFor hstyle
    have hprintable := isPrintable_of_styleFor (s := s) (by simp [hstyle])
    obtain ⟨a, rest, hcs⟩ := List.exists_cons_of_ne_nil htext.ne_nil
    have ha : a ∈ s.toList := hcs ▸ List.mem_cons_self ..
    have hhead := htext.head a (by rw [hcs]; rfl)
    refine ⟨a, rest, hcs, fun b hb => ?_⟩
    obtain rfl := Option.some.inj hb
    refine ⟨(htext.isSpace_eq a ha).trans hhead.1, hhead.2, ?_⟩
    rintro rfl
    exact absurd (hprintable _ ha) (by decide)
  | singleQuoted => exact ⟨'\'', _, rfl, solid_singleton (by decide)⟩
  | doubleQuoted => exact ⟨'"', _, rfl, solid_singleton (by decide)⟩
  | literal =>
    dsimp only
    rw [literalHeader_eq]
    exact ⟨'|', _, rfl, solid_singleton (by decide)⟩
  | folded => exact absurd hstyle (styleFor_ne_folded s)

theorem solid_scalarChars_append (s : String) (k : Nat) (rest : List Char) :
    Solid (scalarChars k s ++ rest) := by
  obtain ⟨a, chars, hchars, hsolid⟩ := scalarChars_head s k
  rw [hchars]
  exact hsolid

theorem solid_scalarLine_append (s : String) (k : Nat) (rest : List Char) :
    Solid (scalarLine k s ++ rest) := by
  rw [scalarLine]
  split
  · exact solid_scalarChars_append s k rest
  · rw [List.append_assoc]
    exact solid_scalarChars_append s k _

/-- A scalar at the end of a line ends with a line break. -/
theorem scalarLine_ends (s : String) (k : Nat) :
    ∃ before b, scalarLine k s = before ++ [b] ∧ isBreak b = true := by
  rw [scalarLine]
  split
  · rename_i h
    obtain ⟨b, hb, hbreak⟩ := (Option.any_eq_true _ _).1 h
    obtain ⟨before, hbefore⟩ := List.getLast?_eq_some_iff.1 hb
    exact ⟨before, b, hbefore, hbreak⟩
  · exact ⟨_, '\n', rfl, rfl⟩

end Heads

namespace Lexer

variable {column : Nat} {rest text : List Char} {ts out : List Token} {blocks : List Nat}
  {keyAllowed : Bool} {m : Lexer}

section Marks

/-- A token in this column begins a block. -/
def opens (column : Nat) (blocks : List Nat) : Bool := blocks.head?.all (· < column)

/-- The blocks around a token in this column that may begin one. -/
def openBlocks (column : Nat) (blocks : List Nat) : List Nat :=
  if opens column blocks then column :: blocks else blocks

/-- The start of the block that begins with such a token. -/
def openTokens (t : Token) (column : Nat) (blocks : List Nat) : List Token :=
  if opens column blocks then [t] else []

theorem opensBlock_eq (h : m.Read ts blocks) (column : Nat) :
    m.opensBlock column = opens column blocks := by
  rw [opensBlock, h.inFlow_eq, h.indent_eq, opens]
  cases blocks with
  | nil =>
    have hout : (-1 : Int) < column := by omega
    rw [indents, decide_eq_true hout]
    rfl
  | cons b blocks => simp [indents]

theorem within_openBlocks (h : Within column blocks) {k : Nat} (hk : column ≤ k) :
    Within k (openBlocks column blocks) := by
  rw [openBlocks]
  split
  · simpa [Within] using hk
  · exact fun b hb => (h b hb).trans hk

/-- A block begins with the next token, or it does not. -/
theorem Read.roll (h : m.Read ts blocks) (t : Token) :
    (m.roll t).Read (ts ++ openTokens t m.cursor.column blocks)
        (openBlocks m.cursor.column blocks) ∧
      (m.roll t).cursor = m.cursor ∧ (m.roll t).candidate = m.candidate := by
  rw [Lexer.roll, opensBlock_eq h, openTokens, openBlocks]
  split
  · refine ⟨⟨h.fits, h.holds.push rfl rfl rfl, ?_, h.around⟩, rfl, rfl⟩
    rw [Lexer.indents, ← h.indents]
    rfl
  · rw [List.append_nil]
    exact ⟨h, rfl, rfl⟩

/-- The characters that begin an item, a key or a value, with the block that may begin with them and
their own token. -/
def indicators : List (Char × Token × Token) :=
  [('-', .blockSequenceStart, .blockEntry), ('?', .blockMappingStart, .key),
    (':', .blockMappingStart, .value)]

theorem item_mem_indicators :
    ('-', Token.blockSequenceStart, Token.blockEntry) ∈ indicators := by decide

theorem key_mem_indicators : ('?', Token.blockMappingStart, Token.key) ∈ indicators := by decide

theorem value_mem_indicators : (':', Token.blockMappingStart, Token.value) ∈ indicators := by decide

theorem dropCandidate?_eq (h : m.candidate = none) : m.dropCandidate? = some m := by
  rw [dropCandidate?, h]
  exact congrArg some (by rw [← h])

theorem dispatch?_indicator {c : Char} {start entry : Token}
    (hc : (c, start, entry) ∈ indicators) (hm : m.At column (c :: ' ' :: rest) ts blocks true) :
    m.dispatch? c (' ' :: rest) =
      some ({ m.roll start with keyAllowed := true }.mark entry 1) := by
  have hspace : Cursor.atSpace (' ' :: rest) = true := rfl
  have hdrop (t : Token) : (m.roll t).dropCandidate? = some (m.roll t) :=
    dropCandidate?_eq (by rw [(hm.toRead.roll t).2.2, hm.candidate_eq])
  have hflow (t : Token) : (m.roll t).inFlow = false := (hm.toRead.roll t).1.inFlow_eq
  simp only [indicators, List.mem_cons, List.not_mem_nil, or_false, Prod.mk.injEq] at hc
  rcases hc with ⟨rfl, rfl, rfl⟩ | ⟨rfl, rfl, rfl⟩ | ⟨rfl, rfl, rfl⟩
  · simp [dispatch?, blockEntry?, hspace, hm.keyAllowed_eq, hdrop]
  · simp [dispatch?, explicitKey?, hspace, hm.keyAllowed_eq, hdrop, hflow]
  · simp [dispatch?, value?, hspace, hm.keyAllowed_eq, hm.candidate_eq, hm.inFlow_eq]

/-- A mark with a space behind it. -/
theorem leads_indicator {c : Char} {start entry : Token} (hc : (c, start, entry) ∈ indicators)
    (hblocks : Within column blocks) (hrest : Solid rest) :
    Leads (At column (c :: ' ' :: rest) ts blocks true)
      (At (column + 2) rest (ts ++ openTokens start column blocks ++ [entry])
        (openBlocks column blocks) true) := by
  intro m hm
  obtain ⟨hroll, hcursor, hcandidate⟩ := hm.toRead.roll start
  rw [hm.column_eq] at hroll
  have hc' : isBreak c = false ∧ c ≠ '%' ∧ c ≠ '.' := by
    simp only [indicators, List.mem_cons, List.not_mem_nil, or_false, Prod.mk.injEq] at hc
    rcases hc with ⟨rfl, -, -⟩ | ⟨rfl, -, -⟩ | ⟨rfl, -, -⟩ <;> decide
  have hnext : m.cursor.advance 1 = m.cursor.past [c] := Cursor.advance_one hm.rest_eq hc'.1
  obtain ⟨l, hl⟩ : ∃ l, { m.roll start with keyAllowed := true }.mark entry 1 = l := ⟨_, rfl⟩
  have hlcursor : l.cursor = m.cursor.past [c] := by
    rw [← hl, ← hnext, ← hcursor]
    rfl
  -- the mark is passed, and its token comes behind that of the block
  have hread : l.Read (ts ++ openTokens start column blocks ++ [entry])
      (openBlocks column blocks) := by
    refine ⟨hlcursor ▸ hm.fits.past, ?_, ?_, ?_⟩
    · rw [← hl]
      exact hroll.holds.push rfl rfl rfl
    · rw [← hl]
      exact hroll.indents
    · rw [← hl]
      exact hroll.around
  have hlrest : l.cursor.rest = ' ' :: rest := by
    rw [hlcursor]
    exact Cursor.rest_past (w := [c]) hm.rest_eq
  have hlcolumn : l.cursor.column = column + 1 := by
    rw [hlcursor, Cursor.column_past (by simpa using hc'.1), hm.column_eq]
    rfl
  obtain ⟨m', hsettle, hafter⟩ := settle?_inline hread hlrest hrest (by
    rw [← hl]
    exact hcandidate.trans hm.candidate_eq)
  have hkey : l.keyAllowed = true := by rw [← hl]; rfl
  rw [hlcolumn, hkey] at hafter
  have hat := hafter.of_within (within_openBlocks hblocks (by omega))
  refine ⟨c, ' ' :: rest, l, m', hm.rest_eq, fun h => hc'.2.1 h.2,
    Cursor.documentMark?_of_space hm.rest_eq hc'.2.2, hl ▸ dispatch?_indicator hc hm, hsettle, ?_,
    hat⟩
  rw [hat.rest_eq, hm.rest_eq, List.length_cons, List.length_cons]
  omega

end Marks

section Scalars

/-- The candidate that a scalar becomes where a key may begin. -/
def saved (m : Lexer) : Option Candidate :=
  if m.keyAllowed then
    some ⟨m.size, m.cursor.index, m.cursor.line, m.cursor.column,
      m.indent == (m.cursor.column : Int)⟩
  else none

/-- The lexer after a scalar. -/
def scalarRead (m : Lexer) (cs : List Char) (style : Style) (written : List Char)
    (keyAllowed : Bool) : Lexer :=
  { m with
    cursor := m.cursor.past written
    tokens := .scalar cs style :: m.tokens
    size := m.size + 1
    candidate := saved m
    keyAllowed }

theorem saveCandidate?_eq (hm : m.At column rest ts blocks keyAllowed) :
    m.saveCandidate? = some { m with candidate := saved m } := by
  rw [saveCandidate?, saved]
  split
  · simp [dropCandidate?_eq hm.candidate_eq, hm.inFlow_eq]
  · exact congrArg some (by rw [← hm.candidate_eq])

/-- A scalar in quotes is read, whatever follows but another quote. -/
theorem dispatch?_quoted {s : String} {k : Nat} {tail : List Char} (single : Bool)
    (hstyle : styleFor s = if single then .singleQuoted else .doubleQuoted)
    (htail : tail.head? ≠ some '\'')
    (hm : m.At column (scalarChars (k + 1) s ++ tail) ts blocks keyAllowed) :
    ∃ a rest, scalarChars (k + 1) s ++ tail = a :: rest ∧
      m.dispatch? a rest =
        some (scalarRead m s.toList (styleFor s) (scalarChars (k + 1) s) false) := by
  obtain ⟨written, hchars, hspelling⟩ : ∃ written,
      scalarChars (k + 1) s = quoteOf single :: (written ++ [quoteOf single]) ∧
        Spelling single s.toList written := by
    rw [scalarChars, hstyle]
    cases single with
    | true => exact ⟨_, rfl, spelling_of_styleFor hstyle k⟩
    | false => exact ⟨_, rfl, spelling_escaped s.toList⟩
  have hrest : m.cursor.rest = quoteOf single :: (written ++ quoteOf single :: tail) := by
    rw [hm.rest_eq, hchars]
    simp
  have hadvance : m.cursor.advance 1 = m.cursor.past [quoteOf single] :=
    Cursor.advance_one hrest (by cases single <;> decide)
  have hcolumn : (m.cursor.past [quoteOf single]).column = m.cursor.column + 1 :=
    Cursor.column_past (isBreak_of_any (by cases single <;> rfl))
  have hread := quoted?_of_spelling hspelling htail
    (Cursor.rest_past (w := [quoteOf single]) hrest) hm.fits.past (by omega)
  rw [Cursor.past_past] at hread
  refine ⟨quoteOf single, written ++ quoteOf single :: tail, by rw [hchars]; simp, ?_⟩
  cases single with
  | true =>
    have hword : m.dispatch? '\'' (written ++ '\'' :: tail) = m.word? fun c =>
      (quoted? true (c.advance 1)).map fun r => (.scalar r.1 .singleQuoted, r.2) := rfl
    simp only [quoteOf, if_true] at hadvance hread hchars ⊢
    rw [hword, word?, saveCandidate?_eq hm]
    simp [hadvance, hread, scalarRead, hstyle, hchars, push]
  | false =>
    have hword : m.dispatch? '"' (written ++ '"' :: tail) = m.word? fun c =>
      (quoted? false (c.advance 1)).map fun r => (.scalar r.1 .doubleQuoted, r.2) := rfl
    simp only [quoteOf, Bool.false_eq_true, if_false] at hadvance hread hchars ⊢
    rw [hword, word?, saveCandidate?_eq hm]
    simp [hadvance, hread, scalarRead, hstyle, hchars, push]

/-- What begins a plain scalar is not taken for anything else. -/
theorem dispatch?_eq_plainScalar? {a : Char} {rest : List Char} (hm : m.inFlow = false)
    (hmark : isOpeningMark a = false) (hspace : isSpace a = false)
    (hindicator : a = '?' ∨ a = ':' ∨ a = '-' → Cursor.atSpace rest = false) :
    m.dispatch? a rest = m.plainScalar? := by
  have hne {b : Char} (hb : isOpeningMark b = true) : a ≠ b := by
    rintro rfl
    rw [hmark] at hb
    cases hb
  have hpipe : (a == '|') = false :=
    beq_eq_false_iff_ne.2 (hne (by rw [isOpeningMark_eq]; decide))
  have hfold : (a == '>') = false :=
    beq_eq_false_iff_ne.2 (hne (by rw [isOpeningMark_eq]; decide))
  have hword {b : Char} (hb : b = '?' ∨ b = ':' ∨ b = '-') :
      (a == b && Cursor.atSpace rest) = false := by
    rw [Bool.and_eq_false_iff, beq_eq_false_iff_ne, or_iff_not_imp_left, not_not]
    rintro rfl
    exact hindicator hb
  -- only the marks that a plain scalar may begin with are left
  have hbegins : beginsPlain false a rest = true := by
    rw [beginsPlain]
    split_ifs with hhyphen hother
    · have hrest := hindicator (.inr (.inr (by simpa using hhyphen)))
      cases rest with
      | nil => exact absurd hrest (by decide)
      | cons b rest => simpa using isBlank_of_isSpace hrest
    · have hrest := hindicator (by
        rw [Bool.or_eq_true, beq_iff_eq, beq_iff_eq] at hother
        exact hother.elim .inl fun h => .inr (.inl h))
      simp [hrest]
    · rw [hspace, isIndicator_eq, hmark]
      simp only [Bool.or_eq_true, not_or, Bool.not_eq_true] at hhyphen hother
      simp [hhyphen, hother.1, hother.2]
  rw [dispatch?]
  · simp only [hm, Bool.false_or, hword (.inl rfl), hword (.inr (.inl rfl)),
      hword (.inr (.inr rfl)), hpipe, hfold, hbegins, Bool.false_and, Bool.false_eq_true, if_false,
      if_true]
  all_goals exact hne (by rw [isOpeningMark_eq]; decide)

/-- A plain scalar is read up to its end. -/
theorem dispatch?_plain {cs tail white : List Char} {gap : Gap} {indent : Int}
    (htext : PlainText cs) (hstart : startsLikeMark cs = false)
    (hm : m.At column (cs ++ tail) ts blocks keyAllowed)
    (hindent : m.indent = indent) (hend : PlainEnd (indent + 1) tail gap white)
    (hcolumn : indent ≤ column) (hmark : m.cursor.documentMark? = none) :
    ∃ a rest, cs ++ tail = a :: rest ∧
      m.dispatch? a rest = some (scalarRead m cs .plain (cs ++ white) gap.broken) := by
  obtain ⟨a, rest, hcs⟩ := List.exists_cons_of_ne_nil htext.ne_nil
  have hplain := plain?_of_plainText hend htext hm.rest_eq hm.fits hmark
    (by rw [hm.column_eq]; exact hcolumn)
  refine ⟨a, rest ++ tail, by rw [hcs]; rfl, ?_⟩
  rw [hcs] at hstart
  obtain ⟨hopening, hindicator⟩ := startsLikeMark_cons hstart
  rw [dispatch?_eq_plainScalar? hm.inFlow_eq hopening]
  · rw [plainScalar?, saveCandidate?_eq hm]
    have hflow := hm.inFlow_eq
    rw [inFlow] at hflow
    simp [inFlow, hflow, hindent, hplain, scalarRead, push]
  · have ha : a ∈ cs := by rw [hcs]; exact List.mem_cons_self ..
    rw [htext.isSpace_eq a ha]
    exact (htext.head a (by rw [hcs]; rfl)).1
  · exact fun h => atSpace_append (hindicator h)

/-- A literal block is read with the indentation of the next line. -/
theorem dispatch?_literal {s : String} {n : Nat}
    (hstyle : styleFor s = .literal) (htext : Begins n text)
    (hm : m.At column (scalarLine (n + 2) s ++ text) ts blocks keyAllowed) (hindent : m.indent = n) :
    ∃ a rest l, scalarLine (n + 2) s ++ text = a :: rest ∧ m.dispatch? a rest = some l ∧
      l.Read (ts ++ [.scalar s.toList (styleFor s)]) blocks ∧
      l.cursor = m.cursor.past (scalarLine (n + 2) s ++ spaces (indentation text)) ∧
      l.candidate = none ∧ l.keyAllowed = true := by
  have hprintable := isPrintable_of_styleFor (s := s) (by simp [hstyle])
  have hne : s.toList ≠ [] := List.ne_nil_of_mem (mem_of_styleFor_literal hstyle)
  have hline := scalarLine_of_literal hstyle (n + 2)
  have hrest : m.cursor.rest = '|' :: (literalSigns s.toList ++
      '\n' :: (indented (n + 2) true s.toList ++ (lineEnd s.toList ++ text))) := by
    rw [hm.rest_eq, hline]
    simp
  have hadvance : m.cursor.advance 1 = m.cursor.past ['|'] :=
    Cursor.advance_one hrest (by decide)
  have hread := block?_literal hne hprintable htext (Cursor.rest_past (w := ['|']) hrest)
    hm.fits.past
  have hdispatch (rest : List Char) : m.dispatch? '|' rest = m.blockScalar? false := by
    simp [dispatch?, hm.inFlow_eq]
  have hscalar : m.blockScalar? false = some { m with
      cursor := m.cursor.past (scalarLine (n + 2) s ++ spaces (indentation text))
      tokens := .scalar s.toList (styleFor s) :: m.tokens
      size := m.size + 1
      keyAllowed := true } := by
    rw [blockScalar?, dropCandidate?_eq hm.candidate_eq]
    simp [hindent, hadvance, hread, hstyle, hline, push]
  exact ⟨'|', _, _, by rw [hline, List.cons_append], (hdispatch _).trans hscalar,
    ⟨hm.fits.past, hm.holds.push rfl rfl rfl, hm.indents, hm.around⟩, rfl, hm.candidate_eq, rfl⟩

/-- The lexer after a scalar that is on one line or in quotes. -/
theorem scalarRead_read {cs written : List Char} {style : Style} {ka : Bool}
    (hm : m.At column rest ts blocks keyAllowed) :
    (scalarRead m cs style written ka).Read (ts ++ [.scalar cs style]) blocks :=
  ⟨hm.fits.past, hm.holds.push rfl rfl rfl, hm.indents, hm.around⟩

theorem saved_place : ∀ k ∈ saved m, k.line = m.cursor.line ∧ k.index = m.cursor.index := by
  intro k hk
  rw [saved] at hk
  split at hk
  · obtain rfl := Option.some.inj hk
    exact ⟨rfl, rfl⟩
  · cases hk

/-- A scalar that stands right of its block does not have to be a key. -/
theorem saved_required (hm : m.At column rest ts blocks keyAllowed)
    (hblocks : ∀ b ∈ blocks.head?, b < column) : ∀ k ∈ saved m, k.required = false := by
  intro k hk
  rw [saved] at hk
  split at hk
  · obtain rfl := Option.some.inj hk
    dsimp only
    rw [hm.indent_eq, beq_eq_false_iff_ne, hm.column_eq]
    cases blocks with
    | nil =>
      rw [indents]
      omega
    | cons b blocks =>
      have hb := hblocks b rfl
      rw [indents]
      omega
  · cases hk

theorem line_lt_line_past {c : Cursor} {cs : List Char} {b : Char} (hb : b ∈ cs)
    (hbreak : isBreak b = true) : c.line < (c.past cs).line := by
  have hpos := List.countP_pos_iff.2 ⟨b, hb, hbreak⟩
  show c.line < c.line + _
  omega

/-- The end of a line is passed after a scalar in quotes. -/
theorem settle?_scalarRead {cs written : List Char} {style : Style} {n : Nat}
    (htext : Begins n text) (hm : m.At column (written ++ '\n' :: text) ts blocks keyAllowed)
    (hblocks : ∀ b ∈ blocks.head?, b < column) (ka : Bool) :
    ∃ m', (scalarRead m cs style written ka).settle? = some m' ∧
      Line text (ts ++ [.scalar cs style]) blocks m' :=
  settle?_line (scalarRead_read hm) (Cursor.rest_past hm.rest_eq) htext fun k hk =>
    ⟨(saved_place k hk).1.trans_le Cursor.line_le_line_past, saved_required hm hblocks k hk⟩

/-- A plain scalar is read with the end of its line. -/
theorem exists_dispatch?_plainLine {cs : List Char} {n : Nat} (hcs : PlainText cs)
    (hstart : startsLikeMark cs = false) (htext : Begins n text) (hn : n < column)
    (hm : m.At column (cs ++ '\n' :: text) ts (n :: blocks) keyAllowed) :
    ∃ a rest l m', cs ++ '\n' :: text = a :: rest ∧ m.dispatch? a rest = some l ∧
      l.settle? = some m' ∧ Line text (ts ++ [.scalar cs .plain]) (n :: blocks) m' := by
  have hindent : m.indent = n := hm.indent_eq
  have hblocks : ∀ b ∈ (n :: blocks).head?, b < column := by simpa using hn
  obtain ⟨a, rest, hrest, hdispatch⟩ := dispatch?_plain hcs hstart hm hindent
    (plainEnd_line htext) (by omega)
    (Cursor.documentMark?_of_column_pos (by rw [hm.column_eq]; omega))
  have hcolumn := Cursor.column_past_break (c := m.cursor) (w := cs)
    (show isBreak '\n' = true from rfl)
    fun a (ha : a ∈ spaces (indentation text)) => isBreak_of_mem_spaces ha
  rw [length_spaces] at hcolumn
  obtain ⟨m', hsettle, hline⟩ := settle?_begun (scalarRead_read hm)
    (Cursor.rest_past (by simp [hm.rest_eq, spaces_indentation_append text])) hcolumn htext rfl
    fun k hk => ⟨(saved_place k hk).1 ▸ line_lt_line_past (b := '\n') (by simp) rfl,
      saved_required hm hblocks k hk⟩
  exact ⟨a, rest, _, m', hrest, hdispatch, hsettle, hline⟩

/-- A scalar is read with the end of its line. -/
theorem exists_dispatch?_scalarLine {s : String} {n : Nat} (htext : Begins n text) (hn : n < column)
    (hm : m.At column (scalarLine (n + 2) s ++ text) ts (n :: blocks) keyAllowed) :
    ∃ a rest l m', scalarLine (n + 2) s ++ text = a :: rest ∧ m.dispatch? a rest = some l ∧
      l.settle? = some m' ∧ Line text (ts ++ [.scalar s.toList (styleFor s)]) (n :: blocks) m' := by
  have hindent : m.indent = n := hm.indent_eq
  have hblocks : ∀ b ∈ (n :: blocks).head?, b < column := by simpa using hn
  -- a block passes the end of its line, all others stop before it
  by_cases hliteral : styleFor s = .literal
  · obtain ⟨a, rest, l, hrest, hdispatch, hread, hcursor, hcandidate, hkey⟩ :=
      dispatch?_literal hliteral htext hm hindent
    obtain ⟨before, b, hends, hb⟩ := scalarLine_ends s (n + 2)
    have hcolumn : (m.cursor.past (scalarLine (n + 2) s ++ spaces (indentation text))).column =
        indentation text := by
      rw [hends, List.append_assoc, List.singleton_append,
        Cursor.column_past_break hb fun a ha => isBreak_of_mem_spaces ha, length_spaces]
    obtain ⟨m', hsettle, hline⟩ := settle?_begun hread
      (by
        rw [hcursor]
        exact Cursor.rest_past (by rw [hm.rest_eq, List.append_assoc, spaces_indentation_append]))
      (hcursor ▸ hcolumn) htext hkey (by simp [hcandidate])
    exact ⟨a, rest, l, m', hrest, hdispatch, hsettle, hline⟩
  · rw [scalarLine_of_ne_literal hliteral, List.append_assoc, List.singleton_append] at hm ⊢
    have hquoted (single : Bool)
        (hstyle : styleFor s = if single then .singleQuoted else .doubleQuoted) :
        ∃ a rest l m', scalarChars (n + 2) s ++ '\n' :: text = a :: rest ∧
          m.dispatch? a rest = some l ∧ l.settle? = some m' ∧
            Line text (ts ++ [.scalar s.toList (styleFor s)]) (n :: blocks) m' := by
      obtain ⟨a, rest, hrest, hdispatch⟩ := dispatch?_quoted single hstyle (by simp) hm
      obtain ⟨m', hsettle, hline⟩ := settle?_scalarRead htext hm hblocks false
      exact ⟨a, rest, _, m', hrest, hdispatch, hsettle, hline⟩
    cases hstyle : styleFor s with
    | plain =>
      have hchars : scalarChars (n + 2) s = s.toList := by rw [scalarChars, hstyle]
      obtain ⟨hplain, hstart⟩ := plainText_of_styleFor hstyle
      rw [hchars] at hm ⊢
      exact exists_dispatch?_plainLine hplain hstart htext hn hm
    | singleQuoted => exact hstyle ▸ hquoted true hstyle
    | doubleQuoted => exact hstyle ▸ hquoted false hstyle
    | literal => exact absurd hstyle hliteral
    | folded => exact absurd hstyle (styleFor_ne_folded s)

theorem leads_line {written : List Char} {out : List Token} (hwritten : written ≠ [])
    (hcolumn : 0 < column)
    (h : ∀ m : Lexer, m.At column (written ++ text) ts blocks keyAllowed →
      ∃ a rest l m', written ++ text = a :: rest ∧ m.dispatch? a rest = some l ∧
        l.settle? = some m' ∧ Line text out blocks m') :
    Leads (At column (written ++ text) ts blocks keyAllowed) (Line text out blocks) := by
  intro m hm
  obtain ⟨a, rest, l, m', hrest, hdispatch, hsettle, hline⟩ := h m hm
  refine ⟨a, rest, l, m', hm.rest_eq.trans hrest, fun h => ?_,
    Cursor.documentMark?_of_column_pos ?_, hdispatch, hsettle, ?_, hline⟩
  · rw [hm.column_eq] at h
    omega
  · rw [hm.column_eq]
    exact hcolumn
  · -- at least one character has been read
    have hlength := congrArg List.length (spaces_indentation_append text)
    have hpos := List.length_pos_iff.2 hwritten
    rw [hline.rest_eq, hm.rest_eq]
    simp only [List.length_append, length_spaces] at hlength ⊢
    omega

/-- A scalar that ends a line leads to the next line. -/
theorem leads_scalarLine {s : String} {n : Nat} (htext : Begins n text) (hn : n < column) :
    Leads (At column (scalarLine (n + 2) s ++ text) ts (n :: blocks) keyAllowed)
      (Line text (ts ++ [.scalar s.toList (styleFor s)]) (n :: blocks)) := by
  obtain ⟨before, b, hends, -⟩ := scalarLine_ends s (n + 2)
  exact leads_line (by simp [hends]) (by omega) fun m hm => exists_dispatch?_scalarLine htext hn hm

/-- A plain scalar that ends a line, even if it would be read as something else than a text. -/
theorem leads_plainLine {cs : List Char} {n : Nat} (hcs : PlainText cs)
    (hstart : startsLikeMark cs = false) (htext : Begins n text) (hn : n < column) :
    Leads (At column (cs ++ '\n' :: text) ts (n :: blocks) keyAllowed)
      (Line text (ts ++ [.scalar cs .plain]) (n :: blocks)) := by
  rw [List.append_cons]
  refine leads_line (by simp) (by omega) fun m hm => ?_
  rw [← List.append_cons] at hm ⊢
  exact exists_dispatch?_plainLine hcs hstart htext hn hm

end Scalars

section Keys

/-- The lexer between a simple key and its colon. -/
def BeforeColon (column : Nat) (s : String) (k : Nat) (rest : List Char) (ts : List Token)
    (blocks : List Nat) (l : Lexer) : Prop :=
  ∃ m : Lexer, m.At column (scalarChars k s ++ ':' :: rest) ts blocks true ∧
    l = scalarRead m s.toList (styleFor s) (scalarChars k s) false

/-- A simple key is read up to its colon, and no colon within it ends it. -/
theorem dispatch?_simpleKey {s : String} {k : Nat} (hkey : isSimpleKey s = true)
    (hrest : Cursor.atSpace rest = true) (hblocks : Within column blocks)
    (hmark : m.cursor.documentMark? = none)
    (hm : m.At column (scalarChars (k + 1) s ++ ':' :: rest) ts blocks true) :
    ∃ a rest', scalarChars (k + 1) s ++ ':' :: rest = a :: rest' ∧
      m.dispatch? a rest' =
        some (scalarRead m s.toList (styleFor s) (scalarChars (k + 1) s) false) := by
  cases hstyle : styleFor s with
  | plain =>
    have hchars : scalarChars (k + 1) s = s.toList := by rw [scalarChars, hstyle]
    obtain ⟨hplain, hstart⟩ := plainText_of_styleFor hstyle
    rw [hchars] at hm ⊢
    have hdispatch := dispatch?_plain hplain hstart hm rfl (plainEnd_colon hrest)
      (hm.indent_le hblocks) hmark
    rw [List.append_nil] at hdispatch
    exact hdispatch
  | singleQuoted => exact hstyle ▸ dispatch?_quoted true hstyle (by simp) hm
  | doubleQuoted => exact hstyle ▸ dispatch?_quoted false hstyle (by simp) hm
  | literal => exact absurd hstyle (scalarChars_of_isSimpleKey (k := k + 1) hkey).1
  | folded => exact absurd hstyle (styleFor_ne_folded s)

/-- The colon is on the line of the key and near enough, so the candidate is kept. -/
theorem settle?_simpleKey {s : String} {k : Nat} (hkey : isSimpleKey s = true)
    (hblocks : Within column blocks)
    (hm : m.At column (scalarChars (k + 1) s ++ ':' :: rest) ts blocks true) :
    (scalarRead m s.toList (styleFor s) (scalarChars (k + 1) s) false).settle? =
      some (scalarRead m s.toList (styleFor s) (scalarChars (k + 1) s) false) := by
  obtain ⟨-, hline, hsize⟩ := scalarChars_of_isSimpleKey (k := k + 1) hkey
  refine settle?_here (scalarRead_read hm) ?_ ?_ fun k hk => ⟨?_, ?_⟩
  · rw [scalarRead, Cursor.rest_past hm.rest_eq]
    exact solid_singleton (by decide)
  · intro b hb
    rw [scalarRead, Cursor.column_past hline, hm.column_eq]
    exact (hblocks b hb).trans (Nat.le_add_right _ _)
  · rw [scalarRead, Cursor.line_past hline]
    exact (saved_place k hk).1
  · rw [scalarRead, Cursor.index_past, (saved_place k hk).2]
    exact Nat.add_le_add_left hsize _

/-- A simple key becomes a candidate. -/
theorem leads_simpleKey {s : String} {k : Nat} (hkey : isSimpleKey s = true)
    (hrest : Cursor.atSpace rest = true) (hblocks : Within column blocks)
    (hfirst : 0 < column ∨ ∀ a ∈ (scalarChars (k + 1) s).head?, a ≠ '-' ∧ a ≠ '.' ∧ a ≠ '%') :
    Leads (At column (scalarChars (k + 1) s ++ ':' :: rest) ts blocks true)
      (BeforeColon column s (k + 1) rest ts blocks) := by
  intro m hm
  obtain ⟨b, chars, hchars, -⟩ := scalarChars_head s (k + 1)
  have hfirst' : 0 < column ∨ b ≠ '-' ∧ b ≠ '.' ∧ b ≠ '%' :=
    hfirst.imp_right fun h => h b (by rw [hchars]; rfl)
  have hrest' : m.cursor.rest = b :: (chars ++ ':' :: rest) := by
    rw [hm.rest_eq, hchars, List.cons_append]
  have hmark : m.cursor.documentMark? = none :=
    Cursor.documentMark?_eq_none hrest'
      (by rw [hm.column_eq]; exact hfirst'.imp_right fun h => ⟨h.1, h.2.1⟩)
  obtain ⟨a, rest', hcons, hdispatch⟩ := dispatch?_simpleKey hkey hrest hblocks hmark hm
  rw [← hm.rest_eq, hrest'] at hcons
  obtain ⟨rfl, rfl⟩ := List.cons.inj hcons
  refine ⟨b, _, _, _, hrest', ?_, hmark, hdispatch, settle?_simpleKey hkey hblocks hm, ?_, m, hm, rfl⟩
  · rintro ⟨hcolumn, hpercent⟩
    rw [hm.column_eq] at hcolumn
    exact (hfirst'.resolve_left (by omega)).2.2 hpercent
  · rw [scalarRead, Cursor.rest_past hm.rest_eq, hrest']
    simp only [List.length_append, List.length_cons]
    omega

/-- The tokens of a key, and the mark of its value. -/
def keyTokens (s : String) : List Token := [.key, .scalar s.toList (styleFor s), .value]

theorem openTokens_append_keyTokens (column : Nat) (blocks : List Nat) (s : String) :
    openTokens .blockMappingStart column blocks ++ keyTokens s =
      keyMarks (opens column blocks) ++ [.scalar s.toList (styleFor s), .value] := by
  rw [keyMarks, openTokens]
  split <;> rfl

/-- The lexer after a simple key with its colon. -/
def keyRead (m : Lexer) (s : String) (written : List Char) (opens : Bool) : Lexer :=
  { if opens then m.indentTo m.cursor.column else m with
    cursor := m.cursor.past written
    tokens := .value :: .scalar s.toList (styleFor s) :: m.tokens
    size := m.size + 2
    keys := (m.size, opens) :: m.keys
    candidate := none
    keyAllowed := false }

/-- The colon makes the candidate a key. -/
theorem value?_scalarRead {s : String} {written : List Char}
    (hm : m.At column (written ++ ':' :: rest) ts blocks true) :
    (scalarRead m s.toList (styleFor s) written false).value? =
      some (keyRead m s (written ++ [':']) (opens column blocks)) := by
  have hadvance : (m.cursor.past written).advance 1 = m.cursor.past (written ++ [':']) := by
    rw [Cursor.advance_one (Cursor.rest_past hm.rest_eq) (by decide), Cursor.past_past]
  have hcandidate : (scalarRead m s.toList (styleFor s) written false).candidate =
      some ⟨m.size, m.cursor.index, m.cursor.line, m.cursor.column,
        m.indent == (m.cursor.column : Int)⟩ := by
    rw [scalarRead, saved, hm.keyAllowed_eq, if_pos rfl]
  have hopens : (scalarRead m s.toList (styleFor s) written false).opensBlock m.cursor.column =
      opens column blocks := by
    rw [hm.column_eq]
    exact opensBlock_eq (scalarRead_read hm) column
  rw [value?, hcandidate]
  dsimp only
  rw [hopens]
  cases opens column blocks <;> simp [keyRead, mark, push, indentTo, scalarRead, hadvance]

theorem keyRead_at {s : String} {written : List Char}
    (hwritten : ∀ a ∈ written, isBreak a = false)
    (hm : m.At column (written ++ ':' :: rest) ts blocks true) :
    (keyRead m s (written ++ [':']) (opens column blocks)).At (column + written.length + 1) rest
      (ts ++ openTokens .blockMappingStart column blocks ++ keyTokens s)
      (openBlocks column blocks) false := by
  have hholds : (keyRead m s (written ++ [':']) (opens column blocks)).Holds
      (ts ++ openTokens .blockMappingStart column blocks ++ keyTokens s) := by
    rw [List.append_assoc, openTokens_append_keyTokens]
    exact hm.holds.pushKey rfl rfl rfl
  refine ⟨⟨hm.fits.past, hholds, ?_, ?_⟩, ?_, Cursor.rest_past (by simp [hm.rest_eq]), rfl, rfl⟩
  · rw [keyRead, openBlocks]
    split
    · rw [Lexer.indents, ← hm.indents, ← hm.column_eq]
      rfl
    · exact hm.indents
  · rw [keyRead]
    dsimp only
    split <;> exact hm.around
  · have hcolumn := Cursor.column_past (c := m.cursor) (w := written ++ [':']) (by
      intro a ha
      rcases List.mem_append.1 ha with ha | ha
      · exact hwritten a ha
      · obtain rfl := List.mem_singleton.1 ha
        rfl)
    rw [keyRead, hcolumn, hm.column_eq, List.length_append]
    rfl

theorem leads_colon {s : String} {k : Nat} {Q : Lexer → Prop} (hrest : Cursor.atSpace rest = true)
    (hline : ∀ a ∈ scalarChars k s, isBreak a = false)
    (hsettle : ∀ d, At (column + (scalarChars k s).length + 1) rest
      (ts ++ openTokens .blockMappingStart column blocks ++ keyTokens s)
      (openBlocks column blocks) false d →
        ∃ m', d.settle? = some m' ∧ m'.cursor.rest.length ≤ rest.length ∧ Q m') :
    Leads (BeforeColon column s k rest ts blocks) Q := by
  rintro l ⟨m, hm, rfl⟩
  have hrest' : (scalarRead m s.toList (styleFor s) (scalarChars k s) false).cursor.rest =
      ':' :: rest := Cursor.rest_past hm.rest_eq
  have hdispatch : (scalarRead m s.toList (styleFor s) (scalarChars k s) false).dispatch? ':' rest =
      (scalarRead m s.toList (styleFor s) (scalarChars k s) false).value? := by
    simp [dispatch?, hrest]
  obtain ⟨m', hm', hlength, hQ⟩ := hsettle _ (keyRead_at hline hm)
  refine ⟨':', rest, _, m', hrest', fun h => absurd h.2 (by decide),
    Cursor.documentMark?_eq_none hrest' (.inr (by decide)),
    hdispatch.trans (value?_scalarRead hm), hm', ?_, hQ⟩
  rw [hrest', List.length_cons]
  omega

/-- A simple key with its colon, and a token behind it. -/
theorem yields_key_inline {s : String} {k : Nat} (hkey : isSimpleKey s = true)
    (hblocks : Within column blocks)
    (hfirst : 0 < column ∨ ∀ a ∈ (scalarChars (k + 1) s).head?, a ≠ '-' ∧ a ≠ '.' ∧ a ≠ '%')
    (hrest : Solid rest)
    (h : Yields (At (column + (scalarChars (k + 1) s).length + 2) rest
      (ts ++ openTokens .blockMappingStart column blocks ++ keyTokens s)
      (openBlocks column blocks) false) out) :
    Yields (At column (scalarChars (k + 1) s ++ ':' :: ' ' :: rest) ts blocks true) out := by
  refine .of_leads (leads_simpleKey hkey rfl hblocks hfirst) (.of_leads (leads_colon rfl
    (scalarChars_of_isSimpleKey hkey).2.1 fun d hd => ?_) h)
  obtain ⟨m', hsettle, hafter⟩ := settle?_inline hd.toRead hd.rest_eq hrest hd.candidate_eq
  rw [hd.column_eq, hd.keyAllowed_eq] at hafter
  have hat := hafter.of_within (within_openBlocks hblocks (by omega))
  refine ⟨m', hsettle, ?_, hat⟩
  rw [hat.rest_eq, List.length_cons]
  exact Nat.le_succ _

/-- A simple key with its colon at the end of a line. -/
theorem yields_key_line {s : String} {k n : Nat} (hkey : isSimpleKey s = true)
    (hblocks : Within column blocks)
    (hfirst : 0 < column ∨ ∀ a ∈ (scalarChars (k + 1) s).head?, a ≠ '-' ∧ a ≠ '.' ∧ a ≠ '%')
    (htext : Begins n text)
    (h : Yields (Line text (ts ++ openTokens .blockMappingStart column blocks ++ keyTokens s)
      (openBlocks column blocks)) out) :
    Yields (At column (scalarChars (k + 1) s ++ ':' :: '\n' :: text) ts blocks true) out := by
  refine .of_leads (leads_simpleKey hkey rfl hblocks hfirst) (.of_leads (leads_colon rfl
    (scalarChars_of_isSimpleKey hkey).2.1 fun d hd => ?_) h)
  obtain ⟨m', hsettle, hline⟩ := settle?_line hd.toRead hd.rest_eq htext (by simp [hd.candidate_eq])
  have hlength := congrArg List.length (spaces_indentation_append text)
  refine ⟨m', hsettle, ?_, hline⟩
  rw [hline.rest_eq, List.length_cons]
  rw [List.length_append] at hlength
  omega

end Keys

section Flow

/-- The pairs of brackets, with the tokens of the opening and the closing one. -/
def brackets : List (Char × Char × Token × Token) :=
  [('[', ']', .flowSequenceStart, .flowSequenceEnd), ('\x7b', '\x7d', .flowMappingStart, .flowMappingEnd)]

theorem sequence_mem_brackets :
    ('[', ']', Token.flowSequenceStart, Token.flowSequenceEnd) ∈ brackets := by decide

theorem mapping_mem_brackets :
    ('\x7b', '\x7d', Token.flowMappingStart, Token.flowMappingEnd) ∈ brackets := by decide

theorem dispatch?_bracket {a b : Char} {start stop : Token} (h : (a, b, start, stop) ∈ brackets)
    (m : Lexer) (rest : List Char) :
    m.dispatch? a rest = m.openFlow? start ∧ m.dispatch? b rest = m.closeFlow? stop := by
  simp only [brackets, List.mem_cons, List.not_mem_nil, or_false, Prod.mk.injEq] at h
  rcases h with ⟨rfl, rfl, rfl, rfl⟩ | ⟨rfl, rfl, rfl, rfl⟩ <;> exact ⟨rfl, rfl⟩

/-- The lexer between two brackets. -/
def bracketOpened (m : Lexer) (a : Char) (start : Token) : Lexer :=
  { m with
    cursor := m.cursor.past [a]
    tokens := start :: m.tokens
    size := m.size + 1
    candidate := none
    around := [saved m]
    keyAllowed := true }

theorem openFlow?_eq {a : Char} (hm : m.At column (a :: rest) ts blocks keyAllowed)
    (ha : isBreak a = false) (start : Token) : m.openFlow? start = some (bracketOpened m a start) := by
  rw [openFlow?, saveCandidate?_eq hm]
  simp [bracketOpened, mark, push, hm.around, Cursor.advance_one hm.rest_eq ha]

/-- The lexer after brackets with nothing between them. -/
def bracketsRead (m : Lexer) (a b : Char) (start stop : Token) : Lexer :=
  { m with
    cursor := m.cursor.past [a, b]
    tokens := stop :: start :: m.tokens
    size := m.size + 2
    candidate := saved m
    keyAllowed := false }

theorem closeFlow?_eq {a b : Char} {start : Token}
    (hm : m.At column (a :: b :: rest) ts blocks keyAllowed) (hb : isBreak b = false) (stop : Token) :
    (bracketOpened m a start).closeFlow? stop = some (bracketsRead m a b start stop) := by
  have hadvance : (m.cursor.past [a]).advance 1 = m.cursor.past [a, b] := by
    rw [Cursor.advance_one (Cursor.rest_past (w := [a]) hm.rest_eq) hb, Cursor.past_past]
    rfl
  rw [closeFlow?, dropCandidate?_eq rfl]
  simp [bracketOpened, bracketsRead, mark, push, hm.around, hadvance]

theorem bracketsRead_read {a b : Char} (hm : m.At column rest ts blocks keyAllowed)
    (start stop : Token) : (bracketsRead m a b start stop).Read (ts ++ [start, stop]) blocks := by
  have hopen : Holds { m with tokens := start :: m.tokens, size := m.size + 1 } (ts ++ [start]) :=
    hm.holds.push rfl rfl rfl
  have hclose : (bracketsRead m a b start stop).Holds (ts ++ [start] ++ [stop]) :=
    hopen.push rfl rfl rfl
  rw [List.append_assoc] at hclose
  exact ⟨hm.fits.past, hclose, hm.indents, hm.around⟩

/-- Behind an opening bracket nothing is done when a token follows. -/
theorem settle?_bracketOpened {a : Char} {start : Token}
    (hm : m.At column (a :: rest) ts blocks keyAllowed) (ha : isBreak a = false)
    (hrest : Solid rest) :
    (bracketOpened m a start).settle? = some (bracketOpened m a start) := by
  have hnext : toNextToken (m.cursor.past [a]).bound (bracketOpened m a start) =
      bracketOpened m a start :=
    toNextToken_spaces (n := 0) (Nat.zero_lt_of_lt hm.fits.past)
      (Cursor.rest_past (w := [a]) hm.rest_eq) hrest
  -- a bracket may begin a key, and the bracket alone is not too long for one
  have hfresh : dropStale? (m.cursor.past [a]) (saved m) = some (saved m) := by
    cases hk : saved m with
    | none => rfl
    | some k =>
      obtain ⟨hline, hindex⟩ := saved_place k hk
      have hline' : (m.cursor.past [a]).line = m.cursor.line :=
        Cursor.line_past (by simpa using ha)
      have hindex' : (m.cursor.past [a]).index ≤ m.cursor.index + 4 := by
        rw [Cursor.index_past]
        exact Nat.add_le_add_left (by simpa [byteCount] using Char.utf8Size_le_four a) _
      rw [dropStale?, if_neg]
      omega
  have hdrop : (bracketOpened m a start).dropAllStale? = some (bracketOpened m a start) := by
    have hnone (c : Cursor) : dropStale? c none = some none := rfl
    simp [dropAllStale?, bracketOpened, hfresh, hnone]
  have hunroll (column : Int) :
      (bracketOpened m a start).unroll column = bracketOpened m a start := rfl
  rw [settle?]
  show (toNextToken (m.cursor.past [a]).bound _).dropAllStale?.bind _ = _
  rw [hnext, hdrop]
  exact congrArg some (hunroll _)

/-- Brackets with nothing between them, at the end of a line. -/
theorem yields_emptyFlow {a b : Char} {start stop : Token} {n : Nat}
    (h : (a, b, start, stop) ∈ brackets) (htext : Begins n text)
    (hblocks : ∀ k ∈ blocks.head?, k < column)
    (hyields : Yields (Line text (ts ++ [start, stop]) blocks) out) :
    Yields (At column (a :: b :: '\n' :: text) ts blocks keyAllowed) out := by
  have hchars : isBreak a = false ∧ isBreak b = false ∧ a ≠ '%' ∧ b ≠ '%' ∧
      (a ≠ '-' ∧ a ≠ '.') ∧ (b ≠ '-' ∧ b ≠ '.') ∧ Solid (b :: '\n' :: text) := by
    simp only [brackets, List.mem_cons, List.not_mem_nil, or_false, Prod.mk.injEq] at h
    rcases h with ⟨rfl, rfl, -, -⟩ | ⟨rfl, rfl, -, -⟩ <;>
      exact ⟨rfl, rfl, by decide, by decide, by decide, by decide, solid_singleton (by decide)⟩
  obtain ⟨ha, hb, ha', hb', hadoc, hbdoc, hsolid⟩ := hchars
  -- between the brackets the lexer is inside them, so this is two steps of its own
  have hopen : Leads (At column (a :: b :: '\n' :: text) ts blocks keyAllowed) fun l =>
      ∃ m : Lexer, m.At column (a :: b :: '\n' :: text) ts blocks keyAllowed ∧
        l = bracketOpened m a start := by
    intro m hm
    refine ⟨a, _, _, _, hm.rest_eq, fun h => ha' h.2,
      Cursor.documentMark?_eq_none hm.rest_eq (.inr hadoc),
      ((dispatch?_bracket h m _).1.trans (openFlow?_eq hm ha start)),
      settle?_bracketOpened hm ha hsolid, ?_, m, hm, rfl⟩
    have hrest : (bracketOpened m a start).cursor.rest = b :: '\n' :: text :=
      Cursor.rest_past (w := [a]) hm.rest_eq
    rw [hrest, hm.rest_eq]
    exact Nat.lt_succ_self _
  refine .of_leads hopen (.of_leads ?_ hyields)
  rintro l ⟨m, hm, rfl⟩
  have hrest : (bracketOpened m a start).cursor.rest = b :: '\n' :: text :=
    Cursor.rest_past (w := [a]) hm.rest_eq
  obtain ⟨m', hsettle, hline⟩ := settle?_line (bracketsRead_read hm start stop)
    (Cursor.rest_past (w := [a, b]) hm.rest_eq) htext fun k hk =>
      ⟨(saved_place k hk).1.trans_le Cursor.line_le_line_past, saved_required hm hblocks k hk⟩
  have hlength := congrArg List.length (spaces_indentation_append text)
  refine ⟨b, _, _, m', hrest, fun h => hb' h.2,
    Cursor.documentMark?_eq_none hrest (.inr hbdoc),
    (dispatch?_bracket h _ _).2.trans (closeFlow?_eq hm hb stop), hsettle, ?_, hline⟩
  rw [hline.rest_eq, hrest, List.length_cons, List.length_cons]
  rw [List.length_append] at hlength
  omega

end Flow

end Lexer

end InlineAudit.Yaml
