/-
The text of a value is cut into the tokens of it.

A printed value is its tokens in order, with blanks between some of them, so it is enough to follow
the machine through one token and one blank at a time:

* `Lexer.Cuts` — a text is cut into tokens, and nothing is open after it;
* `Lexer.Reads` — the same, but a word or a number may still be open;
* `Lexer.Reads.close` — what is open is closed by a character that cannot belong to it;
* `Lexer.cuts_quoted` — a string in quotes, whatever its characters;
* `Lexer.reads_number` — a number as it is written;
* `Lexer.Reads.tokens?` — a text has the tokens that are read of it;
* **`tokens?_prettyChars`** — hence a value that is printed over several lines.

Design notes: a value knows its numbers as they are written, and can hold one that is no number at
all, so the statements are about values of which all numbers are well formed (`Json.WellFormed`).
-/
import InlineAudit.Json.Printer
import InlineAudit.Proofs.Json.Tokens

namespace InlineAudit.Json

/-! ### Values with numbers -/

mutual

/-- All numbers in a value are written as numbers. -/
def WellFormed : Json → Prop
  | .null | .bool _ | .string _ => True
  | .number written => Number.isWellFormed written = true
  | .array items => WellFormedItems items
  | .object members => WellFormedMembers members

/-- All numbers in some items are written as numbers. -/
def WellFormedItems : List Json → Prop
  | [] => True
  | j :: rest => j.WellFormed ∧ WellFormedItems rest

/-- All numbers in some members are written as numbers. -/
def WellFormedMembers : List (Option String × Json) → Prop
  | [] => True
  | (_, j) :: rest => j.WellFormed ∧ WellFormedMembers rest

end

namespace Lexer

variable {cs ds : List Char} {ts us : List Token} {c : Char}

/-- Between two tokens, these characters are cut into these tokens, and nothing is left open. -/
def Cuts (cs : List Char) (ts : List Token) : Prop :=
  ∀ before, cs.foldlM step? ⟨before, .between⟩ = some ⟨ts.reverse ++ before, .between⟩

/-- Between two tokens, these characters are cut into these tokens, the last of which may be a word
or a number that has not ended yet. -/
def Reads (cs : List Char) (ts : List Token) : Prop :=
  ∀ before, ∃ l, cs.foldlM step? ⟨before, .between⟩ = some l ∧
    l.flush? = some (ts.reverse ++ before)

/-- No word and no number goes on with this character. -/
def Stops (c : Char) : Prop := isNumberChar c = false ∧ c.isLower = false

theorem Cuts.reads (h : Cuts cs ts) : Reads cs ts :=
  fun before => ⟨_, h before, rfl⟩

theorem Cuts.append (h : Cuts cs ts) (h' : Cuts ds us) : Cuts (cs ++ ds) (ts ++ us) := by
  intro before
  rw [List.foldlM_append, h before, List.reverse_append, List.append_assoc]
  exact h' _

theorem Cuts.append_reads (h : Cuts cs ts) (h' : Reads ds us) : Reads (cs ++ ds) (ts ++ us) := by
  intro before
  rw [List.foldlM_append, h before, List.reverse_append, List.append_assoc]
  exact h' _

/-- A character that cannot belong to an open word or number is read as if nothing were open. -/
theorem step?_of_flush? {l : Lexer} (h : l.flush? = some ts) (hc : Stops c) :
    l.step? c = begin? ts c := by
  obtain ⟨tokens, mode⟩ := l
  cases mode with
  | between =>
    obtain rfl := Option.some.inj h
    rfl
  | word letters => simp only [step?, hc.2, h, Bool.false_eq_true, if_false, Option.bind_some]
  | number written => simp only [step?, hc.1, h, Bool.false_eq_true, if_false, Option.bind_some]
  | string pieces => cases h
  | escape pieces => cases h
  | hex pieces value needed => cases h

/-- What is open is closed by a character that cannot belong to it. -/
theorem Reads.close (h : Reads cs ts) (hc : Stops c) (h' : Cuts (c :: ds) us) :
    Cuts (cs ++ c :: ds) (ts ++ us) := by
  intro before
  obtain ⟨l, hl, hflush⟩ := h before
  have hstep : l.step? c = step? ⟨ts.reverse ++ before, .between⟩ c := step?_of_flush? hflush hc
  have hcut := h' (ts.reverse ++ before)
  rw [List.foldlM_cons] at hcut
  rw [List.foldlM_append, hl, List.reverse_append, List.append_assoc, ← hcut, ← hstep]
  rfl

/-! ### Blanks and punctuation -/

theorem cuts_nil : Cuts [] [] := fun _ => rfl

theorem cuts_blanks (h : ∀ c ∈ cs, isBlank c = true) : Cuts cs [] := by
  intro before
  induction cs with
  | nil => rfl
  | cons c cs ih =>
    obtain ⟨hc, hcs⟩ := List.forall_mem_cons.1 h
    have hstep : step? ⟨before, .between⟩ c = some ⟨before, .between⟩ := by
      simp only [step?, begin?, hc, if_true]
    rw [List.foldlM_cons, hstep]
    exact ih hcs

theorem cuts_newLine (level : Nat) : Cuts (newLine level) [] := by
  refine cuts_blanks fun c hc => ?_
  rcases List.mem_cons.1 hc with rfl | hc
  · rfl
  · rw [List.eq_of_mem_replicate hc]
    rfl

theorem cuts_punctuation {t : Token} (h : punctuation? c = some t) : Cuts [c] [t] := by
  unfold punctuation? at h
  split at h <;> cases h <;> exact fun _ => rfl

/-- A container in brackets. -/
theorem cuts_bracketed {b e : Char} {tb te : Token} (hb : punctuation? b = some tb)
    (he : punctuation? e = some te) (h : Cuts cs ts) :
    Cuts (b :: cs ++ [e]) (tb :: ts ++ [te]) :=
  ((cuts_punctuation hb).append h).append (cuts_punctuation he)

/-! ### Strings -/

/-- What is read for a character of a string: the character itself, or a unit where it is escaped by
its number. -/
def pieceOf (c : Char) : Piece :=
  if c.toNat < 0x20 ∧ c ∉ ['\x08', '\t', '\n', '\x0c', '\r'] then .unit c.toNat else .char c

/-- A unit that is no half of a pair stands for a character. -/
theorem joinPieces_unit {u : Nat} (h : u < 0xD800) (rest : List Piece) :
    joinPieces (.unit u :: rest) = (joinPieces rest).map (Char.ofNat u :: ·) := by
  have hhigh : isHighSurrogate u = false := by
    simp [isHighSurrogate]
    omega
  have hlow : isLowSurrogate u = false := by
    simp [isLowSurrogate]
    omega
  rw [joinPieces.eq_def]
  simp [hhigh, hlow]

theorem joinPieces_map_pieceOf (cs : List Char) : joinPieces (cs.map pieceOf) = some cs := by
  induction cs with
  | nil => rfl
  | cons c cs ih =>
    rw [List.map_cons, pieceOf]
    split
    · rename_i hc
      rw [joinPieces_unit (by omega), ih, Option.map_some, Char.ofNat_toNat]
    · rw [joinPieces, ih, Option.map_some]

theorem digitValue?_lowerDigit {n : Nat} (h : n < 16) : digitValue? (lowerDigit n) = some n := by
  revert n
  decide

/-- A character inside quotes adds its piece. -/
theorem foldlM_step?_escape (before : List Token) (pieces : List Piece) (c : Char) :
    (escape c).foldlM step? ⟨before, .string pieces⟩ =
      some ⟨before, .string (pieceOf c :: pieces)⟩ := by
  unfold escape
  split
  · rfl
  · rfl
  · rfl
  · rfl
  · rfl
  · rfl
  · rfl
  · -- none of the characters with an escape of their own
    rename_i hquote hbackslash hb ht hn hf hr
    have hplain : c ∉ ['\x08', '\t', '\n', '\x0c', '\r'] := by
      simp only [List.mem_cons, List.not_mem_nil, or_false, not_or]
      exact ⟨hb, ht, hn, hf, hr⟩
    split
    · rename_i hlow
      -- the digits of a number below 32 come back as it
      have hhigh := digitValue?_lowerDigit (n := c.toNat / 16) (by omega)
      have hunit := digitValue?_lowerDigit (n := c.toNat % 16) (by omega)
      have hvalue : 16 * (16 * (16 * (16 * 0 + 0) + 0) + c.toNat / 16) + c.toNat % 16 = c.toNat := by
        omega
      have hzero : digitValue? '0' = some 0 := by decide
      have hpiece : pieceOf c = .unit c.toNat := if_pos ⟨hlow, hplain⟩
      rw [hpiece]
      simp [step?, hzero, hhigh, hunit]
      omega
    · rename_i hlow
      have hpiece : pieceOf c = .char c := if_neg fun h => hlow h.1
      have hstep : step? ⟨before, .string pieces⟩ c = some ⟨before, .string (.char c :: pieces)⟩ := by
        simp only [step?, beq_iff_eq]
        rw [if_neg hquote, if_neg hbackslash, if_neg hlow]
      rw [hpiece, List.foldlM_cons, hstep]
      rfl

theorem foldlM_step?_flatMap_escape (before : List Token) (pieces : List Piece) (cs : List Char) :
    (cs.flatMap escape).foldlM step? ⟨before, .string pieces⟩ =
      some ⟨before, .string ((cs.map pieceOf).reverse ++ pieces)⟩ := by
  induction cs generalizing pieces with
  | nil => rfl
  | cons c cs ih =>
    rw [List.flatMap_cons, List.foldlM_append, foldlM_step?_escape, List.map_cons,
      List.reverse_cons, List.append_assoc]
    exact ih _

theorem foldlM_step?_quoted (before : List Token) (cs : List Char) :
    ('"' :: cs.flatMap escape ++ ['"']).foldlM step? ⟨before, .between⟩ =
      some ⟨.scalar (.string (some (String.ofList cs))) :: before, .between⟩ := by
  have hopen : step? ⟨before, .between⟩ '"' = some ⟨before, .string []⟩ := rfl
  have hclose (pieces : List Piece) :
      step? ⟨before, .string pieces⟩ '"' = some (closeString before pieces) := rfl
  have htext : closeString before ((cs.map pieceOf).reverse ++ []) =
      ⟨.scalar (.string (some (String.ofList cs))) :: before, .between⟩ := by
    rw [closeString, List.append_nil, List.reverse_reverse, joinPieces_map_pieceOf,
      Option.map_some]
  simp only [List.cons_append, List.foldlM_cons, hopen, Option.bind_eq_bind, Option.bind_some,
    List.foldlM_append, foldlM_step?_flatMap_escape, hclose, htext, List.foldlM_nil,
    Option.pure_def]

/-- A string in quotes is read as the string, also one that is no text. -/
theorem cuts_quoted (text : Option String) : Cuts (quoted text) [.scalar (.string text)] := by
  intro before
  cases text with
  | none =>
    have hchars : quoted none = ['"', '\\', 'u', 'd', '8', '0', '0', '"'] := by decide
    have hd : digitValue? 'd' = some 13 := by decide
    have height : digitValue? '8' = some 8 := by decide
    have hzero : digitValue? '0' = some 0 := by decide
    have hhalf : joinPieces [.unit 0xD800] = none := by decide
    rw [hchars]
    simp [step?, begin?, isBlank, hd, height, hzero, closeString, hhalf]
  | some s =>
    have hquoted := foldlM_step?_quoted before s.toList
    rw [String.ofList_toList] at hquoted
    exact hquoted

/-! ### Words and numbers -/

theorem reads_null : Reads "null".toList [.scalar .null] := by
  have hchars : "null".toList = ['n', 'u', 'l', 'l'] := by decide
  rw [hchars]
  exact fun before => ⟨⟨before, .word ['l', 'l', 'u', 'n']⟩, rfl, rfl⟩

theorem reads_true : Reads "true".toList [.scalar (.bool true)] := by
  have hchars : "true".toList = ['t', 'r', 'u', 'e'] := by decide
  rw [hchars]
  exact fun before => ⟨⟨before, .word ['e', 'u', 'r', 't']⟩, rfl, rfl⟩

theorem reads_false : Reads "false".toList [.scalar (.bool false)] := by
  have hchars : "false".toList = ['f', 'a', 'l', 's', 'e'] := by decide
  rw [hchars]
  exact fun before => ⟨⟨before, .word ['e', 's', 'l', 'a', 'f']⟩, rfl, rfl⟩

theorem isNumberChar_of_isDigit (h : c.isDigit = true) : isNumberChar c = true := by
  simp [isNumberChar, h]

theorem isNumberChar_of_exponent? {e : Int} (h : Decimal.exponent? cs = some e) :
    ∀ c ∈ cs, isNumberChar c = true := by
  have hdigits : ∀ {ds : List Char}, ds.all Char.isDigit = true → ∀ c ∈ ds, isNumberChar c = true :=
    fun hds c hc => isNumberChar_of_isDigit (List.all_eq_true.1 hds c hc)
  cases cs with
  | nil => exact fun c hc => nomatch hc
  | cons mark ds =>
    simp only [Decimal.exponent?, Option.ite_none_right_eq_some, Bool.and_eq_true] at h
    obtain ⟨⟨⟨hmark, -⟩, hds⟩, -⟩ := h
    refine List.forall_mem_cons.2 ⟨?_, ?_⟩
    · simp only [Bool.or_eq_true, beq_iff_eq] at hmark
      rcases hmark with rfl | rfl <;> rfl
    · -- a sign may stand before the digits
      split at hds
      · exact List.forall_mem_cons.2 ⟨rfl, hdigits hds⟩
      · exact List.forall_mem_cons.2 ⟨rfl, hdigits hds⟩
      · exact hdigits hds

theorem isNumberChar_of_isTail (h : Number.isTail cs = true) :
    ∀ c ∈ cs, isNumberChar c = true := by
  unfold Number.isTail at h
  split at h
  · rename_i cs
    rw [Bool.and_eq_true] at h
    obtain ⟨e, he⟩ := Option.isSome_iff_exists.1 h.2
    refine List.forall_mem_cons.2 ⟨rfl, fun c hc => ?_⟩
    rw [← List.takeWhile_append_dropWhile (p := Char.isDigit) (l := cs), List.mem_append] at hc
    rcases hc with hc | hc
    · exact isNumberChar_of_isDigit (List.all_eq_true.1 List.all_takeWhile c hc)
    · exact isNumberChar_of_exponent? he c hc
  · obtain ⟨e, he⟩ := Option.isSome_iff_exists.1 h
    exact isNumberChar_of_exponent? he

theorem chars_of_unsigned (hwhole : cs.takeWhile Char.isDigit ≠ [])
    (htail : Number.isTail (cs.dropWhile Char.isDigit) = true) :
    (∃ c rest, cs = c :: rest ∧ c.isDigit = true) ∧ ∀ c ∈ cs, isNumberChar c = true := by
  constructor
  · cases cs with
    | nil => exact absurd rfl hwhole
    | cons d rest =>
      refine ⟨d, rest, rfl, ?_⟩
      by_cases hd : d.isDigit = true
      · exact hd
      · exact absurd (List.takeWhile_cons_of_neg hd) hwhole
  · intro c hc
    rw [← List.takeWhile_append_dropWhile (p := Char.isDigit) (l := cs), List.mem_append] at hc
    rcases hc with hc | hc
    · exact isNumberChar_of_isDigit (List.all_eq_true.1 List.all_takeWhile c hc)
    · exact isNumberChar_of_isTail htail c hc

/-- A number begins with a digit or a hyphen, and all its characters can belong to a number. -/
theorem chars_of_isWellFormed (h : Number.isWellFormed cs = true) :
    (∃ c rest, cs = c :: rest ∧ (c = '-' ∨ c.isDigit = true)) ∧
      ∀ c ∈ cs, isNumberChar c = true := by
  have hparts : (Number.unsigned cs).2.takeWhile Char.isDigit ≠ [] ∧
      Number.isTail ((Number.unsigned cs).2.dropWhile Char.isDigit) = true := by
    unfold Number.isWellFormed at h
    dsimp only at h
    split at h
    · cases h
    · cases h
    · rename_i hnil _
      exact ⟨hnil, h⟩
  have hsign : (∃ ds, cs = '-' :: ds ∧ (Number.unsigned cs).2 = ds) ∨ (Number.unsigned cs).2 = cs := by
    unfold Number.unsigned
    split
    · exact .inl ⟨_, rfl, rfl⟩
    · exact .inr rfl
  obtain ⟨⟨c, rest, hfirst, hdigit⟩, hall⟩ := chars_of_unsigned hparts.1 hparts.2
  rcases hsign with ⟨ds, rfl, hds⟩ | hcs
  · rw [hds] at hall
    exact ⟨⟨'-', ds, rfl, .inl rfl⟩, List.forall_mem_cons.2 ⟨rfl, hall⟩⟩
  · rw [hcs] at hfirst hall
    exact ⟨⟨c, rest, hfirst, .inr hdigit⟩, hall⟩

theorem foldlM_step?_number (before : List Token) (seen : List Char)
    (h : ∀ c ∈ cs, isNumberChar c = true) :
    cs.foldlM step? ⟨before, .number seen⟩ = some ⟨before, .number (cs.reverse ++ seen)⟩ := by
  induction cs generalizing seen with
  | nil => rfl
  | cons c cs ih =>
    obtain ⟨hc, hcs⟩ := List.forall_mem_cons.1 h
    have hstep : step? ⟨before, .number seen⟩ c = some ⟨before, .number (c :: seen)⟩ := by
      simp only [step?, hc, if_true]
    rw [List.foldlM_cons, hstep, List.reverse_cons, List.append_assoc]
    exact ih _ hcs

/-- A number is read as it is written. -/
theorem reads_number (h : Number.isWellFormed cs = true) : Reads cs [.scalar (.number cs)] := by
  intro before
  obtain ⟨⟨c, rest, rfl, hfirst⟩, hall⟩ := chars_of_isWellFormed h
  obtain ⟨-, hrest⟩ := List.forall_mem_cons.1 hall
  have hbegin : step? ⟨before, .between⟩ c = some ⟨before, .number [c]⟩ := by
    rcases hfirst with rfl | hdigit
    · rfl
    · have hblank : isBlank c = false := by
        rw [← Bool.not_eq_true]
        simp only [isBlank, Bool.or_eq_true, beq_iff_eq]
        rintro (((rfl | rfl) | rfl) | rfl) <;> exact absurd hdigit (by decide)
      have hquote : c ≠ '"' := by
        rintro rfl
        exact absurd hdigit (by decide)
      simp [step?, begin?, hblank, hquote, hdigit]
  refine ⟨⟨before, .number (rest.reverse ++ [c])⟩, ?_, ?_⟩
  · rw [List.foldlM_cons, hbegin]
    exact foldlM_step?_number before [c] hrest
  · simp [flush?, h]

/-! ### Values -/

theorem stops_newLine : Stops '\n' := ⟨rfl, rfl⟩

theorem stops_comma : Stops ',' := ⟨rfl, rfl⟩

/-- What is read before a comma is closed by it. -/
theorem Reads.comma (h : Reads cs ts) (h' : Reads ds us) :
    Reads (cs ++ ',' :: ds) (ts ++ .comma :: us) := by
  have hcomma : Cuts (cs ++ [',']) (ts ++ [.comma]) := h.close stops_comma (cuts_punctuation rfl)
  rw [List.append_cons cs, List.append_cons ts]
  exact hcomma.append_reads h'

/-- What is read before a new line is closed by it. -/
theorem Reads.newLine (h : Reads cs ts) (level : Nat) : Cuts (cs ++ newLine level) ts := by
  have hline := h.close stops_newLine (cuts_newLine level)
  rwa [List.append_nil] at hline

/-- A key with its colon, and a value after it. -/
theorem reads_member (key : Option String) (blanks : List Char)
    (hblanks : ∀ c ∈ blanks, isBlank c = true) (h : Reads cs ts) :
    Reads (quoted key ++ ':' :: (blanks ++ cs)) (.scalar (.string key) :: .colon :: ts) := by
  have hcolon : Cuts (':' :: blanks) [.colon] :=
    (cuts_punctuation (c := ':') rfl).append (cuts_blanks hblanks)
  have hkey := (cuts_quoted key).append hcolon
  rw [← List.cons_append, ← List.append_assoc]
  exact hkey.append_reads h

/-- A text has the tokens that are read of it, also one that ends in a word or a number. -/
theorem Reads.tokens? (h : Reads cs ts) : tokens? cs = some ts := by
  obtain ⟨l, hl, hflush⟩ := h []
  rw [List.append_nil] at hflush
  rw [Json.tokens?, Lexer.empty, hl, Option.bind_some, hflush, Option.map_some,
    List.reverse_reverse]

end Lexer

open Lexer

mutual

/-- A value over several lines is cut into its tokens. -/
theorem reads_prettyChars (level : Nat) :
    (j : Json) → j.WellFormed → Reads (prettyChars level j) j.tokens
  | .null, _ => reads_null
  | .bool true, _ => reads_true
  | .bool false, _ => reads_false
  | .number _, h => reads_number h
  | .string text, _ => (cuts_quoted text).reads
  | .array [], _ => (cuts_bracketed rfl rfl cuts_nil).reads
  | .array (i :: items), h => by
    have hitems := reads_prettyItems (level + 1) (i :: items) (List.cons_ne_nil _ _) h
    have hall := cuts_bracketed (b := '[') (e := ']') rfl rfl (hitems.newLine level)
    simpa [prettyChars, tokens] using hall.reads
  | .object [], _ => (cuts_bracketed rfl rfl cuts_nil).reads
  | .object (m :: members), h => by
    have hmembers := reads_prettyMembers (level + 1) (m :: members) (List.cons_ne_nil _ _) h
    have hall := cuts_bracketed (b := '\x7b') (e := '\x7d') rfl rfl (hmembers.newLine level)
    simpa [prettyChars, tokens] using hall.reads

theorem reads_prettyItems (level : Nat) :
    (items : List Json) → items ≠ [] → WellFormedItems items →
      Reads (prettyItems level items) (tokensOfItems items)
  | [], hne, _ => absurd rfl hne
  | [j], _, h => (cuts_newLine level).append_reads (reads_prettyChars level j h.1)
  | j :: i :: rest, _, h => by
    have hone := (cuts_newLine level).append_reads (reads_prettyChars level j h.1)
    exact hone.comma (reads_prettyItems level (i :: rest) (List.cons_ne_nil _ _) h.2)

theorem reads_prettyMembers (level : Nat) :
    (members : List (Option String × Json)) → members ≠ [] → WellFormedMembers members →
      Reads (prettyMembers level members) (tokensOfMembers members)
  | [], hne, _ => absurd rfl hne
  | [(k, j)], _, h => by
    have hmember := reads_member k [' '] (List.forall_mem_singleton.2 rfl) (reads_prettyChars level j h.1)
    simpa [prettyMembers, tokensOfMembers] using (cuts_newLine level).append_reads hmember
  | (k, j) :: m :: rest, _, h => by
    have hmember := reads_member k [' '] (List.forall_mem_singleton.2 rfl) (reads_prettyChars level j h.1)
    have hrest := reads_prettyMembers level (m :: rest) (List.cons_ne_nil _ _) h.2
    simpa [prettyMembers, tokensOfMembers] using
      ((cuts_newLine level).append_reads hmember).comma hrest

end

/-- **A value over several lines is cut into its tokens.** -/
theorem tokens?_prettyChars {j : Json} (h : j.WellFormed) :
    tokens? (prettyChars 0 j) = some j.tokens :=
  (reads_prettyChars 0 j h).tokens?

end InlineAudit.Json
