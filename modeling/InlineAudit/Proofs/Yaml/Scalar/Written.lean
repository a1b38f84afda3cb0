/-
What is known of a string from the way in which it is written.

* `plainText_of_styleFor`, `singleQuoted_of_styleFor`, `literal_of_styleFor` — each style has its
  conditions, and they are those under which a reader gives the string back;
* `scalarLine_eq` — a scalar at the end of a line;
* `isAllowed_of_mem_scalarLine` — everything that is written may stand in a text;
* `byteCount_scalarChars_le` — a simple key is short enough to be found.
-/
import InlineAudit.Yaml.Token
import InlineAudit.Proofs.Yaml.Scalar.Block
import InlineAudit.Proofs.Yaml.Scalar.Plain
import InlineAudit.Proofs.Yaml.Scalar.Quoted
import Mathlib.Data.String.Basic

namespace InlineAudit.Yaml

variable {s : String} {cs : List Char}

section Styles

theorem hasPair_eq_false_iff {first second : Char → Bool} :
    hasPair first second cs = false ↔
      cs.IsChain fun a b => ¬ (first a = true ∧ second b = true) := by
  fun_induction hasPair first second cs with
  | case1 a b rest ih =>
    rw [Bool.or_eq_false_iff, ih, List.isChain_cons_cons, ← Bool.not_eq_true, Bool.and_eq_true]
  | case2 cs h =>
    cases cs with
    | nil => simp
    | cons a cs =>
      cases cs with
      | nil => simp
      | cons b cs => exact absurd rfl (h a b cs)

/-- A string with firm spaces is printable, and no space ends a line of it. -/
theorem hasFirmSpaces_iff : hasFirmSpaces cs = true ↔
    (∀ a ∈ cs, isPrintable a = true) ∧
      cs.IsChain fun a b => ¬ (isSpaceChar a = true ∧ isBreak b = true) := by
  rw [hasFirmSpaces, Bool.and_eq_true, List.all_eq_true, Bool.not_eq_true', hasPair_eq_false_iff]

theorem isOpeningMark_eq (c : Char) :
    isOpeningMark c =
      (['#', ',', '[', ']', '{', '}', '&', '*', '!', '|', '>', '\'', '"', '%', '@'].contains c ||
        c.toNat == 96) := by
  have hlist : "#,[]\x7b\x7d&*!|>'\"%@".toList =
      ['#', ',', '[', ']', '{', '}', '&', '*', '!', '|', '>', '\'', '"', '%', '@'] := by
    decide +kernel
  rw [isOpeningMark, hlist]

theorem isIndicator_eq (c : Char) :
    Lexer.isIndicator c = (c == '-' || c == '?' || c == ':' || isOpeningMark c) := by
  have hlist : "-?:,[]\x7b\x7d#&*!|>'\"%@".toList =
      ['-', '?', ':', ',', '[', ']', '{', '}', '#', '&', '*', '!', '|', '>', '\'', '"', '%', '@'] := by
    decide +kernel
  rw [Lexer.isIndicator, hlist, isOpeningMark_eq]
  simp only [List.contains_cons, List.contains_nil, Bool.or_false]
  grind

/-- A colon that is not the first character ends no word, and no comment starts. -/
theorem holdsMark_eq_false (h : holdsMark cs = false) :
    (∀ before a after, cs = before ++ a :: ':' :: after → Cursor.atSpace after = false) ∧
      cs.IsChain fun a b => ¬ (isSpace a = true ∧ b = '#') := by
  fun_induction holdsMark cs with
  | case1 a b rest ih =>
    rw [Bool.or_eq_false_iff, Bool.or_eq_false_iff] at h
    obtain ⟨⟨hcolon, hhash⟩, hrest⟩ := h
    obtain ⟨hcolons, hchain⟩ := ih hrest
    refine ⟨?_, List.isChain_cons_cons.2 ⟨?_, hchain⟩⟩
    · rintro before d after heq
      cases before with
      | nil =>
        simp only [List.nil_append, List.cons.injEq] at heq
        obtain ⟨rfl, rfl, rfl⟩ := heq
        simpa using hcolon
      | cons e before =>
        exact hcolons before d after (List.cons.inj heq).2
    · rintro ⟨ha, rfl⟩
      simp [ha] at hhash
  | case2 cs hshort =>
    cases cs with
    | nil => exact ⟨by simp, by simp⟩
    | cons a cs =>
      cases cs with
      | nil =>
        refine ⟨fun before d after heq => ?_, by simp⟩
        have hlength := congrArg List.length heq
        simp only [List.length_append, List.length_cons, List.length_nil] at hlength
        omega
      | cons b cs => exact absurd rfl (hshort a b cs)

theorem startsLikeMark_cons {c : Char} {rest : List Char} (h : startsLikeMark (c :: rest) = false) :
    isOpeningMark c = false ∧
      (c = '?' ∨ c = ':' ∨ c = '-' → Cursor.atSpace rest = false) := by
  rw [startsLikeMark.eq_def] at h
  split at h
  · cases h
  · cases h
  · rename_i a after _ _ heq
    obtain ⟨rfl, rfl⟩ := List.cons.inj heq
    rw [Bool.or_eq_false_iff] at h
    refine ⟨h.1, ?_⟩
    rintro (rfl | rfl | rfl) <;> simpa using h.2
  · rename_i heq
    cases heq

/-- What a string that fits plain is like. -/
theorem plainText_of_fitsPlain (hne : cs ≠ []) (h : fitsPlain cs = true) :
    PlainText cs ∧ startsLikeMark cs = false := by
  simp only [fitsPlain, Bool.and_eq_true, Bool.not_eq_true', bne_iff_ne, hasFirmSpaces_iff] at h
  obtain ⟨⟨⟨⟨⟨⟨hprintable, -⟩, hbreaks⟩, hfirst⟩, hlast⟩, hstart⟩, hmarks⟩ := h
  obtain ⟨hcolons, hcomments⟩ := holdsMark_eq_false hmarks
  have hspace : ∀ a ∈ cs, isSpace a = isSpaceChar a := fun a ha => by
    rw [List.any_eq_false] at hbreaks
    have hbreak : isBreak a = false := by simpa using hbreaks a ha
    rw [isSpace, hbreak, Bool.or_false, isBlank_of_isPrintable (hprintable a ha)]
  refine ⟨⟨hne, hspace, ?_, ?_, ?_, ?_⟩, hstart⟩
  · rintro before after rfl
    -- a colon at the start looks like a mark, and any other one is followed by a character
    cases hbefore : before.reverse with
    | nil =>
      rw [List.reverse_eq_nil_iff.1 hbefore] at hstart
      exact (startsLikeMark_cons hstart).2 (.inr (.inl rfl))
    | cons a rest =>
      have hsplit : before = rest.reverse ++ [a] := by
        rw [← List.reverse_reverse before, hbefore, List.reverse_cons]
      exact hcolons rest.reverse a after (by simp [hsplit])
  · refine hcomments.imp fun a b hnot hboth => hnot ⟨?_, hboth.2⟩
    rw [isSpaceChar_iff.1 hboth.1]
    rfl
  · intro a ha
    obtain ⟨b, cs, rfl⟩ := List.exists_cons_of_ne_nil hne
    obtain rfl := Option.some.inj ha
    refine ⟨?_, ?_⟩
    · rw [← Bool.not_eq_true, isSpaceChar_iff]
      rintro rfl
      exact hfirst rfl
    · rintro rfl
      exact absurd (startsLikeMark_cons hstart).1 (by rw [isOpeningMark_eq]; decide)
  · intro a ha
    rw [← Bool.not_eq_true, isSpaceChar_iff]
    rintro rfl
    exact hlast ha

/-- What the style of a string says of it. -/
theorem styleFor_spec (s : String) :
    match styleFor s with
    | .plain => isOtherThanText s = false ∧ PlainText s.toList ∧ startsLikeMark s.toList = false
    | .singleQuoted => ∀ k, Spelling true s.toList (singleQuotedBody (k + 1) false s.toList)
    | .doubleQuoted => True
    | .literal => '\n' ∈ s.toList
    | .folded => False := by
  rw [styleFor]
  split_ifs with hfeed hliteral hplain hsingle
  · exact List.contains_iff_mem.1 hfeed
  · trivial
  · rw [Bool.and_eq_true, Bool.not_eq_true'] at hplain
    have hne : s.toList ≠ [] := by
      intro hnil
      rw [String.toList_eq_nil_iff.1 hnil] at hplain
      exact absurd hplain.1 (by decide)
    obtain ⟨htext, hstart⟩ := plainText_of_fitsPlain hne hplain.2
    exact ⟨hplain.1, htext, hstart⟩
  · rw [fitsSingleQuotes, Bool.and_eq_true, hasFirmSpaces_iff, Bool.not_eq_true',
      hasPair_eq_false_iff] at hsingle
    intro k
    refine spelling_singleQuotedBody hsingle.1.1 (fun hmem => hfeed ?_) hsingle.1.2 hsingle.2
    exact List.contains_iff_mem.2 hmem
  · trivial

theorem plainText_of_styleFor (h : styleFor s = .plain) :
    PlainText s.toList ∧ startsLikeMark s.toList = false := by
  have hspec := styleFor_spec s
  rw [h] at hspec
  exact hspec.2

theorem isOtherThanText_of_styleFor (h : styleFor s = .plain) : isOtherThanText s = false := by
  have hspec := styleFor_spec s
  rw [h] at hspec
  exact hspec.1

theorem spelling_of_styleFor (h : styleFor s = .singleQuoted) (k : Nat) :
    Spelling true s.toList (singleQuotedBody (k + 1) false s.toList) := by
  have hspec := styleFor_spec s
  rw [h] at hspec
  exact hspec k

theorem mem_of_styleFor_literal (h : styleFor s = .literal) : '\n' ∈ s.toList := by
  have hspec := styleFor_spec s
  rwa [h] at hspec

/-- A folded block is read, but never written. -/
theorem styleFor_ne_folded (s : String) : styleFor s ≠ .folded := by
  intro h
  have hspec := styleFor_spec s
  rw [h] at hspec
  exact hspec.elim

end Styles

section Lines

theorem getLast?_indented (k : Nat) (atStart : Bool) (cs : List Char) :
    (indented k atStart cs).getLast? = cs.getLast? := by
  induction cs generalizing atStart with
  | nil => rfl
  | cons a cs ih =>
    have hlast (b : Bool) : (a :: indented k b cs).getLast? = (a :: cs).getLast? := by
      rw [List.getLast?_cons, List.getLast?_cons, ih]
    rw [indented]
    split
    · exact hlast true
    · rw [List.getLast?_append_of_ne_nil _ (List.cons_ne_nil _ _), hlast]

/-- A literal block with the line break after it. -/
theorem scalarLine_of_literal (h : styleFor s = .literal) (k : Nat) :
    scalarLine k s = '|' :: (literalSigns s.toList ++
      '\n' :: (indented k true s.toList ++ lineEnd s.toList)) := by
  have hne : s.toList ≠ [] := List.ne_nil_of_mem (mem_of_styleFor_literal h)
  have hindented : indented k true s.toList ≠ [] := by
    intro hnil
    -- the block ends like the string, so that a break at its end is not doubled
    have hlast := getLast?_indented k true s.toList
    rw [hnil, eq_comm, List.getLast?_nil, List.getLast?_eq_none_iff] at hlast
    exact hne hlast
  have hchars : scalarChars k s =
      '|' :: (literalSigns s.toList ++ '\n' :: indented k true s.toList) := by
    rw [scalarChars, h]
    dsimp only
    rw [literalHeader_eq, List.cons_append]
  have hlast : (scalarChars k s).getLast? = s.toList.getLast? := by
    rw [hchars, ← List.cons_append, List.getLast?_append_of_ne_nil _ (List.cons_ne_nil _ _),
      ← List.singleton_append, List.getLast?_append_of_ne_nil _ hindented, getLast?_indented]
  rw [scalarLine, hlast, hchars, lineEnd]
  split <;> simp

/-- Any other scalar ends its line with a line feed of its own. -/
theorem scalarLine_of_ne_literal (h : styleFor s ≠ .literal) (k : Nat) :
    scalarLine k s = scalarChars k s ++ ['\n'] := by
  have hlast : (scalarChars k s).getLast?.any isBreak = false := by
    rw [scalarChars]
    cases hstyle : styleFor s with
    | plain =>
      obtain ⟨htext, -⟩ := plainText_of_styleFor hstyle
      cases hend : s.toList.getLast? with
      | none => rfl
      | some a =>
        have ha := htext.isSpace_eq a (List.mem_of_getLast? hend)
        rw [htext.last a hend] at ha
        exact isBreak_of_isSpace ha
    | singleQuoted =>
      dsimp only
      rw [List.getLast?_concat]
      rfl
    | doubleQuoted =>
      dsimp only
      rw [List.getLast?_concat]
      rfl
    | literal => exact absurd hstyle h
    | folded => exact absurd hstyle (styleFor_ne_folded s)
  rw [scalarLine, hlast]
  rfl

end Lines

section Allowed

theorem isAllowed_of_isPrintable {c : Char} (h : isPrintable c = true) : isAllowed c = true := by
  simp only [isPrintable, isAllowed, Bool.or_eq_true, Bool.and_eq_true, beq_iff_eq,
    decide_eq_true_eq, bne_iff_ne] at h ⊢
  omega

theorem isPrintable_of_styleFor (h : styleFor s ≠ .doubleQuoted) :
    ∀ a ∈ s.toList, isPrintable a = true := by
  revert h
  rw [styleFor]
  split_ifs with hfeed hliteral hplain hsingle <;> intro h
  · rw [fitsLiteral, Bool.and_eq_true, hasFirmSpaces_iff] at hliteral
    exact hliteral.1.1
  · exact absurd rfl h
  · simp only [fitsPlain, Bool.and_eq_true, hasFirmSpaces_iff] at hplain
    exact hplain.2.1.1.1.1.1.1
  · rw [fitsSingleQuotes, Bool.and_eq_true, hasFirmSpaces_iff] at hsingle
    exact hsingle.1.1
  · exact absurd rfl h

theorem isAllowed_upperDigit {n : Nat} (h : n < 16) :
    isAllowed (upperDigit n) = true ∧ (upperDigit n).utf8Size = 1 := by
  have hall : ∀ n : Fin 16, isAllowed (upperDigit n) = true ∧ (upperDigit n).utf8Size = 1 := by
    decide
  exact hall ⟨n, h⟩

theorem hexDigits_spec (width n : Nat) :
    (∀ a ∈ hexDigits width n, isAllowed a = true) ∧ byteCount (hexDigits width n) = width := by
  induction width generalizing n with
  | zero => exact ⟨by simp [hexDigits], rfl⟩
  | succ width ih =>
    have hdigit := isAllowed_upperDigit (n := n % 16) (Nat.mod_lt _ (by decide))
    obtain ⟨hallowed, hcount⟩ := ih (n / 16)
    refine ⟨fun a ha => ?_, ?_⟩
    · rcases List.mem_append.1 ha with ha | ha
      · exact hallowed a ha
      · rw [List.mem_singleton.1 ha]
        exact hdigit.1
    · rw [hexDigits, byteCount_append, hcount, byteCount_cons, hdigit.2]
      rfl

theorem utf8Size_cases (c : Char) :
    1 ≤ c.utf8Size ∧ (0x7F < c.toNat → 2 ≤ c.utf8Size) ∧ (0xFFFF < c.toNat → c.utf8Size = 4) := by
  have hnat (n : UInt32) : c.val ≤ n ↔ c.toNat ≤ n.toNat := UInt32.le_iff_toNat_le
  have h1 := hnat (UInt32.ofNatLT 127 (by decide))
  have h2 := hnat (UInt32.ofNatLT 2047 (by decide))
  have h3 := hnat (UInt32.ofNatLT 65535 (by decide))
  simp only [UInt32.toNat_ofNatLT] at h1 h2 h3
  simp only [Char.utf8Size, h1, h2, h3]
  split_ifs <;> omega

/-- An escape may stand in a text, and is not much longer than its character. -/
theorem escaped_spec (c : Char) :
    (∀ a ∈ escaped c, isAllowed a = true) ∧ byteCount (escaped c) ≤ 4 * c.utf8Size := by
  obtain ⟨hone, htwo, hfour⟩ := utf8Size_cases c
  unfold escaped
  split
  -- the short escapes are done by evaluation, the numeric ones by their digits
  all_goals first
    | exact ⟨List.all_eq_true.1 rfl, by decide⟩
    | skip
  split_ifs with hprintable hbyte hshort
  · refine ⟨by simpa using isAllowed_of_isPrintable hprintable, ?_⟩
    rw [byteCount_cons, byteCount_nil]
    omega
  all_goals
    refine ⟨by simpa using ⟨by decide, by decide, (hexDigits_spec _ _).1⟩, ?_⟩
    rw [byteCount_cons, byteCount_cons, (hexDigits_spec _ _).2]
    simp only [show ('\\').utf8Size = 1 from rfl, show ('x').utf8Size = 1 from rfl,
      show ('u').utf8Size = 1 from rfl, show ('U').utf8Size = 1 from rfl]
    omega

theorem mem_singleQuotedBody {k : Nat} {afterBreak : Bool} {a : Char}
    (h : a ∈ singleQuotedBody k afterBreak cs) : a ∈ cs ∨ a = ' ' ∨ a = '\'' := by
  induction cs generalizing afterBreak with
  | nil =>
    rw [singleQuotedBody] at h
    split at h
    · exact .inr (.inl (mem_spaces h))
    · cases h
  | cons b cs ih =>
    rw [singleQuotedBody] at h
    have hmore {d : Bool} (h : a ∈ singleQuotedBody k d cs) : a ∈ b :: cs ∨ a = ' ' ∨ a = '\'' :=
      (ih h).imp_left (List.mem_cons_of_mem _)
    split at h
    · rcases List.mem_cons.1 h with rfl | h
      · exact .inl (List.mem_cons_self ..)
      · exact hmore h
    · rcases List.mem_append.1 h with h | h
      · rcases List.mem_append.1 h with h | h
        · split at h
          · exact .inr (.inl (mem_spaces h))
          · cases h
        · split at h
          · exact .inr (.inr (by simpa using h))
          · exact .inl (by simp [List.mem_singleton.1 h])
      · exact hmore h

theorem mem_indented {k : Nat} {atStart : Bool} {a : Char} (h : a ∈ indented k atStart cs) :
    a ∈ cs ∨ a = ' ' := by
  induction cs generalizing atStart with
  | nil => cases h
  | cons b cs ih =>
    rw [indented] at h
    have hmore {d : Bool} (h : a ∈ b :: indented k d cs) : a ∈ b :: cs ∨ a = ' ' := by
      rcases List.mem_cons.1 h with rfl | h
      · exact .inl (List.mem_cons_self ..)
      · exact (ih h).imp_left (List.mem_cons_of_mem _)
    split at h
    · exact hmore h
    · rcases List.mem_append.1 h with h | h
      · split at h
        · exact .inr (mem_spaces h)
        · cases h
      · exact hmore h

theorem isAllowed_of_mem_literalSigns : ∀ a ∈ literalSigns cs, isAllowed a = true := by
  rw [literalSigns]
  rcases literalDepth_cases cs with hdepth | hdepth <;> rw [hdepth] <;>
    cases literalChomp cs <;> exact List.all_eq_true.1 rfl

/-- All characters of a scalar may stand in a text. -/
theorem isAllowed_of_mem_scalarChars (s : String) (k : Nat) :
    ∀ a ∈ scalarChars k s, isAllowed a = true := by
  have hprintable (h : styleFor s ≠ .doubleQuoted) : ∀ a ∈ s.toList, isAllowed a = true :=
    fun a ha => isAllowed_of_isPrintable (isPrintable_of_styleFor h a ha)
  have hspace : isAllowed ' ' = true := by decide
  intro a ha
  rw [scalarChars] at ha
  cases hstyle : styleFor s with
  | plain =>
    rw [hstyle] at ha
    exact hprintable (by simp [hstyle]) a ha
  | singleQuoted =>
    rw [hstyle] at ha
    simp only [List.mem_cons, List.mem_append, List.not_mem_nil, or_false] at ha
    rcases ha with (rfl | ha) | rfl
    · decide
    · rcases mem_singleQuotedBody ha with ha | rfl | rfl
      · exact hprintable (by simp [hstyle]) a ha
      · exact hspace
      · decide
    · decide
  | doubleQuoted =>
    rw [hstyle] at ha
    simp only [List.mem_cons, List.mem_append, List.not_mem_nil, or_false] at ha
    rcases ha with (rfl | ha) | rfl
    · decide
    · obtain ⟨b, -, ha⟩ := List.mem_flatMap.1 ha
      exact (escaped_spec b).1 a ha
    · decide
  | literal =>
    rw [hstyle, literalHeader_eq] at ha
    simp only [List.mem_cons, List.mem_append] at ha
    rcases ha with (rfl | ha) | rfl | ha
    · decide
    · exact isAllowed_of_mem_literalSigns a ha
    · decide
    · rcases mem_indented ha with ha | rfl
      · exact hprintable (by simp [hstyle]) a ha
      · exact hspace
  | folded => exact absurd hstyle (styleFor_ne_folded s)

theorem isAllowed_of_mem_scalarLine (s : String) (k : Nat) :
    ∀ a ∈ scalarLine k s, isAllowed a = true := by
  intro a ha
  rw [scalarLine] at ha
  split at ha
  · exact isAllowed_of_mem_scalarChars s k a ha
  · rcases List.mem_append.1 ha with ha | ha
    · exact isAllowed_of_mem_scalarChars s k a ha
    · rw [List.mem_singleton.1 ha]
      decide

end Allowed

section Keys

variable {k : Nat}

theorem byteCount_toList (s : String) : byteCount s.toList = s.utf8ByteSize := by
  have hlength (cs : List Char) : String.utf8Len cs = byteCount cs := by
    induction cs with
    | nil => rfl
    | cons a cs ih => rw [String.utf8Len, byteCount_cons, ih, Nat.add_comm]
  rw [← hlength, ← String.utf8ByteSize_ofList, String.ofList_toList]

theorem byteCount_spelled_le (single : Bool) (cs : List Char) :
    byteCount (cs.flatMap (spelled single)) ≤ 4 * byteCount cs := by
  -- no escape is longer than four times its character
  have hone (a : Char) : byteCount (spelled single a) ≤ 4 * a.utf8Size := by
    cases single with
    | false => exact (escaped_spec a).2
    | true =>
      have hpos := Char.utf8Size_pos a
      rw [spelled, if_pos rfl]
      split
      · simp only [byteCount_cons, byteCount_nil, show ('\'').utf8Size = 1 from rfl]
        omega
      · rw [byteCount_cons, byteCount_nil]
        omega
  induction cs with
  | nil => exact Nat.le_refl _
  | cons a cs ih =>
    have ha := hone a
    rw [List.flatMap_cons, byteCount_append, byteCount_cons]
    omega

/-- A string without line breaks is in quotes on one line. -/
theorem quoted_line (single : Bool) {written : List Char} (hline : ∀ a ∈ cs, isBreak a = false)
    (hwritten : written = cs.flatMap (spelled single)) (hsize : byteCount cs ≤ 128) :
    (∀ a ∈ quoteOf single :: (written ++ [quoteOf single]), isBreak a = false) ∧
      byteCount (quoteOf single :: (written ++ [quoteOf single])) ≤ 1024 := by
  have hquote : isBreak (quoteOf single) = false := by cases single <;> decide
  have hone : (quoteOf single).utf8Size = 1 := by cases single <;> rfl
  have hcount := byteCount_spelled_le single cs
  subst hwritten
  refine ⟨fun a ha => ?_, ?_⟩
  · simp only [List.mem_cons, List.mem_append, List.not_mem_nil, or_false] at ha
    rcases ha with rfl | ha | rfl
    · exact hquote
    · obtain ⟨b, hb, ha⟩ := List.mem_flatMap.1 ha
      exact isBreak_of_mem_spelled (fun _ => hline b hb) ha
    · exact hquote
  · simp only [byteCount_append, byteCount_cons, byteCount_nil, hone]
    omega

/-- A simple key lies on one line, and the colon behind it is found. -/
theorem scalarChars_of_isSimpleKey (h : isSimpleKey s = true) :
    styleFor s ≠ .literal ∧ (∀ a ∈ scalarChars k s, isBreak a = false) ∧
      byteCount (scalarChars k s) ≤ 1024 := by
  rw [isSimpleKey, Bool.and_eq_true, Bool.not_eq_true', List.any_eq_false,
    decide_eq_true_eq, ← byteCount_toList] at h
  obtain ⟨hbreaks, hsize⟩ := h
  have hline : ∀ a ∈ s.toList, isBreak a = false := fun a ha => by simpa using hbreaks a ha
  rw [scalarChars]
  cases hstyle : styleFor s with
  | plain => exact ⟨by simp, hline, by dsimp only; omega⟩
  | singleQuoted =>
    have hbody := singleQuotedBody_append (k := k) hline []
    rw [List.append_nil, singleQuotedBody, if_neg (by decide), List.append_nil] at hbody
    exact ⟨by simp, quoted_line true hline hbody hsize⟩
  | doubleQuoted => exact ⟨by simp, quoted_line false hline rfl hsize⟩
  | literal => exact absurd (hline _ (mem_of_styleFor_literal hstyle)) (by decide)
  | folded => exact absurd hstyle (styleFor_ne_folded s)

end Keys

end InlineAudit.Yaml
