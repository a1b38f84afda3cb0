/-
The tokens of what is written in blocks.

* `Yaml.Written` — a pair of a mapping: what is written for it, and the tokens that this is cut into;
* `Yaml.written_list`, `Yaml.written_mapping` — a list or a mapping after its key;
* **`Yaml.tokens?_of_written`** — the tokens of a text that is a mapping.

Design notes: a line that is indented less ends blocks, and this is only seen when the next line
begins.  So the tokens of a pair are those up to the next line, and the statements say what comes of
the run from there.
-/
import InlineAudit.CandidatesFile.Yaml
import InlineAudit.Proofs.Yaml.Event
import InlineAudit.Proofs.Yaml.Line

namespace InlineAudit.Yaml

open Candidates

variable {n : Nat} {text : List Char} {items : List String}

/-- All characters may stand in a text. -/
def Allowed (cs : List Char) : Prop := ∀ a ∈ cs, isAllowed a = true

instance (cs : List Char) : Decidable (Allowed cs) :=
  decidable_of_iff (cs.all isAllowed = true) List.all_eq_true

theorem allowed_append {cs ds : List Char} (h : Allowed cs) (h' : Allowed ds) :
    Allowed (cs ++ ds) :=
  List.forall_mem_append.2 ⟨h, h'⟩

theorem allowed_cons {a : Char} {cs : List Char} (ha : isAllowed a = true) (h : Allowed cs) :
    Allowed (a :: cs) :=
  List.forall_mem_cons.2 ⟨ha, h⟩

theorem allowed_spaces (n : Nat) : Allowed (spaces n) := fun a ha => by
  rw [mem_spaces ha]
  decide

theorem allowed_yamlItems (n : Nat) (items : List String) : Allowed (yamlItems n items) := by
  intro a ha
  obtain ⟨s, -, ha⟩ := List.mem_flatMap.1 ha
  exact allowed_append (allowed_spaces n) (allowed_cons (by decide) (allowed_cons (by decide)
    (isAllowed_of_mem_scalarLine s (n + 2)))) a ha

theorem begins_yamlItems {k : Nat} (hk : k ≤ n) (htext : Begins n text) :
    Begins n (yamlItems k items ++ text) := by
  cases items with
  | nil => exact htext
  | cons s items =>
    rw [yamlItems, List.flatMap_cons, List.append_assoc, List.append_assoc]
    exact begins_spaces_append hk (solid_singleton (by decide))

namespace Lexer

variable {column : Nat} {rest : List Char} {ts out : List Token} {b : Nat} {blocks : List Nat}

/-- A line begins with its indentation, which may end some blocks. -/
theorem yields_line (hrest : Solid rest)
    (h : Yields (At n rest (ts ++ endsAt n blocks) (blocksAt n blocks) true) out) :
    Yields (Line (spaces n ++ rest) ts blocks) out := by
  have hspace := fun a (ha : a ∈ rest.head?) => hrest.isSpaceChar_eq_false ha
  rw [Line, After, indentation_spaces_append hspace, unindented_spaces_append hspace]
  exact h

/-- A line of the innermost block. -/
theorem yields_line_within (hrest : Solid rest) (hblocks : Within n blocks)
    (h : Yields (At n rest ts blocks true) out) :
    Yields (Line (spaces n ++ rest) ts blocks) out := by
  refine yields_line hrest ?_
  rw [hblocks.blocksAt_eq.1, hblocks.blocksAt_eq.2, List.append_nil]
  exact h

/-- A line that is indented less ends the innermost block. -/
theorem yields_line_close (htext : Begins n text) (hb : n < b)
    (h : Yields (Line text (ts ++ [.blockEnd]) blocks) out) :
    Yields (Line text ts (b :: blocks)) out := by
  have hlt : indentation text < b := htext.shallow.trans_lt hb
  have hends : endsAt (indentation text) (b :: blocks) =
      .blockEnd :: endsAt (indentation text) blocks := by
    rw [endsAt, List.takeWhile_cons_of_pos (by simpa using hlt), List.length_cons,
      List.replicate_succ, endsAt]
  have hblocks : blocksAt (indentation text) (b :: blocks) = blocksAt (indentation text) blocks := by
    rw [blocksAt, List.dropWhile_cons_of_pos (by simpa using hlt), blocksAt]
  rw [Line, After, List.append_assoc] at h
  rw [Line, After, hends, hblocks]
  exact h

theorem openBlocks_self : openBlocks n (n :: blocks) = n :: blocks := by
  rw [openBlocks, if_neg (by simp [opens])]

theorem openTokens_self (t : Token) : openTokens t n (n :: blocks) = [] := by
  rw [openTokens, if_neg (by simp [opens])]

theorem within_self : Within n (n :: blocks) := by
  simp [Within]

/-- A mark with a space behind it, in a block that has begun. -/
theorem yields_indicator {c : Char} {start entry : Token} (hc : (c, start, entry) ∈ indicators)
    (hrest : Solid rest) (h : Yields (At (n + 2) rest (ts ++ [entry]) (n :: blocks) true) out) :
    Yields (At n (c :: ' ' :: rest) ts (n :: blocks) true) out := by
  refine .of_leads (leads_indicator hc within_self hrest) ?_
  rw [openTokens_self, openBlocks_self, List.append_nil]
  exact h

/-- The items of a list in a block that is indented like them. -/
theorem yields_items (htext : Begins n text)
    (h : Yields (Line text (ts ++ itemTokens items) (n :: blocks)) out) :
    Yields (Line (yamlItems n items ++ text) ts (n :: blocks)) out := by
  -- each item is a mark and a scalar that ends its line
  induction items generalizing ts with
  | nil =>
    rw [itemTokens, List.flatMap_nil, List.append_nil] at h
    exact h
  | cons s items ih =>
    have hnext : Begins n (yamlItems n items ++ text) := begins_yamlItems le_rfl htext
    have hline : yamlItems n (s :: items) ++ text =
        spaces n ++ '-' :: ' ' :: (scalarLine (n + 2) s ++ (yamlItems n items ++ text)) := by
      simp [yamlItems]
    rw [hline]
    refine yields_line_within (solid_singleton (a := '-') (by decide)) within_self ?_
    refine yields_indicator item_mem_indicators (solid_scalarLine_append s _ _) ?_
    refine .of_leads (leads_scalarLine hnext (Nat.lt_add_of_pos_right (by decide))) (ih ?_)
    rw [List.append_assoc, List.append_assoc]
    exact h

theorem exists_openBlocks (h : Within n blocks) : ∃ outer, openBlocks n blocks = n :: outer := by
  rw [openBlocks]
  split
  · exact ⟨blocks, rfl⟩
  · rename_i hopens
    cases blocks with
    | nil => exact absurd rfl hopens
    | cons b blocks =>
      have hb : b ≤ n := h b rfl
      have hge : ¬ b < n := by simpa [opens] using hopens
      exact ⟨blocks, by rw [Nat.le_antisymm hb (Nat.not_lt.1 hge)]⟩

end Lexer

open Lexer

/-- A pair of a mapping that is indented by `n`: the text that is written for it behind that
indentation, and the tokens that this is cut into. -/
structure Written (n : Nat) (chars : List Char) (tokens : List Token) : Prop where
  allowed : Allowed chars
  solid : ∀ text, Solid (chars ++ text)
  yields : ∀ {text ts blocks out}, Begins n text → Within n blocks →
    Yields (Line text (ts ++ openTokens .blockMappingStart n blocks ++ tokens)
      (openBlocks n blocks)) out →
    Yields (At n (chars ++ text) ts blocks true) out

section Pairs

variable {name : String} {value lines : List Char} {tokens : List Token}

/-- A pair with a simple key whose value begins on the same line. -/
theorem written_inline (hkey : isSimpleKey name = true)
    (hfirst : 0 < n ∨ ∀ a ∈ (scalarChars (n + 2) name).head?, a ≠ '-' ∧ a ≠ '.' ∧ a ≠ '%')
    (hallowed : Allowed value) (hsolid : ∀ text, Solid (value ++ text))
    (h : ∀ {column text ts outer out}, n < column → Begins n text →
      Yields (Line text (ts ++ tokens) (n :: outer)) out →
        Yields (At column (value ++ text) ts (n :: outer) false) out) :
    Written n (scalarChars (n + 2) name ++ ':' :: ' ' :: value) (pairTokens name tokens) where
  allowed := allowed_append (isAllowed_of_mem_scalarChars name _)
    (allowed_cons (by decide) (allowed_cons (by decide) hallowed))
  solid := fun text => by
    rw [List.append_assoc]
    exact solid_scalarChars_append name _ _
  yields := fun {text ts blocks out} htext hblocks hyields => by
    obtain ⟨outer, houter⟩ := exists_openBlocks hblocks
    rw [List.append_assoc, List.cons_append, List.cons_append]
    refine yields_key_inline hkey hblocks hfirst (hsolid text) ?_
    rw [houter] at hyields ⊢
    refine h (by omega) htext ?_
    rw [List.append_assoc]
    exact hyields

/-- A pair with a simple key whose value begins on the next line. -/
theorem written_line {k : Nat} (hkey : isSimpleKey name = true)
    (hfirst : 0 < n ∨ ∀ a ∈ (scalarChars (n + 2) name).head?, a ≠ '-' ∧ a ≠ '.' ∧ a ≠ '%')
    (hallowed : Allowed lines) (hbegins : ∀ text, Begins n text → Begins k (lines ++ text))
    (h : ∀ {text ts outer out}, Begins n text →
      Yields (Line text (ts ++ tokens) (n :: outer)) out →
        Yields (Line (lines ++ text) ts (n :: outer)) out) :
    Written n (scalarChars (n + 2) name ++ ':' :: '\n' :: lines) (pairTokens name tokens) where
  allowed := allowed_append (isAllowed_of_mem_scalarChars name _)
    (allowed_cons (by decide) (allowed_cons (by decide) hallowed))
  solid := fun text => by
    rw [List.append_assoc]
    exact solid_scalarChars_append name _ _
  yields := fun {text ts blocks out} htext hblocks hyields => by
    obtain ⟨outer, houter⟩ := exists_openBlocks hblocks
    rw [List.append_assoc, List.cons_append, List.cons_append]
    refine yields_key_line hkey hblocks hfirst (hbegins text htext) ?_
    rw [houter] at hyields ⊢
    refine h htext ?_
    rw [List.append_assoc]
    exact hyields

/-- A text as a value. -/
theorem written_text (hn : 0 < n) (hkey : isSimpleKey name = true) (s : String) :
    Written n (scalarChars (n + 2) name ++ ':' :: ' ' :: scalarLine (n + 2) s)
      (pairTokens name [scalarToken s]) :=
  written_inline hkey (.inl hn) (isAllowed_of_mem_scalarLine s _) (solid_scalarLine_append s _)
    fun hcolumn htext h => .of_leads (leads_scalarLine htext hcolumn) h

/-- A plain scalar as a value. -/
theorem written_plain (hn : 0 < n) (hkey : isSimpleKey name = true) {cs : List Char}
    (hcs : PlainText cs) (hstart : startsLikeMark cs = false) (hallowed : Allowed cs)
    (hsolid : ∀ text, Solid (cs ++ text)) :
    Written n (scalarChars (n + 2) name ++ ':' :: ' ' :: (cs ++ ['\n']))
      (pairTokens name [.scalar cs .plain]) := by
  refine written_inline hkey (.inl hn) (allowed_append hallowed (by decide)) (fun text => ?_)
    fun {column text ts outer out} hcolumn htext h => ?_
  · rw [List.append_assoc]
    exact hsolid _
  · rw [List.append_assoc]
    exact .of_leads (leads_plainLine hcs hstart htext hcolumn) h

/-- Brackets with nothing between them as a value. -/
theorem written_brackets {a b : Char} {start stop : Token}
    (hbrackets : (a, b, start, stop) ∈ brackets) (hkey : isSimpleKey name = true)
    (hfirst : 0 < n ∨ ∀ a ∈ (scalarChars (n + 2) name).head?, a ≠ '-' ∧ a ≠ '.' ∧ a ≠ '%') :
    Written n (scalarChars (n + 2) name ++ ':' :: ' ' :: [a, b, '\n'])
      (pairTokens name [start, stop]) := by
  have hchars : Allowed [a, b, '\n'] ∧ ∀ text, Solid ([a, b, '\n'] ++ text) := by
    simp only [brackets, List.mem_cons, List.not_mem_nil, or_false, Prod.mk.injEq] at hbrackets
    rcases hbrackets with ⟨rfl, rfl, -⟩ | ⟨rfl, rfl, -⟩ <;>
      exact ⟨by decide, fun text => solid_singleton (by decide)⟩
  exact written_inline hkey hfirst hchars.1 hchars.2 fun hcolumn htext h =>
    yields_emptyFlow hbrackets htext (by simpa using hcolumn) h

/-- A list as a value, its items indented like the key. -/
theorem written_list (hn : 0 < n) (hkey : isSimpleKey name = true) (items : List String) :
    Written n (scalarChars (n + 2) name ++ ':' :: yamlList n items)
      (pairTokens name (listTokens items)) := by
  rw [yamlList, listTokens]
  split
  · exact written_brackets sequence_mem_brackets hkey (.inl hn)
  · exact written_line hkey (.inl hn) (allowed_yamlItems n items)
      (fun text => begins_yamlItems le_rfl) yields_items

/-- What is written for a list behind a key with a mark of its own. -/
def markedList (n : Nat) : List String → List Char
  | [] => ": []\n".toList
  | first :: rest => ": - ".toList ++ scalarLine (n + 4) first ++ yamlItems (n + 2) rest

/-- The mark of the value, and a list behind it. -/
theorem yields_markedList {text : List Char} {ts out : List Token} {outer : List Nat}
    (htext : Begins n text)
    (h : Yields (Line text (ts ++ .value :: sequenceTokens items) (n :: outer)) out) :
    Yields (At n (markedList n items ++ text) ts (n :: outer) true) out := by
  have hlt : n < n + 2 := Nat.lt_add_of_pos_right (by decide)
  cases items with
  | nil =>
    refine yields_indicator value_mem_indicators (solid_singleton (by decide)) ?_
    refine yields_emptyFlow sequence_mem_brackets htext (by simp) ?_
    rw [List.append_assoc]
    exact h
  | cons first rest =>
    have hopens : opens (n + 2) (n :: outer) = true := by simp [opens]
    have hchars : markedList n (first :: rest) ++ text =
        ':' :: ' ' :: '-' :: ' ' :: (scalarLine (n + 2 + 2) first ++ (yamlItems (n + 2) rest ++ text)) := by
      simp [markedList]
    rw [hchars]
    refine yields_indicator value_mem_indicators (solid_singleton (by decide)) ?_
    -- the first item begins a block of its own, to the right of the value
    refine .of_leads (leads_indicator item_mem_indicators (by simp [Within])
      (solid_scalarLine_append first _ _)) ?_
    rw [openTokens, openBlocks, if_pos hopens, if_pos hopens]
    refine .of_leads (leads_scalarLine (begins_yamlItems le_rfl (htext.mono hlt.le))
      (Nat.lt_add_of_pos_right (by decide))) ?_
    refine yields_items (htext.mono hlt.le) (yields_line_close htext hlt ?_)
    simpa [sequenceTokens, itemTokens, scalarToken] using h

/-- A list behind a key with a mark of its own. -/
theorem written_markedList (name : String) (items : List String) :
    Written n ('?' :: ' ' :: scalarLine (n + 2) name ++ (spaces n ++ markedList n items))
      (pairTokens name (sequenceTokens items)) where
  allowed := by
    have hvalue : Allowed (markedList n items) := by
      cases items with
      | nil =>
        show Allowed ": []\n".toList
        decide
      | cons first rest =>
        exact allowed_append (allowed_append (by decide) (isAllowed_of_mem_scalarLine first _))
          (allowed_yamlItems _ rest)
    exact allowed_append (allowed_cons (by decide) (allowed_cons (by decide)
      (isAllowed_of_mem_scalarLine name _))) (allowed_append (allowed_spaces n) hvalue)
  solid := fun text => solid_singleton (by decide)
  yields := fun {text ts blocks out} htext hblocks hyields => by
    obtain ⟨outer, houter⟩ := exists_openBlocks hblocks
    have hvalue : Solid (markedList n items ++ text) := by
      cases items <;> exact solid_singleton (by decide)
    rw [List.append_assoc, List.cons_append, List.cons_append, List.append_assoc]
    refine .of_leads (leads_indicator key_mem_indicators hblocks
      (solid_scalarLine_append name _ _)) ?_
    rw [houter] at hyields ⊢
    refine .of_leads (leads_scalarLine (begins_spaces_append le_rfl hvalue)
      (Nat.lt_add_of_pos_right (by decide))) ?_
    refine yields_line_within hvalue within_self (yields_markedList htext ?_)
    rw [List.append_assoc, List.append_assoc]
    exact hyields

end Pairs

section Mappings

variable {pairs : List (List Char × List Token)}

/-- The pairs of a mapping, each on lines of its own. -/
def pairLines (n : Nat) (pairs : List (List Char × List Token)) : List Char :=
  pairs.flatMap fun p => spaces n ++ p.1

theorem allowed_pairLines (hpairs : ∀ p ∈ pairs, Written n p.1 p.2) :
    Allowed (pairLines n pairs) := by
  intro a ha
  obtain ⟨p, hp, ha⟩ := List.mem_flatMap.1 ha
  exact allowed_append (allowed_spaces n) (hpairs p hp).allowed a ha

theorem begins_pairLines {k : Nat} (hk : n ≤ k) (hpairs : ∀ p ∈ pairs, Written n p.1 p.2)
    {text : List Char} (htext : Begins k text) : Begins k (pairLines n pairs ++ text) := by
  cases pairs with
  | nil => exact htext
  | cons p pairs =>
    rw [pairLines, List.flatMap_cons, List.append_assoc, List.append_assoc]
    exact begins_spaces_append hk ((hpairs p (List.mem_cons_self ..)).solid _)

/-- The pairs of a mapping that has begun. -/
theorem yields_pairs (hpairs : ∀ p ∈ pairs, Written n p.1 p.2) {text : List Char}
    (htext : Begins n text) {ts out : List Token} {outer : List Nat}
    (h : Yields (Line text (ts ++ pairs.flatMap Prod.snd) (n :: outer)) out) :
    Yields (Line (pairLines n pairs ++ text) ts (n :: outer)) out := by
  -- the block is open already, so no pair begins one
  induction pairs generalizing ts with
  | nil =>
    rw [List.flatMap_nil, List.append_nil] at h
    exact h
  | cons p pairs ih =>
    obtain ⟨hp, hrest⟩ := List.forall_mem_cons.1 hpairs
    rw [pairLines, List.flatMap_cons, List.append_assoc, List.append_assoc]
    refine yields_line_within (hp.solid _) within_self
      (hp.yields (begins_pairLines le_rfl hrest htext) within_self ?_)
    rw [openTokens_self, openBlocks_self, List.append_nil]
    refine ih hrest ?_
    rw [List.append_assoc, ← List.flatMap_cons]
    exact h

/-- The pairs of a mapping that begins with the first of them. -/
theorem yields_pairs_open (hpairs : ∀ p ∈ pairs, Written n p.1 p.2) (hne : pairs ≠ [])
    {text : List Char} (htext : Begins n text) {ts out : List Token} {blocks : List Nat}
    (hblocks : opens n blocks = true)
    (h : Yields (Line text (ts ++ .blockMappingStart :: pairs.flatMap Prod.snd) (n :: blocks)) out) :
    Yields (Line (pairLines n pairs ++ text) ts blocks) out := by
  have hwithin : Within n blocks := fun b hb => by
    have hlt := (Option.all_eq_true _ _).1 hblocks b hb
    exact (of_decide_eq_true hlt).le
  obtain ⟨p, pairs, rfl⟩ := List.exists_cons_of_ne_nil hne
  obtain ⟨hp, hrest⟩ := List.forall_mem_cons.1 hpairs
  rw [pairLines, List.flatMap_cons, List.append_assoc, List.append_assoc]
  refine yields_line_within (hp.solid _) hwithin
    (hp.yields (begins_pairLines le_rfl hrest htext) hwithin ?_)
  rw [openTokens, openBlocks, if_pos hblocks, if_pos hblocks]
  refine yields_pairs hrest htext ?_
  simpa using h

/-- A mapping as a value, its pairs indented more than the key. -/
theorem written_mapping {k : Nat} {name : String} (hkey : isSimpleKey name = true)
    (hfirst : 0 < n ∨ ∀ a ∈ (scalarChars (n + 2) name).head?, a ≠ '-' ∧ a ≠ '.' ∧ a ≠ '%')
    (hk : n < k) (hpairs : ∀ p ∈ pairs, Written k p.1 p.2) (hne : pairs ≠ []) :
    Written n (scalarChars (n + 2) name ++ ':' :: '\n' :: pairLines k pairs)
      (pairTokens name (mappingTokens (pairs.flatMap Prod.snd))) := by
  refine written_line hkey hfirst (allowed_pairLines hpairs) (fun text htext => begins_pairLines le_rfl hpairs
    (htext.mono hk.le)) fun {text ts outer out} htext h => ?_
  refine yields_pairs_open hpairs hne (htext.mono hk.le) (by simpa [opens] using hk)
    (yields_line_close htext hk ?_)
  rw [List.append_assoc]
  exact h

/-- **The tokens of a text that is a mapping.** -/
theorem tokens?_pairLines (hpairs : ∀ p ∈ pairs, Written 0 p.1 p.2) (hne : pairs ≠ []) :
    tokens? (pairLines 0 pairs) = some (mappingTokens (pairs.flatMap Prod.snd)) := by
  have hend : Begins 0 [] := ⟨Nat.le_refl 0, by simp [Solid, unindented]⟩
  have hbegins := begins_pairLines le_rfl hpairs hend
  have hout : Yields (Line [] (.blockMappingStart :: pairs.flatMap Prod.snd) [0])
      (mappingTokens (pairs.flatMap Prod.snd)) :=
    .mono (fun l hl => hl.of_within within_self) yields_end
  have hyields : Yields (Line (pairLines 0 pairs ++ []) [] []) _ :=
    yields_pairs_open hpairs hne hend rfl hout
  rw [List.append_nil] at hbegins hyields
  -- the first line is not indented, so the run starts at its first token
  have hflush : indentation (pairLines 0 pairs) = 0 := Nat.le_zero.1 hbegins.shallow
  have hself := spaces_indentation_append (pairLines 0 pairs)
  rw [hflush, show spaces 0 = [] from rfl, List.nil_append] at hself
  have hsolid := hbegins.solid
  rw [hself] at hsolid
  rw [Line, hflush, hself] at hyields
  exact tokens?_of_yields (allowed_pairLines hpairs) hsolid hyields

end Mappings

end InlineAudit.Yaml
