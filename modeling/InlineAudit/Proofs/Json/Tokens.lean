/-
A value keeps every token of its text.

The two machines that read a text are left folds which drop blanks and nothing else.  The tokens
that a value stands for are written down here by recursion on the value, and a text that is read as
a value turns out to have exactly these:

* `Json.Reader.read_step?` — one token is added to what the machine has read;
* **`Json.tokens_of_parse?`** — the tokens of a text are those of its value.

Members that repeat a key are thus all there, in the order of the text.

Design notes: what is open is written down from the outside in, each part of it with the comma that
has been read after it, so that the last part never needs a case of its own before its container
ends.
-/
import InlineAudit.Json.Reader
import Mathlib.Tactic.SplitIfs

namespace InlineAudit.Json

/-! ### The tokens of a value -/

mutual

/-- The tokens that a value stands for. -/
def tokens : Json → List Token
  | .array items => .beginArray :: tokensOfItems items ++ [.endArray]
  | .object members => .beginObject :: tokensOfMembers members ++ [.endObject]
  | .null => [.scalar .null]
  | .bool b => [.scalar (.bool b)]
  | .number written => [.scalar (.number written)]
  | .string text => [.scalar (.string text)]

/-- Items with a comma between them. -/
def tokensOfItems : List Json → List Token
  | [] => []
  | [j] => tokens j
  | j :: rest => tokens j ++ .comma :: tokensOfItems rest

/-- Members with a comma between them. -/
def tokensOfMembers : List (Option String × Json) → List Token
  | [] => []
  | [(k, j)] => .scalar (.string k) :: .colon :: tokens j
  | (k, j) :: rest =>
    .scalar (.string k) :: .colon :: tokens j ++ .comma :: tokensOfMembers rest

end

/-- Items with a comma after each. -/
def tokensBeforeItem (items : List Json) : List Token :=
  items.flatMap fun j => j.tokens ++ [.comma]

/-- The tokens of a key with its colon. -/
def tokensOfKey (key : Option String) : List Token := [.scalar (.string key), .colon]

/-- Members with a comma after each. -/
def tokensBeforeMember (members : List (Option String × Json)) : List Token :=
  members.flatMap fun m => tokensOfKey m.1 ++ m.2.tokens ++ [.comma]

theorem tokensOfItems_concat (items : List Json) (j : Json) :
    tokensOfItems (items ++ [j]) = tokensBeforeItem items ++ j.tokens := by
  induction items with
  | nil => simp [tokensOfItems, tokensBeforeItem]
  | cons i items ih =>
    have hcons : tokensOfItems (i :: (items ++ [j]))
        = i.tokens ++ .comma :: tokensOfItems (items ++ [j]) := by
      cases items <;> rfl
    rw [List.cons_append, hcons, ih]
    simp [tokensBeforeItem]

theorem tokensOfMembers_concat (members : List (Option String × Json)) (k : Option String)
    (j : Json) :
    tokensOfMembers (members ++ [(k, j)])
      = tokensBeforeMember members ++ tokensOfKey k ++ j.tokens := by
  induction members with
  | nil => simp [tokensOfMembers, tokensBeforeMember, tokensOfKey]
  | cons m members ih =>
    have hcons : tokensOfMembers (m :: (members ++ [(k, j)]))
        = tokensOfKey m.1 ++ m.2.tokens ++ .comma :: tokensOfMembers (members ++ [(k, j)]) := by
      cases members <;> rfl
    rw [List.cons_append, hcons, ih]
    simp [tokensBeforeMember]

/-! ### What has been read -/

/-- The tokens of the containers that are open, the outermost first. -/
def tokensOfFrames : List Frame → List Token
  | [] => []
  | .array items :: outer =>
    tokensOfFrames outer ++ .beginArray :: tokensBeforeItem items.reverse
  | .object members :: outer =>
    tokensOfFrames outer ++ .beginObject :: tokensBeforeMember members.reverse
  | .member key :: outer => tokensOfFrames outer ++ tokensOfKey key

namespace Reader

/-- The tokens that the machine has read. -/
def read (r : Reader) : List Token :=
  tokensOfFrames r.frames ++
    match r.expecting with
    | .value | .item | .member | .key => []
    | .colon key => [.scalar (.string key)]
    | .separator v => v.tokens

/-- A container that can end at once is on top, and empty. -/
def WellFormed (r : Reader) : Prop :=
  match r.expecting with
  | .item => ∃ outer, r.frames = .array [] :: outer
  | .member => ∃ outer, r.frames = .object [] :: outer
  | _ => True

end Reader

/-- The value of a token is a value without parts. -/
def Token.IsPlain (t : Token) : Prop := ∀ v, t = .scalar v → v.tokens = [.scalar v]

namespace Reader

theorem wellFormed_empty : empty.WellFormed := trivial

theorem read_beginValue? {frames : List Frame} {t : Token} {r : Reader} (ht : t.IsPlain)
    (h : beginValue? frames t = some r) :
    r.WellFormed ∧ r.read = tokensOfFrames frames ++ [t] := by
  cases t with
  | scalar v =>
    cases h
    exact ⟨trivial, congrArg (tokensOfFrames frames ++ ·) (ht v rfl)⟩
  | beginArray =>
    cases h
    exact ⟨⟨frames, rfl⟩, by simp [read, tokensOfFrames, tokensBeforeItem]⟩
  | beginObject =>
    cases h
    exact ⟨⟨frames, rfl⟩, by simp [read, tokensOfFrames, tokensBeforeMember]⟩
  | endArray | endObject | comma | colon => cases h

theorem read_beginKey? {frames : List Frame} {t : Token} {r : Reader}
    (h : beginKey? frames t = some r) :
    r.WellFormed ∧ r.read = tokensOfFrames frames ++ [t] := by
  unfold beginKey? at h
  split at h
  · cases h
    exact ⟨trivial, rfl⟩
  · cases h

theorem read_continue? {v : Json} {frames : List Frame} {t : Token} {r : Reader}
    (h : continue? v frames t = some r) :
    r.WellFormed ∧ r.read = tokensOfFrames frames ++ v.tokens ++ [t] := by
  unfold continue? at h
  split at h
  · cases h
    exact ⟨trivial, by simp [read, tokensOfFrames, tokensBeforeItem]⟩
  · cases h
    refine ⟨trivial, ?_⟩
    simp [read, tokensOfFrames, tokens, tokensOfItems_concat]
  · cases h
    exact ⟨trivial, by simp [read, tokensOfFrames, tokensBeforeMember]⟩
  · cases h
    refine ⟨trivial, ?_⟩
    simp [read, tokensOfFrames, tokens, tokensOfMembers_concat]
  · cases h

/-- **One token is added to what has been read.** -/
theorem read_step? {r r' : Reader} {t : Token} (hr : r.WellFormed) (ht : t.IsPlain)
    (h : r.step? t = some r') : r'.WellFormed ∧ r'.read = r.read ++ [t] := by
  obtain ⟨expecting, frames⟩ := r
  cases expecting with
  | value => simpa [read] using read_beginValue? ht h
  | key => simpa [read] using read_beginKey? h
  | separator v => simpa [read] using read_continue? h
  | colon key =>
    cases t with
    | colon =>
      cases h
      exact ⟨trivial, by simp [read, tokensOfFrames, tokensOfKey]⟩
    | _ => cases h
  | item =>
    cases t with
    | endArray =>
      -- the array that ends is still on top, and nothing of it was read but its bracket
      obtain ⟨outer, rfl⟩ := hr
      cases h
      exact ⟨trivial, by simp [read, tokensOfFrames, tokensBeforeItem, tokens, tokensOfItems]⟩
    | _ => simpa [read] using read_beginValue? ht h
  | member =>
    by_cases hend : t = .endObject
    · subst hend
      obtain ⟨outer, rfl⟩ := hr
      cases h
      exact ⟨trivial, by simp [read, tokensOfFrames, tokensBeforeMember, tokens, tokensOfMembers]⟩
    · have hkey : step? ⟨.member, frames⟩ t = beginKey? frames t := by
        cases t <;> first | rfl | exact absurd rfl hend
      rw [hkey] at h
      simpa [read] using read_beginKey? h

theorem read_foldlM_step? {ts : List Token} {r r' : Reader} (hr : r.WellFormed)
    (hts : ∀ t ∈ ts, t.IsPlain) (h : ts.foldlM step? r = some r') : r'.read = r.read ++ ts := by
  -- on the tokens, with `WellFormed` as the invariant of the machine
  induction ts generalizing r with
  | nil =>
    cases h
    simp
  | cons t ts ih =>
    obtain ⟨r₁, hstep, hrest⟩ := Option.bind_eq_some_iff.1 h
    obtain ⟨hr₁, hread⟩ := read_step? hr (hts t List.mem_cons_self) hstep
    rw [ih hr₁ (fun u hu => hts u (List.mem_cons_of_mem _ hu)) hrest, hread, List.append_assoc,
      List.singleton_append]

end Reader

/-- The tokens that make up a value are the tokens of it. -/
theorem tokens_of_ofTokens? {ts : List Token} {j : Json} (hts : ∀ t ∈ ts, t.IsPlain)
    (h : ofTokens? ts = some j) : j.tokens = ts := by
  obtain ⟨⟨expecting, frames⟩, hrun, hend⟩ := Option.bind_eq_some_iff.1 h
  have hread := Reader.read_foldlM_step? Reader.wellFormed_empty hts hrun
  -- at the end nothing is open, so that what was read is the value
  cases expecting with
  | separator v =>
    cases frames with
    | nil =>
      cases hend
      exact hread
    | cons f outer => cases hend
  | _ => cases hend

/-! ### The tokens of a text -/

namespace Lexer

/-- The values of the tokens so far have no parts. -/
def IsPlain (l : Lexer) : Prop := ∀ t ∈ l.tokens, t.IsPlain

theorem isPlain_empty : empty.IsPlain := fun _ ht => nomatch ht

theorem isPlain_punctuation? {c : Char} {t : Token} (h : punctuation? c = some t) : t.IsPlain := by
  unfold punctuation? at h
  split at h <;> cases h <;> exact fun v hv => nomatch hv

theorem isPlain_scalar {v : Json} (h : v.tokens = [.scalar v]) : (Token.scalar v).IsPlain := by
  intro w hw
  cases hw
  exact h

theorem tokens_wordValue? {letters : List Char} {v : Json} (h : wordValue? letters = some v) :
    v.tokens = [.scalar v] := by
  unfold wordValue? at h
  split at h <;> cases h <;> rfl

theorem isPlain_flush? {l : Lexer} {ts : List Token} (hl : l.IsPlain) (h : l.flush? = some ts) :
    ∀ t ∈ ts, t.IsPlain := by
  unfold flush? at h
  split at h
  · cases h
    exact hl
  · obtain ⟨v, hv, rfl⟩ := Option.map_eq_some_iff.1 h
    exact List.forall_mem_cons.2 ⟨isPlain_scalar (tokens_wordValue? hv), hl⟩
  · split at h
    · cases h
      exact List.forall_mem_cons.2 ⟨isPlain_scalar rfl, hl⟩
    · cases h
  · cases h

theorem isPlain_begin? {ts : List Token} {c : Char} {l : Lexer} (hts : ∀ t ∈ ts, t.IsPlain)
    (h : begin? ts c = some l) : l.IsPlain := by
  unfold begin? at h
  split_ifs at h
  · cases h
    exact hts
  · cases h
    exact hts
  · cases h
    exact hts
  · cases h
    exact hts
  · obtain ⟨t, ht, rfl⟩ := Option.map_eq_some_iff.1 h
    exact List.forall_mem_cons.2 ⟨isPlain_punctuation? ht, hts⟩

theorem isPlain_step? {l l' : Lexer} {c : Char} (hl : l.IsPlain) (h : l.step? c = some l') :
    l'.IsPlain := by
  -- a character ends an open word or number, or it changes what is open, or it closes a string
  have hflush : ∀ {l'}, l.flush?.bind (begin? · c) = some l' → l'.IsPlain := by
    intro l' h
    obtain ⟨ts, hts, hbegin⟩ := Option.bind_eq_some_iff.1 h
    exact isPlain_begin? (isPlain_flush? hl hts) hbegin
  unfold step? at h
  split at h
  · exact isPlain_begin? hl h
  · split_ifs at h
    · cases h
      exact hl
    · exact hflush h
  · split_ifs at h
    · cases h
      exact hl
    · exact hflush h
  · split_ifs at h
    · cases h
      exact List.forall_mem_cons.2 ⟨isPlain_scalar rfl, hl⟩
    · cases h
      exact hl
    · cases h
      exact hl
  · split_ifs at h
    · cases h
      exact hl
    · obtain ⟨d, -, rfl⟩ := Option.map_eq_some_iff.1 h
      exact hl
  · obtain ⟨d, -, rfl⟩ := Option.map_eq_some_iff.1 h
    split_ifs
    · exact hl
    · exact hl

theorem isPlain_foldlM_step? {cs : List Char} {l l' : Lexer} (hl : l.IsPlain)
    (h : cs.foldlM step? l = some l') : l'.IsPlain := by
  induction cs generalizing l with
  | nil =>
    cases h
    exact hl
  | cons c cs ih =>
    obtain ⟨l₁, hstep, hrest⟩ := Option.bind_eq_some_iff.1 h
    exact ih (isPlain_step? hl hstep) hrest

end Lexer

theorem isPlain_of_tokens? {cs : List Char} {ts : List Token} (h : tokens? cs = some ts) :
    ∀ t ∈ ts, t.IsPlain := by
  obtain ⟨ts, hflush, rfl⟩ := Option.map_eq_some_iff.1 h
  obtain ⟨l, hrun, hend⟩ := Option.bind_eq_some_iff.1 hflush
  intro t ht
  exact Lexer.isPlain_flush? (Lexer.isPlain_foldlM_step? Lexer.isPlain_empty hrun) hend t
    (List.mem_reverse.1 ht)

/-- **A value keeps every token of its text.** -/
theorem tokens_of_parse? {s : String} {j : Json} (h : parse? s = some j) :
    tokens? s.toList = some j.tokens := by
  obtain ⟨ts, hts, hvalue⟩ := Option.bind_eq_some_iff.1 h
  rw [hts, tokens_of_ofTokens? (isPlain_of_tokens? hts) hvalue]

end InlineAudit.Json
