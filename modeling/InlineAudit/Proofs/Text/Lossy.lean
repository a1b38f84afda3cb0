/-
What the decoder makes of bytes that are not UTF-8.

The decoder is a machine that looks at one byte at a time.  What it comes to can be said without
it: characters are read as themselves, and where no character can be read, as many bytes as begin
one, and a single byte at least, are read as one replacement.

* `Begins`, `Subpart`, `Decodes` — the rule;
* `Decoder.length_finish_of_continues`, `Decoder.length_finish_of_not_continues` — a byte adds a
  character to the text, unless it goes on with the one that is open;
* `Open.Follows`, `Opens.follows` — what is open after some bytes, and that the narrow ranges
  for a second byte let nothing through that is not the encoding of a character;
* `Open.Follows.first`, `first_decodeChars` — the machine's first character is that of the rule;
* **`decodes_iff`** — the machine follows the rule;
* **`decodes_by_line`** — it may be applied to a log line by line.
-/
import InlineAudit.Proofs.Text.Decoding
import InlineAudit.Proofs.Text.Encoding
import Mathlib.Data.List.Basic
import Mathlib.Tactic.ByContra

open scoped List

namespace InlineAudit.Utf8

/-! ### The rule -/

/-- The bytes are the first ones of a character, or all of it. -/
def Begins (bs : Bytes) : Prop := ∃ c, bs <+: String.utf8EncodeChar c

/-- Some bytes do not start with a character, and `part` is what has to be skipped of them: as many
as begin a character, and a single one at least. -/
structure Subpart (part rest : Bytes) : Prop where
  ne_nil : part ≠ []
  begins : part.length = 1 ∨ Begins part
  noCharacter : ∀ c, ¬ String.utf8EncodeChar c <+: part ++ rest
  longest : ∀ more, more ≠ [] → more <+: rest → ¬ Begins (part ++ more)

/-- The characters of a byte string, with one replacement for each part that has to be skipped. -/
inductive Decodes : Bytes → List Char → Prop
  | nil : Decodes [] []
  | character (c : Char) {rest : Bytes} {cs : List Char} (decodes : Decodes rest cs) :
      Decodes (String.utf8EncodeChar c ++ rest) (c :: cs)
  | skipped {part rest : Bytes} {cs : List Char} (subpart : Subpart part rest)
      (decodes : Decodes rest cs) : Decodes (part ++ rest) (replacement :: cs)

/-- What has to be skipped is determined by the bytes. -/
theorem Subpart.unique {part rest part' rest' : Bytes} (h : Subpart part rest)
    (h' : Subpart part' rest') (heq : part ++ rest = part' ++ rest') :
    part = part' ∧ rest = rest' := by
  -- the longer one of two begins a character, although the shorter one is the longest that does
  have hlonger {as bs as' : Bytes} (h : Subpart as (bs ++ as')) (h' : Subpart (as ++ bs) as') :
      bs = [] := by
    by_contra hne
    refine h.longest bs hne (List.prefix_append bs as') (h'.begins.resolve_left ?_)
    have has := List.length_pos_iff.2 h.ne_nil
    have hbs := List.length_pos_iff.2 hne
    rw [List.length_append]
    omega
  rcases List.append_eq_append_iff.1 heq with ⟨bs, rfl, rfl⟩ | ⟨bs, rfl, rfl⟩
  · obtain rfl := hlonger h h'
    simp
  · obtain rfl := hlonger h' h
    simp

/-! ### How many characters there are -/

/-- A byte goes on with the character that is open. -/
def Decoder.Continues (d : Decoder) (b : UInt8) : Prop :=
  ∃ o, d.pending = some o ∧ o.low ≤ b ∧ b ≤ o.high

theorem Decoder.length_finish_begin (t : List Char) (b : UInt8) :
    (Decoder.begin t b).finish.length = t.length + 1 := by
  rw [Decoder.begin]
  cases lead b <;> simp [Decoder.finish]

theorem Decoder.length_finish_of_continues {d : Decoder} {b : UInt8} (h : d.Continues b) :
    (d.step b).finish.length = d.finish.length := by
  obtain ⟨t, o⟩ := d
  obtain ⟨o, rfl, hrange⟩ := h
  rw [Decoder.step]
  dsimp only
  rw [if_pos hrange]
  split <;> simp [Decoder.finish]

theorem Decoder.length_finish_of_not_continues {d : Decoder} {b : UInt8} (h : ¬ d.Continues b) :
    (d.step b).finish.length = d.finish.length + 1 := by
  obtain ⟨t, _ | o⟩ := d
  · rw [Decoder.step, Decoder.length_finish_begin, Decoder.finish, List.length_reverse]
  · have hrange : ¬ (o.low ≤ b ∧ b ≤ o.high) := fun hr => h ⟨o, rfl, hr⟩
    rw [Decoder.step]
    dsimp only
    rw [if_neg hrange, Decoder.length_finish_begin]
    simp [Decoder.finish]

theorem Decoder.length_finish_le_step (d : Decoder) (b : UInt8) :
    d.finish.length ≤ (d.step b).finish.length := by
  by_cases h : d.Continues b
  · exact Nat.le_of_eq (d.length_finish_of_continues h).symm
  · rw [d.length_finish_of_not_continues h]
    exact Nat.le_succ _

theorem Decoder.length_finish_le (d : Decoder) (bs : Bytes) :
    d.finish.length ≤ (bs.foldl Decoder.step d).finish.length := by
  induction bs generalizing d with
  | nil => exact Nat.le_refl _
  | cons b bs ih => exact Nat.le_trans (d.length_finish_le_step b) (ih (d.step b))

/-- Inside the bytes of a character every byte but the first goes on with what was read. -/
theorem continues_of_encodeChar {c : Char} {front more : Bytes} {b : UInt8} (hne : front ≠ [])
    (h : String.utf8EncodeChar c = front ++ b :: more) :
    (front.foldl Decoder.step .empty).Continues b := by
  have hall := Decoder.foldl_step_encodeChar [] c
  rw [h, List.foldl_append, List.foldl_cons] at hall
  -- there is one character after the front, and no more of them at the end
  have hfront : 1 ≤ (front.foldl Decoder.step .empty).finish.length :=
    List.length_pos_iff.2 (decodeChars_ne_nil hne)
  have hrest := Decoder.length_finish_le ((front.foldl Decoder.step .empty).step b) more
  have hend :
      (more.foldl Decoder.step ((front.foldl Decoder.step .empty).step b)).finish.length = 1 :=
    congrArg (fun d : Decoder => d.finish.length) hall
  by_contra hnot
  have hstep := Decoder.length_finish_of_not_continues hnot
  omega

/-! ### Open characters -/

/-- The value of a character when bytes are added to what was read of it. -/
def valueAfter (v : Nat) (bs : Bytes) : Nat := bs.foldl (fun v b => v * 64 + b.toNat % 64) v

/-- The character is open after these bytes, and whatever it still allows completes them. -/
structure Open.Follows (o : Open) (front : Bytes) : Prop where
  reads : front.foldl Decoder.step .empty = ⟨[], some o⟩
  owed : 1 ≤ o.owed
  range : o.low ≤ o.high
  spells : ∀ b more, o.low ≤ b → b ≤ o.high → more.length + 1 = o.owed →
    (∀ b ∈ more, 0x80 ≤ b ∧ b ≤ 0xBF) →
      String.utf8EncodeChar (Char.ofNat (valueAfter o.value (b :: more))) = front ++ b :: more

theorem toNat_val_ofNat {v : Nat} (h : v.isValidChar) : (Char.ofNat v).val.toNat = v := by
  rw [Char.ofNat, dif_pos h]
  rfl

theorem ofNat_eq_of_toNat_eq {b : UInt8} {n : Nat} (h : b.toNat = n) : UInt8.ofNat n = b := by
  rw [← h, UInt8.ofNat_toNat]

/-- A byte that only later bytes of a character can be, from its six bits. -/
theorem ofNat_later {b : UInt8} (h : 0x80 ≤ b ∧ b ≤ 0xBF) :
    UInt8.ofNat (b.toNat % 64 + 128) = b := by
  have hlow : 128 ≤ b.toNat := h.1
  have hhigh : b.toNat ≤ 191 := h.2
  exact ofNat_eq_of_toNat_eq (by omega)

/-- The bytes of a character of two bytes, from its bits. -/
theorem encodeChar_two {x y : Nat} (hx : 2 ≤ x) (hx' : x < 32) (hy : y < 64) :
    String.utf8EncodeChar (Char.ofNat (x * 64 + y)) =
      [UInt8.ofNat (x + 192), UInt8.ofNat (y + 128)] := by
  unfold String.utf8EncodeChar
  dsimp only
  rw [toNat_val_ofNat (Or.inl (by omega)), if_neg (by omega), if_pos (by omega),
    show (x * 64 + y) / 64 % 32 = x by omega, show (x * 64 + y) % 64 = y by omega]

/-- The bytes of a character of three bytes, from its bits. -/
theorem encodeChar_three {x y z : Nat} (hx : x < 16) (hy : y < 64) (hz : z < 64)
    (hlow : 0x800 ≤ (x * 64 + y) * 64 + z)
    (hvalid : (x * 64 + y) * 64 + z < 0xD800 ∨ 0xDFFF < (x * 64 + y) * 64 + z) :
    String.utf8EncodeChar (Char.ofNat ((x * 64 + y) * 64 + z)) =
      [UInt8.ofNat (x + 224), UInt8.ofNat (y + 128), UInt8.ofNat (z + 128)] := by
  have hchar : Nat.isValidChar ((x * 64 + y) * 64 + z) :=
    hvalid.imp id fun h => ⟨h, by omega⟩
  unfold String.utf8EncodeChar
  dsimp only
  rw [toNat_val_ofNat hchar, if_neg (by omega), if_neg (by omega), if_pos (by omega),
    show ((x * 64 + y) * 64 + z) / 4096 % 16 = x by omega,
    show ((x * 64 + y) * 64 + z) / 64 % 64 = y by omega,
    show ((x * 64 + y) * 64 + z) % 64 = z by omega]

/-- The bytes of a character of four bytes, from its bits. -/
theorem encodeChar_four {w x y z : Nat} (hx : x < 64) (hy : y < 64) (hz : z < 64)
    (hlow : 0x10000 ≤ ((w * 64 + x) * 64 + y) * 64 + z)
    (hhigh : ((w * 64 + x) * 64 + y) * 64 + z < 0x110000) :
    String.utf8EncodeChar (Char.ofNat (((w * 64 + x) * 64 + y) * 64 + z)) =
      [UInt8.ofNat (w + 240), UInt8.ofNat (x + 128), UInt8.ofNat (y + 128),
        UInt8.ofNat (z + 128)] := by
  have hchar : Nat.isValidChar (((w * 64 + x) * 64 + y) * 64 + z) := Or.inr ⟨by omega, hhigh⟩
  unfold String.utf8EncodeChar
  dsimp only
  rw [toNat_val_ofNat hchar, if_neg (by omega), if_neg (by omega), if_neg (by omega),
    show (((w * 64 + x) * 64 + y) * 64 + z) / 262144 % 8 = w by omega,
    show (((w * 64 + x) * 64 + y) * 64 + z) / 4096 % 64 = x by omega,
    show (((w * 64 + x) * 64 + y) * 64 + z) / 64 % 64 = y by omega,
    show (((w * 64 + x) * 64 + y) * 64 + z) % 64 = z by omega]

/-- A character that is opened by a byte follows it. -/
theorem Opens.follows {b : UInt8} {o : Open} (h : Opens b o) (hlead : lead b = .opens o) :
    o.Follows [b] := by
  have hreads : [b].foldl Decoder.step .empty = ⟨[], some o⟩ := Decoder.step_lead hlead
  -- six bits of each later byte, for as many of them as there are
  have hbits (n : UInt8) : n.toNat % 64 < 64 := Nat.mod_lt _ (by omega)
  cases h with
  | @two x hb hx hx' =>
    refine ⟨hreads, Nat.le_refl 1, show (0x80 : UInt8) ≤ 0xBF by decide, ?_⟩
    intro n more hlow hhigh hlen _
    obtain rfl : more = [] := List.length_eq_zero_iff.1 (Nat.succ.inj hlen)
    have hchar := encodeChar_two hx hx' (hbits n)
    rwa [ofNat_eq_of_toNat_eq hb, ofNat_later ⟨hlow, hhigh⟩] at hchar
  | @three x low high hb hleast hrange hgreatest hvalid =>
    refine ⟨hreads, show 1 ≤ 2 by decide, hrange, ?_⟩
    intro n more hlow hhigh hlen hmore
    obtain ⟨m, rfl⟩ : ∃ m, more = [m] := List.length_eq_one_iff.1 (Nat.succ.inj hlen)
    have hm := hmore m List.mem_cons_self
    have hn : 0x80 ≤ n ∧ n ≤ 0xBF := ⟨UInt8.le_trans hleast hlow, UInt8.le_trans hhigh hgreatest⟩
    have hv := hvalid n.toNat hlow hhigh
    have hchar := encodeChar_three (x := x) (by omega) (hbits n) (hbits m) (by omega) (by omega)
    rwa [ofNat_eq_of_toNat_eq hb, ofNat_later hn, ofNat_later hm] at hchar
  | @four w low high hb hleast hrange hgreatest hvalid =>
    refine ⟨hreads, show 1 ≤ 3 by decide, hrange, ?_⟩
    intro n more hlow hhigh hlen hmore
    obtain ⟨m, l, rfl⟩ : ∃ m l, more = [m, l] := List.length_eq_two.1 (Nat.succ.inj hlen)
    have hm := hmore m List.mem_cons_self
    have hl := hmore l (List.mem_cons_of_mem m List.mem_cons_self)
    have hn : 0x80 ≤ n ∧ n ≤ 0xBF := ⟨UInt8.le_trans hleast hlow, UInt8.le_trans hhigh hgreatest⟩
    have hv := hvalid n.toNat hlow hhigh
    have hchar := encodeChar_four (w := w) (hbits n) (hbits m) (hbits l) (by omega) (by omega)
    rwa [ofNat_eq_of_toNat_eq hb, ofNat_later hn, ofNat_later hm, ofNat_later hl] at hchar

namespace Open.Follows

variable {o : Open} {front : Bytes} {b : UInt8}

theorem ne_nil (h : o.Follows front) : front ≠ [] := by
  rintro rfl
  simpa [Decoder.empty] using h.reads

/-- The last byte completes the character. -/
theorem complete (h : o.Follows front) (howed : o.owed ≤ 1) (hb : o.low ≤ b ∧ b ≤ o.high) :
    String.utf8EncodeChar (Char.ofNat (o.value * 64 + b.toNat % 64)) = front ++ [b] :=
  h.spells b [] hb.1 hb.2 (Nat.le_antisymm h.owed howed) (by simp)

/-- A byte before the last one leaves the character open. -/
theorem next (h : o.Follows front) (howed : ¬ o.owed ≤ 1) (hb : o.low ≤ b ∧ b ≤ o.high) :
    Open.Follows ⟨o.value * 64 + b.toNat % 64, o.owed - 1, 0x80, 0xBF⟩ (front ++ [b]) where
  reads := by
    rw [List.foldl_append, h.reads, List.foldl_cons, List.foldl_nil, Decoder.step]
    dsimp only
    rw [if_pos hb, if_neg howed]
  owed := Nat.le_sub_one_of_lt (Nat.lt_of_not_le howed)
  range := show (0x80 : UInt8) ≤ 0xBF by decide
  spells := by
    intro n more hlow hhigh hlen hmore
    dsimp only at hlen
    have hall : ∀ m ∈ n :: more, 0x80 ≤ m ∧ m ≤ 0xBF :=
      List.forall_mem_cons.2 ⟨⟨hlow, hhigh⟩, hmore⟩
    have howes : (n :: more).length + 1 = o.owed := by
      rw [List.length_cons]
      omega
    rw [List.append_assoc]
    exact h.spells b (n :: more) hb.1 hb.2 howes hall

/-- What was read begins a character: any byte allowed next can be completed. -/
theorem begins (h : o.Follows front) : Begins front := by
  have hmore : ∀ b ∈ List.replicate (o.owed - 1) (0x80 : UInt8), 0x80 ≤ b ∧ b ≤ 0xBF := by
    intro b hb
    rw [List.eq_of_mem_replicate hb]
    decide
  have hlen : (List.replicate (o.owed - 1) (0x80 : UInt8)).length + 1 = o.owed := by
    rw [List.length_replicate]
    exact Nat.sub_add_cancel h.owed
  have hchar := h.spells o.low _ (UInt8.le_refl o.low) h.range hlen hmore
  exact ⟨_, hchar ▸ List.prefix_append front _⟩

/-- No character ends within what was read. -/
theorem noCharacter (h : o.Follows front) (c : Char) : ¬ String.utf8EncodeChar c <+: front := by
  rintro ⟨more, rfl⟩
  have hreads := h.reads
  have htext := Decoder.foldl_step_append more [] [c] none
  rw [List.nil_append] at htext
  rw [List.foldl_append, Decoder.empty, Decoder.foldl_step_encodeChar, htext] at hreads
  simpa using congrArg Decoder.text hreads

end Open.Follows

/-! ### The machine follows the rule -/

/-- What no further byte goes on with has to be skipped. -/
theorem Subpart.of_not_continues {part rest : Bytes} (hne : part ≠ [])
    (hbegins : part.length = 1 ∨ Begins part) (hno : ∀ c, ¬ String.utf8EncodeChar c <+: part)
    (hstop : ∀ b ∈ rest.head?, ¬ (part.foldl Decoder.step .empty).Continues b) :
    Subpart part rest where
  ne_nil := hne
  begins := hbegins
  noCharacter := by
    rintro c ⟨more, hc⟩
    rcases List.append_eq_append_iff.1 hc with ⟨bs, hpart, -⟩ | ⟨bs, hchar, hrest⟩
    · exact hno c ⟨bs, hpart.symm⟩
    · cases bs with
      | nil => exact hno c ⟨[], by rw [hchar, List.append_nil, List.append_nil]⟩
      | cons b bs =>
        rw [hrest] at hstop
        exact hstop b rfl (continues_of_encodeChar hne hchar)
  longest := by
    rintro more hmore ⟨rest', rfl⟩ ⟨c, end', hc⟩
    obtain ⟨b, more, rfl⟩ := List.exists_cons_of_ne_nil hmore
    rw [List.append_assoc, List.cons_append] at hc
    exact hstop b rfl (continues_of_encodeChar hne hc.symm)

/-- The characters of some bytes, as far as the first of them: it is read, or it stands for what
has to be skipped. -/
inductive First : Bytes → List Char → Prop
  | character (c : Char) (rest : Bytes) :
      First (String.utf8EncodeChar c ++ rest) (c :: decodeChars rest)
  | skipped {part rest : Bytes} (subpart : Subpart part rest) :
      First (part ++ rest) (replacement :: decodeChars rest)

/-- From an open character the machine comes to its end, or to a byte that it does not allow. -/
theorem Open.Follows.first {o : Open} {front : Bytes} (h : o.Follows front) (tail : Bytes) :
    First (front ++ tail) (tail.foldl Decoder.step ⟨[], some o⟩).finish := by
  induction tail generalizing o front with
  | nil => exact .skipped (.of_not_continues h.ne_nil (.inr h.begins) h.noCharacter (by simp))
  | cons b tail ih =>
    rw [List.foldl_cons, Decoder.step]
    dsimp only
    by_cases hb : o.low ≤ b ∧ b ≤ o.high
    · rw [if_pos hb, List.append_cons]
      by_cases howed : o.owed ≤ 1
      · rw [if_pos howed, Decoder.finish_foldl_step, ← h.complete howed hb]
        exact .character _ tail
      · rw [if_neg howed]
        exact ih (h.next howed hb)
    · have hstop : ∀ b' ∈ (b :: tail).head?, ¬ (front.foldl Decoder.step .empty).Continues b' := by
        rintro b' hb' ⟨o', ho', hrange⟩
        rw [h.reads, Option.some.injEq] at ho'
        rw [List.head?_cons, Option.mem_some_iff] at hb'
        exact hb (by rwa [ho', hb'])
      have hrest := Decoder.finish_foldl_step (b :: tail) [replacement]
      rw [if_neg hb]
      rw [List.foldl_cons] at hrest
      refine hrest.symm ▸ ?_
      exact .skipped (.of_not_continues h.ne_nil (.inr h.begins) h.noCharacter hstop)

/-- A byte that stands for itself is a character. -/
theorem encodeChar_of_ascii {b : UInt8} (h : b.toNat < 0x80) :
    String.utf8EncodeChar (Char.ofNat b.toNat) = [b] := by
  unfold String.utf8EncodeChar
  dsimp only
  rw [toNat_val_ofNat (Or.inl (by omega)), if_pos (by omega), UInt8.ofNat_toNat]

/-- What no character starts with is skipped alone. -/
theorem subpart_of_lead_invalid {b : UInt8} (h : lead b = .invalid) (rest : Bytes) :
    Subpart [b] rest := by
  have hread : [b].foldl Decoder.step .empty = ⟨[replacement], none⟩ := by
    simp [Decoder.step, Decoder.begin, Decoder.empty, h]
  refine .of_not_continues (List.cons_ne_nil b []) (.inl rfl) ?_ ?_
  · rintro c hc
    -- the character would be the replacement, and that has three bytes
    obtain hbytes : String.utf8EncodeChar c = [b] := by
      rcases List.prefix_cons_iff.1 hc with hnil | ⟨t, hbytes, ht⟩
      · exact absurd hnil (by simp)
      · rw [hbytes, List.prefix_nil.1 ht]
    have hchar := Decoder.foldl_step_encodeChar [] c
    rw [hbytes] at hchar
    obtain rfl : replacement = c := by simpa using congrArg Decoder.text (hread.symm.trans hchar)
    have hlen : (String.utf8EncodeChar replacement).length = 1 := congrArg List.length hbytes
    exact absurd hlen (by decide)
  · rintro m - ⟨o, ho, -⟩
    rw [hread] at ho
    cases ho

theorem first_decodeChars {bs : Bytes} (hne : bs ≠ []) : First bs (decodeChars bs) := by
  obtain ⟨b, tail, rfl⟩ := List.exists_cons_of_ne_nil hne
  rw [decodeChars, List.foldl_cons, Decoder.step]
  dsimp only [Decoder.empty]
  rw [Decoder.begin]
  rcases lead_cases b with ⟨hb, hlead⟩ | hlead | ⟨o, hlead, hopens⟩
  · rw [hlead]
    dsimp only
    rw [Decoder.finish_foldl_step]
    have hfirst := First.character (Char.ofNat b.toNat) tail
    rwa [encodeChar_of_ascii hb] at hfirst
  · rw [hlead]
    dsimp only
    rw [Decoder.finish_foldl_step]
    exact .skipped (subpart_of_lead_invalid hlead tail)
  · rw [hlead]
    exact (hopens.follows hlead).first tail

/-- **The machine follows the rule.** -/
theorem decodes_iff (bs : Bytes) (cs : List Char) : Decodes bs cs ↔ decodeChars bs = cs := by
  constructor
  · intro h
    induction h with
    | nil => rfl
    | @character c rest cs _ ih =>
      rw [decodeChars, List.foldl_append, Decoder.empty, Decoder.foldl_step_encodeChar,
        Decoder.finish_foldl_step, ih]
      rfl
    | @skipped part rest cs hpart _ ih =>
      have hne : part ++ rest ≠ [] := List.append_ne_nil_of_left_ne_nil hpart.ne_nil rest
      have hfirst := first_decodeChars hne
      generalize hbs : part ++ rest = bs at hfirst
      generalize decodeChars bs = ds at hfirst
      cases hfirst with
      | character c rest' => exact absurd ⟨rest', hbs.symm⟩ (hpart.noCharacter c)
      | skipped hpart' =>
        obtain ⟨rfl, rfl⟩ := hpart.unique hpart' hbs
        rw [ih]
  · rintro rfl
    induction hn : bs.length using Nat.strongRecOn generalizing bs with
    | _ n ih =>
      by_cases hne : bs = []
      · rw [hne]
        exact .nil
      · have hfirst := first_decodeChars hne
        generalize decodeChars bs = cs at hfirst
        cases hfirst with
        | character c rest =>
          have hc := List.length_pos_iff.2 (String.utf8EncodeChar_ne_nil (c := c))
          rw [List.length_append] at hn
          exact .character c (ih rest.length (by omega) rest rfl)
        | @skipped part rest hpart =>
          have hlen := List.length_pos_iff.2 hpart.ne_nil
          rw [List.length_append] at hn
          exact .skipped hpart (ih rest.length (by omega) rest rfl)

/-! ### Line by line -/

theorem flatten_map_decodeChars_pieces (log : Bytes) :
    ((pieces Log.isNewline log).map decodeChars).flatten = decodeChars log := by
  rw [map_decodeChars_pieces, flatten_pieces]

/-- The lines of a scan are cut from the decoded log. -/
theorem lines_eq_map_pieces (log : Bytes) :
    Log.lines log = (pieces (· == '\n') (decodeChars log)).map fun line =>
      String.ofList (dropEnd '\r' (dropEnd '\n' line)) := by
  rw [← map_decodeChars_pieces, List.map_map]
  rfl

/-- Newlines of the text and of the bytes correspond, also by what is around them. -/
theorem decodeChars_eq_line_iff (log : Bytes) (as bs : List Char) :
    decodeChars log = as ++ '\n' :: bs ↔
      ∃ xs ys, log = xs ++ 10 :: ys ∧ decodeChars xs = as ∧ decodeChars ys = bs := by
  constructor
  · intro h
    -- over the lines: the newline is that of the first one, or is found after it
    induction log using line_induction Log.isNewline generalizing as with
    | nil => simp [decodeChars, Decoder.empty, Decoder.finish] at h
    | unended xs _ hxs =>
      have hmem : '\n' ∈ decodeChars xs := by simp [h]
      exact absurd hmem (newline_notMem_decodeChars (notMem_of_unended hxs))
    | line xs e ys hxs he ih =>
      obtain rfl : e = 10 := by simpa [Log.isNewline] using he
      have hno : '\n' ∉ decodeChars xs := newline_notMem_decodeChars (notMem_of_unended hxs)
      rw [decodeChars_line] at h
      rcases List.append_eq_append_iff.1 h with ⟨cs, rfl, hcs⟩ | ⟨cs, has, hcs⟩
      · cases cs with
        | nil =>
          rw [List.nil_append, List.cons.injEq] at hcs
          exact ⟨xs, ys, rfl, by rw [List.append_nil], hcs.2⟩
        | cons c cs =>
          rw [List.cons_append, List.cons.injEq] at hcs
          obtain ⟨xs', ys', rfl, hxs', hys'⟩ := ih cs hcs.2
          refine ⟨xs ++ 10 :: xs', ys', by simp, ?_, hys'⟩
          rw [decodeChars_line, hxs', hcs.1]
      · cases cs with
        | nil =>
          rw [List.nil_append, List.cons.injEq] at hcs
          exact ⟨xs, ys, rfl, by rw [has, List.append_nil], hcs.2.symm⟩
        | cons c cs =>
          rw [List.cons_append, List.cons.injEq] at hcs
          exact absurd (by simp [has, ← hcs.1]) hno
  · rintro ⟨xs, ys, rfl, rfl, rfl⟩
    exact decodeChars_line xs ys

theorem count_newline_decodeChars (log : Bytes) :
    (decodeChars log).count '\n' = log.count 10 := by
  have hcount {xs : Bytes} (hxs : ∀ b ∈ xs, Log.isNewline b = false) :
      (decodeChars xs).count '\n' = 0 ∧ xs.count 10 = 0 := by
    have h10 := notMem_of_unended hxs
    exact ⟨List.count_eq_zero.2 (newline_notMem_decodeChars h10), List.count_eq_zero.2 h10⟩
  induction log using line_induction Log.isNewline with
  | nil => rfl
  | unended xs _ hxs => rw [(hcount hxs).1, (hcount hxs).2]
  | line xs e ys hxs he ih =>
    obtain rfl : e = 10 := by simpa [Log.isNewline] using he
    rw [decodeChars_line, List.count_append, List.count_append, List.count_cons_self,
      List.count_cons_self, ih, (hcount hxs).1, (hcount hxs).2]

/-- **A log can be decoded line by line.**  The decoder writes one replacement for each part that
has to be skipped.  Put together, the decoded lines are the decoded log; one by one they are its
lines, of which a scan reads each without its end; and its newlines are those of the bytes, each
between what is decoded before and after it. -/
theorem decodes_by_line (log : Bytes) :
    (∀ bs cs, Decodes bs cs ↔ decodeChars bs = cs) ∧
    ((pieces Log.isNewline log).map decodeChars).flatten = decodeChars log ∧
    (pieces Log.isNewline log).map decodeChars = pieces (· == '\n') (decodeChars log) ∧
    (Log.lines log = (pieces (· == '\n') (decodeChars log)).map fun line =>
      String.ofList (dropEnd '\r' (dropEnd '\n' line))) ∧
    (∀ as bs, decodeChars log = as ++ '\n' :: bs ↔
      ∃ xs ys, log = xs ++ 10 :: ys ∧ decodeChars xs = as ∧ decodeChars ys = bs) ∧
    (decodeChars log).count '\n' = log.count 10 :=
  ⟨decodes_iff, flatten_map_decodeChars_pieces log, map_decodeChars_pieces log,
    lines_eq_map_pieces log, decodeChars_eq_line_iff log, count_newline_decodeChars log⟩

/-- A character that a newline cuts short is one replacement; of a surrogate each byte is. -/
example : decodeChars [0xE2, 0x82, 10, 0xED, 0xA0, 0x80] =
    [replacement, '\n', replacement, replacement, replacement] := by
  decide

end InlineAudit.Utf8
