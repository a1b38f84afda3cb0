/-
Newlines in decoded text.

A log is cut at newlines either before it is decoded or after, and both ways have to show the same
lines.  They do, since a newline byte is never part of a longer character, and no longer character
is a newline:

* `Opens`, `lead_cases` — what a byte between two characters can be;
* `decodeChars_line` — what follows a newline is decoded as if it stood alone;
* `newline_notMem_decodeChars` — the decoder makes no newline of other bytes;
* `decodeChars_return`, `getLast?_decodeChars_ne` — nor a carriage return, at least at the end;
* **`map_decodeChars_pieces`** — cutting and decoding commute.

The invariant behind it is `Open.Wide`: the range for the next byte lies above the one-byte
characters, and so does the value that the bytes will come to.
-/
import InlineAudit.Pending
import InlineAudit.Proofs.Text.Pieces

namespace InlineAudit.Utf8

/-! ### The text so far is only added to -/

theorem Decoder.begin_append (t s : List Char) (b : UInt8) :
    Decoder.begin (t ++ s) b = ⟨(Decoder.begin t b).text ++ s, (Decoder.begin t b).pending⟩ := by
  simp only [Decoder.begin]
  cases lead b <;> rfl

theorem Decoder.step_append (t s : List Char) (o : Option Open) (b : UInt8) :
    Decoder.step ⟨t ++ s, o⟩ b =
      ⟨(Decoder.step ⟨t, o⟩ b).text ++ s, (Decoder.step ⟨t, o⟩ b).pending⟩ := by
  cases o with
  | none => exact begin_append t s b
  | some o =>
    simp only [Decoder.step]
    split
    · split <;> rfl
    · exact begin_append (replacement :: t) s b

theorem Decoder.foldl_step_append (bs : Bytes) (t s : List Char) (o : Option Open) :
    bs.foldl Decoder.step ⟨t ++ s, o⟩ =
      ⟨(bs.foldl Decoder.step ⟨t, o⟩).text ++ s, (bs.foldl Decoder.step ⟨t, o⟩).pending⟩ := by
  induction bs generalizing t o with
  | nil => rfl
  | cons b bs ih =>
    rw [List.foldl_cons, List.foldl_cons, step_append, ih]

/-- Between two characters the decoder starts afresh. -/
theorem Decoder.finish_foldl_step (bs : Bytes) (t : List Char) :
    (bs.foldl Decoder.step ⟨t, none⟩).finish = t.reverse ++ decodeChars bs := by
  have h := foldl_step_append bs [] t none
  rw [List.nil_append] at h
  rw [h, decodeChars, Decoder.empty, Decoder.finish, Decoder.finish]
  cases (bs.foldl Decoder.step ⟨[], none⟩).pending <;> simp

/-! ### Open characters are above the one-byte characters -/

/-- The range for the next byte holds no one-byte character, and the value is on the way to one
that takes more than a byte. -/
structure Open.Wide (o : Open) : Prop where
  low : 0x80 ≤ o.low.toNat
  high : o.high.toNat ≤ 0xBF
  value : 2 ≤ o.value * 64 + o.low.toNat % 64
  last : o.owed ≤ 1 → 2 ≤ o.value

/-- What a first byte opens: the bits that it holds, how many bytes it owes, and a range for the
second one that keeps out what takes fewer bytes, the surrogates, and what is above all
characters. -/
inductive Opens (b : UInt8) : Open → Prop
  | two {x : Nat} (bits : b.toNat = x + 192) (least : 2 ≤ x) (greatest : x < 32) :
      Opens b ⟨x, 1, 0x80, 0xBF⟩
  | three {x : Nat} {low high : UInt8} (bits : b.toNat = x + 224) (least : 0x80 ≤ low)
      (range : low ≤ high) (greatest : high ≤ 0xBF)
      (valid : ∀ y : Nat, low.toNat ≤ y → y ≤ high.toNat → 32 ≤ x * 64 + y % 64 ∧
        (x * 64 + y % 64 < 0x360 ∨ 0x37F < x * 64 + y % 64 ∧ x * 64 + y % 64 < 0x400)) :
      Opens b ⟨x, 2, low, high⟩
  | four {x : Nat} {low high : UInt8} (bits : b.toNat = x + 240) (least : 0x80 ≤ low)
      (range : low ≤ high) (greatest : high ≤ 0xBF)
      (valid : ∀ y : Nat, low.toNat ≤ y → y ≤ high.toNat →
        16 ≤ x * 64 + y % 64 ∧ x * 64 + y % 64 < 0x110) : Opens b ⟨x, 3, low, high⟩

/-- What a byte between two characters can be: itself, nothing, or the start of more. -/
theorem lead_cases (b : UInt8) :
    b.toNat < 0x80 ∧ lead b = .complete (Char.ofNat b.toNat) ∨ lead b = .invalid ∨
      ∃ o : Open, lead b = .opens o ∧ Opens b o := by
  unfold lead
  dsimp only
  by_cases h80 : b.toNat < 0x80
  · rw [if_pos h80]
    exact .inl ⟨h80, rfl⟩
  rw [if_neg h80]
  by_cases hc2 : b.toNat < 0xC2
  · rw [if_pos hc2]
    exact .inr (.inl rfl)
  rw [if_neg hc2]
  refine .inr ?_
  by_cases he0 : b.toNat < 0xE0
  · rw [if_pos he0]
    exact .inr ⟨_, rfl, .two (by omega) (by omega) (by omega)⟩
  rw [if_neg he0]
  by_cases he0' : b.toNat = 0xE0
  · rw [if_pos he0']
    exact .inr ⟨_, rfl, .three he0' (by decide) (by decide) (by decide)
      fun y (hy : 160 ≤ y) (hy' : y ≤ 191) => by omega⟩
  rw [if_neg he0']
  by_cases hed : b.toNat = 0xED
  · rw [if_pos hed]
    exact .inr ⟨_, rfl, .three hed (by decide) (by decide) (by decide)
      fun y (hy : 128 ≤ y) (hy' : y ≤ 159) => by omega⟩
  rw [if_neg hed]
  by_cases hf0 : b.toNat < 0xF0
  · rw [if_pos hf0]
    exact .inr ⟨_, rfl, .three (by omega) (by decide) (by decide) (by decide)
      fun y (hy : 128 ≤ y) (hy' : y ≤ 191) => by omega⟩
  rw [if_neg hf0]
  by_cases hf0' : b.toNat = 0xF0
  · rw [if_pos hf0']
    exact .inr ⟨_, rfl, .four hf0' (by decide) (by decide) (by decide)
      fun y (hy : 144 ≤ y) (hy' : y ≤ 191) => by omega⟩
  rw [if_neg hf0']
  by_cases hf4 : b.toNat < 0xF4
  · rw [if_pos hf4]
    exact .inr ⟨_, rfl, .four (by omega) (by decide) (by decide) (by decide)
      fun y (hy : 128 ≤ y) (hy' : y ≤ 191) => by omega⟩
  rw [if_neg hf4]
  by_cases hf4' : b.toNat = 0xF4
  · rw [if_pos hf4']
    exact .inr ⟨_, rfl, .four hf4' (by decide) (by decide) (by decide)
      fun y (hy : 128 ≤ y) (hy' : y ≤ 143) => by omega⟩
  · rw [if_neg hf4']
    exact .inl rfl

theorem Opens.wide {b : UInt8} {o : Open} (h : Opens b o) : o.Wide := by
  cases h with
  | two _ hleast =>
    exact ⟨Nat.le_refl 0x80, Nat.le_refl 0xBF, by dsimp only; omega, fun _ => hleast⟩
  | three _ hleast hrange hgreatest hvalid =>
    have hv := hvalid _ (Nat.le_refl _) hrange
    exact ⟨hleast, hgreatest, by dsimp only; omega, fun howed : 2 ≤ 1 => by omega⟩
  | four _ hleast hrange hgreatest hvalid =>
    have hv := hvalid _ (Nat.le_refl _) hrange
    exact ⟨hleast, hgreatest, by dsimp only; omega, fun howed : 3 ≤ 1 => by omega⟩

/-- The next byte keeps the value on its way. -/
theorem Open.Wide.value_next {o : Open} (h : o.Wide) {b : UInt8} (hb : o.low ≤ b ∧ b ≤ o.high) :
    2 ≤ o.value * 64 + b.toNat % 64 := by
  have hlow : o.low.toNat ≤ b.toNat := hb.1
  have hhigh : b.toNat ≤ o.high.toNat := hb.2
  have h1 := h.low
  have h2 := h.high
  have h3 := h.value
  omega

/-- The open character of a decoder, if there is one, is on its way. -/
def Decoder.Wide (d : Decoder) : Prop := ∀ o ∈ d.pending, o.Wide

theorem Decoder.wide_begin (t : List Char) (b : UInt8) : (Decoder.begin t b).Wide := by
  intro o ho
  rw [Decoder.begin] at ho
  rcases lead_cases b with ⟨-, hl⟩ | hl | ⟨o', hl, ho'⟩
  · simp [hl] at ho
  · simp [hl] at ho
  · rw [hl, Option.mem_some_iff] at ho
    exact ho ▸ ho'.wide

theorem Decoder.Wide.step {d : Decoder} (h : d.Wide) (b : UInt8) : (d.step b).Wide := by
  obtain ⟨t, o⟩ := d
  cases o with
  | none => exact wide_begin t b
  | some o =>
    have ho : o.Wide := h o rfl
    simp only [Decoder.step]
    split
    · rename_i hb
      split
      · simp [Decoder.Wide]
      · intro o' ho'
        rw [Option.mem_some_iff] at ho'
        subst ho'
        have hv := ho.value_next hb
        exact ⟨Nat.le_refl 0x80, Nat.le_refl 0xBF, by dsimp only; omega, fun _ => hv⟩
    · exact wide_begin (replacement :: t) b

theorem Decoder.wide_foldl_step (bs : Bytes) {d : Decoder} (h : d.Wide) :
    (bs.foldl Decoder.step d).Wide := by
  induction bs generalizing d with
  | nil => exact h
  | cons b bs ih => exact ih (h.step b)

theorem Decoder.wide_empty : Decoder.empty.Wide := by
  simp [Decoder.Wide, Decoder.empty]

/-! ### Newlines -/

/-- A one-byte character closes the open one and stands for itself. -/
theorem Decoder.Wide.step_ascii {d : Decoder} (h : d.Wide) {b : UInt8} (hb : b.toNat < 0x80) :
    d.step b = ⟨Char.ofNat b.toNat :: d.finish.reverse, none⟩ := by
  obtain ⟨t, o⟩ := d
  have hlead : lead b = .complete (Char.ofNat b.toNat) := by
    unfold lead
    exact if_pos hb
  cases o with
  | none => simp [Decoder.step, Decoder.begin, hlead, Decoder.finish]
  | some o =>
    have hlow : ¬ o.low.toNat ≤ b.toNat := by
      have := (h o rfl).low
      omega
    have hrange : ¬ (o.low ≤ b ∧ b ≤ o.high) := fun hr => hlow hr.1
    simp [Decoder.step, hrange, Decoder.begin, hlead, Decoder.finish]

/-- A character other than the null one is made of its own number only. -/
theorem ofNat_ne {n : Nat} {c : Char} (hc : c.toNat ≠ 0) (h : n ≠ c.toNat) : Char.ofNat n ≠ c := by
  rintro rfl
  by_cases hn : n.isValidChar
  · have hchar : (Char.ofNat n).toNat = n := by
      rw [Char.ofNat, dif_pos hn]
      rfl
    exact h hchar.symm
  · have hchar : (Char.ofNat n).toNat = 0 := by
      rw [Char.ofNat, dif_neg hn]
      rfl
    exact hc hchar

theorem Decoder.newline_notMem_begin {t : List Char} {b : UInt8} (ht : '\n' ∉ t) (hb : b ≠ 10) :
    '\n' ∉ (Decoder.begin t b).text := by
  rw [Decoder.begin]
  rcases lead_cases b with ⟨-, hl⟩ | hl | ⟨o, hl, -⟩
  · have hc : Char.ofNat b.toNat ≠ '\n' :=
      ofNat_ne (by decide) fun h => hb (UInt8.toNat_inj.1 h)
    simp [hl, ht, hc.symm]
  · simpa [hl, replacement] using ht
  · simpa [hl] using ht

theorem Decoder.Wide.newline_notMem_step {d : Decoder} (h : d.Wide) {b : UInt8} (hb : b ≠ 10)
    (ht : '\n' ∉ d.text) : '\n' ∉ (d.step b).text := by
  obtain ⟨t, o⟩ := d
  cases o with
  | none => exact newline_notMem_begin ht hb
  | some o =>
    have ho : o.Wide := h o rfl
    simp only [Decoder.step]
    split
    · split
      · rename_i hlast
        have hv := ho.last hlast
        have hc : Char.ofNat (o.value * 64 + b.toNat % 64) ≠ '\n' :=
          ofNat_ne (by decide) (by show _ ≠ 10; omega)
        simpa [hc.symm] using ht
      · exact ht
    · exact newline_notMem_begin (by simpa [replacement] using ht) hb

theorem newline_notMem_decodeChars {bs : Bytes} (h : 10 ∉ bs) : '\n' ∉ decodeChars bs := by
  have key : ∀ (bs : Bytes) (d : Decoder), 10 ∉ bs → d.Wide → '\n' ∉ d.text →
      '\n' ∉ (bs.foldl Decoder.step d).text := by
    intro bs
    -- along the way the decoder stays wide, which keeps newlines out of longer characters
    induction bs with
    | nil => exact fun d _ _ ht => ht
    | cons b bs ih =>
      intro d hbs hd ht
      rw [List.mem_cons, not_or] at hbs
      exact ih (d.step b) hbs.2 (hd.step b) (hd.newline_notMem_step (Ne.symm hbs.1) ht)
  have ht := key bs .empty h Decoder.wide_empty (by simp [Decoder.empty])
  rw [decodeChars, Decoder.finish]
  cases (bs.foldl Decoder.step .empty).pending with
  | none => simpa using ht
  | some o => simpa [replacement] using ht

/-- After a newline the text is decoded as if it stood alone. -/
theorem decodeChars_line (xs ys : Bytes) :
    decodeChars (xs ++ 10 :: ys) = decodeChars xs ++ '\n' :: decodeChars ys := by
  have hd : (xs.foldl Decoder.step .empty).Wide := Decoder.wide_foldl_step xs Decoder.wide_empty
  rw [decodeChars, List.foldl_append, List.foldl_cons, hd.step_ascii (by decide),
    Decoder.finish_foldl_step]
  simp [decodeChars]

/-- A carriage return at the end is decoded for itself. -/
theorem decodeChars_return (bs : Bytes) : decodeChars (bs ++ [13]) = decodeChars bs ++ ['\r'] := by
  have hd : (bs.foldl Decoder.step .empty).Wide := Decoder.wide_foldl_step bs Decoder.wide_empty
  rw [decodeChars, List.foldl_append, List.foldl_cons, hd.step_ascii (by decide)]
  simp [decodeChars, Decoder.finish]

theorem Decoder.getLast?_finish_begin {b : UInt8} (hb : b ≠ 13) (t : List Char) :
    (Decoder.begin t b).finish.getLast? ≠ some '\r' := by
  rw [Decoder.begin]
  rcases lead_cases b with ⟨-, hl⟩ | hl | ⟨o, hl, -⟩
  · have hc : Char.ofNat b.toNat ≠ '\r' :=
      ofNat_ne (by decide) fun h => hb (UInt8.toNat_inj.1 h)
    simp [hl, Decoder.finish, hc]
  · simp [hl, Decoder.finish, replacement]
  · simp [hl, Decoder.finish, replacement]

/-- No other byte leaves a carriage return at the end. -/
theorem getLast?_decodeChars_ne {b : UInt8} (hb : b ≠ 13) (bs : Bytes) :
    (decodeChars (bs ++ [b])).getLast? ≠ some '\r' := by
  have hd : (bs.foldl Decoder.step .empty).Wide := Decoder.wide_foldl_step bs Decoder.wide_empty
  rw [decodeChars, List.foldl_append, List.foldl_cons, List.foldl_nil]
  generalize bs.foldl Decoder.step .empty = d at hd ⊢
  obtain ⟨t, o⟩ := d
  cases o with
  | none => exact Decoder.getLast?_finish_begin hb t
  | some o =>
    have ho : o.Wide := hd o rfl
    simp only [Decoder.step]
    split
    · split
      · rename_i hlast
        have hv := ho.last hlast
        have hc : Char.ofNat (o.value * 64 + b.toNat % 64) ≠ '\r' :=
          ofNat_ne (by decide) (by show _ ≠ 13; omega)
        simp [Decoder.finish, hc]
      · simp [Decoder.finish, replacement]
    · exact Decoder.getLast?_finish_begin hb (replacement :: t)

/-- Every byte leaves a trace. -/
theorem Decoder.finish_step_ne_nil (d : Decoder) (b : UInt8) : (d.step b).finish ≠ [] := by
  have hbegin : ∀ t, (Decoder.begin t b).finish ≠ [] := by
    intro t
    simp only [Decoder.begin]
    cases lead b <;> simp [Decoder.finish]
  obtain ⟨t, o⟩ := d
  cases o with
  | none => exact hbegin t
  | some o =>
    simp only [Decoder.step]
    split
    · split <;> simp [Decoder.finish]
    · exact hbegin _

theorem decodeChars_ne_nil {bs : Bytes} (h : bs ≠ []) : decodeChars bs ≠ [] := by
  rw [← List.dropLast_concat_getLast h, decodeChars, List.foldl_append]
  exact Decoder.finish_step_ne_nil _ _

theorem isNewline_eq_false_iff {b : UInt8} : Log.isNewline b = false ↔ b ≠ 10 := by
  simp [Log.isNewline]

theorem notMem_of_unended {xs : Bytes} (h : ∀ b ∈ xs, Log.isNewline b = false) : 10 ∉ xs :=
  fun h10 => isNewline_eq_false_iff.1 (h 10 h10) rfl

/-- **Cutting and decoding commute**: the lines of a log can be decoded one by one, or cut from
the decoded log. -/
theorem map_decodeChars_pieces (log : Bytes) :
    (pieces Log.isNewline log).map decodeChars = pieces (· == '\n') (decodeChars log) := by
  have hchars : ∀ {xs : Bytes}, (∀ b ∈ xs, Log.isNewline b = false) →
      ∀ c ∈ decodeChars xs, (c == '\n') = false := by
    intro xs hxs c hc
    rw [beq_eq_false_iff_ne]
    rintro rfl
    exact newline_notMem_decodeChars (notMem_of_unended hxs) hc
  induction log using line_induction Log.isNewline with
  | nil => rfl
  | unended xs hne hxs =>
    rw [pieces_unended hne hxs, pieces_unended (decodeChars_ne_nil hne) (hchars hxs)]
    rfl
  | line xs e ys hxs he ih =>
    obtain rfl : e = 10 := by simpa [Log.isNewline] using he
    have hend : decodeChars (xs ++ [10]) = decodeChars xs ++ ['\n'] := decodeChars_line xs []
    rw [pieces_line hxs he, decodeChars_line, pieces_line (hchars hxs) (by decide), List.map_cons,
      ih, hend]

end InlineAudit.Utf8
