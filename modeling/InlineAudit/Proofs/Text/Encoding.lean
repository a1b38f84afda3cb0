/-
Text that is encoded and decoded again.

The decoder never fails, so it has to be said that it finds the text in the bytes of a text, and
nothing else:

* `Decoder.foldl_step_encodeChar` — the bytes of a character are read as this character;
* **`decode?_encode`** — the bytes of a text are UTF-8, and of this text.
-/
import InlineAudit.Text.Utf8
import Mathlib.Tactic.SplitIfs

namespace InlineAudit.Utf8

theorem toNat_ofNat {n : Nat} (h : n < 256) : (UInt8.ofNat n).toNat = n := by
  rw [UInt8.toNat_ofNat']
  exact Nat.mod_eq_of_lt h

/-- The open character allows this as its next byte. -/
def Open.Allows (o : Open) (n : Nat) : Prop := o.low.toNat ≤ n ∧ n ≤ o.high.toNat

/-- A byte that is allowed is taken into the value of the open character. -/
theorem Decoder.step_open {text : List Char} {o : Open} {n : Nat} (hn : n < 256)
    (h : o.Allows n) :
    Decoder.step ⟨text, some o⟩ (UInt8.ofNat n) =
      if o.owed ≤ 1 then ⟨Char.ofNat (o.value * 64 + n % 64) :: text, none⟩
      else ⟨text, some ⟨o.value * 64 + n % 64, o.owed - 1, 0x80, 0xBF⟩⟩ := by
  have hrange : o.low ≤ UInt8.ofNat n ∧ UInt8.ofNat n ≤ o.high := by
    rw [UInt8.le_iff_toNat_le, UInt8.le_iff_toNat_le, toNat_ofNat hn]
    exact h
  rw [Decoder.step]
  dsimp only
  rw [if_pos hrange, toNat_ofNat hn]

/-- Any byte of the form that only later bytes have continues a character after its second byte. -/
theorem Open.allows_later (value owed n : Nat) :
    Open.Allows ⟨value, owed, 0x80, 0xBF⟩ (n % 64 + 128) := by
  have hlow : (0x80 : UInt8).toNat = 128 := rfl
  have hhigh : (0xBF : UInt8).toNat = 191 := rfl
  rw [Open.Allows]
  dsimp only
  omega

/-- Later bytes bring six bits each. -/
theorem Decoder.foldl_step_later (text : List Char) (o : Open) (ns : List Nat) {n : Nat}
    (h : o.Allows (n % 64 + 128)) (howed : o.owed = ns.length + 1) :
    ((n :: ns).map fun n => UInt8.ofNat (n % 64 + 128)).foldl Decoder.step ⟨text, some o⟩ =
      ⟨Char.ofNat ((n :: ns).foldl (fun v n => v * 64 + n % 64) o.value) :: text, none⟩ := by
  have hbits (n : Nat) : (n % 64 + 128) % 64 = n % 64 := by omega
  -- each byte is owed by those before it
  induction ns generalizing n o with
  | nil =>
    have hlast : o.owed ≤ 1 := Nat.le_of_eq howed
    rw [List.map_cons, List.foldl_cons, step_open (by omega) h, if_pos hlast, hbits]
    rfl
  | cons m ns ih =>
    have hmore : ¬ o.owed ≤ 1 := by
      rw [howed, List.length_cons]
      omega
    rw [List.map_cons, List.foldl_cons, step_open (by omega) h, if_neg hmore, hbits,
      ih _ (Open.allows_later _ _ m) (by rw [howed]; rfl)]
    rfl

/-- The first byte of a character of two bytes. -/
theorem lead_two {v : Nat} (hlow : 0x80 ≤ v) (hhigh : v < 0x800) :
    lead (UInt8.ofNat (v / 64 % 32 + 192)) = .opens ⟨v / 64, 1, 0x80, 0xBF⟩ := by
  unfold lead
  dsimp only
  rw [toNat_ofNat (by omega), if_neg (by omega), if_neg (by omega), if_pos (by omega),
    show v / 64 % 32 + 192 - 192 = v / 64 by omega]

/-- The first byte of a character of three bytes. -/
theorem lead_three {v : Nat} (hlow : 0x800 ≤ v) (hhigh : v < 0x10000)
    (hvalid : v < 0xD800 ∨ 0xDFFF < v) :
    ∃ low high, lead (UInt8.ofNat (v / 4096 % 16 + 224)) = .opens ⟨v / 4096, 2, low, high⟩ ∧
      Open.Allows ⟨v / 4096, 2, low, high⟩ (v / 64 % 64 + 128) := by
  have hn : v / 4096 % 16 + 224 < 256 := by omega
  unfold lead
  dsimp only
  rw [toNat_ofNat hn, if_neg (by omega), if_neg (by omega), if_neg (by omega)]
  -- the second byte is bounded below after the first lead, and above before the surrogates
  by_cases hfirst : v / 4096 = 0
  · have ha0 : (0xA0 : UInt8).toNat = 160 := rfl
    have hbf : (0xBF : UInt8).toNat = 191 := rfl
    rw [if_pos (by omega), hfirst]
    refine ⟨_, _, rfl, ?_⟩
    rw [Open.Allows]
    dsimp only
    omega
  · rw [if_neg (by omega)]
    by_cases hlast : v / 4096 = 0xD
    · have h80 : (0x80 : UInt8).toNat = 128 := rfl
      have h9f : (0x9F : UInt8).toNat = 159 := rfl
      rw [if_pos (by omega), hlast]
      refine ⟨_, _, rfl, ?_⟩
      rw [Open.Allows]
      dsimp only
      omega
    · rw [if_neg (by omega), if_pos (by omega),
        show v / 4096 % 16 + 224 - 224 = v / 4096 by omega]
      exact ⟨_, _, rfl, Open.allows_later _ _ _⟩

/-- The first byte of a character of four bytes. -/
theorem lead_four {v : Nat} (hlow : 0x10000 ≤ v) (hhigh : v < 0x110000) :
    ∃ low high, lead (UInt8.ofNat (v / 262144 % 8 + 240)) = .opens ⟨v / 262144, 3, low, high⟩ ∧
      Open.Allows ⟨v / 262144, 3, low, high⟩ (v / 4096 % 64 + 128) := by
  have hn : v / 262144 % 8 + 240 < 256 := by omega
  unfold lead
  dsimp only
  rw [toNat_ofNat hn, if_neg (by omega), if_neg (by omega), if_neg (by omega), if_neg (by omega),
    if_neg (by omega), if_neg (by omega)]
  -- the second byte is bounded below after the first lead, and above after the last
  by_cases hfirst : v / 262144 = 0
  · have h90 : (0x90 : UInt8).toNat = 144 := rfl
    have hbf : (0xBF : UInt8).toNat = 191 := rfl
    rw [if_pos (by omega), hfirst]
    refine ⟨_, _, rfl, ?_⟩
    rw [Open.Allows]
    dsimp only
    omega
  · rw [if_neg (by omega)]
    by_cases hlast : v / 262144 = 4
    · have h80 : (0x80 : UInt8).toNat = 128 := rfl
      have h8f : (0x8F : UInt8).toNat = 143 := rfl
      rw [if_neg (by omega), if_pos (by omega), hlast]
      refine ⟨_, _, rfl, ?_⟩
      rw [Open.Allows]
      dsimp only
      omega
    · rw [if_pos (by omega), show v / 262144 % 8 + 240 - 240 = v / 262144 by omega]
      exact ⟨_, _, rfl, Open.allows_later _ _ _⟩

theorem Decoder.step_lead {text : List Char} {b : UInt8} {o : Open} (h : lead b = .opens o) :
    Decoder.step ⟨text, none⟩ b = ⟨text, some o⟩ := by
  rw [Decoder.step, Decoder.begin, h]

/-- The bytes of a character are read as this character. -/
theorem Decoder.foldl_step_encodeChar (text : List Char) (c : Char) :
    (String.utf8EncodeChar c).foldl Decoder.step ⟨text, none⟩ = ⟨c :: text, none⟩ := by
  have hvalid : c.val.toNat < 0xD800 ∨ 0xDFFF < c.val.toNat ∧ c.val.toNat < 0x110000 := c.valid
  have hc : Char.ofNat c.val.toNat = c := Char.ofNat_toNat c
  unfold String.utf8EncodeChar
  dsimp only
  generalize c.val.toNat = v at hvalid hc
  -- one case for each number of bytes
  split_ifs with h1 h2 h3
  · have hlead : lead (UInt8.ofNat v) = .complete (Char.ofNat v) := by
      unfold lead
      dsimp only
      rw [toNat_ofNat (by omega), if_pos (by omega)]
    simp only [List.foldl_cons, List.foldl_nil, Decoder.step, Decoder.begin, hlead, hc]
  · have hvalue : v / 64 * 64 + v % 64 = v := by omega
    have hrest := foldl_step_later text ⟨v / 64, 1, 0x80, 0xBF⟩ [] (Open.allows_later _ _ v) rfl
    rw [List.foldl_cons, step_lead (lead_two (by omega) (by omega))]
    refine hrest.trans ?_
    rw [List.foldl_cons, List.foldl_nil, hvalue, hc]
  · obtain ⟨low, high, hlead, hsecond⟩ := lead_three (v := v) (by omega) (by omega) (by omega)
    have hvalue : (v / 4096 * 64 + v / 64 % 64) * 64 + v % 64 = v := by omega
    have hrest := foldl_step_later text ⟨v / 4096, 2, low, high⟩ [v] hsecond rfl
    rw [List.foldl_cons, step_lead hlead]
    refine hrest.trans ?_
    rw [List.foldl_cons, List.foldl_cons, List.foldl_nil, hvalue, hc]
  · obtain ⟨low, high, hlead, hsecond⟩ := lead_four (v := v) (by omega) (by omega)
    have hvalue : ((v / 262144 * 64 + v / 4096 % 64) * 64 + v / 64 % 64) * 64 + v % 64 = v := by
      omega
    have hrest := foldl_step_later text ⟨v / 262144, 3, low, high⟩ [v / 64, v] hsecond rfl
    rw [List.foldl_cons, step_lead hlead]
    refine hrest.trans ?_
    rw [List.foldl_cons, List.foldl_cons, List.foldl_cons, List.foldl_nil, hvalue, hc]

theorem Decoder.foldl_step_encodeChars (text cs : List Char) :
    (encodeChars cs).foldl Decoder.step ⟨text, none⟩ = ⟨cs.reverse ++ text, none⟩ := by
  induction cs generalizing text with
  | nil => rfl
  | cons c cs ih =>
    rw [encodeChars, List.flatMap_cons, List.foldl_append, foldl_step_encodeChar,
      List.reverse_cons, List.append_assoc]
    exact ih _

theorem decodeChars_encodeChars (cs : List Char) : decodeChars (encodeChars cs) = cs := by
  rw [decodeChars, Decoder.empty, Decoder.foldl_step_encodeChars, List.append_nil]
  exact List.reverse_reverse cs

theorem encodeChars_inj {as bs : List Char} : encodeChars as = encodeChars bs ↔ as = bs := by
  refine ⟨fun h => ?_, congrArg encodeChars⟩
  rw [← decodeChars_encodeChars as, h, decodeChars_encodeChars]

/-- **A text that is encoded is decoded again.** -/
theorem decode?_encode (s : String) : decode? (encode s) = some s := by
  rw [decode?, encode, decodeChars_encodeChars, if_pos rfl, String.ofList_toList]

end InlineAudit.Utf8
