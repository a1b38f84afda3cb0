/-
The order of texts is the order of their bytes.

Texts are compared by code points, and what is printed is compared by bytes.  UTF-8 was made so
that the two agree:

* `Utf8.encodeChar_append_lt` — of two characters the smaller one has the smaller bytes, whatever
  follows;
* `Utf8.encode_lt_encode_iff`, `Utf8.encode_le_encode_iff` — hence the order of two texts can be
  read off their bytes.
-/
import InlineAudit.Text.Utf8
import Mathlib.Tactic.SplitIfs

namespace InlineAudit.Utf8

/-- The first byte in which two characters differ decides, so what follows them does not
matter. -/
theorem encodeChar_append_lt {c d : Char} (h : c < d) (xs ys : Bytes) :
    String.utf8EncodeChar c ++ xs < String.utf8EncodeChar d ++ ys := by
  have hlt : c.val.toNat < d.val.toNat := h
  have hd : d.val.toNat < 0x110000 := by
    rcases d.valid with hd | hd <;> omega
  unfold String.utf8EncodeChar
  dsimp only
  -- one case for each pair of lengths; the longer encoding has the larger first byte
  split_ifs <;>
    simp only [List.cons_append, List.nil_append, List.cons_lt_cons_iff, UInt8.lt_iff_toNat_lt,
      ← UInt8.toNat_inj, UInt8.toNat_ofNat'] <;>
    simp (disch := omega) only [Nat.reducePow, Nat.mod_eq_of_lt] <;>
    omega

theorem encodeChars_lt_of_lt {as bs : List Char} (h : as < bs) :
    encodeChars as < encodeChars bs := by
  induction h with
  | nil =>
    rename_i c cs
    obtain ⟨b, rest, hc⟩ := List.exists_cons_of_ne_nil (String.utf8EncodeChar_ne_nil (c := c))
    simp [encodeChars, hc]
  | cons _ ih =>
    simp only [encodeChars, List.flatMap_cons]
    exact List.append_left_lt ih
  | rel hcd =>
    simp only [encodeChars, List.flatMap_cons]
    exact encodeChar_append_lt hcd _ _

/-- The order of texts can be read off their bytes. -/
theorem encode_lt_encode_iff {a b : String} : encode a < encode b ↔ a < b := by
  constructor
  · intro h
    have hle : a ≤ b := fun hba => List.lt_asymm h (encodeChars_lt_of_lt hba)
    have hne : a ≠ b := by
      rintro rfl
      exact List.lt_irrefl _ h
    exact Std.lt_of_le_of_ne hle hne
  · exact encodeChars_lt_of_lt

theorem encode_le_encode_iff {a b : String} : encode a ≤ encode b ↔ a ≤ b :=
  not_congr encode_lt_encode_iff

end InlineAudit.Utf8
