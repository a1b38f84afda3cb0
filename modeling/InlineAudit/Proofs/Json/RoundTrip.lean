/-
A printed value is read back.

* `Reader.foldlM_step?_tokens` — the machine that puts tokens together makes a value of the tokens
  of it, whatever is open around it;
* **`parse?_pretty`** — so the text of a value is read as that value.
-/
import InlineAudit.Proofs.Json.Lexing

namespace InlineAudit.Json

namespace Reader

variable {t : Token} {ts : List Token} {frames : List Frame}

/-- Where an item may stand and the array does not end, a value begins. -/
theorem step?_item (h : t ≠ .endArray) : step? ⟨.item, frames⟩ t = step? ⟨.value, frames⟩ t := by
  cases t <;> first | rfl | exact absurd rfl h

/-- Where a first key may stand and the object does not end, a key begins. -/
theorem step?_member (h : t ≠ .endObject) : step? ⟨.member, frames⟩ t = step? ⟨.key, frames⟩ t := by
  cases t <;> first | rfl | exact absurd rfl h

/-- A value does not begin with the end of an array. -/
theorem exists_tokens_eq_cons (j : Json) : ∃ t ts, j.tokens = t :: ts ∧ t ≠ .endArray := by
  cases j with
  | array items => exact ⟨_, _, rfl, fun h => nomatch h⟩
  | object members => exact ⟨_, _, rfl, fun h => nomatch h⟩
  | null => exact ⟨_, _, rfl, fun h => nomatch h⟩
  | bool b => exact ⟨_, _, rfl, fun h => nomatch h⟩
  | number written => exact ⟨_, _, rfl, fun h => nomatch h⟩
  | string text => exact ⟨_, _, rfl, fun h => nomatch h⟩

theorem tokensOfItems_cons_cons (j i : Json) (rest : List Json) :
    tokensOfItems (j :: i :: rest) = j.tokens ++ .comma :: tokensOfItems (i :: rest) := rfl

theorem exists_tokensOfItems_eq_cons (j : Json) (rest : List Json) :
    ∃ t ts, tokensOfItems (j :: rest) = t :: ts ∧ t ≠ .endArray := by
  obtain ⟨t, ts, hj, ht⟩ := exists_tokens_eq_cons j
  cases rest with
  | nil => exact ⟨t, ts, hj, ht⟩
  | cons i rest => exact ⟨t, _, by rw [tokensOfItems_cons_cons, hj]; rfl, ht⟩

theorem exists_tokensOfMembers_eq_cons (m : Option String × Json)
    (rest : List (Option String × Json)) :
    ∃ t ts, tokensOfMembers (m :: rest) = t :: ts ∧ t ≠ .endObject := by
  cases rest with
  | nil => exact ⟨_, _, rfl, fun h => nomatch h⟩
  | cons m' rest => exact ⟨_, _, rfl, fun h => nomatch h⟩

mutual

/-- The tokens of a value are put together to it. -/
theorem foldlM_step?_tokens (frames : List Frame) :
    (j : Json) → j.tokens.foldlM step? ⟨.value, frames⟩ = some ⟨.separator j, frames⟩
  | .null | .bool _ | .number _ | .string _ => rfl
  | .array [] | .object [] => rfl
  | .array (j :: items) => by
    -- the frame of the list holds what has been read of it, which is nothing yet
    have hitems := foldlM_step?_items frames [] (j :: items) (List.cons_ne_nil _ _)
    obtain ⟨t, ts, hts, ht⟩ := exists_tokensOfItems_eq_cons j items
    rw [hts, List.cons_append, List.foldlM_cons, ← step?_item ht] at hitems
    rw [tokens, hts]
    exact hitems
  | .object (m :: members) => by
    have hmembers := foldlM_step?_members frames [] (m :: members) (List.cons_ne_nil _ _)
    obtain ⟨t, ts, hts, ht⟩ := exists_tokensOfMembers_eq_cons m members
    rw [hts, List.cons_append, List.foldlM_cons, ← step?_member ht] at hmembers
    rw [tokens, hts]
    exact hmembers

theorem foldlM_step?_items (frames : List Frame) (done : List Json) :
    (items : List Json) → items ≠ [] →
      (tokensOfItems items ++ [Token.endArray]).foldlM step? ⟨.value, .array done :: frames⟩ =
        some ⟨.separator (.array (done.reverse ++ items)), frames⟩
  | [], hne => absurd rfl hne
  | [j], _ => by
    have hvalue := foldlM_step?_tokens (.array done :: frames) j
    simp [tokensOfItems, step?, continue?, hvalue]
  | j :: i :: rest, _ => by
    have hvalue := foldlM_step?_tokens (.array done :: frames) j
    have hrest := foldlM_step?_items frames (j :: done) (i :: rest) (List.cons_ne_nil _ _)
    rw [tokensOfItems_cons_cons, List.append_assoc, List.foldlM_append, hvalue]
    simpa [step?, continue?] using hrest

theorem foldlM_step?_members (frames : List Frame) (done : List (Option String × Json)) :
    (members : List (Option String × Json)) → members ≠ [] →
      (tokensOfMembers members ++ [Token.endObject]).foldlM step?
          ⟨.key, .object done :: frames⟩ =
        some ⟨.separator (.object (done.reverse ++ members)), frames⟩
  | [], hne => absurd rfl hne
  | [(k, j)], _ => by
    have hvalue := foldlM_step?_tokens (.member k :: .object done :: frames) j
    simp [tokensOfMembers, step?, beginKey?, continue?, hvalue]
  | (k, j) :: m :: rest, _ => by
    have hvalue := foldlM_step?_tokens (.member k :: .object done :: frames) j
    have hrest := foldlM_step?_members frames ((k, j) :: done) (m :: rest) (List.cons_ne_nil _ _)
    simpa [tokensOfMembers, step?, beginKey?, continue?, hvalue] using hrest

end

end Reader

theorem ofTokens?_tokens (j : Json) : ofTokens? j.tokens = some j := by
  rw [ofTokens?, Reader.empty, Reader.foldlM_step?_tokens]
  rfl

/-- **A value that is printed over several lines is read back.** -/
theorem parse?_pretty {j : Json} (h : j.WellFormed) : parse? j.pretty = some j := by
  rw [parse?, pretty, String.toList_ofList, tokens?_prettyChars h]
  exact ofTokens?_tokens j

end InlineAudit.Json
