/-
A value that is printed without blanks.

There is nothing between the tokens, so a word or a number is ended by the comma or the bracket
after it:

* `reads_compactChars` — a value without blanks is cut into its tokens;
* **`parse?_compact`** — so the text of a value is read as that value.
-/
import InlineAudit.Proofs.Json.RoundTrip

namespace InlineAudit.Json

open Lexer

/-- What is read inside brackets is closed by the second of them. -/
theorem Lexer.Reads.bracketed {cs : List Char} {ts : List Token} {b e : Char} {tb te : Token}
    (h : Reads cs ts) (hb : punctuation? b = some tb) (he : punctuation? e = some te)
    (hstops : Stops e) : Cuts (b :: cs ++ [e]) (tb :: ts ++ [te]) :=
  (cuts_punctuation hb).append (h.close hstops (cuts_punctuation he))

mutual

theorem reads_compactChars : (j : Json) → j.WellFormed → Reads (compactChars j) j.tokens
  | .null, _ => reads_null
  | .bool true, _ => reads_true
  | .bool false, _ => reads_false
  | .number _, h => reads_number h
  | .string text, _ => (cuts_quoted text).reads
  | .array items, h => by
    have hall := (reads_compactItems items h).bracketed (b := '[') (e := ']') rfl rfl ⟨rfl, rfl⟩
    simpa [compactChars, tokens] using hall.reads
  | .object members, h => by
    have hall := (reads_compactMembers members h).bracketed (b := '\x7b') (e := '\x7d') rfl rfl
      ⟨rfl, rfl⟩
    simpa [compactChars, tokens] using hall.reads

theorem reads_compactItems :
    (items : List Json) → WellFormedItems items →
      Reads (compactItems items) (tokensOfItems items)
  | [], _ => cuts_nil.reads
  | [j], h => reads_compactChars j h.1
  | j :: i :: rest, h =>
    (reads_compactChars j h.1).comma (reads_compactItems (i :: rest) h.2)

theorem reads_compactMembers :
    (members : List (Option String × Json)) → WellFormedMembers members →
      Reads (compactMembers members) (tokensOfMembers members)
  | [], _ => cuts_nil.reads
  | [(k, j)], h => by
    have hmember := reads_member k [] (fun _ hc => nomatch hc) (reads_compactChars j h.1)
    simpa [compactMembers, tokensOfMembers] using hmember
  | (k, j) :: m :: rest, h => by
    have hmember := reads_member k [] (fun _ hc => nomatch hc) (reads_compactChars j h.1)
    have hrest := reads_compactMembers (m :: rest) h.2
    simpa [compactMembers, tokensOfMembers] using hmember.comma hrest

end

/-- **A value that is printed without blanks is read back.** -/
theorem parse?_compact {j : Json} (h : j.WellFormed) : parse? j.compact = some j := by
  rw [parse?, compact, String.toList_ofList, (reads_compactChars j h).tokens?]
  exact ofTokens?_tokens j

end InlineAudit.Json
