/-!
Searching a text for a fixed phrase, from the left, and the order of texts.

* `after?` — what follows the first occurrence of a phrase;
* `word` — the run of characters up to the next space;
* `Text.precedes`, `Text.listPrecedes` — one text, or list of texts, comes before another.

The searches work on characters, one suffix at a time, so an occurrence may overlap the one
before it.  Characters are ordered by their numbers; where one text is the start of the other, the
shorter one comes first.
-/

namespace InlineAudit

/-- What remains of a text that starts with a phrase. -/
def dropPhrase? : List Char → List Char → Option (List Char)
  | [], cs => some cs
  | _ :: _, [] => none
  | p :: ps, c :: cs => if p = c then dropPhrase? ps cs else none

/-- What follows the first occurrence of a phrase. -/
def after? (phrase : List Char) : List Char → Option (List Char)
  | [] => dropPhrase? phrase []
  | c :: cs =>
    match dropPhrase? phrase (c :: cs) with
    | some rest => some rest
    | none => after? phrase cs

/-- The characters up to the next space, which is U+0020 alone. -/
def word (cs : List Char) : List Char :=
  cs.takeWhile (· ≠ ' ')

/-- A text cut at the first occurrence of a character, which is left out. -/
def splitAtFirst? (sep : Char) (cs : List Char) : Option (List Char × List Char) :=
  match cs.dropWhile (· ≠ sep) with
  | [] => none
  | _ :: rest => some (cs.takeWhile (· ≠ sep), rest)

namespace Text

/-- A text comes before another one. -/
def precedes (a b : List Char) : Bool := a.lex b fun c d => c.toNat < d.toNat

/-- A list of texts comes before another one. -/
def listPrecedes (as bs : List (List Char)) : Bool := as.lex bs precedes

end Text

end InlineAudit
