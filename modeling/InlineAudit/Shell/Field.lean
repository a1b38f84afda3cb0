import InlineAudit.Shell.Pattern

/-!
The fields that a word expands to.

* `Shell.Piece` — a character of an expanded word, and how it came there;
* `Shell.Piece.fields` — the fields of an expanded word;
* `Shell.Piece.assigned` — the texts for a number of variables.

Only what comes from an expansion outside of quotes is split.  Characters that separate fields are
blanks or others: blanks next to each other count as one, and around another one they do not count.
-/

namespace InlineAudit.Shell

/-- A character of an expanded word, or a mark. -/
inductive Piece
  /-- A character; it stands for itself in a pattern if it is literal, and may separate fields. -/
  | char (c : Char) (isLiteral separates : Bool)
  /-- Quotes, which make a field even when it is empty. -/
  | quotes
  /-- A further field begins. -/
  | next
  /-- An expansion begins: blanks before it do not go together with what is in it. -/
  | expansion
  deriving Repr, DecidableEq, Inhabited

/-- The characters that separate fields unless a variable says otherwise. -/
def defaultSeparators : List Char := [' ', '\t', '\n']

/-- The character that stands between the arguments of a script outside of quotes. -/
def betweenArguments : Char := '\x00'

namespace Piece

/-- The characters of a text in quotes. -/
def ofQuoted (cs : List Char) : List Piece := cs.map (.char · true false)

/-- The characters of an expansion outside of quotes. -/
def ofSplit (cs : List Char) : List Piece := .expansion :: cs.map (.char · false true)

/-- The characters of an expansion, in quotes or not. -/
def ofExpansion (inQuotes : Bool) (cs : List Char) : List Piece :=
  if inQuotes then ofQuoted cs else ofSplit cs

/-- The text that some pieces make up when they are not split. -/
def text : List Piece → List Char
  | .char c _ _ :: rest => c :: text rest
  | .next :: rest => ' ' :: text rest
  | .quotes :: rest | .expansion :: rest => text rest
  | [] => []

/-- The pattern that some pieces make up.  A backslash that comes from an expansion takes the
meaning of the next character away. -/
def pattern : List Piece → Pattern
  | .char '\\' false _ :: .char c _ _ :: rest => ⟨c, true⟩ :: pattern rest
  | .char c isLiteral _ :: rest => ⟨c, isLiteral⟩ :: pattern rest
  | .next :: rest => ⟨' ', true⟩ :: pattern rest
  | .quotes :: rest | .expansion :: rest => pattern rest
  | [] => []

/-- A piece that separates fields; if so, whether it is a blank. -/
def separator? (separators : List Char) : Piece → Option Bool
  | .char c _ true =>
    if c == betweenArguments then some true
    else if separators.contains c then some (defaultSeparators.contains c)
    else none
  | _ => none

/-- The cut into fields: the finished fields, the last one first, and the open one, its last
character first. -/
structure Cut where
  finished : List Pattern
  current : Option Pattern
  /-- A blank ended the last field. -/
  afterBlank : Bool
  deriving Repr, Inhabited

namespace Cut

/-- A character of the open field. -/
def add (k : Cut) (c : PatternChar) : Cut :=
  { k with current := some (c :: k.current.getD []), afterBlank := false }

/-- The open field ends, even if there is none. -/
def close (k : Cut) (isBlank : Bool) : Cut :=
  ⟨(k.current.getD []).reverse :: k.finished, none, isBlank⟩

/-- A piece. -/
def step (separators : List Char) (k : Cut) (p : Piece) : Cut :=
  match separator? separators p with
  | some blank =>
    if k.afterBlank then { k with afterBlank := blank }
    else if k.current.isNone && blank then k
    else k.close blank
  | none =>
    match p with
    | .char c isLiteral _ => k.add ⟨c, isLiteral⟩
    | .quotes => { k with current := some (k.current.getD []), afterBlank := false }
    | .next => { k.close false with current := some [] }
    | .expansion => { k with afterBlank := false }

/-- The fields in order. -/
def toList (k : Cut) : List Pattern :=
  match k.current with
  | some _ => (k.close false).finished.reverse
  | none => k.finished.reverse

end Cut

/-- The fields that some pieces make up. -/
def fields (separators : List Char) (ps : List Piece) : List Pattern :=
  (ps.foldl (Cut.step separators) ⟨[], none, false⟩).toList

/-- The number of pieces in the last of a number of fields, if not all of them belong to it: what is
left out are the separators at the end, if at most one of them is no blank.  Pieces that cannot
separate fields do not count as text here.  Given are whether a separator has been seen, whether one
that is no blank may follow it, and the number of pieces before. -/
def lastLength? (separators : List Char) :
    Bool → Bool → Option Nat → Nat → List Piece → Option Nat
  | _, _, length, _, [] => length
  | ended, joins, length, n, p :: ps =>
    match p with
    | .char _ _ true =>
      match separator? separators p, ended with
      | some isBlank, false => lastLength? separators true isBlank (some n) (n + 1) ps
      | some true, true => lastLength? separators true joins (length.or (some n)) (n + 1) ps
      | some false, true =>
        lastLength? separators true false (if joins then length else none) (n + 1) ps
      | none, _ => lastLength? separators ended false none (n + 1) ps
    | _ => lastLength? separators ended false length (n + 1) ps

/-- The last field of a number of fields: everything that is left without the separators at its
end. -/
def lastField (separators : List Char) (ps : List Piece) : List Char :=
  text (ps.take ((lastLength? separators false false none 0 ps).getD ps.length))

/-- The first field and what follows it. -/
def firstField (separators : List Char) (ps : List Piece) : List Char × List Piece :=
  let isBlank (p : Piece) : Bool := separator? separators p == some true
  let first := ps.takeWhile fun p => (separator? separators p).isNone
  match (ps.drop first.length).dropWhile isBlank with
  | p :: more =>
    if separator? separators p == some false then (text first, more.dropWhile isBlank)
    else (text first, p :: more)
  | [] => (text first, [])

/-- The texts for a number of variables: a field for each, and the last one takes what is left. -/
def assigned (separators : List Char) : Nat → List Piece → List (List Char)
  | 0, _ => []
  | 1, ps => [lastField separators (ps.dropWhile fun p => separator? separators p == some true)]
  | n + 2, ps =>
    let ps := ps.dropWhile fun p => separator? separators p == some true
    let (first, rest) := firstField separators ps
    first :: assigned separators (n + 1) rest

end Piece

end InlineAudit.Shell
