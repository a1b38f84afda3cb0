import InlineAudit.Text.Decimal
import InlineAudit.Yaml.Scalar.Gap

/-!
Scalars in quotes.

* `Yaml.quoted?` — the scalar after an opening quote.

Between single quotes a quote is written twice, and nothing else is special.  Between double quotes
a backslash begins an escape; a backslash at the end of a line joins it to the next.  Line breaks
fold, as they do in plain scalars.
-/

namespace InlineAudit.Yaml

/-- The character that a letter after a backslash stands for. -/
def escapedChar? : Char → Option Char
  | '0' => some '\x00'
  | 'a' => some '\x07'
  | 'b' => some '\x08'
  | 't' => some '\t'
  | '\t' => some '\t'
  | 'n' => some '\n'
  | 'v' => some '\x0b'
  | 'f' => some '\x0c'
  | 'r' => some '\r'
  | 'e' => some '\x1b'
  | ' ' => some ' '
  | '"' => some '"'
  | '/' => some '/'
  | '\\' => some '\\'
  | 'N' => some '\u0085'
  | '_' => some '\u00a0'
  | 'L' => some '\u2028'
  | 'P' => some '\u2029'
  | _ => none

/-- The number of hexadecimal digits after a letter that follows a backslash. -/
def escapeWidth? : Char → Option Nat
  | 'x' => some 2
  | 'u' => some 4
  | 'U' => some 8
  | _ => none

/-- The value of a number of hexadecimal digits at the start of a text. -/
def hexNumber? : Nat → Nat → List Char → Option Nat
  | 0, n, _ => some n
  | _ + 1, _, [] => none
  | k + 1, n, c :: cs =>
    match digitValue? c with
    | some d => hexNumber? k (16 * n + d) cs
    | none => none

/-- The character with a number, if there is one. -/
def charOfNumber? (n : Nat) : Option Char :=
  if n < 0xD800 ∨ (0xDFFF < n ∧ n < 0x110000) then some (Char.ofNat n) else none

/-- The character that an escape stands for, given what follows the backslash; and the number of
characters that it takes after it. -/
def escape? : List Char → Option (Char × Nat)
  | [] => none
  | c :: cs =>
    match escapeWidth? c with
    | some w => ((hexNumber? w 0 cs).bind charOfNumber?).map fun d => (d, w + 1)
    | none => (escapedChar? c).map fun d => (d, 1)

/-- How a run of a quoted scalar ends. -/
inductive RunEnd
  /-- With the closing quote. -/
  | closed
  /-- Before a space. -/
  | space
  /-- After a line break that was escaped. -/
  | joined
  deriving Repr, DecidableEq

/-- The characters up to the closing quote or the next space, after those read so far, the last one
first. -/
def quotedRun? (single : Bool) :
    Nat → List Char → Cursor → Option (List Char × RunEnd × Cursor)
  | 0, _, _ => none
  | fuel + 1, seen, c =>
    match c.rest with
    | [] => none
    | a :: rest =>
      if isSpace a then some (seen, .space, c)
      else if single then
        if a == '\'' then
          if rest.head? == some '\'' then quotedRun? single fuel ('\'' :: seen) (c.advance 2)
          else some (seen, .closed, c.advance 1)
        else quotedRun? single fuel (a :: seen) (c.advance 1)
      else if a == '"' then some (seen, .closed, c.advance 1)
      else if a == '\\' then
        if rest.head?.any isBreak then some (seen, .joined, (c.advance 1).skipBreak)
        else
          match escape? rest with
          | none => none
          | some (d, n) => quotedRun? single fuel (d :: seen) (c.advance (n + 1))
      else quotedRun? single fuel (a :: seen) (c.advance 1)

/-- The runs of a quoted scalar, after those read so far.  A document mark must not stand inside. -/
def quotedRuns? (single : Bool) : Nat → List Char → Cursor → Option (List Char × Cursor)
  | 0, _, _ => none
  | fuel + 1, seen, c =>
    if c.documentMark?.isSome then none
    else do
      match ← quotedRun? single c.bound seen c with
      | (seen, .closed, c) => some (seen.reverse, c)
      | (seen, stop, c) =>
        let gap := if stop = .joined then Gap.escaped else .empty
        let (gap, c) ← Gap.read? (-1) c.bound gap c
        quotedRuns? single fuel (gap.text.reverse ++ seen) c

/-- The scalar after an opening quote. -/
def quoted? (single : Bool) (c : Cursor) : Option (List Char × Cursor) :=
  quotedRuns? single c.bound [] c

end InlineAudit.Yaml
