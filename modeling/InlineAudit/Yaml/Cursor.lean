/-!
A place in a YAML text.

* `Yaml.Cursor` — what is left of a text, and how far it is from its start and from the start of
  the line, with a bound on what is left;
* character classes: blanks, line breaks, and the characters that a text may hold at all.

Design notes: the distance from the start counts bytes of UTF-8, and the one from the start of the
line counts characters.  A carriage return followed by a line feed is one line break.  Breaks stand
for a line feed in the value of a scalar, apart from the line and paragraph separators, which stand
for themselves.
-/

namespace InlineAudit.Yaml

/-- A space or a tab. -/
def isBlank (c : Char) : Bool := c == ' ' || c == '\t'

/-- A character that ends a line. -/
def isBreak (c : Char) : Bool :=
  c == '\n' || c == '\r' || c == '\u0085' || c == '\u2028' || c == '\u2029'

/-- A blank or a line break. -/
def isSpace (c : Char) : Bool := isBlank c || isBreak c

/-- A character of a name: an ASCII letter or digit, an underscore or a hyphen. -/
def isNameChar (c : Char) : Bool := c.isAlphanum || c == '_' || c == '-'

/-- A character that a text may hold: no control characters apart from tabs and line ends. -/
def isAllowed (c : Char) : Bool :=
  let v := c.toNat
  v == 0x09 || v == 0x0A || v == 0x0D || (0x20 ≤ v && v ≤ 0x7E) || v == 0x85 ||
    (0xA0 ≤ v && v ≤ 0xD7FF) || (0xE000 ≤ v && v ≤ 0xFFFD) || 0x10000 ≤ v

/-- The mark that may stand at the start of a line between tokens. -/
def byteOrderMark : Char := '\ufeff'

/-- The number of bytes that some characters take in UTF-8. -/
def byteCount (cs : List Char) : Nat := cs.foldl (fun n c => n + c.utf8Size) 0

/-- A text from a place onwards, and where that place is. -/
structure Cursor where
  rest : List Char
  /-- The number of bytes before the place. -/
  index : Nat
  line : Nat
  /-- The number of characters before the place in its line. -/
  column : Nat
  /-- More than the number of characters that are left: enough steps to read all of them. -/
  bound : Nat
  deriving Repr, DecidableEq

namespace Cursor

/-- The start of a text. -/
def start (cs : List Char) : Cursor := ⟨cs, 0, 0, 0, cs.length + 1⟩

/-- The next character. -/
def head? (c : Cursor) : Option Char := c.rest.head?

/-- Past a number of characters of the line. -/
def advance (c : Cursor) (n : Nat) : Cursor :=
  { c with
    rest := c.rest.drop n
    index := c.index + byteCount (c.rest.take n)
    column := c.column + n }

/-- Past the characters of a class, none of them a line break. -/
def skipWhile (c : Cursor) (p : Char → Bool) : Cursor :=
  c.advance (c.rest.takeWhile p).length

/-- Past a line break, if there is one: the text that it stands for, and the start of the next
line. -/
def takeBreak? (c : Cursor) : Option (List Char × Cursor) :=
  match c.rest with
  | '\r' :: '\n' :: rest => some (['\n'], ⟨rest, c.index + 2, c.line + 1, 0, c.bound⟩)
  | b :: rest =>
    if isBreak b then
      some (if b = '\u2028' ∨ b = '\u2029' then [b] else ['\n'],
        ⟨rest, c.index + b.utf8Size, c.line + 1, 0, c.bound⟩)
    else none
  | [] => none

/-- Past a line break, if there is one. -/
def skipBreak (c : Cursor) : Cursor :=
  match c.takeBreak? with
  | some (_, c) => c
  | none => c

/-- Past blanks, and a comment if one follows. -/
def skipComment (c : Cursor) : Cursor :=
  let c := c.skipWhile isBlank
  if c.head? = some '#' then c.skipWhile (!isBreak ·) else c

/-- A word ends here: a blank, a line break, or the end of the text. -/
def atSpace (cs : List Char) : Bool := cs.head?.all isSpace

/-- A line ends here: a line break, or the end of the text. -/
def atBreak (cs : List Char) : Bool := cs.head?.all isBreak

/-- The character of the document mark that stands here: three hyphens or three dots at the start of
a line, and then a space. -/
def documentMark? (c : Cursor) : Option Char :=
  if c.column = 0 then
    match c.rest with
    | '-' :: '-' :: '-' :: rest => if atSpace rest then some '-' else none
    | '.' :: '.' :: '.' :: rest => if atSpace rest then some '.' else none
    | _ => none
  else none

end Cursor

end InlineAudit.Yaml
