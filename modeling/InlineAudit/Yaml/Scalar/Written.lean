import InlineAudit.Text.Decimal
import InlineAudit.Yaml.Cursor
import InlineAudit.Yaml.Scalar.Resolution

/-!
Writing a string as a scalar.

* `Yaml.styleFor` — the way in which a string is written;
* `Yaml.scalarChars` — the scalar, for a place where further lines have a given indentation;
* `Yaml.isSimpleKey` — a string that can be a key without a question mark.

A string with a line feed is written as a literal block, and any other one plain.  Where the plain
text would be read as something else it is put in single quotes, and where its characters cannot
stand in the chosen form, in double quotes.  Lines are never folded.
-/

namespace InlineAudit.Yaml

/-- A character that may stand in a scalar as it is. -/
def isPrintable (c : Char) : Bool :=
  let v := c.toNat
  v == 0x0A || (0x20 ≤ v && v ≤ 0x7E) || (0xA0 ≤ v && v ≤ 0xD7FF) ||
    (0xE000 ≤ v && v ≤ 0xFFFD && v != 0xFEFF) || 0x10000 ≤ v

/-- Two neighbours somewhere in a text. -/
def hasPair (first second : Char → Bool) : List Char → Bool
  | a :: b :: rest => (first a && second b) || hasPair first second (b :: rest)
  | _ => false

/-- A character with a meaning of its own at the start of a scalar. -/
def isOpeningMark (c : Char) : Bool := "#,[]\x7b\x7d&*!|>'\"%@".toList.contains c || c.toNat == 96

/-- A text that starts like something other than a plain scalar. -/
def startsLikeMark : List Char → Bool
  | '-' :: '-' :: '-' :: _ => true
  | '.' :: '.' :: '.' :: _ => true
  | c :: rest =>
    isOpeningMark c || ((c == '?' || c == ':' || c == '-') && Cursor.atSpace rest)
  | [] => false

/-- A text that holds the end of a key or the start of a comment. -/
def holdsMark : List Char → Bool
  | a :: b :: rest =>
    (b == ':' && Cursor.atSpace rest) || (b == '#' && isSpace a) || holdsMark (b :: rest)
  | _ => false

/-- A space. -/
def isSpaceChar (c : Char) : Bool := c == ' '

/-- The spaces of a text survive in every form but the double-quoted one. -/
def hasFirmSpaces (cs : List Char) : Bool :=
  cs.all isPrintable && !hasPair isSpaceChar isBreak cs

/-- A text can be written plain. -/
def fitsPlain (cs : List Char) : Bool :=
  hasFirmSpaces cs && !cs.any isBreak && cs.head? != some ' ' && cs.getLast? != some ' ' &&
    !startsLikeMark cs && !holdsMark cs

/-- A text can be written in single quotes. -/
def fitsSingleQuotes (cs : List Char) : Bool :=
  hasFirmSpaces cs && !hasPair isBreak isSpaceChar cs

/-- A text can be written as a literal block. -/
def fitsLiteral (cs : List Char) : Bool :=
  hasFirmSpaces cs && cs.getLast? != some ' '

/-- The way in which a string is written. -/
def styleFor (s : String) : Style :=
  let cs := s.toList
  if cs.contains '\n' then (if fitsLiteral cs then .literal else .doubleQuoted)
  else if !isOtherThanText s && fitsPlain cs then .plain
  else if fitsSingleQuotes cs then .singleQuoted
  else .doubleQuoted

/-- Spaces. -/
def spaces (n : Nat) : List Char := List.replicate n ' '

/-- The lines of a block, each that is not empty with an indentation in front. -/
def indented (indent : Nat) : Bool → List Char → List Char
  | _, [] => []
  | atStart, c :: rest =>
    if isBreak c then c :: indented indent true rest
    else (if atStart then spaces indent else []) ++ c :: indented indent false rest

/-- The header of a literal block: the depth of its lines where their start does not show it, and
the sign for its last line breaks. -/
def literalHeader (cs : List Char) : List Char :=
  let depth := if cs.head?.any fun c => c == ' ' || isBreak c then ['2'] else []
  let chomp :=
    match cs.reverse with
    | [] => ['-']
    | last :: before =>
      if !isBreak last then ['-']
      else if before.head?.all isBreak then ['+'] else []
  '|' :: depth ++ chomp

/-- The inside of single quotes. -/
def singleQuotedBody (indent : Nat) : Bool → List Char → List Char
  | afterBreak, [] => if afterBreak then spaces indent else []
  | afterBreak, c :: rest =>
    if isBreak c then c :: singleQuotedBody indent true rest
    else
      (if afterBreak then spaces indent else []) ++ (if c == '\'' then ['\'', '\''] else [c]) ++
        singleQuotedBody indent false rest

/-- A number of a given width in hexadecimal. -/
def hexDigits : Nat → Nat → List Char
  | 0, _ => []
  | width + 1, n => hexDigits width (n / 16) ++ [upperDigit (n % 16)]

/-- A character between double quotes. -/
def escaped (c : Char) : List Char :=
  match c with
  | '\x00' => ['\\', '0']
  | '\x07' => ['\\', 'a']
  | '\x08' => ['\\', 'b']
  | '\t' => ['\\', 't']
  | '\n' => ['\\', 'n']
  | '\x0b' => ['\\', 'v']
  | '\x0c' => ['\\', 'f']
  | '\r' => ['\\', 'r']
  | '\x1b' => ['\\', 'e']
  | '"' => ['\\', '"']
  | '\\' => ['\\', '\\']
  | '\u0085' => ['\\', 'N']
  | '\u2028' => ['\\', 'L']
  | '\u2029' => ['\\', 'P']
  | c =>
    if isPrintable c then [c]
    else if c.toNat ≤ 0xFF then '\\' :: 'x' :: hexDigits 2 c.toNat
    else if c.toNat ≤ 0xFFFF then '\\' :: 'u' :: hexDigits 4 c.toNat
    else '\\' :: 'U' :: hexDigits 8 c.toNat

/-- A string as a scalar; its further lines have an indentation. -/
def scalarChars (indent : Nat) (s : String) : List Char :=
  let cs := s.toList
  match styleFor s with
  | .literal => literalHeader cs ++ '\n' :: indented indent true cs
  | .singleQuoted => '\'' :: singleQuotedBody indent false cs ++ ['\'']
  | .doubleQuoted => '"' :: cs.flatMap escaped ++ ['"']
  | _ => cs

/-- A string as a scalar at the end of a line; the line is ended unless the scalar ends it. -/
def scalarLine (indent : Nat) (s : String) : List Char :=
  let cs := scalarChars indent s
  if cs.getLast?.any isBreak then cs else cs ++ ['\n']

/-- A string that can be a key without a question mark: it lies on one line and is not long. -/
def isSimpleKey (s : String) : Bool := !s.toList.any isBreak && s.utf8ByteSize ≤ 128

end InlineAudit.Yaml
