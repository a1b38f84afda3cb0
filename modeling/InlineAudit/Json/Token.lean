import InlineAudit.Json.Number
import InlineAudit.Json.Value
import InlineAudit.Text.Decimal

/-!
The tokens of a JSON text.

* `Json.Token` — punctuation, and values without parts;
* `Json.Lexer` — the machine that cuts a text into tokens, one character at a time;
* `Json.tokens?` — the tokens of a text.

Design notes: the machine is a left fold.  A number ends with the first character that cannot
belong to one, and a word such as `null` with the first that is no letter; both are judged as a
whole at their end.
-/

namespace InlineAudit.Json

/-- A token. -/
inductive Token
  | beginArray
  | endArray
  | beginObject
  | endObject
  | comma
  | colon
  /-- A null, truth value, number or string. -/
  | scalar (value : Json)
  deriving Repr, Inhabited

/-- A piece of a string: a character, or a 16-bit unit given by an escape. -/
inductive Piece
  | char (c : Char)
  | unit (value : Nat)
  deriving Repr, DecidableEq

/-- The first half of a surrogate pair. -/
def isHighSurrogate (u : Nat) : Bool := 0xD800 ≤ u && u < 0xDC00

/-- The second half of a surrogate pair. -/
def isLowSurrogate (u : Nat) : Bool := 0xDC00 ≤ u && u < 0xE000

/-- The character of a surrogate pair. -/
def pairedChar (high low : Nat) : Char :=
  Char.ofNat (0x10000 + (high - 0xD800) * 0x400 + (low - 0xDC00))

/-- The characters of a string, if its units are characters and surrogate pairs. -/
def joinPieces : List Piece → Option (List Char)
  | [] => some []
  | .char c :: rest => (joinPieces rest).map (c :: ·)
  | .unit u :: rest =>
    if isHighSurrogate u then
      match rest with
      | .unit v :: rest =>
        if isLowSurrogate v then (joinPieces rest).map (pairedChar u v :: ·) else none
      | _ => none
    else if isLowSurrogate u then none
    else (joinPieces rest).map (Char.ofNat u :: ·)

/-- The character that a letter after a backslash stands for. -/
def unescape? : Char → Option Char
  | '"' => some '"'
  | '\\' => some '\\'
  | '/' => some '/'
  | 'b' => some '\x08'
  | 'f' => some '\x0c'
  | 'n' => some '\n'
  | 'r' => some '\r'
  | 't' => some '\t'
  | _ => none

/-- What is open between two characters.  Everything is kept with its last element first. -/
inductive Mode
  | between
  | word (letters : List Char)
  | number (written : List Char)
  | string (pieces : List Piece)
  /-- A backslash was read. -/
  | escape (pieces : List Piece)
  /-- An escape by number: its value so far, and how many digits it still needs. -/
  | hex (pieces : List Piece) (value needed : Nat)
  deriving Repr, DecidableEq

/-- The machine: the tokens so far, the last one first, and what is open. -/
structure Lexer where
  tokens : List Token
  mode : Mode

namespace Lexer

/-- The machine before the first character. -/
def empty : Lexer := ⟨[], .between⟩

/-- The value of a word. -/
def wordValue? (letters : List Char) : Option Json :=
  match String.ofList letters with
  | "null" => some .null
  | "true" => some (.bool true)
  | "false" => some (.bool false)
  | _ => none

/-- The tokens when an open word or number ends; a string cannot end so. -/
def flush? (l : Lexer) : Option (List Token) :=
  match l.mode with
  | .between => some l.tokens
  | .word letters => (wordValue? letters.reverse).map fun v => .scalar v :: l.tokens
  | .number written =>
    if Number.isWellFormed written.reverse then some (.scalar (.number written.reverse) :: l.tokens)
    else none
  | _ => none

/-- A blank between tokens. -/
def isBlank (c : Char) : Bool := c == ' ' || c == '\n' || c == '\t' || c == '\r'

/-- A character that can belong to a number. -/
def isNumberChar (c : Char) : Bool :=
  c.isDigit || c == '-' || c == '+' || c == '.' || c == 'e' || c == 'E'

/-- The token of a punctuation character. -/
def punctuation? : Char → Option Token
  | '[' => some .beginArray
  | ']' => some .endArray
  | '{' => some .beginObject
  | '}' => some .endObject
  | ',' => some .comma
  | ':' => some .colon
  | _ => none

/-- A character between tokens. -/
def begin? (tokens : List Token) (c : Char) : Option Lexer :=
  if isBlank c then some ⟨tokens, .between⟩
  else if c == '"' then some ⟨tokens, .string []⟩
  else if c == '-' || c.isDigit then some ⟨tokens, .number [c]⟩
  else if c.isLower then some ⟨tokens, .word [c]⟩
  else (punctuation? c).map fun t => ⟨t :: tokens, .between⟩

/-- A string ends. -/
def closeString (tokens : List Token) (pieces : List Piece) : Lexer :=
  ⟨.scalar (.string ((joinPieces pieces.reverse).map String.ofList)) :: tokens, .between⟩

/-- A character. -/
def step? (l : Lexer) (c : Char) : Option Lexer :=
  match l.mode with
  | .between => begin? l.tokens c
  | .word letters =>
    if c.isLower then some { l with mode := .word (c :: letters) }
    else l.flush?.bind (begin? · c)
  | .number written =>
    if isNumberChar c then some { l with mode := .number (c :: written) }
    else l.flush?.bind (begin? · c)
  | .string pieces =>
    if c == '"' then some (closeString l.tokens pieces)
    else if c == '\\' then some { l with mode := .escape pieces }
    else if c.toNat < 0x20 then none
    else some { l with mode := .string (.char c :: pieces) }
  | .escape pieces =>
    if c == 'u' then some { l with mode := .hex pieces 0 4 }
    else (unescape? c).map fun d => { l with mode := .string (.char d :: pieces) }
  | .hex pieces value needed =>
    (digitValue? c).map fun d =>
      if needed ≤ 1 then { l with mode := .string (.unit (16 * value + d) :: pieces) }
      else { l with mode := .hex pieces (16 * value + d) (needed - 1) }

end Lexer

/-- The tokens of a text, if it consists of tokens. -/
def tokens? (cs : List Char) : Option (List Token) :=
  ((cs.foldlM Lexer.step? .empty).bind Lexer.flush?).map List.reverse

end InlineAudit.Json
