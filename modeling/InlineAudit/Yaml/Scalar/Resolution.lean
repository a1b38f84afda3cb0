import InlineAudit.Text.Decimal

/-!
The ways of writing a scalar, and what a plain text is when nothing else says so.

* `Yaml.Style` — the form of a scalar;
* `Yaml.isNullText`, `Yaml.truthValue?` — the words for null and the truth values;
* `Yaml.isNumberText` — integers and floating point numbers;
* `Yaml.isOtherThanText` — anything of this kind, so that a string of these characters has to be
  written in quotes.

Design notes: integers may be written in hexadecimal, octal or binary, and have at most 128 bits.  A
decimal number counts only when a double can hold it.  Digits after a leading zero are no number,
but are put in quotes like one.
-/

namespace InlineAudit.Yaml

/-- The form of a scalar. -/
inductive Style
  /-- Without any mark. -/
  | plain
  | singleQuoted
  | doubleQuoted
  /-- A block that keeps its line breaks. -/
  | literal
  /-- A block whose lines are joined. -/
  | folded
  deriving Repr, DecidableEq, Inhabited

/-- The plain texts that stand for null. -/
def isNullText (s : String) : Bool := s == "null" || s == "Null" || s == "NULL" || s == "~"

/-- The truth value that a plain text stands for. -/
def truthValue? (s : String) : Option Bool :=
  if s == "true" || s == "True" || s == "TRUE" then some true
  else if s == "false" || s == "False" || s == "FALSE" then some false
  else none

/-- The value of some digits in a base. -/
def valueInBase? (base : Nat) (cs : List Char) : Option Nat :=
  if cs.isEmpty then none
  else
    cs.foldlM (fun n c =>
      (digitValue? c).bind fun d => if d < base then some (base * n + d) else none) 0

/-- The value of an integer with a letter for its base. -/
def basedValue? : List Char → Option Nat
  | '0' :: 'x' :: ds => valueInBase? 16 ds
  | '0' :: 'o' :: ds => valueInBase? 8 ds
  | '0' :: 'b' :: ds => valueInBase? 2 ds
  | _ => none

/-- An integer with a letter for its base and perhaps a sign, of 128 bits. -/
def isBasedInteger : List Char → Bool
  | '-' :: cs => (basedValue? cs).any (· ≤ Nat.pow 2 127)
  | '+' :: cs => (basedValue? cs).any (· < Nat.pow 2 128)
  | cs => (basedValue? cs).any (· < Nat.pow 2 128)

/-- The words for infinity. -/
def isInfinityText (cs : List Char) : Bool :=
  let s := String.ofList cs
  s == ".inf" || s == ".Inf" || s == ".INF"

/-- The words for a value that is no number. -/
def isNanText (cs : List Char) : Bool :=
  let s := String.ofList cs
  s == ".nan" || s == ".NaN" || s == ".NAN"

/-- A decimal number that a double can hold, without sign. -/
def isFiniteDecimal (cs : List Char) : Bool := (Decimal.read? cs).any Decimal.isFinite

/-- A floating point number. -/
def isFloat (cs : List Char) : Bool :=
  match cs with
  | '-' :: rest | '+' :: rest => isInfinityText rest || isFiniteDecimal rest
  | _ => isInfinityText cs || isNanText cs || isFiniteDecimal cs

/-- An integer or a floating point number. -/
def isNumberText (cs : List Char) : Bool := isBasedInteger cs || isFloat cs

/-- Digits after a leading zero, perhaps with a sign. -/
def isZeroPadded (cs : List Char) : Bool :=
  let digits := match cs with
    | '-' :: ds => ds
    | '+' :: ds => ds
    | ds => ds
  match digits with
  | '0' :: d :: ds => (d :: ds).all Char.isDigit
  | _ => false

/-- A plain text that would not be read as a string, or looks as if it would not. -/
def isOtherThanText (s : String) : Bool :=
  s.isEmpty || isNullText s || (truthValue? s).isSome || isNumberText s.toList ||
    isZeroPadded s.toList

end InlineAudit.Yaml
