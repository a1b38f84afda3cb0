import InlineAudit.Text.Decimal
import InlineAudit.Text.Unseen

/-!
Text in quotes, for a reader who wants to see every character.

* `Quoted.text` — a string in double quotes;
* `Quoted.list` — several of them in brackets.

Quotes, backslashes and the usual control characters have short escapes; what would not be seen, or
would join the character before it, is written by its number.
-/

namespace InlineAudit.Quoted

/-- A number in hexadecimal without leading zeros, of at most six digits. -/
def hexNumber (n : Nat) : List Char :=
  let digits := [n / 0x100000, n / 0x10000, n / 0x1000, n / 0x100, n / 0x10].map fun m =>
    lowerDigit (m % 16)
  digits.dropWhile (· = '0') ++ [lowerDigit (n % 16)]

/-- A character in quotes. -/
def char (c : Char) : List Char :=
  match c with
  | '\x00' => ['\\', '0']
  | '\t' => ['\\', 't']
  | '\n' => ['\\', 'n']
  | '\r' => ['\\', 'r']
  | '"' => ['\\', '"']
  | '\\' => ['\\', '\\']
  | c =>
    if Text.isUnseen c then '\\' :: 'u' :: '{' :: hexNumber c.toNat ++ ['}'] else [c]

/-- A string in quotes. -/
def text (s : String) : String :=
  String.ofList ('"' :: s.toList.flatMap char ++ ['"'])

/-- Strings in quotes, in brackets. -/
def list (ss : List String) : String :=
  "[" ++ String.intercalate ", " (ss.map text) ++ "]"

end InlineAudit.Quoted
