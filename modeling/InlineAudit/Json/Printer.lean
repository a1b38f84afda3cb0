import InlineAudit.Json.Value
import InlineAudit.Text.Decimal

/-!
Writing JSON.

* `Json.compact` — a value without blanks;
* `Json.pretty` — a value with one item or member on a line, indented by two spaces for each
  container around it; an empty container is written without a line of its own.

In a string a quote, a backslash and the characters below U+0020 are escaped, and nothing else.
-/

namespace InlineAudit.Json

/-- A character as it stands in a string. -/
def escape (c : Char) : List Char :=
  match c with
  | '"' => ['\\', '"']
  | '\\' => ['\\', '\\']
  | '\x08' => ['\\', 'b']
  | '\t' => ['\\', 't']
  | '\n' => ['\\', 'n']
  | '\x0c' => ['\\', 'f']
  | '\r' => ['\\', 'r']
  | c =>
    if c.toNat < 0x20 then
      ['\\', 'u', '0', '0', lowerDigit (c.toNat / 16), lowerDigit (c.toNat % 16)]
    else [c]

/-- A string in quotes.  One that is no text is written as half of a surrogate pair. -/
def quoted : Option String → List Char
  | some s => '"' :: s.toList.flatMap escape ++ ['"']
  | none => "\"\\ud800\"".toList

mutual

/-- A value without blanks. -/
def compactChars : Json → List Char
  | .null => "null".toList
  | .bool true => "true".toList
  | .bool false => "false".toList
  | .number written => written
  | .string text => quoted text
  | .array items => '[' :: compactItems items ++ [']']
  | .object members => '{' :: compactMembers members ++ ['}']

/-- Items with a comma between them. -/
def compactItems : List Json → List Char
  | [] => []
  | [j] => compactChars j
  | j :: rest => compactChars j ++ ',' :: compactItems rest

/-- Members with a comma between them. -/
def compactMembers : List (Option String × Json) → List Char
  | [] => []
  | [(k, j)] => quoted k ++ ':' :: compactChars j
  | (k, j) :: rest => quoted k ++ ':' :: compactChars j ++ ',' :: compactMembers rest

end

/-- A new line at a level of indentation. -/
def newLine (level : Nat) : List Char := '\n' :: List.replicate (2 * level) ' '

mutual

/-- A value over several lines; its first line stands where it is put. -/
def prettyChars (level : Nat) : Json → List Char
  | .array [] => ['[', ']']
  | .array items => '[' :: prettyItems (level + 1) items ++ newLine level ++ [']']
  | .object [] => ['{', '}']
  | .object members => '{' :: prettyMembers (level + 1) members ++ newLine level ++ ['}']
  | .null => "null".toList
  | .bool true => "true".toList
  | .bool false => "false".toList
  | .number written => written
  | .string text => quoted text

/-- Items, each on a new line, with a comma after all but the last. -/
def prettyItems (level : Nat) : List Json → List Char
  | [] => []
  | [j] => newLine level ++ prettyChars level j
  | j :: rest => newLine level ++ prettyChars level j ++ ',' :: prettyItems level rest

/-- Members, each on a new line, with a comma after all but the last. -/
def prettyMembers (level : Nat) : List (Option String × Json) → List Char
  | [] => []
  | [(k, j)] => newLine level ++ quoted k ++ ':' :: ' ' :: prettyChars level j
  | (k, j) :: rest =>
    newLine level ++ quoted k ++ ':' :: ' ' :: prettyChars level j ++
      ',' :: prettyMembers level rest

end

/-- The text of a value, without blanks. -/
def compact (j : Json) : String := String.ofList (compactChars j)

/-- The text of a value, over several lines. -/
def pretty (j : Json) : String := String.ofList (prettyChars 0 j)

end InlineAudit.Json
