import InlineAudit.Shell.Syntax

/-!
A script that is being read.

* `Shell.Token` — words, reserved words, operators and redirections;
* `Shell.Alias` — a word that stands for a text;
* `Shell.Source` — what is left of a script, and what has been noted on the way;
* `Shell.Read` — a reading of a part of a script.

Design notes: a token can be put back, and is then the next one to be read.  The texts of
here-documents begin after the line that asks for them; until then they are noted as missing.  The
text of an alias takes its place in what is left of the script, and an alias means nothing within
its own text.
-/

namespace InlineAudit.Shell

/-- Operators.  The end of a line and of the script count as such. -/
inductive Operator
  | endOfFile
  | newline
  | semicolon
  | ampersand
  | both
  | either
  | pipe
  | opening
  | closing
  /-- The end of an item of a selection. -/
  | itemEnd
  deriving Repr, DecidableEq, Inhabited

/-- A redirection without its target. -/
inductive Arrow
  | file (opening : Opening)
  | copy
  | document (stripsTabs : Bool)
  deriving Repr, DecidableEq, Inhabited

/-- Words, reserved words, operators and redirections. -/
inductive Token
  | word (w : Word) (hasQuotes : Bool)
  | reserved (word : String)
  | operator (o : Operator)
  | redirect (descriptor : Nat) (arrow : Arrow)
  deriving Inhabited

/-- An operator in a message. -/
def Operator.describe : Operator → String
  | .endOfFile => "end of file"
  | .newline => "newline"
  | .semicolon => "\";\""
  | .ampersand => "\"&\""
  | .both => "\"&&\""
  | .either => "\"||\""
  | .pipe => "\"|\""
  | .opening => "\"(\""
  | .closing => "\")\""
  | .itemEnd => "\";;\""

namespace Token

/-- A token in a message. -/
def describe : Token → String
  | .word .. => "word"
  | .reserved w => "\"" ++ w ++ "\""
  | .operator o => o.describe
  | .redirect _ _ => "redirection"

/-- The reserved words. -/
def reservedWords : List String :=
  ["!", "case", "do", "done", "elif", "else", "esac", "fi", "for", "if", "in", "then", "until",
    "while", "\x7b", "\x7d"]

/-- A token, where reserved words are looked for. -/
def recognized : Token → Token
  | .word w false =>
    match (Word.plain? w).map String.ofList with
    | some s => if reservedWords.contains s then .reserved s else .word w false
    | none => .word w false
  | t => t

/-- It ends a list of commands. -/
def endsList : Token → Bool
  | .operator o => o == .endOfFile || o == .closing || o == .itemEnd
  | .reserved w => ["do", "done", "elif", "else", "esac", "fi", "then", "\x7d"].contains w
  | _ => false

/-- It is an operator. -/
def isOperator (t : Token) (o : Operator) : Bool :=
  match t with
  | .operator p => p == o
  | _ => false

/-- It is a reserved word. -/
def isReserved (t : Token) (expected : String) : Bool :=
  match t with
  | .reserved w => w == expected
  | _ => false

end Token

/-- A script that cannot be read: the line, and what is wrong. -/
structure SyntaxError where
  line : Nat
  text : String
  deriving Repr, DecidableEq, Inhabited

/-- A here-document whose text has not been read yet. -/
structure MissingDocument where
  number : Nat
  delimiter : List Char
  /-- Nothing in its text is expanded. -/
  isLiteral : Bool
  stripsTabs : Bool
  deriving Repr, DecidableEq, Inhabited

/-- A word that stands for a text. -/
structure Alias where
  name : List Char
  text : List Char
  deriving Repr, DecidableEq, Inhabited

/-- An alias whose text is being read. -/
structure Expanding where
  name : List Char
  /-- How much of the script is left after the text. -/
  after : Nat
  /-- The text ends in a blank: the word after it can be an alias, too. -/
  endsBlank : Bool
  deriving Repr, DecidableEq, Inhabited

/-- What is left of a script, and what has been noted on the way. -/
structure Source where
  rest : List Char
  line : Nat
  /-- A token that was put back. -/
  pushed : Option Token
  missing : List MissingDocument
  /-- The here-document whose text is being read. -/
  ending : Option MissingDocument
  /-- The texts of here-documents by number. -/
  documents : List (Nat × Word)
  /-- The number of the next here-document. -/
  nextDocument : Nat
  /-- The last word that was read. -/
  lastWord : Word
  aliases : List Alias
  /-- The aliases whose texts are being read, and perhaps some whose texts have been. -/
  expanding : List Expanding
  deriving Inhabited

/-- A reading of a part of a script. -/
abbrev Read := StateT Source (Except SyntaxError)

/-- A whole script. -/
def Source.ofChars (cs : List Char) : Source :=
  ⟨cs.filter (· != '\x00'), 1, none, [], none, [], 0, [], [], []⟩

/-- What is left up to the end of the line of a number. -/
def Source.linesTo (s : Source) (number : Nat) : List Char :=
  go (number - s.line) s.rest
where
  /-- The first lines of a text, one more than the number. -/
  go : Nat → List Char → List Char
  | _, [] => []
  | 0, '\n' :: _ => ['\n']
  | n + 1, '\n' :: cs => '\n' :: go n cs
  | n, c :: cs => c :: go n cs

namespace Read

/-- The script cannot be read. -/
def fail {α : Type} (text : String) : Read α := do
  throw ⟨(← get).line, text⟩

/-- A token stands where it must not. -/
def unexpected {α : Type} (t : Token) (expected : Option String) : Read α :=
  fail <| t.describe ++ " unexpected" ++
    match expected with
    | some e => " (expecting " ++ e ++ ")"
    | none => ""

/-- A token is put back. -/
def putBack (t : Token) : Read Unit := modify fun s => { s with pushed := some t }

/-- The text without the line ends that a backslash takes away, and their number. -/
def joinedLines : List Char → Nat × List Char
  | '\\' :: '\n' :: rest =>
    let (n, rest) := joinedLines rest
    (n + 1, rest)
  | rest => (0, rest)

/-- The next character, after line ends that a backslash takes away. -/
def peek : Read (Option Char) := do
  let s ← get
  let (n, rest) := joinedLines s.rest
  set { s with rest, line := s.line + n }
  return rest.head?

/-- Past the next character, whatever it is. -/
def skip : Read Unit := modify fun s =>
  match s.rest with
  | [] => s
  | c :: rest => { s with rest, line := if c == '\n' then s.line + 1 else s.line }

/-- Past the next character, even if it is a line end; it does not count as the end of a line. -/
def pass : Read Unit := modify fun s => { s with rest := s.rest.tail }

/-- Past the next character, after line ends that a backslash takes away. -/
def next : Read (Option Char) := do
  let c ← peek
  skip
  return c

/-- At the start of a line of a here-document: past the line, if it ends the document. -/
def endsDocument : Read Bool := do
  match (← get).ending with
  | none => return false
  | some d =>
    let _ ← peek
    let s ← get
    let rest := if d.stripsTabs then s.rest.dropWhile (· == '\t') else s.rest
    let line := rest.takeWhile (· != '\n')
    if line == d.delimiter then
      set { s with rest := rest.drop (line.length + 1), line := s.line + 1 }
      return true
    else
      set { s with rest }
      return false

/-- Past the next character, if it is the given one. -/
def skipIf (c : Char) : Read Bool := do
  if (← peek) == some c then
    skip
    return true
  else return false

/-- The characters of a class that come next. -/
def takeWhile (p : Char → Bool) : Read (List Char) := do
  go ((← get).rest.length + 1)
where
  /-- The same, in a number of steps. -/
  go : Nat → Read (List Char)
  | 0 => return []
  | fuel + 1 => do
    match ← peek with
    | some c =>
      if p c then
        skip
        return c :: (← go fuel)
      else return []
    | none => return []

end Read

end InlineAudit.Shell
