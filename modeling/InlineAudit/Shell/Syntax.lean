import InlineAudit.Shell.Text

/-!
What a shell script is made of.

* `Shell.Part`, `Shell.Word` — a word as it is written, before expansion;
* `Shell.Redirection` — where a descriptor of a command leads;
* `Shell.Command` — a command.

Design notes: a word is a list of parts, because quotes decide for each part alone whether its value
may be split or is a pattern.  Words hold commands, and commands hold words.  The text of a
here-document is read after the command that it belongs to, so a redirection holds its number.
-/

namespace InlineAudit.Shell

/-- What is done with the value of a parameter.  Where it says so, an empty value counts as an unset
parameter. -/
inductive Change
  | none
  /-- A word stands in for an unset parameter. -/
  | default (orEmpty : Bool)
  /-- A word is assigned to an unset parameter. -/
  | assign (orEmpty : Bool)
  /-- A word stands in for a parameter that is set. -/
  | alternative (orEmpty : Bool)
  /-- An unset parameter is an error. -/
  | complain (orEmpty : Bool)
  /-- The number of characters. -/
  | length
  /-- A pattern is removed from the start or the end, as little or as much of it as possible. -/
  | trim (atEnd longest : Bool)
  /-- It is not written as it should be. -/
  | malformed
  deriving Repr, DecidableEq, Inhabited

/-- How a file is opened. -/
inductive Opening
  | read
  | write
  /-- For writing, even if that overwrites what has to be kept. -/
  | clobber
  | append
  | readWrite
  deriving Repr, DecidableEq, Inhabited

mutual

/-- A piece of a word. -/
inductive Part
  /-- A character outside of quotes. -/
  | text (c : Char)
  /-- A character in quotes, or after a backslash. -/
  | quoted (c : Char)
  /-- A pair of quotes; it makes a field even when there is nothing inside. -/
  | quotes
  | parameter (name : List Char) (change : Change) (word : List Part) (inQuotes : Bool)
  /-- The output of commands. -/
  | output (c : Option Command) (inQuotes : Bool)
  /-- The value of an arithmetic expression. -/
  | arithmetic (expression : List Part) (inQuotes : Bool)

/-- Where a descriptor leads. -/
inductive Redirection
  | file (descriptor : Nat) (opening : Opening) (name : List Part)
  /-- To where another descriptor leads, or nowhere. -/
  | copy (descriptor : Nat) (source : List Part)
  /-- To the text of a here-document. -/
  | document (descriptor number : Nat)

/-- A command.  Some know the line that they stand in. -/
inductive Command
  /-- Assignments, then a command word with its arguments, if there is one. -/
  | simple (line : Nat) (assignments : List (List Char × List Part)) (words : List (List Part))
      (redirections : List Redirection)
  /-- The output of each command is the input of the next. -/
  | pipeline (stages : List Command)
  | sequence (first second : Command)
  /-- The second runs only if the first succeeds. -/
  | both (first second : Command)
  /-- The second runs only if the first fails. -/
  | either (first second : Command)
  | negation (c : Command)
  | conditional (test yes : Command) (no : Option Command)
  /-- The body runs as long as the test has the given outcome. -/
  | loop (whileTrue : Bool) (test body : Command)
  /-- The body runs for each word; without words, for each argument. -/
  | forEach (line : Nat) (name : List Char) (words : Option (List (List Part))) (body : Command)
  /-- The body of the first item with a pattern that matches the subject. -/
  | select (line : Nat) (subject : List Part) (items : List (List (List Part) × Option Command))
  | redirected (line : Nat) (c : Command) (redirections : List Redirection)
  /-- A command whose effects on variables and directory stay inside. -/
  | subshell (line : Nat) (c : Command) (redirections : List Redirection)
  | background (c : Command)
  | define (name : List Char) (body : Command)

end

instance : Inhabited Part := ⟨.quotes⟩

instance : Inhabited Redirection := ⟨.document 0 0⟩

instance : Inhabited Command := ⟨.simple 0 [] [] []⟩

/-- A word as it is written. -/
abbrev Word := List Part

namespace Word

/-- The text of a word that is written without quotes and expansions. -/
def plain? : Word → Option (List Char)
  | [] => some []
  | .text c :: rest => (plain? rest).map (c :: ·)
  | _ => none

/-- The text of a word, its quotes left out. -/
def letters : Word → List Char
  | .text c :: rest | .quoted c :: rest => c :: letters rest
  | _ :: rest => letters rest
  | [] => []

/-- A name and value, if a word is an assignment. -/
def assignment? (w : Word) : Option (List Char × Word) :=
  go [] w
where
  /-- The rest of the name, whose last character comes first. -/
  go (name : List Char) : Word → Option (List Char × Word)
    | .text '=' :: rest => if isName name.reverse then some (name.reverse, rest) else none
    | .text c :: rest => go (c :: name) rest
    | _ => none

end Word

end InlineAudit.Shell
