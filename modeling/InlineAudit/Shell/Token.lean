import InlineAudit.Shell.Source

/-!
Reading the words and operators of a shell script.

* `Shell.Token.read` — the next token;
* `Shell.Token.readDocuments` — the texts of the here-documents that are missing.

Design notes: a word can hold commands, so its reader is given the reader of commands.  What ends a
word, and what is special inside, depends on the quotes and braces around the present place; this is
its mode.
-/

namespace InlineAudit.Shell.Token

/-- What surrounds the present place in a word. -/
inductive Mode
  | bare
  /-- A word that ends a here-document: nothing in it is expanded. -/
  | delimiter
  /-- Braces outside of quotes. -/
  | braces
  | quotes
  /-- Quotes in a word that ends a here-document. -/
  | quotedDelimiter
  /-- Braces inside quotes; a pair of quotes may be open in the braces. -/
  | quotedBraces (inner : Bool)
  /-- An arithmetic expression, inside a number of parentheses. -/
  | arithmetic (depth : Nat)
  /-- The text of a here-document. -/
  | document
  deriving Repr, DecidableEq

namespace Mode

/-- Nothing is expanded here. -/
def isDelimiter (m : Mode) : Bool := m == .delimiter || m == .quotedDelimiter

/-- Quotes have no special meaning for what is expanded here: it is quoted anyway. -/
def isQuoted : Mode → Bool
  | .bare | .delimiter | .braces => false
  | _ => true

/-- The mode of the word in the braces of a parameter; the pattern to be trimmed is read as outside
of quotes. -/
def inBraces (m : Mode) (change : Change) : Mode :=
  match change with
  | .trim _ _ => .braces
  | _ => if m.isQuoted then .quotedBraces false else .braces

/-- What is wrong when a script ends here, or a here-document. -/
def unfinished (inDocument : Bool) : Mode → Option String
  | .bare | .delimiter | .document => none
  | .braces => some "Missing '\x7d'"
  | .quotes | .quotedDelimiter | .quotedBraces _ =>
    some (if inDocument then "Missing '\x7d'" else "Unterminated quoted string")
  | .arithmetic _ => some "Missing '))'"

/-- A backslash before the character is taken away. -/
def escapes (m : Mode) (c : Char) : Bool :=
  c == '\\' || c == backquote || c == '$' || (c == '"' && m != .document) ||
    (c == '}' && (match m with
      | .quotedBraces _ => true
      | _ => false))

end Mode

/-- A character that ends a word outside of quotes. -/
def endsWord (c : Char) : Bool :=
  isBlank c || c == '\n' || c == ';' || c == '&' || c == '|' || c == '(' || c == ')' ||
    c == '<' || c == '>'

/-- A character that is the name of a parameter by itself. -/
def isSpecial (c : Char) : Bool := "#?$!-*@".toList.contains c || c.isDigit

/-- Some characters, in quotes or not. -/
def chars (isQuoted : Bool) (cs : List Char) : Word :=
  cs.map fun c => if isQuoted then .quoted c else .text c

/-- The characters up to the next single quote. -/
def singleQuoted : Read Word := do
  let s ← get
  let inside := s.rest.takeWhile (· != '\'')
  match s.rest.drop inside.length with
  | [] =>
    set { s with rest := [], line := s.line + inside.count '\n' }
    Read.fail "Unterminated quoted string"
  | _ :: rest =>
    set { s with rest, line := s.line + inside.count '\n' }
    return chars true inside ++ [.quotes]

/-- The script between two backquotes.  A backslash is taken away before a backslash, a backquote or
a dollar sign, and inside quotes also before a double quote. -/
def betweenBackquotes (isQuoted : Bool) : Nat → Read (List Char)
  | 0 => Read.fail "EOF in backquote substitution"
  | fuel + 1 => do
    match ← Read.next with
    | none => Read.fail "EOF in backquote substitution"
    | some c =>
      if c == backquote then return []
      else if c == '\\' then
        let d := (← get).rest.head?
        Read.skip
        match d with
        | none => Read.fail "EOF in backquote substitution"
        | some d =>
          let taken := d == '\\' || d == backquote || d == '$' || (isQuoted && d == '"')
          let more ← betweenBackquotes isQuoted fuel
          return if taken then d :: more else '\\' :: d :: more
      else return c :: (← betweenBackquotes isQuoted fuel)

/-- Commands that are read from a text of their own. -/
def inside {α : Type} (cs : List Char) (line : Nat) (read : Read α) : Read α := do
  let s ← get
  set { s with
    rest := cs, line, pushed := none, missing := [], ending := none, expanding := [] }
  let a ← read
  modify fun t => { s with documents := t.documents, nextDocument := t.nextDocument }
  return a

/-- Commands in parentheses, after the opening one. -/
def betweenParentheses (commands : Read (Option Command)) : Read (Option Command) := do
  let s ← get
  set { s with missing := [], ending := none }
  let c ← commands
  let t := (← get).pushed.getD (.operator .endOfFile)
  if !t.isOperator .closing then Read.unexpected t (some Operator.closing.describe)
  modify fun t => { t with pushed := none, missing := s.missing, ending := s.ending }
  return c

/-- The change that stands after a name in braces.  A line end in its place does not count as the
end of a line. -/
def change : Read Change := do
  let orEmpty ← Read.skipIf ':'
  let c ← Read.peek
  Read.pass
  match c, orEmpty with
  | some '}', false => return .none
  | some '-', e => return .default e
  | some '=', e => return .assign e
  | some '+', e => return .alternative e
  | some '?', e => return .complain e
  | some '%', false => return .trim true (← Read.skipIf '%')
  | some '#', false => return .trim false (← Read.skipIf '#')
  | _, _ => return .malformed

/-- A length, after the number sign; or none, if the sign is the name of the parameter itself. -/
def length? : Read (Option (List Char)) := do
  let s ← get
  let name ← do
    match ← Read.peek with
    | some c =>
      if isNameStart c then Read.takeWhile isNameChar
      else if c.isDigit then Read.takeWhile Char.isDigit
      else if isSpecial c then
        Read.skip
        pure [c]
      else pure []
    | none => pure []
  if !name.isEmpty && (← Read.skipIf '}') then return some name
  else
    set s
    return none

/-- The name of a parameter in braces, and the change after it. -/
def braced : Read (List Char × Change) := do
  match ← Read.peek with
  | none => return ([], .malformed)
  | some c =>
    if isNameStart c then
      let name ← Read.takeWhile isNameChar
      return (name, ← change)
    else if c.isDigit then
      let name ← Read.takeWhile Char.isDigit
      return (name, ← change)
    else if c == '#' then
      Read.skip
      match ← length? with
      | some name => return (name, .length)
      | none => return (['#'], ← change)
    else if isSpecial c then
      Read.skip
      return ([c], ← change)
    else
      if c != '}' then Read.pass
      return ([], .malformed)

mutual

/-- The parts of a word up to where its mode ends. -/
def parts (commands : Read (Option Command)) (fuel : Nat) (mode : Mode) : Read Word :=
  match fuel with
  | 0 => Read.fail "Unterminated quoted string"
  | fuel + 1 => do
    let finish : Read Word := do
      match mode.unfinished (← get).ending.isSome with
      | some text => Read.fail text
      | none => return []
    match ← Read.peek with
    | none => finish
    | some c =>
      let literal : Read Word := do
        Read.skip
        let isOver ← if c == '\n' then Read.endsDocument else pure false
        return chars mode.isQuoted [c] ++ (← if isOver then finish else parts commands fuel mode)
      match c, mode with
      | '\\', _ =>
        Read.skip
        let d := (← get).rest.head?
        Read.skip
        match d with
        | none => return [.quoted '\\']
        | some d =>
          let kept := mode.isQuoted && !mode.escapes d
          return chars true (if kept then ['\\', d] else [d]) ++ (← parts commands fuel mode)
      | '\'', .bare | '\'', .delimiter | '\'', .braces =>
        Read.skip
        let inside ← singleQuoted
        return inside ++ (← parts commands fuel mode)
      | '"', .bare | '"', .delimiter | '"', .braces =>
        Read.skip
        let inside ← parts commands fuel (if mode == .delimiter then .quotedDelimiter else .quotes)
        let alone := match inside with
          | [.parameter ['@'] .none _ _] => true
          | _ => false
        return inside ++ (if alone then [] else [.quotes]) ++ (← parts commands fuel mode)
      | '"', .quotes | '"', .quotedDelimiter =>
        Read.skip
        return []
      | '"', .quotedBraces inner =>
        Read.skip
        parts commands fuel (.quotedBraces !inner)
      | '}', .braces | '}', .quotedBraces false =>
        Read.skip
        return []
      | '$', .delimiter | '$', .quotedDelimiter => literal
      | '$', _ =>
        Read.skip
        let p ← dollar commands fuel mode
        return p ++ (← parts commands fuel mode)
      | '(', .arithmetic depth =>
        Read.skip
        return .quoted '(' :: (← parts commands fuel (.arithmetic (depth + 1)))
      | ')', .arithmetic 0 =>
        Read.skip
        if ← Read.skipIf ')' then return []
        else return .quoted ')' :: (← parts commands fuel mode)
      | ')', .arithmetic (depth + 1) =>
        Read.skip
        return .quoted ')' :: (← parts commands fuel (.arithmetic depth))
      | _, _ =>
        if c == backquote && !mode.isDelimiter then
          Read.skip
          let source ← betweenBackquotes (mode == .quotes) ((← get).rest.length + 1)
          let c ← inside source 1 commands
          return .output c mode.isQuoted :: (← parts commands fuel mode)
        else if (mode == .bare || mode == .delimiter) && endsWord c then return []
        else literal

/-- What a dollar sign begins. -/
def dollar (commands : Read (Option Command)) (fuel : Nat) (mode : Mode) : Read Word :=
  match fuel with
  | 0 => Read.fail "Unterminated quoted string"
  | fuel + 1 => do
    match ← Read.peek with
    | some '(' =>
      Read.skip
      if ← Read.skipIf '(' then
        return [.arithmetic (← parts commands fuel (.arithmetic 0)) mode.isQuoted]
      else return [.output (← betweenParentheses commands) mode.isQuoted]
    | some '{' =>
      Read.skip
      let (name, change) ← braced
      match change with
      | .none | .length => return [.parameter name change [] mode.isQuoted]
      | _ =>
        let word ← parts commands fuel (mode.inBraces change)
        return [.parameter name change word mode.isQuoted]
    | some c =>
      if isNameStart c then
        return [.parameter (← Read.takeWhile isNameChar) .none [] mode.isQuoted]
      else if isSpecial c then
        Read.skip
        return [.parameter [c] .none [] mode.isQuoted]
      else return chars mode.isQuoted ['$']
    | none => return chars mode.isQuoted ['$']

end

/-- Steps that are enough for what is left of the script. -/
def enoughSteps : Read Nat := do return 2 * (← get).rest.length + 8

/-- The operator that a character begins. -/
def operator? (c : Char) : Read (Option Operator) := do
  match c with
  | '\n' =>
    Read.skip
    return some .newline
  | '&' =>
    Read.skip
    return some (if ← Read.skipIf '&' then .both else .ampersand)
  | '|' =>
    Read.skip
    return some (if ← Read.skipIf '|' then .either else .pipe)
  | ';' =>
    Read.skip
    return some (if ← Read.skipIf ';' then .itemEnd else .semicolon)
  | '(' =>
    Read.skip
    return some .opening
  | ')' =>
    Read.skip
    return some .closing
  | _ => return none

/-- The redirection that an angle bracket begins. -/
def arrow (c : Char) : Read Arrow := do
  Read.skip
  let d ← Read.peek
  match c, d with
  | '>', some '>' => Read.skip *> pure (.file .append)
  | '>', some '|' => Read.skip *> pure (.file .clobber)
  | _, some '&' => Read.skip *> pure .copy
  | '>', _ => pure (.file .write)
  | _, some '>' => Read.skip *> pure (.file .readWrite)
  | _, some '<' =>
    Read.skip
    return .document (← Read.skipIf '-')
  | _, _ => pure (.file .read)

/-- There is something in a word besides its characters outside of quotes and its expansions. -/
def hasQuotes (w : Word) : Bool :=
  w.any fun
    | .quoted _ | .quotes => true
    | _ => false

/-- Past blanks and a comment. -/
def skipBlanks : Nat → Read Unit
  | 0 => return
  | fuel + 1 => do
    match ← Read.peek with
    | some c =>
      if isBlank c then
        Read.skip
        skipBlanks fuel
      else if c == '#' then modify fun s => { s with rest := s.rest.dropWhile (· != '\n') }
      else return
    | none => return

/-- The next token, reserved words not told from others. -/
def readPlain (commands : Read (Option Command)) (mode : Mode) : Read Token := do
  match (← get).pushed with
  | some t =>
    modify fun s => { s with pushed := none }
    return t
  | none =>
    skipBlanks (← enoughSteps)
    match ← Read.peek with
    | none => return .operator .endOfFile
    | some c =>
      match ← operator? c with
      | some o => return .operator o
      | none =>
        let w ← parts commands (← enoughSteps) mode
        let next ← Read.peek
        match w, next with
        | [], some '<' => return .redirect 0 (← arrow '<')
        | [], some '>' => return .redirect 1 (← arrow '>')
        | [.text d], some '<' =>
          if d.isDigit then return .redirect (d.toNat - 48) (← arrow '<')
          else return .word w false
        | [.text d], some '>' =>
          if d.isDigit then return .redirect (d.toNat - 48) (← arrow '>')
          else return .word w false
        | _, _ =>
          modify fun s => { s with lastWord := w }
          return .word w (hasQuotes w)

/-- The lines of a here-document in which nothing is expanded, and what follows it.  The end of the
script ends a document, too. -/
def literalLines (d : MissingDocument) : Nat → List Char → List Char × List Char
  | 0, cs => ([], cs)
  | _ + 1, [] => ([], [])
  | fuel + 1, cs =>
    let cs := if d.stripsTabs then cs.dropWhile (· == '\t') else cs
    let line := cs.takeWhile (· != '\n')
    let rest := cs.drop line.length
    if line == d.delimiter then ([], rest.drop 1)
    else
      let (more, after) := literalLines d fuel (rest.drop 1)
      (line ++ rest.take 1 ++ more, after)

/-- The text of a here-document. -/
def documentText (commands : Read (Option Command)) (d : MissingDocument) : Read Word := do
  let s ← get
  if d.isLiteral then
    let (text, rest) := literalLines d (s.rest.length + 1) s.rest
    set { s with rest, line := s.line + (s.rest.count '\n' - rest.count '\n') }
    return chars true text
  else
    set { s with ending := some d }
    let isEmpty ← Read.endsDocument
    let w ← if isEmpty then pure [] else parts commands (← enoughSteps) .document
    modify fun t => { t with ending := s.ending }
    return w

/-- The texts of the here-documents that are missing. -/
def readDocuments (commands : Read (Option Command)) : Read Unit := do
  let missing := (← get).missing
  modify fun s => { s with missing := [] }
  for d in missing do
    let w ← documentText commands d
    modify fun s => { s with documents := (d.number, w) :: s.documents }

/-- What is looked for when a token is read. -/
structure Wish where
  /-- Line ends are passed. -/
  passesLines : Bool
  findsReserved : Bool
  findsAliases : Bool
  deriving Repr, DecidableEq

/-- The alias that a token is, given how much of the script was left before it.  Where aliases are
not looked for, this is a matter of the text that ends before the token. -/
def alias? (wish : Wish) (before : Nat) (t : Token) : Read (Option Alias) := do
  match t with
  | .word w false =>
    let s ← get
    let left := s.rest.length
    let asked := s.expanding.any fun e => e.endsBlank && e.after < before && left < e.after
    if wish.findsAliases || asked then
      match w.plain? with
      | some name =>
        if s.expanding.any fun e => e.name == name && e.after ≤ left then return none
        else return s.aliases.find? (·.name == name)
      | none => return none
    else return none
  | _ => return none

/-- The text of an alias is read next. -/
def expand (a : Alias) : Read Unit := modify fun s =>
  let left := s.rest.length
  let entry : Expanding := ⟨a.name, left, a.text.getLast?.any isBlank⟩
  { s with
    rest := a.text ++ s.rest
    expanding := entry :: s.expanding.filter (·.after ≤ left) }

/-- The next token that is no line end. -/
def pastLines (commands : Read (Option Command)) : Nat → Read Token
  | 0 => return .operator .endOfFile
  | fuel + 1 => do
    let t ← readPlain commands .bare
    if t.isOperator .newline then
      readDocuments commands
      pastLines commands fuel
    else return t

/-- The next token. -/
def read (commands : Read (Option Command)) (wish : Wish) : Read Token := do
  let s ← get
  go (s.rest.length + s.aliases.length + 64)
where
  /-- The same, after a number of aliases at most. -/
  go : Nat → Read Token
  | 0 => readPlain commands .bare
  | fuel + 1 => do
    let before := (← get).rest.length
    let t ← if wish.passesLines then pastLines commands (before + 1) else readPlain commands .bare
    let t := if wish.findsReserved then t.recognized else t
    match ← alias? wish before t with
    | some a =>
      expand a
      go fuel
    | none => return t

end InlineAudit.Shell.Token
