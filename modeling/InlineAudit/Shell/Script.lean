import InlineAudit.Shell.Token

/-!
Reading the commands of a shell script.

* `Shell.Script.next` — the commands of the next line that has any, with the lines that they take
  up.

Design notes: a script is read line by line while it runs, so that what stands before a mistake is
carried out.  Every rule reads from the next token on, and puts back the token after its end.
-/

namespace InlineAudit.Shell.Script

/-- The commands that cannot be redefined. -/
def specialNames : List String :=
  [".", ":", "break", "continue", "eval", "exec", "exit", "export", "local", "readonly", "return",
    "set", "shift", "times", "trap", "unset"]

/-- A command after those so far. -/
def append (done : Option Command) (c : Command) : Option Command :=
  match done with
  | none => some c
  | some d => some (.sequence d c)

/-- What has been read of a simple command; all lists have their last element first. -/
structure SimpleParts where
  assignments : List (List Char × Word)
  words : List Word
  redirections : List Redirection

/-- A redirection, given its target. -/
def redirection (descriptor : Nat) (arrow : Arrow) (target : Word) (hasQuotes : Bool) :
    Read Redirection := do
  match arrow with
  | .file opening => return .file descriptor opening target
  | .copy => return .copy descriptor target
  | .document stripsTabs =>
    let s ← get
    let d : MissingDocument := ⟨s.nextDocument, Word.letters target, hasQuotes, stripsTabs⟩
    set { s with missing := s.missing ++ [d], nextDocument := s.nextDocument + 1 }
    return .document descriptor s.nextDocument

mutual

/-- A token. -/
def token (fuel : Nat) (passesLines findsReserved : Bool) : Read Token :=
  match fuel with
  | 0 => Read.fail "end of file unexpected"
  | fuel + 1 => Token.read (list fuel none false) ⟨passesLines, findsReserved, findsReserved⟩

/-- A token has to come. -/
def expect (fuel : Nat) (word : String) (passesLines findsReserved : Bool) : Read Unit :=
  match fuel with
  | 0 => Read.fail "end of file unexpected"
  | fuel + 1 => do
    let t ← token fuel passesLines findsReserved
    if t.isReserved word then return
    else Read.unexpected t (some ("\"" ++ word ++ "\""))

/-- The target of a redirection, and the redirection. -/
def target (fuel : Nat) (descriptor : Nat) (arrow : Arrow) : Read Redirection :=
  match fuel with
  | 0 => Read.fail "end of file unexpected"
  | fuel + 1 => do
    let mode := match arrow with
      | .document _ => Token.Mode.delimiter
      | _ => .bare
    match ← Token.readPlain (list fuel none false) mode with
    | .word w hasQuotes => redirection descriptor arrow w hasQuotes
    | t => Read.unexpected t none

/-- Redirections after a command.  Reserved words are looked for right after it only. -/
def redirections (fuel : Nat) (findsReserved : Bool) : Read (List Redirection) :=
  match fuel with
  | 0 => return []
  | fuel + 1 => do
    match ← token fuel false findsReserved with
    | .redirect descriptor arrow =>
      let r ← target fuel descriptor arrow
      return r :: (← redirections fuel false)
    | t =>
      Read.putBack t
      return []

/-- Commands after those so far, up to a token that ends a list.  There may have to be one. -/
def list (fuel : Nat) (done : Option Command) (required : Bool) : Read (Option Command) :=
  match fuel with
  | 0 => Read.fail "end of file unexpected"
  | fuel + 1 => do
    let t ← token fuel true true
    Read.putBack t
    if t.isOperator .endOfFile || (!required && t.endsList) then return done
    else
      let (c, isLast) ← item fuel
      if isLast then return append done c
      else list fuel (append done c) false

/-- The commands of a line after those so far. -/
def line (fuel : Nat) (done : Option Command) : Read (Option Command) :=
  match fuel with
  | 0 => Read.fail "end of file unexpected"
  | fuel + 1 => do
    let t ← token fuel false true
    if t.isOperator .newline then
      Token.readDocuments (list fuel none false)
      return done
    else
      Read.putBack t
      if t.isOperator .endOfFile then return done
      else
        let (c, isLast) ← item fuel
        if isLast then
          let t ← token fuel false false
          Read.putBack t
          if t.isOperator .endOfFile then return append done c
          else Read.unexpected t none
        else line fuel (append done c)

/-- A chain of commands in a list, with what ends it; whether it is the last of the list. -/
def item (fuel : Nat) : Read (Command × Bool) :=
  match fuel with
  | 0 => Read.fail "end of file unexpected"
  | fuel + 1 => do
    let first ← pipeline fuel false
    let c ← chain fuel first
    let t ← token fuel false false
    match t with
    | .operator .ampersand => return (.background c, false)
    | .operator .semicolon => return (c, false)
    | .operator .newline =>
      Read.putBack t
      return (c, false)
    | .operator .endOfFile =>
      Token.readDocuments (list fuel none false)
      Read.putBack t
      return (c, true)
    | t =>
      Read.putBack t
      return (c, true)

/-- Commands joined to the first one, each run only after success or only after failure. -/
def chain (fuel : Nat) (first : Command) : Read Command :=
  match fuel with
  | 0 => Read.fail "end of file unexpected"
  | fuel + 1 => do
    match ← token fuel false false with
    | .operator .both => chain fuel (.both first (← pipeline fuel true))
    | .operator .either => chain fuel (.either first (← pipeline fuel true))
    | t =>
      Read.putBack t
      return first

/-- Commands whose input is the output of the one before, perhaps with the opposite outcome. -/
def pipeline (fuel : Nat) (continued : Bool) : Read Command :=
  match fuel with
  | 0 => Read.fail "end of file unexpected"
  | fuel + 1 => do
    let t ← token fuel continued true
    let negated := t.isReserved "!"
    if !negated then Read.putBack t
    let first ← command fuel false negated
    let stages ← stagesAfter fuel
    let c := if stages.isEmpty then first else .pipeline (first :: stages)
    return if negated then .negation c else c

/-- The further commands of a pipeline. -/
def stagesAfter (fuel : Nat) : Read (List Command) :=
  match fuel with
  | 0 => Read.fail "end of file unexpected"
  | fuel + 1 => do
    match ← token fuel false false with
    | .operator .pipe =>
      let c ← command fuel true true
      return c :: (← stagesAfter fuel)
    | t =>
      Read.putBack t
      return []

/-- A command. -/
def command (fuel : Nat) (passesLines findsReserved : Bool) : Read Command :=
  match fuel with
  | 0 => Read.fail "end of file unexpected"
  | fuel + 1 => do
    let lineNo := (← get).line
    let t ← token fuel passesLines findsReserved
    match t with
    | .word _ _ | .redirect _ _ =>
      let lineNo := (← get).line
      Read.putBack t
      simple fuel lineNo ⟨[], [], []⟩
    | .operator .opening =>
      let c ← commands fuel
      let t ← token fuel false false
      if !t.isOperator .closing then Read.unexpected t (some Operator.closing.describe)
      return .subshell lineNo c (← redirections fuel true)
    | .reserved "if" =>
      let c ← conditional fuel
      expect fuel "fi" false false
      redirect fuel lineNo c
    | .reserved "while" => loop fuel lineNo true
    | .reserved "until" => loop fuel lineNo false
    | .reserved "for" => forEach fuel lineNo
    | .reserved "case" =>
      match ← token fuel false false with
      | .word subject _ =>
        expect fuel "in" true true
        let items ← items fuel
        redirect fuel lineNo (.select lineNo subject items)
      | t => Read.unexpected t (some "word")
    | .reserved "\x7b" =>
      let c ← commands fuel
      expect fuel "\x7d" false false
      redirect fuel lineNo c
    | t => Read.unexpected t none

/-- Commands, at least one.  Where the script ends before them, this does not matter: what has to
come after them is missing. -/
def commands (fuel : Nat) : Read Command :=
  match fuel with
  | 0 => Read.fail "end of file unexpected"
  | fuel + 1 => return (← list fuel none true).getD default

/-- A command with the redirections after it. -/
def redirect (fuel : Nat) (lineNo : Nat) (c : Command) : Read Command :=
  match fuel with
  | 0 => Read.fail "end of file unexpected"
  | fuel + 1 => do
    let rs ← redirections fuel true
    return if rs.isEmpty then c else .redirected lineNo c rs

/-- A conditional after its first word, up to its last. -/
def conditional (fuel : Nat) : Read Command :=
  match fuel with
  | 0 => Read.fail "end of file unexpected"
  | fuel + 1 => do
    let test ← commands fuel
    expect fuel "then" false false
    let yes ← commands fuel
    let t ← token fuel false false
    match t with
    | .reserved "elif" => return .conditional test yes (some (← conditional fuel))
    | .reserved "else" => return .conditional test yes (some (← commands fuel))
    | t =>
      Read.putBack t
      return .conditional test yes none

/-- A loop with a test, after its first word. -/
def loop (fuel : Nat) (lineNo : Nat) (whileTrue : Bool) : Read Command :=
  match fuel with
  | 0 => Read.fail "end of file unexpected"
  | fuel + 1 => do
    let test ← commands fuel
    let body ← loopBody fuel false
    redirect fuel lineNo (.loop whileTrue test body)

/-- The body of a loop between its two words.  The first one may be looked for. -/
def loopBody (fuel : Nat) (isAwaited : Bool) : Read Command :=
  match fuel with
  | 0 => Read.fail "end of file unexpected"
  | fuel + 1 => do
    expect fuel "do" isAwaited isAwaited
    let body ← commands fuel
    expect fuel "done" false false
    return body

/-- A loop over words, after its first word. -/
def forEach (fuel : Nat) (lineNo : Nat) : Read Command :=
  match fuel with
  | 0 => Read.fail "end of file unexpected"
  | fuel + 1 => do
    match ← token fuel false false with
    | .word w false =>
      match Word.plain? w with
      | some name =>
        if !isName name then Read.fail "Bad for loop variable"
        let t ← token fuel true true
        let words ←
          if t.isReserved "in" then some <$> loopWords fuel
          else
            if !t.isOperator .semicolon then Read.putBack t
            pure none
        let body ← loopBody fuel true
        redirect fuel lineNo (.forEach lineNo name words body)
      | none => Read.fail "Bad for loop variable"
    | _ => Read.fail "Bad for loop variable"

/-- The words that a loop goes through, and the end of their line. -/
def loopWords (fuel : Nat) : Read (List Word) :=
  match fuel with
  | 0 => Read.fail "end of file unexpected"
  | fuel + 1 => do
    match ← token fuel false false with
    | .word w _ => return w :: (← loopWords fuel)
    | .operator .semicolon => return []
    | .operator .newline =>
      Token.readDocuments (list fuel none false)
      return []
    | t => Read.unexpected t none

/-- The items of a selection, and its last word. -/
def items (fuel : Nat) : Read (List (List Word × Option Command)) :=
  match fuel with
  | 0 => Read.fail "end of file unexpected"
  | fuel + 1 => do
    let t ← Token.read (list fuel none false) ⟨true, true, false⟩
    if t.isReserved "esac" then return []
    else
      let t ← if t.isOperator .opening then token fuel false false else pure t
      let ps ← patterns fuel t
      let body ← list fuel none false
      let t ← token fuel true true
      match t with
      | .operator .itemEnd => return (ps, body) :: (← items fuel)
      | t =>
        if t.isReserved "esac" then return [(ps, body)]
        else Read.unexpected t (some Operator.itemEnd.describe)

/-- The patterns of an item, the first of which is the given token, and the parenthesis after
them.  A token that is no word stands for the word before it. -/
def patterns (fuel : Nat) (first : Token) : Read (List Word) :=
  match fuel with
  | 0 => Read.fail "end of file unexpected"
  | fuel + 1 => do
    let w ← match first with
      | .word w _ => pure w
      | .reserved word => pure (Token.chars false word.toList)
      | _ => (·.lastWord) <$> get
    let t ← token fuel false false
    match t with
    | .operator .pipe => return w :: (← patterns fuel (← token fuel false false))
    | .operator .closing => return [w]
    | t => Read.unexpected t (some Operator.closing.describe)

/-- A simple command, or the definition of a function. -/
def simple (fuel : Nat) (lineNo : Nat) (p : SimpleParts) : Read Command :=
  match fuel with
  | 0 => Read.fail "end of file unexpected"
  | fuel + 1 => do
    match ← Token.read (list fuel none false) ⟨false, false, p.words.isEmpty⟩ with
    | .word w _ =>
      match if p.words.isEmpty then Word.assignment? w else none with
      | some a => simple fuel lineNo { p with assignments := a :: p.assignments }
      | none => simple fuel lineNo { p with words := w :: p.words }
    | .redirect descriptor arrow =>
      let r ← target fuel descriptor arrow
      simple fuel lineNo { p with redirections := r :: p.redirections }
    | t =>
      match t.isOperator .opening, p with
      | true, ⟨[], [w], []⟩ =>
        let t ← token fuel false false
        if !t.isOperator .closing then Read.unexpected t (some Operator.closing.describe)
        let name := (Word.plain? w).getD []
        if !isName name || specialNames.contains (String.ofList name) then
          Read.fail "Bad function name"
        return .define name (← command fuel true true)
      | _, _ =>
        Read.putBack t
        return .simple lineNo p.assignments.reverse p.words.reverse p.redirections.reverse

end

/-- Steps that are enough for what is left of the script, whatever the aliases stand for. -/
def enoughSteps : Read Nat := do
  let s ← get
  let growth := s.aliases.foldl (fun n a => n + a.text.length + 1) 1
  return 16 * (s.rest.length + 4) * growth

/-- The next line of a script: the commands in it, if there are any, and whether the script ends
with it. -/
def next : Read (Option Command × Bool) := do
  modify fun s => { s with pushed := none, missing := [] }
  let c ← line (← enoughSteps) none
  return (c, (← get).pushed.any (·.isOperator .endOfFile))

/-- The word that a text makes up when it is expanded as in a here-document. -/
def word : Read Word := do
  Token.parts (list (← enoughSteps) none false) (← Token.enoughSteps) .document

end InlineAudit.Shell.Script
