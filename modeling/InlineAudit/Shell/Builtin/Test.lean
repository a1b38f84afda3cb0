import InlineAudit.Shell.Machine

/-!
The test of a shell script: files, texts and numbers.

* `Shell.Test.evaluate` — the truth of a test, or what is wrong with it.

Design notes: a test is a list of words, and a word can be an operator or an operand.  What it is
depends on the words after it, so a place in a test is the list of the words that are left.
-/

namespace InlineAudit.Shell.Test

/-- The words of a test from a place on. -/
abbrev Words := List (List Char)

/-- What an operator takes. -/
inductive Kind
  | unary
  | binary
  | negation
  | and
  | or
  | opening
  | closing
  deriving Repr, DecidableEq

/-- What a word can be an operator of. -/
def kind? (w : List Char) : Option Kind :=
  match String.ofList w with
  | "!" => some .negation
  | "(" => some .opening
  | ")" => some .closing
  | "-a" => some .and
  | "-o" => some .or
  | s =>
    if ["=", "!=", "<", ">", "-eq", "-ne", "-ge", "-gt", "-le", "-lt", "-nt", "-ot",
      "-ef"].contains s then some .binary
    else if ["-r", "-w", "-x", "-e", "-f", "-d", "-c", "-b", "-p", "-u", "-g", "-k", "-s", "-t",
      "-z", "-n", "-h", "-O", "-G", "-L", "-S"].contains s then some .unary
    else none

/-- What the next word is. -/
inductive Lexeme
  | nothing
  | operand
  | operator (k : Kind)
  deriving Repr, DecidableEq

/-- The next word is an operand although it looks like an operator with one operand. -/
def isOperand (ws : Words) : Bool :=
  match ws with
  | _ :: next :: _ :: _ => kind? next == some .binary
  | _ :: _ :: [] => false
  | _ => true

/-- What the next word is. -/
def lexeme (ws : Words) : Lexeme :=
  match ws with
  | [] => .nothing
  | w :: rest =>
    match kind? w with
    | none => .operand
    | some k =>
      if k == .unary && isOperand ws then .operand
      else if k == .opening && rest.isEmpty then .operand
      else .operator k

/-- A complaint about a word. -/
def about (w : List Char) (what : String) : List Char :=
  if w.isEmpty then what.toList else w ++ ": ".toList ++ what.toList

/-- A number. -/
def number (w : List Char) : Except (List Char) Int :=
  match Arithmetic.readDecimal? w with
  | some n => .ok n
  | none => .error ("Illegal number: ".toList ++ w)

/-- The place that a path leads to. -/
def place? (m : Machine) (path : List Char) : Option Place :=
  (m.tree.find m.cwd ⟨bytesOfChars path⟩).toOption

/-- The path is that of a link. -/
def isLink (m : Machine) (path : List Char) : Bool :=
  let name := (path.reverse.takeWhile (· != '/')).reverse
  let directory := path.take (path.length - name.length)
  match place? m (if directory.isEmpty then ['.'] else directory) with
  | some place =>
    match m.tree.entry? (place ++ [bytesOfChars name]) with
    | some (.link _) => true
    | _ => false
  | none => false

/-- What can be found at a path. -/
inductive Found
  | nothing
  | directory
  | file (content : Bytes) (executable : Bool)
  | device
  | pipe
  deriving Repr, DecidableEq

/-- What is found at a path; one that names a descriptor leads to where that leads. -/
def found (m : Machine) (path : List Char) : Found :=
  let atPlace (place : Place) : Found :=
    if place == nullDevice then .device
    else
      match m.tree.entry? place with
      | some (.file content executable) => .file content executable
      | some .directory => .directory
      | _ => .nothing
  match namedDescriptor? path with
  | some d =>
    match m.stream? d with
    | some (_, .file place _ _ _ _) => atPlace place
    | some (_, .nothing) => .device
    | some _ => .pipe
    | none => .nothing
  | none => ((place? m path).map atPlace).getD .nothing

/-- The truth of a test with one operand. -/
def unary (m : Machine) (op arg : List Char) : Except (List Char) Bool :=
  match String.ofList op with
  | "-z" => .ok arg.isEmpty
  | "-n" => .ok !arg.isEmpty
  | "-t" => (number arg).map fun _ => false
  | "-h" | "-L" => .ok (isLink m arg || ["/dev/stdin", "/dev/stdout", "/dev/stderr"].contains
      (String.ofList arg))
  | s =>
    .ok <| match s, found m arg with
      | _, .nothing => false
      | "-f", .file _ _ => true
      | "-c", .device => true
      | "-p", .pipe => true
      | "-d", .directory => true
      | "-s", .directory => true
      | "-s", .file content _ => !content.isEmpty
      | "-x", .directory => true
      | "-x", .file _ executable => executable
      | "-k", .directory => place? m arg == some [Utf8.encode "tmp"]
      | s, _ => ["-e", "-r", "-w", "-O", "-G"].contains s

/-- The truth of a test with two operands. -/
def binary (m : Machine) (a op b : List Char) : Except (List Char) Bool :=
  let numbers (holds : Int → Int → Bool) : Except (List Char) Bool := do
    return holds (← number a) (← number b)
  match String.ofList op with
  | "=" => .ok (a == b)
  | "!=" => .ok (a != b)
  | "<" => .ok (decide (a < b))
  | ">" => .ok (decide (b < a))
  | "-eq" => numbers (· == ·)
  | "-ne" => numbers (· != ·)
  | "-lt" => numbers (decide <| · < ·)
  | "-le" => numbers (decide <| · ≤ ·)
  | "-gt" => numbers (decide <| · > ·)
  | "-ge" => numbers (decide <| · ≥ ·)
  | "-ef" => .ok ((place? m a).isSome && place? m a == place? m b)
  | _ => .ok false

/-- What is being read. -/
inductive Rule
  | or
  | and
  | not
  | primary
  deriving Repr, DecidableEq

/-- The truth of the part of a test that begins with a word of the given kind, and the words from
its last one on. -/
def read (m : Machine) : Nat → Rule → Lexeme → Words → Except (List Char) (Bool × Words)
  | 0, _, _, ws => .ok (false, ws)
  | fuel + 1, .or, n, ws => do
    let (a, ws) ← read m fuel .and n ws
    if lexeme ws.tail == .operator .or then
      let (b, ws) ← read m fuel .or (lexeme (ws.drop 2)) (ws.drop 2)
      return (a || b, ws)
    else return (a, ws)
  | fuel + 1, .and, n, ws => do
    let (a, ws) ← read m fuel .not n ws
    if lexeme ws.tail == .operator .and then
      let (b, ws) ← read m fuel .and (lexeme (ws.drop 2)) (ws.drop 2)
      return (a && b, ws)
    else return (a, ws)
  | fuel + 1, .not, n, ws =>
    if n != .operator .negation then read m fuel .primary n ws
    else do
      let next := lexeme ws.tail
      let (a, ws) ← read m fuel .not next (if next == .nothing then ws else ws.tail)
      return (!a, ws)
  | fuel + 1, .primary, n, ws =>
    match n with
    | .nothing => .ok (false, ws)
    | .operator .opening =>
      let next := lexeme ws.tail
      if next == .operator .closing then .ok (false, ws.tail)
      else do
        let (a, ws) ← read m fuel .or next ws.tail
        if lexeme ws.tail == .operator .closing then return (a, ws.tail)
        else .error "closing paren expected".toList
    | .operator .unary =>
      match ws with
      | op :: arg :: rest => (unary m op arg).map fun a => (a, arg :: rest)
      | op :: [] => .error (about op "argument expected")
      | [] => .ok (false, [])
    | _ =>
      match lexeme ws.tail, ws with
      | .operator .binary, a :: op :: b :: rest => (binary m a op b).map fun r => (r, b :: rest)
      | .operator .binary, _ :: op :: [] => .error (about op "argument expected")
      | _, a :: _ => .ok (!a.isEmpty, ws)
      | _, [] => .ok (false, [])

/-- The truth of a test.  Three words with an operator in the middle are a comparison, whatever they
look like; parentheses around a test, or a negation before it, then come first. -/
def evaluate (m : Machine) (ws : Words) : Except (List Char) Bool :=
  match ws with
  | [] => .ok false
  | [a, op, b] =>
    if kind? op == some .binary then binary m a op b
    else enclosed ws
  | [_, _, _, _] => enclosed ws
  | _ => whole (lexeme ws) ws
where
  /-- A test as a whole; no words may be left. -/
  whole (n : Lexeme) (ws : Words) : Except (List Char) Bool := do
    let (a, rest) ← read m (4 * ws.length + 8) .or n ws
    match rest with
    | w :: _ :: _ => .error (about w "unexpected operator")
    | _ => return a
  /-- A test that may be in parentheses or negated. -/
  enclosed (ws : Words) : Except (List Char) Bool :=
    match ws with
    | ['('] :: rest =>
      if rest.getLast? == some [')'] then whole (lexeme rest.dropLast) rest.dropLast
      else whole (lexeme ws) ws
    | ['!'] :: rest =>
      match rest with
      | [a, op, b] =>
        if kind? op == some .binary then (binary m a op b).map not
        else (whole (lexeme rest) rest).map not
      | _ => (whole (lexeme rest) rest).map not
    | _ => whole (lexeme ws) ws

end InlineAudit.Shell.Test
