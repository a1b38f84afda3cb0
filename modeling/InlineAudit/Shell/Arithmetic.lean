import InlineAudit.Shell.Text
import InlineAudit.Text.Decimal

/-!
Integer expressions of a shell script.

* `Shell.Arithmetic.Expr` — an expression;
* `Shell.Arithmetic.Expr.ofChars` — the reading of an expression;
* `Shell.Arithmetic.Expr.eval` — its value, given what variables are.

The operators are, from the strongest: signs, `!` and `~`; `*`, `/` and `%`; `+` and `-`; shifts;
`<`, `<=`, `>` and `>=`; `==` and `!=`; `&`; `^`; `|`; `&&`; `||`; the choice `? :`; assignments.
Values have 64 bits.  Division goes towards zero; dividing by zero has no value.
-/

namespace InlineAudit.Shell.Arithmetic

/-- A text read as an integer whose base is told by how it begins, and what follows it.  A value out
of range becomes the greatest or least one. -/
def prefixed (cs : List Char) : Nat × List Char :=
  let digits (base : Nat) (cs : List Char) : Nat × List Char :=
    let isDigit (c : Char) : Bool := (digitValue? c).any (· < base)
    ((cs.takeWhile isDigit).foldl (fun n c => base * n + (digitValue? c).getD 0) 0,
      cs.dropWhile isDigit)
  match cs with
  | '0' :: 'x' :: d :: rest | '0' :: 'X' :: d :: rest =>
    if (digitValue? d).isSome then digits 16 (d :: rest) else (0, cs.drop 1)
  | '0' :: _ => digits 8 cs
  | _ => digits 10 cs

/-- The value of 64 bits nearest to an integer. -/
def clamp (n : Int) : Int64 :=
  if n < -0x8000000000000000 then Int64.minValue
  else if 0x7FFFFFFFFFFFFFFF < n then Int64.maxValue
  else Int64.ofInt n

/-- It is white space in front of or after a number. -/
def isSpace (c : Char) : Bool := c == ' ' || (9 ≤ c.toNat && c.toNat ≤ 13)

/-- A decimal number, with a sign or without, and white space around it. -/
def readDecimal? (cs : List Char) : Option Int :=
  let cs := cs.dropWhile isSpace
  let (negative, ds) := match cs with
    | '-' :: ds => (true, ds)
    | '+' :: ds => (false, ds)
    | ds => (false, ds)
  let digits := ds.takeWhile Char.isDigit
  let n : Int := Decimal.natOfDigits digits
  let value := if negative then -n else n
  let isNumber := !digits.isEmpty && (ds.drop digits.length).all isSpace
  if isNumber && (clamp value).toInt == value then some value else none

/-- The value of a variable; blanks stand for zero. -/
def ofValue? (cs : List Char) : Option Int64 :=
  let cs := cs.dropWhile isSpace
  let (negative, ds) := match cs with
    | '-' :: ds => (true, ds)
    | '+' :: ds => (false, ds)
    | ds => (false, ds)
  if cs.isEmpty then some 0
  else if !ds.head?.any Char.isDigit then none
  else
    let (n, rest) := prefixed ds
    let value : Int := if negative then -(n : Int) else n
    if rest.all isSpace && (clamp value).toInt == value then some (clamp value) else none

/-- Operators with two operands that both have a value. -/
inductive Binary
  | times
  | divided
  | remainder
  | plus
  | minus
  | shiftLeft
  | shiftRight
  | less
  | lessEqual
  | greater
  | greaterEqual
  | equal
  | notEqual
  | bitAnd
  | bitXor
  | bitOr
  deriving Repr, DecidableEq, Inhabited

/-- Operators with one operand. -/
inductive Unary
  | negative
  | negation
  | complement
  deriving Repr, DecidableEq, Inhabited

/-- An expression.  What is wrong with the way in which it is written stands where it is noticed. -/
inductive Expr
  | number (n : Int64)
  | name (x : List Char)
  | unary (op : Unary) (a : Expr)
  | binary (op : Binary) (a b : Expr)
  | both (a b : Expr)
  | either (a b : Expr)
  | choose (test yes no : Expr)
  /-- An assignment, perhaps of the outcome of an operation with the old value. -/
  | assign (x : List Char) (op : Option Binary) (a : Expr)
  /-- There should be an expression. -/
  | flaw (what : String)
  /-- There should be something else after an expression. -/
  | flawed (a : Expr) (what : String)
  deriving Repr, Inhabited

/-- A token of an expression. -/
inductive Lexeme
  | number (n : Int64)
  | name (x : List Char)
  | symbol (s : String)
  deriving Repr, DecidableEq, Inhabited

/-- The operators and parentheses, longer ones first. -/
def symbols : List String :=
  ["<<=", ">>=", "<<", ">>", "<=", ">=", "==", "!=", "&&", "||", "*=", "/=", "%=", "+=", "-=", "&=",
    "^=", "|=", "*", "/", "%", "+", "-", "<", ">", "&", "^", "|", "!", "~", "(", ")", "?", ":", "="]

/-- The tokens of an expression.  A character that cannot begin one is a symbol of its own. -/
def lexemes : Nat → List Char → List Lexeme
  | 0, _ => []
  | _ + 1, [] => []
  | fuel + 1, c :: cs =>
    if c == ' ' || c == '\t' || c == '\n' then lexemes fuel cs
    else if c.isDigit then
      let (n, rest) := prefixed (c :: cs)
      .number (clamp n) :: lexemes fuel rest
    else if isNameStart c then
      .name ((c :: cs).takeWhile isNameChar) :: lexemes fuel ((c :: cs).dropWhile isNameChar)
    else
      match symbols.find? fun s => s.toList.isPrefixOf (c :: cs) with
      | some s => .symbol s :: lexemes fuel ((c :: cs).drop s.length)
      | none => .symbol (String.singleton c) :: lexemes fuel cs

/-- The operators of each level, the weakest level first. -/
def levels : List (List (String × Binary)) :=
  [[("|", .bitOr)], [("^", .bitXor)], [("&", .bitAnd)], [("==", .equal), ("!=", .notEqual)],
    [("<", .less), ("<=", .lessEqual), (">", .greater), (">=", .greaterEqual)],
    [("<<", .shiftLeft), (">>", .shiftRight)], [("+", .plus), ("-", .minus)],
    [("*", .times), ("/", .divided), ("%", .remainder)]]

/-- The assignments that operate on the old value. -/
def assignments : List (String × Option Binary) :=
  [("=", none), ("*=", some .times), ("/=", some .divided), ("%=", some .remainder),
    ("+=", some .plus), ("-=", some .minus), ("<<=", some .shiftLeft), (">>=", some .shiftRight),
    ("&=", some .bitAnd), ("^=", some .bitXor), ("|=", some .bitOr)]

/-- What is being read. -/
inductive Rule
  | assignment
  | choice
  | either
  | both
  /-- Operands of some levels. -/
  | level (ops : List (List (String × Binary)))
  | primary
  deriving Repr

/-- An expression at the start of some tokens, and the tokens after it.  After a flaw there are
none. -/
def read : Nat → Rule → List Lexeme → Expr × List Lexeme
  | 0, _, _ => (.flaw "expecting primary", [])
  | fuel + 1, .assignment, ts =>
    match ts with
    | .name x :: .symbol s :: rest =>
      match assignments.lookup s with
      | some op =>
        let (a, ts) := read fuel .assignment rest
        (.assign x op a, ts)
      | none => read fuel .choice ts
    | _ => read fuel .choice ts
  | fuel + 1, .choice, ts =>
    let (test, ts) := read fuel .either ts
    match ts with
    | .symbol "?" :: ts =>
      let (yes, ts) := read fuel .assignment ts
      match ts with
      | .symbol ":" :: ts =>
        let (no, ts) := read fuel .choice ts
        (.choose test yes no, ts)
      | _ => (.choose test yes (.flaw "expecting ':'"), [])
    | ts => (test, ts)
  | fuel + 1, .either, ts =>
    let (a, ts) := read fuel .both ts
    match ts with
    | .symbol "||" :: ts =>
      let (b, ts) := read fuel .either ts
      (.either a b, ts)
    | ts => (a, ts)
  | fuel + 1, .both, ts =>
    let (a, ts) := read fuel (.level levels) ts
    match ts with
    | .symbol "&&" :: ts =>
      let (b, ts) := read fuel .both ts
      (.both a b, ts)
    | ts => (a, ts)
  | fuel + 1, .level [], ts => read fuel .primary ts
  | fuel + 1, .level (ops :: above), ts =>
    let (a, ts) := read fuel (.level above) ts
    operands fuel ops above a ts
  | fuel + 1, .primary, ts =>
    let unary (op : Unary) (ts : List Lexeme) : Expr × List Lexeme :=
      let (a, ts) := read fuel .primary ts
      (.unary op a, ts)
    match ts with
    | .number n :: ts => (.number n, ts)
    | .name x :: ts => (.name x, ts)
    | .symbol "+" :: ts => read fuel .primary ts
    | .symbol "-" :: ts => unary .negative ts
    | .symbol "!" :: ts => unary .negation ts
    | .symbol "~" :: ts => unary .complement ts
    | .symbol "(" :: ts =>
      let (a, ts) := read fuel .assignment ts
      match ts with
      | .symbol ")" :: ts => (a, ts)
      | _ => (.flawed a "expecting ')'", [])
    | _ => (.flaw "expecting primary", [])
where
  /-- Further operands of a level, after those in the given expression. -/
  operands : Nat → List (String × Binary) → List (List (String × Binary)) → Expr → List Lexeme →
      Expr × List Lexeme
  | 0, _, _, a, _ => (.flawed a "expecting primary", [])
  | fuel + 1, ops, above, a, ts =>
    match ts with
    | .symbol s :: rest =>
      match ops.lookup s with
      | some op =>
        let (b, ts) := read fuel (.level above) rest
        operands fuel ops above (.binary op a b) ts
      | none => (a, ts)
    | ts => (a, ts)

namespace Expr

/-- The reading of an expression. -/
def ofChars (cs : List Char) : Expr :=
  let ts := lexemes (cs.length + 1) cs
  match read (16 * ts.length + 32) .assignment ts with
  | (a, []) => a
  | (a, _) => .flawed a "expecting EOF"

/-- The first flaw of an expression. -/
def flaw? : Expr → Option String
  | .number _ | .name _ => none
  | .unary _ a | .assign _ _ a => a.flaw?
  | .binary _ a b | .both a b | .either a b => a.flaw?.or b.flaw?
  | .choose test yes no => test.flaw?.or (yes.flaw?.or no.flaw?)
  | .flaw what => some what
  | .flawed a what => a.flaw?.or (some what)

/-- One for true and zero for false. -/
def truth (b : Bool) : Int64 := if b then 1 else 0

/-- The value of two operands; there is none for a division by zero. -/
def combine? (op : Binary) (a b : Int64) : Option Int64 :=
  match op with
  | .times => some (a * b)
  | .divided => if b == 0 then none else some (a / b)
  | .remainder => if b == 0 then none else some (a % b)
  | .plus => some (a + b)
  | .minus => some (a - b)
  | .shiftLeft => some (a <<< b)
  | .shiftRight => some (a >>> b)
  | .less => some (truth (a < b))
  | .lessEqual => some (truth (a ≤ b))
  | .greater => some (truth (b < a))
  | .greaterEqual => some (truth (b ≤ a))
  | .equal => some (truth (a == b))
  | .notEqual => some (truth (a != b))
  | .bitAnd => some (a &&& b)
  | .bitXor => some (a ^^^ b)
  | .bitOr => some (a ||| b)

/-- What an evaluation asks of its surroundings. -/
structure Surroundings (m : Type → Type) where
  get : List Char → m Int64
  set : List Char → Int64 → m Unit
  divisionByZero : m Int64
  flaw : String → m Int64

/-- A part of an expression that does not count for the value is passed over, unless it has a flaw.
-/
def pass {m : Type → Type} [Monad m] (s : Surroundings m) (e : Expr) (v : Int64) : m Int64 :=
  match e.flaw? with
  | some what => s.flaw what
  | none => return v

/-- The value of an expression.  What does not count for the value is not evaluated. -/
def eval {m : Type → Type} [Monad m] (s : Surroundings m) : Expr → m Int64
  | .number n => return n
  | .name x => s.get x
  | .unary op a => do
    let a ← a.eval s
    return match op with
      | .negative => -a
      | .negation => truth (a == 0)
      | .complement => ~~~a
  | .binary op a b => do
    let a ← a.eval s
    let b ← b.eval s
    match combine? op a b with
    | some v => return v
    | none => s.divisionByZero
  | .both a b => do
    if (← a.eval s) == 0 then pass s b 0
    else
      let v ← b.eval s
      return truth (v != 0)
  | .either a b => do
    if (← a.eval s) != 0 then pass s b 1
    else
      let v ← b.eval s
      return truth (v != 0)
  | .choose test yes no => do
    if (← test.eval s) != 0 then
      let v ← yes.eval s
      pass s no v
    else
      let _ ← pass s yes 0
      no.eval s
  | .assign x op a => do
    let a ← a.eval s
    let v ← match op with
      | none => pure a
      | some op =>
        match combine? op (← s.get x) a with
        | some v => pure v
        | none => s.divisionByZero
    s.set x v
    return v
  | .flaw what => s.flaw what
  | .flawed a what => do
    let _ ← a.eval s
    s.flaw what

end Expr

end InlineAudit.Shell.Arithmetic
