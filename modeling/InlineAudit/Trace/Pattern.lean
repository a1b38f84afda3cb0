import InlineAudit.Text.Decimal
import InlineAudit.Text.Letter

/-!
Regular expressions, as far as it matters whether a text is one.

* `Trace.Pattern.isPattern` — a text is a regular expression.

Design notes: what is between braces is never read, for a pattern stands between braces itself; an
opening brace has to be escaped.  Boundaries of words are refused, because a table of states cannot
tell them for the words of all scripts.
-/

namespace InlineAudit.Trace.Pattern

/-- What an escape stands for. -/
inductive Escape
  | literal (c : Char)
  /-- One character of a set. -/
  | set
  /-- A place, and no character. -/
  | place
  deriving Repr, DecidableEq

/-- The characters that stand for themselves only when they are escaped. -/
def isSpecial (c : Char) : Bool := "\\.+*?()|[]\x7b\x7d^$#&-~".toList.contains c

/-- The character that a letter after a backslash stands for. -/
def controlChar? : Char → Option Char
  | 'a' => some '\x07'
  | 'f' => some '\x0c'
  | 't' => some '\t'
  | 'n' => some '\n'
  | 'r' => some '\r'
  | 'v' => some '\x0b'
  | _ => none

/-- The character whose number is given by some hexadecimal digits. -/
def numberedChar? (ds : List Char) : Option Char := do
  let n ← ds.foldlM (fun n d => (digitValue? d).map (16 * n + ·)) 0
  if n < 0xD800 ∨ (0xDFFF < n ∧ n < 0x110000) then some (Char.ofNat n) else none

/-- The number of digits after a letter for a character given by its number. -/
def digitCount? : Char → Option Nat
  | 'x' => some 2
  | 'u' => some 4
  | 'U' => some 8
  | _ => none

/-- The escape after a backslash, and what follows it. -/
def escape? : List Char → Option (Escape × List Char)
  | [] => none
  | c :: rest =>
    match digitCount? c with
    | some n =>
      if rest.length < n then none
      else (numberedChar? (rest.take n)).map fun d => (.literal d, rest.drop n)
    | none =>
      if "dswDSW".toList.contains c then some (.set, rest)
      else if c == 'p' || c == 'P' then
        match rest with
        | k :: rest => if "CLMNPSZclmnpsz".toList.contains k then some (.set, rest) else none
        | [] => none
      else if c == 'A' || c == 'z' then some (.place, rest)
      else
        match controlChar? c with
        | some d => some (.literal d, rest)
        | none =>
          let escapable := isSpecial c || (c.toNat < 0x80 && !c.isAlphanum && c != '<' && c != '>')
          if escapable then some (.literal c, rest) else none

/-- What follows the letters of a named class such as `[:alpha:]`, after its first bracket. -/
def afterNamedClass? (cs : List Char) : Option (List Char) :=
  match cs with
  | ':' :: rest =>
    let rest := match rest with
      | '^' :: rest => rest
      | rest => rest
    let name := rest.takeWhile (· != ':')
    let known := ["alnum", "alpha", "ascii", "blank", "cntrl", "digit", "graph", "lower", "print",
      "punct", "space", "upper", "word", "xdigit"]
    match rest.drop name.length with
    | ':' :: ']' :: rest => if known.contains (String.ofList name) then some rest else none
    | _ => none
  | _ => none

/-- What follows the opening bracket of a class and the characters that stand for themselves only
there. -/
def afterOpening (cs : List Char) : List Char :=
  let cs := match cs with
    | '^' :: rest => rest
    | cs => cs
  match cs with
  | '-' :: rest => rest.dropWhile (· == '-')
  | ']' :: rest => rest
  | cs => cs

/-- An item of a class, and what follows it. -/
def item? : List Char → Option (Escape × List Char)
  | [] => none
  | '\\' :: rest =>
    match escape? rest with
    | some (.place, _) => none
    | e => e
  | c :: rest => some (.literal c, rest)

/-- What follows a class whose brackets are open to a depth. -/
def afterClass? : Nat → Nat → List Char → Option (List Char)
  | _, 0, cs => some cs
  | 0, _ + 1, _ => none
  | fuel + 1, depth + 1, cs =>
    match cs with
    | ']' :: rest => afterClass? fuel depth rest
    | '[' :: rest =>
      match afterNamedClass? rest with
      | some rest => afterClass? fuel (depth + 1) rest
      | none => afterClass? fuel (depth + 2) (afterOpening rest)
    | '&' :: '&' :: rest | '-' :: '-' :: rest | '~' :: '~' :: rest =>
      afterClass? fuel (depth + 1) rest
    | cs => do
      let (first, rest) ← item? cs
      match rest with
      | '-' :: c :: more =>
        if c == ']' || c == '-' then afterClass? fuel (depth + 1) rest
        else
          match first, ← item? (c :: more) with
          | .literal a, (.literal b, rest) =>
            if a ≤ b then afterClass? fuel (depth + 1) rest else none
          | _, _ => none
      | rest => afterClass? fuel (depth + 1) rest

/-- A name of a group. -/
def isGroupName (name : List Char) : Bool :=
  match name with
  | [] => false
  | c :: rest =>
    (c == '_' || (Text.isLetterOrNumber c && !c.isDigit)) &&
      rest.all fun c => c == '_' || c == '.' || c == '[' || c == ']' || Text.isLetterOrNumber c

/-- Settings of a group: letters, none of them twice, and at most one hyphen, which is not last. -/
def areSettings (cs : List Char) : Bool :=
  let letters := cs.filter (· != '-')
  letters.all "imsUuRx".toList.contains && letters.eraseDups.length == letters.length &&
    (cs.filter (· == '-')).length ≤ 1 && cs.getLast? != some '-'

/-- What an opening parenthesis begins. -/
inductive Opening
  | group
  | named (name : List Char)
  /-- Settings that stand alone. -/
  | settings
  deriving Repr, DecidableEq

/-- What an opening parenthesis begins, and what follows it. -/
def opening? (cs : List Char) : Option (Opening × List Char) :=
  let named (cs : List Char) : Option (Opening × List Char) :=
    let name := cs.takeWhile (· != '>')
    match cs.drop name.length with
    | _ :: rest => if isGroupName name then some (.named name, rest) else none
    | [] => none
  match cs with
  | '?' :: 'P' :: '<' :: rest => named rest
  | '?' :: '<' :: rest => named rest
  | '?' :: rest =>
    let settings := rest.takeWhile fun c => c != ':' && c != ')'
    match rest.drop settings.length with
    | ':' :: rest => if areSettings settings then some (.group, rest) else none
    | _ :: rest =>
      if !settings.isEmpty && areSettings settings then some (.settings, rest) else none
    | [] => none
  | rest => some (.group, rest)

/-- A pattern from a place onwards, where groups are open to a depth, some group names are taken,
and there is something that could be repeated or not. -/
def isPatternFrom : Nat → Nat → List (List Char) → Bool → List Char → Bool
  | 0, _, _, _, _ => false
  | fuel + 1, depth, names, repeatable, cs =>
    match cs with
    | [] => depth == 0
    | '(' :: rest =>
      match opening? rest with
      | some (.group, rest) => isPatternFrom fuel (depth + 1) names false rest
      | some (.named name, rest) =>
        !names.contains name && isPatternFrom fuel (depth + 1) (name :: names) false rest
      | some (.settings, rest) => isPatternFrom fuel depth names false rest
      | none => false
    | ')' :: rest => depth != 0 && isPatternFrom fuel (depth - 1) names true rest
    | '|' :: rest => isPatternFrom fuel depth names false rest
    | '[' :: rest =>
      match afterClass? rest.length.succ 1 (afterOpening rest) with
      | some rest => isPatternFrom fuel depth names true rest
      | none => false
    | '*' :: rest | '+' :: rest | '?' :: rest =>
      repeatable && isPatternFrom fuel depth names true rest
    | '{' :: _ => false
    | '\\' :: rest =>
      match escape? rest with
      | some (_, rest) => isPatternFrom fuel depth names true rest
      | none => false
    | _ :: rest => isPatternFrom fuel depth names true rest

/-- A regular expression. -/
def isPattern (cs : List Char) : Bool := isPatternFrom cs.length.succ 0 [] false cs

end InlineAudit.Trace.Pattern
