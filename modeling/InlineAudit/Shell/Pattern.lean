import InlineAudit.Shell.Text

/-!
Patterns of a shell script.

* `Shell.Pattern.accepts` — a text matches a pattern as a whole;
* `Shell.Pattern.trim` — a text without the part at its start or end that matches.

An asterisk matches any text and a question mark any character; brackets hold characters, ranges and
named classes, any of them or, after an exclamation mark or a circumflex, none of them.
-/

namespace InlineAudit.Shell

/-- A character of a pattern. -/
structure PatternChar where
  char : Char
  /-- It stands for itself. -/
  isLiteral : Bool
  deriving Repr, DecidableEq, Inhabited

/-- A pattern. -/
abbrev Pattern := List PatternChar

/-- The named classes of characters. -/
def namedClass? (name : List Char) : Option (Char → Bool) :=
  let isGraph (c : Char) : Bool := 0x20 < c.toNat && c.toNat < 0x7F
  match String.ofList name with
  | "alnum" => some Char.isAlphanum
  | "alpha" => some Char.isAlpha
  | "blank" => some isBlank
  | "cntrl" => some fun c => c.toNat < 0x20 || c.toNat == 0x7F
  | "digit" => some Char.isDigit
  | "graph" => some isGraph
  | "lower" => some Char.isLower
  | "print" => some fun c => c == ' ' || isGraph c
  | "punct" => some fun c => isGraph c && !c.isAlphanum
  | "space" => some fun c => c == ' ' || (9 ≤ c.toNat && c.toNat ≤ 13)
  | "upper" => some Char.isUpper
  | "xdigit" => some fun c => c.isDigit || "abcdefABCDEF".toList.contains c
  | _ => none

namespace Pattern

/-- A pattern without special characters. -/
def ofLiteral (cs : List Char) : Pattern := cs.map fun c => ⟨c, true⟩

/-- The text of a pattern. -/
def text (p : Pattern) : List Char := p.map (·.char)

/-- A character that has a meaning of its own. -/
def isActive (p : PatternChar) (c : Char) : Bool := !p.isLiteral && p.char == c

/-- A class and what follows it, after the bracket before its name. -/
def named? (p : Pattern) : Option ((Char → Bool) × Pattern) :=
  match p with
  | ⟨':', false⟩ :: rest =>
    let name := rest.takeWhile (·.char != ':')
    match rest.drop name.length with
    | ⟨':', false⟩ :: ⟨']', false⟩ :: after => (namedClass? (text name)).map fun f => (f, after)
    | _ => none
  | _ => none

/-- What the brackets match from a place inside them on, and what follows them; nothing, if they do
not close.  A closing bracket that comes first stands for itself. -/
def bracketed? : Nat → Bool → Pattern → Option ((Char → Bool) × Pattern)
  | 0, _, _ => none
  | _ + 1, _, [] => none
  | fuel + 1, isFirst, c :: rest =>
    if !isFirst && isActive c ']' then some (fun _ => false, rest)
    else
      match if isActive c '[' then named? rest else none with
      | some (f, rest) =>
        (bracketed? fuel false rest).map fun (g, after) => (fun a => f a || g a, after)
      | none =>
        match rest with
        | h :: d :: more =>
          if isActive h '-' && !isActive d ']' then
            (bracketed? fuel false more).map fun (g, after) =>
              (fun a => (c.char ≤ a && a ≤ d.char) || g a, after)
          else
            (bracketed? fuel false rest).map fun (g, after) => (fun a => a == c.char || g a, after)
        | _ =>
          (bracketed? fuel false rest).map fun (g, after) => (fun a => a == c.char || g a, after)

/-- What brackets match, and what follows them, after the opening one. -/
def brackets? (p : Pattern) : Option ((Char → Bool) × Pattern) :=
  match p with
  | c :: rest =>
    if isActive c '!' || isActive c '^' then
      (bracketed? (rest.length + 1) true rest).map fun (f, after) => (fun a => !f a, after)
    else bracketed? (p.length + 1) true p
  | [] => none

/-- The ends of a text, the whole of it first. -/
def tails : List Char → List (List Char)
  | [] => [[]]
  | c :: cs => (c :: cs) :: tails cs

/-- A text matches a pattern, in a number of steps that is greater than the length of the
pattern. -/
def acceptsIn : Nat → Pattern → List Char → Bool
  | 0, _, _ => false
  | _ + 1, [], s => s.isEmpty
  | fuel + 1, c :: rest, s =>
    if isActive c '*' then (tails s).any (acceptsIn fuel rest)
    else
      match s with
      | [] => false
      | a :: more =>
        if isActive c '?' then acceptsIn fuel rest more
        else
          match if isActive c '[' then brackets? rest else none with
          | some (f, after) => f a && acceptsIn fuel after more
          | none => a == c.char && acceptsIn fuel rest more

/-- A text matches a pattern as a whole. -/
def accepts (p : Pattern) (s : List Char) : Bool := acceptsIn (p.length + 1) p s

/-- A text without its shortest or longest start or end that matches a pattern. -/
def trim (atEnd longest : Bool) (p : Pattern) (s : List Char) : List Char :=
  let lengths := List.range (s.length + 1)
  if atEnd then
    match (if longest then lengths else lengths.reverse).find? fun n => accepts p (s.drop n) with
    | some n => s.take n
    | none => s
  else
    match (if longest then lengths.reverse else lengths).find? fun n => accepts p (s.take n) with
    | some n => s.drop n
    | none => s

/-- There is a character in the pattern that could match others than itself. -/
def isProper (p : Pattern) : Bool :=
  p.any fun c => isActive c '*' || isActive c '?' || isActive c '['

end Pattern

end InlineAudit.Shell
