import InlineAudit.Shell.Glob
import InlineAudit.Shell.Machine

/-!
What the words of a script expand to.

* `Shell.Expansion.fields` — the fields of a word;
* `Shell.Expansion.value`, `Shell.Expansion.text` — a word as a single text;
* `Shell.Expansion.pattern` — a word as a pattern.

Design notes: a word can hold commands, whose output becomes a part of it.  How they are run is
given from outside.
-/

namespace InlineAudit.Shell.Expansion

/-- The way from commands to their output, without the line ends at its end. -/
abbrev Capture := Option Command → Run (List Char)

/-- What a word is expanded for. -/
structure Manner where
  /-- The word is split into fields. -/
  splits : Bool := false
  /-- That is done to what is written outside of quotes, too. -/
  splitsText : Bool := false
  /-- The word is the value of an assignment. -/
  isAssigned : Bool := false
  deriving Repr, DecidableEq

/-- A tilde that is followed by this stands for the home directory. -/
def endsTilde (k : Manner) : List Part → Bool
  | [] => true
  | .text c :: _ => c == '/' || (c == ':' && k.isAssigned)
  | _ => false

/-- What stands between the arguments of a script when all of them are expanded.  Where fields are
made, it is a mark; in quotes this holds only for the parameter that keeps them apart. -/
def between (m : Machine) (k : Manner) (name : List Char) (inQuotes : Bool) : List Char :=
  if !k.splits || (inQuotes && name == ['*']) then m.argumentSeparator
  else if !inQuotes && (m.binding? "IFS".toList).isNone then [' ']
  else [betweenArguments]

/-- The value of a parameter, if it is set.  The arguments may be kept apart by a mark. -/
def parameter? (m : Machine) (k : Manner) (name : List Char) (inQuotes : Bool) :
    Option (List Char) :=
  if name == ['@'] || name == ['*'] then
    some (Format.joined (between m k name inQuotes) m.arguments)
  else m.parameter? name

/-- The pieces of a value. -/
def pieces (m : Machine) (name value : List Char) (inQuotes : Bool) : List Piece :=
  if inQuotes then
    let start := if name == ['@'] && !m.arguments.isEmpty then [Piece.quotes] else []
    start ++ value.map fun c =>
      if c == betweenArguments then Piece.next else .char c true false
  else Piece.ofSplit value

/-- The value of an arithmetic expression. -/
def arithmetic (source : List Char) : Run Int64 :=
  let wrong (what : String) : Run Int64 :=
    Run.fail (("arithmetic expression: " ++ what ++ ": \"").toList ++ source ++ ['"'])
  let surroundings : Arithmetic.Expr.Surroundings Run :=
    { get := fun name => do
        let value := ((← get).value? name).getD []
        match Arithmetic.ofValue? value with
        | some n => return n
        | none => Run.fail ("Illegal number: ".toList ++ value)
      set := fun name n => Run.assign name (toString n.toInt).toList
      divisionByZero := wrong "division by zero"
      flaw := wrong }
  (Arithmetic.Expr.ofChars source).eval surroundings

/-- A parameter that has to be set is not. -/
def missing {α : Type} (name : List Char) (what : List Char) : Run α :=
  Run.fail (name ++ ':' :: ' ' :: what)

/-- The length of a parameter; that of all the arguments together does not count what stands between
them. -/
def length (m : Machine) (name : List Char) : Option Nat :=
  if name == ['@'] || name == ['*'] then
    some (m.parameter? name |>.getD []).length
  else (m.parameter? name).map (·.length)

mutual

/-- The pieces of a part. -/
def part (capture : Capture) (k : Manner) : Part → Run (List Piece)
  | .text c => return [.char c false k.splitsText]
  | .quoted c => return [.char c true false]
  | .quotes => return [.quotes]
  | .output c inQuotes => do return Piece.ofExpansion inQuotes (← capture c)
  | .arithmetic e inQuotes => do
    let n ← arithmetic (Piece.text (← parts capture {} false e))
    return Piece.ofExpansion inQuotes (toString n.toInt).toList
  | .parameter name change word inQuotes => do
    if change == .malformed then Run.fail "Bad substitution".toList
    let m ← get
    let value := parameter? m k name inQuotes
    let given (orEmpty : Bool) : Bool := value.any fun v => !orEmpty || !v.isEmpty
    let whole := pieces m name (value.getD []) inQuotes
    let instead : Manner := { splits := k.splits, splitsText := k.splits && !inQuotes }
    let start := if instead.splitsText then [Piece.expansion] else []
    match change with
    | .default orEmpty =>
      if given orEmpty then return whole else return start ++ (← parts capture instead true word)
    | .alternative orEmpty =>
      if given orEmpty then return start ++ (← parts capture instead true word) else return []
    | .assign orEmpty =>
      if given orEmpty then return whole
      else
        let v := Piece.text (← parts capture {} true word)
        Run.assign name v
        return pieces (← get) name v inQuotes
    | .complain orEmpty =>
      if given orEmpty then return whole
      else
        let what := Piece.text (← parts capture {} true word)
        missing name <|
          if word.isEmpty then ("parameter not set" ++ if orEmpty then " or null" else "").toList
          else what
    | _ =>
      if value.isNone && m.has 'u' then missing name "parameter not set".toList
      match change with
      | .length =>
        return Piece.ofExpansion inQuotes (decimal ((length m name).getD 0))
      | .trim atEnd longest =>
        let p := Piece.pattern (← parts capture {} true word)
        return pieces m name (Pattern.trim atEnd longest p (value.getD [])) inQuotes
      | _ => return whole

/-- The pieces of a word or the end of one.  A tilde stands for the home directory where the word
begins, and in an assignment also after a colon. -/
def parts (capture : Capture) (k : Manner) (atStart : Bool) : List Part → Run (List Piece)
  | [] => return []
  | p :: rest => do
    match p with
    | .text c =>
      let home ← do
        if c == '~' && atStart && endsTilde k rest then pure ((← get).value? "HOME".toList)
        else pure none
      let more ← parts capture k (c == ':' && k.isAssigned) rest
      match home with
      | some h => return Piece.ofQuoted h ++ more
      | none => return .char c false k.splitsText :: more
    | p =>
      let ps ← part capture k p
      return ps ++ (← parts capture k false rest)

end

/-- The paths that a field matches; the field itself, if there are none. -/
def matched (m : Machine) (p : Pattern) : List (List Char) :=
  if m.has 'f' || !p.isProper then [p.text]
  else
    match matchingPaths m.tree m.cwd p with
    | [] => [p.text]
    | paths => paths

/-- The fields of a word. -/
def fields (capture : Capture) (w : Word) : Run (List (List Char)) := do
  let ps ← parts capture { splits := true } true w
  let m ← get
  return (Piece.fields m.separators ps).flatMap (matched m)

/-- The value of an assignment. -/
def value (capture : Capture) (w : Word) : Run (List Char) := do
  return Piece.text (← parts capture { isAssigned := true } true w)

/-- The text of a word that is not split. -/
def text (capture : Capture) (w : Word) : Run (List Char) := do
  return Piece.text (← parts capture {} true w)

/-- The pattern of a word. -/
def pattern (capture : Capture) (w : Word) : Run Pattern := do
  return Piece.pattern (← parts capture {} true w)

end InlineAudit.Shell.Expansion
