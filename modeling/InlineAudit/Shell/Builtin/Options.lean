import InlineAudit.Shell.Machine

/-!
What the commands of a shell have in common.

* `Shell.Builtin.options` — the options among their arguments;
* `Shell.Builtin.print` — what they print.

Every command is a computation that gives its status.
-/

namespace InlineAudit.Shell.Builtin

/-- The letters at the start of some arguments that are options, and the other arguments. -/
def options (known : List Char) : List (List Char) → Run (List Char × List (List Char))
  | ['-', '-'] :: rest => return ([], rest)
  | ('-' :: c :: cs) :: rest => do
    match (c :: cs).find? (!known.contains ·) with
    | some d => Run.fail ("Illegal option -".toList ++ [d])
    | none =>
      let (more, rest) ← options known rest
      return (c :: cs ++ more, rest)
  | args => return ([], args)

/-- A text in single quotes; single quotes themselves stand in double ones. -/
def singleQuoted (cs : List Char) : List Char :=
  go (cs.length + 1) cs
where
  /-- The same, in a number of steps. -/
  go : Nat → List Char → List Char
  | 0, _ => []
  | fuel + 1, cs =>
    let plain := cs.takeWhile (· != '\'')
    let quotes := (cs.drop plain.length).takeWhile (· == '\'')
    let rest := cs.drop (plain.length + quotes.length)
    '\'' :: plain ++ '\'' ::
      if quotes.isEmpty then []
      else '"' :: quotes ++ '"' :: if rest.isEmpty then [] else go fuel rest

/-- Text is printed. -/
def print (cs : List Char) : Run Nat := do
  Run.print cs
  return 0

end InlineAudit.Shell.Builtin
