import InlineAudit.Text.Search

/-!
A candidate as one argument.

The package and the symbol are separated by the first equals sign, if there is one, and otherwise by
the first dot after the last slash; neither may be empty.
-/

namespace InlineAudit.Command

/-- The part of a text after its last slash. -/
def lastElement (cs : List Char) : List Char :=
  (cs.reverse.takeWhile (· ≠ '/')).reverse

/-- A text cut at the first dot after the last slash. -/
def splitAtDot? (cs : List Char) : Option (List Char × List Char) :=
  let element := lastElement cs
  (splitAtFirst? '.' element).map fun (before, after) =>
    (cs.take (cs.length - element.length) ++ before, after)

/-- The package and symbol of an argument. -/
def candidate? (argument : String) : Option (String × String) :=
  let cs := argument.toList
  let halves := match splitAtFirst? '=' cs with
    | some halves => some halves
    | none => splitAtDot? cs
  match halves with
  | none => none
  | some (package, symbol) =>
    if package.isEmpty || symbol.isEmpty then none
    else some (String.ofList package, String.ofList symbol)

end InlineAudit.Command
