import InlineAudit.Text.Search

/-!
What one line of compiler output says about inlining.

* `Diagnostic` — the five things a line can be;
* `Diagnostic.ofLine` — the reading of a line.

A header wins over everything else, then a call that was inlined, then "can inline", then
"cannot inline": the phrases compete by this order, not by where in the line they stand.  A
symbol is the run of characters up to the next space.  A line "cannot inline" has to have a colon
at the end of its symbol and a space after it, and the first occurrence of the phrase for which
that holds counts; its reason ends with the line.
-/

namespace InlineAudit

/-- One line of compiler output. -/
inductive Diagnostic
  /-- The lines that follow belong to this package. -/
  | header (package : String)
  /-- The symbol was inlined at a call. -/
  | inliningCall (symbol : String)
  /-- The symbol is inlineable. -/
  | canInline (symbol : String)
  /-- The symbol is not inlineable, and the compiler says why. -/
  | cannotInline (symbol reason : String)
  /-- Anything else. -/
  | other
  deriving Repr, DecidableEq, Inhabited

namespace Diagnostic

/-- What a header line starts with. -/
def headerMark : List Char := "# ".toList

/-- What stands before a symbol that was inlined at a call. -/
def inliningCallMark : List Char := ": inlining call to ".toList

/-- What stands before a symbol that is inlineable. -/
def canInlineMark : List Char := ": can inline ".toList

/-- What stands before a symbol that is not inlineable. -/
def cannotInlineMark : List Char := ": cannot inline ".toList

/-- The symbol and reason in what follows a "cannot inline": a word that ends in a colon, a
space, and the rest of the line. -/
def refusal? (cs : List Char) : Option (List Char × List Char) :=
  match splitAtFirst? ' ' cs with
  | none => none
  | some (w, rest) =>
    if w.getLast? = some ':' then some (w.dropLast, rest.takeWhile (· ≠ '\n')) else none

/-- The first refusal in a line. -/
def firstRefusal? : List Char → Option (List Char × List Char)
  | [] => none
  | c :: cs =>
    match (dropPhrase? cannotInlineMark (c :: cs)).bind refusal? with
    | some r => some r
    | none => firstRefusal? cs

/-- The reading of a line, given without its terminator. -/
def ofChars (cs : List Char) : Diagnostic :=
  match dropPhrase? headerMark cs with
  | some package => header (String.ofList package)
  | none =>
  match after? inliningCallMark cs with
  | some rest => inliningCall (String.ofList (word rest))
  | none =>
  match after? canInlineMark cs with
  | some rest => canInline (String.ofList (word rest))
  | none =>
  match firstRefusal? cs with
  | some (symbol, reason) => cannotInline (String.ofList symbol) (String.ofList reason)
  | none => other

/-- The reading of a line, given without its terminator. -/
def ofLine (line : String) : Diagnostic :=
  ofChars line.toList

end Diagnostic

end InlineAudit
