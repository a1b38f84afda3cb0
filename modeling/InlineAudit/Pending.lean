import InlineAudit.Candidates
import InlineAudit.Diagnostic
import InlineAudit.Issue
import InlineAudit.Text.Line

/-!
The candidates that a log has not yet proven inlineable.

Every registered name starts out with the unknown reason.  A line that proves a name removes it;
a line that refuses it replaces its reason, as long as it is still there.  Lines name symbols, and
the package they mean is that of the last header.

* `Pending.register` — a name is put in, unless it is there;
* `Pending.observe` — one line of the log;
* `Pending.scan` — a whole log of bytes;
* `Pending.issues` — what is left, in the order of the report;
* `Candidates.validate` — the names of a candidate set, or what is wrong with them.

Design notes: names with reasons are kept as a list in which no name repeats.  Its order is that
of registration and shows nowhere, as issues are sorted.
-/

namespace InlineAudit

/-- Names with their reasons, and the package of the last header. -/
structure Pending where
  entries : List (String × String)
  package : String
  deriving Repr, DecidableEq, Inhabited

namespace Pending

/-- Nothing registered, and no header seen. -/
def empty : Pending := ⟨[], ""⟩

/-- The name is registered and not proven. -/
def contains (p : Pending) (name : String) : Bool :=
  p.entries.any (·.1 == name)

/-- The reason of a name that is there. -/
def reason? (p : Pending) (name : String) : Option String :=
  p.entries.lookup name

/-- The number of names. -/
def size (p : Pending) : Nat := p.entries.length

/-- There is no name. -/
def isEmpty (p : Pending) : Bool := p.entries.isEmpty

/-- A name is put in with the unknown reason, unless it is there. -/
def register (p : Pending) (name : String) : Pending :=
  if p.contains name then p else { p with entries := p.entries ++ [(name, unknownReason)] }

/-- A name is taken out. -/
def discharge (p : Pending) (name : String) : Pending :=
  { p with entries := p.entries.filter (·.1 != name) }

/-- A name that is there gets another reason. -/
def explain (p : Pending) (name reason : String) : Pending :=
  { p with entries := p.entries.map fun e => if e.1 == name then (name, reason) else e }

/-- What a line means for the names. -/
def apply (p : Pending) : Diagnostic → Pending
  | .header package => { p with package }
  | .inliningCall symbol => p.discharge (fullName p.package symbol)
  | .canInline symbol => p.discharge (fullName p.package symbol)
  | .cannotInline symbol reason => p.explain (fullName p.package symbol) reason
  | .other => p

/-- One line of the log, without its terminator. -/
def observe (p : Pending) (line : String) : Pending :=
  p.apply (.ofLine line)

/-- The names that are left, as issues in the order of the report. -/
def issues (p : Pending) : List Issue :=
  Issue.sorted (p.entries.map fun e => ⟨e.1, e.2⟩)

end Pending

namespace Log

/-- The byte that ends a line. -/
def isNewline (b : UInt8) : Bool := b == 10

/-- The text of a line, from its bytes: one newline and then one carriage return are dropped at
its end. -/
def lineText (piece : Bytes) : String :=
  String.ofList (dropEnd '\r' (dropEnd '\n' (Utf8.decodeChars piece)))

/-- The lines of a log, an unterminated last one included. -/
def lines (log : Bytes) : List String :=
  (pieces isNewline log).map lineText

end Log

/-- A whole log. -/
def Pending.scan (p : Pending) (log : Bytes) : Pending :=
  (Log.lines log).foldl Pending.observe p

/-- What can be wrong with a candidate set. -/
inductive InvalidCandidates
  /-- A package has no name. -/
  | emptyPackage
  /-- A full name occurs twice. -/
  | duplicate (name : String)
  deriving Repr, DecidableEq

namespace Candidates

/-- The names of one package are registered in list order, up to the first that is there. -/
def registerSymbols (package : String) :
    List String → Pending → Except InvalidCandidates Pending
  | [], p => .ok p
  | s :: rest, p =>
    let name := fullName package s
    if p.contains name then .error (.duplicate name)
    else registerSymbols package rest (p.register name)

/-- All names are registered, packages in ascending order; a package without a name is refused
before its symbols are looked at. -/
def registerAll : List (String × List String) → Pending → Except InvalidCandidates Pending
  | [], p => .ok p
  | (package, symbols) :: rest, p =>
    if package.isEmpty then .error .emptyPackage
    else do registerAll rest (← registerSymbols package symbols p)

/-- The pending set that a check starts from: every full name with the unknown reason. -/
def validate (cs : Candidates) : Except InvalidCandidates Pending :=
  registerAll cs.entries .empty

end Candidates

end InlineAudit
