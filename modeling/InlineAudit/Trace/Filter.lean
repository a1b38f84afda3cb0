import InlineAudit.Text.Search
import InlineAudit.Trace.Directive
import InlineAudit.Trace.Event

/-!
Which events are told.

* `Trace.Filter` — a list of directives;
* `Trace.Filter.ofText?` — the filter that a text describes;
* `Trace.Filter.ofVerbosity` — the filter of a verbosity, which is asked for on the command line.

Of the directives that concern an event the one with the longest target decides; of those with the
same target one with a field, and of those with the same field the last.  A directive that is
limited to a span concerns no event, for there are no spans here.
-/

namespace InlineAudit.Trace

/-- Directives. -/
abbrev Filter := List Directive

/-- The pieces of a text between commas. -/
def piecesAtCommas (cs : List Char) : List (List Char) := cs.splitOn ','

namespace Filter

/-- Errors only. -/
def errorsOnly : Filter := [⟨none, none, [], 1⟩]

/-- The filter that a text describes; a text without directives describes the one for errors. -/
def ofText? (s : String) : Option Filter :=
  match (piecesAtCommas s.toList).filter (!·.isEmpty) with
  | [] => some errorsOnly
  | pieces => pieces.mapM Directive.ofChars?

/-- The rank of a verbosity: warnings at least, and everything from three upwards. -/
def verbosityRank (verbosity : Nat) : Nat := min (2 + verbosity) 5

/-- The filter of a verbosity, for all parts of this program. -/
def ofVerbosity (verbosity : Nat) : Filter :=
  ["inlcheck", "inlcheck_core"].map fun t => ⟨some t.toList, none, [], verbosityRank verbosity⟩

/-- The environment variable that describes a filter. -/
def variableName : String := "RUST_LOG"

/-- The filter that holds: that of the environment where there is one and it can be read, and
otherwise that of the verbosity. -/
def choose (described : Option String) (verbosity : Nat) : Filter :=
  (described.bind ofText?).getD (ofVerbosity verbosity)

/-- The length of a target; no target is shorter than any. -/
def targetWeight (d : Directive) : Nat := (d.target.map fun t => t.length + 1).getD 0

/-- One directive gives way to another: its target is shorter, or it has fewer fields, or its fields
do not come later in the order of their names. -/
def givesWay (d e : Directive) : Bool :=
  if targetWeight d ≠ targetWeight e then targetWeight d < targetWeight e
  else if d.fields.length ≠ e.fields.length then d.fields.length < e.fields.length
  else !Text.listPrecedes (e.fields.map (·.name)) (d.fields.map (·.name))

/-- The directive concerns an event. -/
def concerns (e : Event) (d : Directive) : Bool :=
  d.isStatic && d.target.all (·.isPrefixOf e.target.toList) &&
    d.fields.all fun f => e.fieldNames.contains (String.ofList f.name)

/-- The directive that decides about an event. -/
def decisive? (f : Filter) (e : Event) : Option Directive :=
  (f.filter (concerns e)).foldl (fun best d =>
    match best with
    | none => some d
    | some b => if givesWay b d then some d else some b) none

/-- The event is told. -/
def admits (f : Filter) (e : Event) : Bool :=
  (f.decisive? e).any fun d => e.level.rank ≤ d.rank

end Filter

end InlineAudit.Trace
