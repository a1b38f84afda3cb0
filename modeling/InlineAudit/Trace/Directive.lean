import InlineAudit.Text.Decimal
import InlineAudit.Text.Letter
import InlineAudit.Trace.Pattern

/-!
Directives: which events are told, for a part of the program.

* `Trace.Directive` — a level, with what it is limited to;
* `Trace.Directive.ofChars?` — the directive that a text describes.

A directive is a level, a target, or a target with a level after an equals sign.  Before the level
there may be a span in brackets, and in them the fields of the span in braces.

Design notes: the text is read by a machine that goes through it without the blanks around it.  Its
states say where the present part begins, in bytes; the parts are cut out of the text with its
blanks, so that blanks at the start shift them.
-/

namespace InlineAudit.Trace

/-- A field that a directive asks for. -/
structure Field where
  name : List Char
  /-- A value is asked for, too. -/
  valued : Bool
  deriving Repr, DecidableEq

/-- A level for some parts of the program: events of this rank or a lower one are told. -/
structure Directive where
  /-- What the names of these parts start with; all parts if there is none. -/
  target : Option (List Char)
  /-- The name of the span that it is limited to. -/
  span : Option (List Char)
  fields : List Field
  rank : Nat
  deriving Repr, DecidableEq

/-- The rank of a word for a level, or of a number that stands for one. -/
def levelRank? (cs : List Char) : Option Nat :=
  let digits := match cs with
    | '+' :: ds => ds
    | ds => ds
  if !digits.isEmpty && digits.all Char.isDigit then
    let n := Decimal.natOfDigits digits
    if n ≤ 5 then some n else none
  else
    match String.ofList (cs.map Char.toLower) with
    | "off" => some 0
    | "error" => some 1
    | "warn" => some 2
    | "info" => some 3
    | "debug" => some 4
    | "trace" => some 5
    | _ => none

/-- The rank that a directive has without a level. -/
def fullRank : Nat := 5

/-- The rank of the level after an equals sign. -/
def givenRank? (cs : List Char) : Option Nat :=
  if cs.isEmpty then some fullRank else levelRank? cs

/-- The value of a field: a number, or a pattern. -/
def isFieldValue (cs : List Char) : Bool :=
  let unsigned := match cs with
    | '+' :: rest => rest
    | '-' :: rest => rest
    | cs => cs
  let word := String.ofList (unsigned.map Char.toLower)
  (Decimal.read? unsigned).isSome || word == "inf" || word == "infinity" || word == "nan" ||
    Pattern.isPattern cs

/-- A field: a name, and perhaps an equals sign and a value. -/
def Field.ofChars? (cs : List Char) : Option Field :=
  let name := cs.takeWhile (· != '=')
  if cs.isEmpty then none
  else
    match cs.drop name.length with
    | [] => some ⟨name, false⟩
    | _ :: rest =>
      if isFieldValue (rest.takeWhile (· != '=')) then some ⟨name, true⟩ else none

/-- The characters of a text from one byte up to another. -/
def slice : List Char → Nat → Nat → List Char
  | [], _, _ => []
  | c :: cs, first, last =>
    let rest := slice cs (first - c.utf8Size) (last - c.utf8Size)
    if first = 0 ∧ 0 < last then c :: rest else rest

namespace Directive

/-- Where the machine is in a directive, and at which byte the present part begins. -/
inductive Part
  | start
  | levelOrTarget (first : Nat)
  | span (first : Nat)
  | field (first : Nat)
  /-- After the fields. -/
  | fields
  /-- After the span. -/
  | target
  | level (first : Nat)
  deriving Repr, DecidableEq

/-- The machine: the directive so far, what it reads, and the bytes that it has passed. -/
structure Reader where
  directive : Directive
  part : Part
  passed : Nat
  deriving Repr, DecidableEq

namespace Reader

/-- The machine before the first character. -/
def empty : Reader := ⟨⟨none, none, [], fullRank⟩, .start, 0⟩

/-- A character that may begin a directive. -/
def begins (c : Char) : Bool :=
  c == '-' || c == ':' || c == '_' || Text.isLetterOrNumber c

/-- What a character leads to, in a text. -/
def next? (written : List Char) (r : Reader) (c : Char) : Option (Directive × Part) :=
  let d := r.directive
  let after := r.passed + 1
  let cut (first : Nat) := slice written first r.passed
  match r.part with
  | .start =>
    if c == '[' then some (d, .span after)
    else if begins c then some (d, .levelOrTarget r.passed)
    else none
  | .levelOrTarget first =>
    if c == '=' then some ({ d with target := some (cut first) }, .level after)
    else if c == '[' then some ({ d with target := some (cut first) }, .span after)
    else some (d, r.part)
  | .span first =>
    if c == ']' then some ({ d with span := some (cut first) }, .target)
    else if c == '{' then
      let name := cut first
      some ({ d with span := if name.isEmpty then none else some name }, .field after)
    else some (d, r.part)
  | .field first =>
    if c == '}' then
      (Field.ofChars? (cut first)).map fun f => ({ d with fields := d.fields ++ [f] }, .fields)
    else some (d, r.part)
  | .fields => if c == ']' then some (d, .target) else none
  | .target => if c == '=' then some (d, .level after) else none
  | .level _ => some (d, r.part)

/-- A character. -/
def step? (written : List Char) (r : Reader) (c : Char) : Option Reader :=
  (next? written r c).map fun (directive, part) => ⟨directive, part, r.passed + c.utf8Size⟩

/-- The directive at the end of a text. -/
def finish? (written : List Char) (r : Reader) : Option Directive :=
  let remaining (first : Nat) := slice written first (String.ofList written).utf8ByteSize
  match r.part with
  | .levelOrTarget first =>
    let name := remaining first
    match givenRank? name with
    | some rank => some { r.directive with rank }
    | none => some { r.directive with target := some name }
  | .level first => (givenRank? (remaining first)).map fun rank => { r.directive with rank }
  | .target => some r.directive
  | _ => none

end Reader

/-- The directive that a text describes. -/
def ofChars? (cs : List Char) : Option Directive :=
  ((Text.trim cs).foldlM (Reader.step? cs) .empty).bind (Reader.finish? cs)

/-- The directive can concern events outside of spans: it names no span and asks for no value. -/
def isStatic (d : Directive) : Bool := d.span.isNone && d.fields.all (!·.valued)

end Directive

end InlineAudit.Trace
