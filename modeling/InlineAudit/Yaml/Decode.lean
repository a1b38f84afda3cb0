import InlineAudit.Yaml.Node
import InlineAudit.Yaml.Scalar.Resolution

/-!
YAML documents read as something else.

* `Yaml.Decoder` — a reading that counts the aliases it follows;
* `Yaml.text`, `Yaml.flag`, `Yaml.nullable`, `Yaml.listOf`, `Yaml.pairs` — strings, truth values,
  lists and mappings;
* `Yaml.fields` — the fields of a record.

Design notes: where a string is expected every scalar is one, however it is written.  A scalar that
is not written stands for an empty list, mapping or record, and so does a missing document.  A
reading follows at most a hundred aliases for each event of the document, so that a short text
cannot stand for a huge value.
-/

namespace InlineAudit.Yaml

/-- A reading: the document, and the number of aliases followed so far. -/
abbrev Decoder (α : Type) := Document → StateT Nat Option α

/-- The number of aliases that may be followed for each event. -/
def aliasesPerEvent : Nat := 100

/-- A node that is no alias. -/
def follow (node : Node) : Decoder Node := fun d => do
  match node with
  | .alias n =>
    let followed ← get
    set (followed + 1)
    if d.size * aliasesPerEvent < followed + 1 then failure
    match d.target? n with
    | some node => return node
    | none => failure
  | node => return node

/-- The tag of nulls. -/
def nullTag : Bytes := Utf8.encode "tag:yaml.org,2002:null"

/-- The tag of truth values. -/
def boolTag : Bytes := Utf8.encode "tag:yaml.org,2002:bool"

/-- The text of a scalar. -/
def text (node : Node) : Decoder String := fun d => do
  match ← follow node d with
  | .scalar _ s _ => return s
  | _ => failure

/-- A truth value: a plain scalar, or a literal one with the tag of truth values. -/
def flag (node : Node) : Decoder Bool := fun d => do
  match ← follow node d with
  | .scalar tag s style =>
    let suited := style == .plain || (style == .literal && tag == some boolTag)
    match truthValue? s with
    | some b => if suited then return b else failure
    | none => failure
  | _ => failure

/-- What may stand in place of a value that can be null: nothing if it is no null, and otherwise
whether it is null.  A scalar with the tag of nulls has to be one. -/
def isNull? : Node → Option Bool
  | .absent => some true
  | .scalar tag s style =>
    if style != .plain then some false
    else
      match tag with
      | none => some (s.isEmpty || isNullText s)
      | some t => if t = nullTag then (if isNullText s then some true else none) else some false
  | _ => some false

/-- A value that may be null. -/
def nullable {α : Type} (read : Node → Decoder α) (node : Node) : Decoder (Option α) := fun d => do
  let node ← follow node d
  match isNull? node with
  | none => failure
  | some true => return none
  | some false => some <$> read node d

/-- The node stands for an empty collection. -/
def isUnwritten : Node → Bool
  | .absent => true
  | .scalar _ s style => s.isEmpty && style == .plain
  | _ => false

/-- A list whose items are read in the same way. -/
def listOf {α : Type} (read : Node → Decoder α) (node : Node) : Decoder (List α) := fun d => do
  match ← follow node d with
  | .sequence items => items.mapM fun n => read n d
  | node => if isUnwritten node then return [] else failure

/-- The pairs of a mapping. -/
def rawPairs (node : Node) : Decoder (List (Node × Node)) := fun d => do
  match ← follow node d with
  | .mapping pairs => return pairs
  | node => if isUnwritten node then return [] else failure

/-- A mapping from texts, its pairs in the order of the document. -/
def pairs {α : Type} (read : Node → Decoder α) (node : Node) : Decoder (List (String × α)) :=
  fun d => do
    (← rawPairs node d).mapM fun (k, v) => do return (← text k d, ← read v d)

/-- The fields of a record in the making: their names, with their values once they are read. -/
abbrev Slots (α : Type) := List (String × (Node → Decoder α) × Option α)

/-- A value goes into the slot of its name; a name without a slot is passed over, and a slot is
filled once only. -/
def fill {α : Type} (name : String) (value : Node) : Slots α → Decoder (Slots α)
  | [], _ => return []
  | (n, read, v) :: rest, d =>
    if n = name then
      match v with
      | none => do return (n, read, some (← read value d)) :: rest
      | some _ => failure
    else do return (n, read, v) :: (← fill name value rest d)

/-- The fields of a record, read in the order of the document and given in the order of their
names. -/
def fields {α : Type} (readers : List (String × (Node → Decoder α))) (node : Node) :
    Decoder (List (Option α)) := fun d => do
  let slots : Slots α := readers.map fun (n, read) => (n, read, none)
  let slots ← (← rawPairs node d).foldlM (fun slots (k, v) => do
    let name ← text k d
    fill name v slots d) slots
  return slots.map (·.2.2)

/-- The whole of a document. -/
def Document.read? {α : Type} (d : Document) (read : Node → Decoder α) : Option α :=
  ((read d.root d).run 0).map (·.1)

end InlineAudit.Yaml
