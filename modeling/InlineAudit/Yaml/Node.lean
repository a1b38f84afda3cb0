import InlineAudit.Yaml.Event

/-!
YAML documents as trees.

* `Yaml.Node` — a tree of scalars, sequences and mappings, with aliases as leaves;
* `Yaml.Document` — a tree with the nodes that aliases can mean;
* `Yaml.parse?` — the document of a text.

Design notes: an alias is kept as a number, so that a node that contains an alias of itself is a
finite tree.  The number of an anchor is the number of different anchor names before it; so an
anchor name that is used again takes a number that a later name may get too, and then an alias of
that number means the node that begins last.
-/

namespace InlineAudit.Yaml

/-- A tree. -/
inductive Node
  /-- There is no document at all. -/
  | absent
  | alias (number : Nat)
  | scalar (tag : Option Bytes) (text : String) (style : Style)
  | sequence (items : List Node)
  | mapping (pairs : List (Node × Node))
  deriving Repr, Inhabited

/-- A node that has an anchor, with the number of the anchor and the place of its first event. -/
structure Anchored where
  number : Nat
  place : Nat
  node : Node
  deriving Repr, Inhabited

/-- A document. -/
structure Document where
  root : Node
  anchored : List Anchored
  /-- The number of its events. -/
  size : Nat
  deriving Repr, Inhabited

/-- The place of a node that is being read, and the number of its anchor if it has one. -/
structure Label where
  place : Nat
  number : Option Nat
  deriving Repr, Inhabited

/-- A collection that is being read, with what it holds so far, the last one first. -/
inductive NodeFrame
  | sequence (label : Label) (items : List Node)
  /-- A mapping before a key. -/
  | mapping (label : Label) (pairs : List (Node × Node))
  /-- A mapping after a key. -/
  | pair (label : Label) (pairs : List (Node × Node)) (key : Node)
  deriving Repr, Inhabited

/-- The state of the reading of events. -/
structure TreeBuilder where
  place : Nat
  /-- The anchor names so far with the number that each has now. -/
  names : List (List Char × Nat)
  anchored : List Anchored
  frames : List NodeFrame
  root : Option Node
  deriving Inhabited

namespace TreeBuilder

/-- The state before the first event. -/
def empty : TreeBuilder := ⟨0, [], [], [], none⟩

/-- The label of a node that begins here; an anchor name gets its number. -/
def label (b : TreeBuilder) (anchor : Option (List Char)) : Label × TreeBuilder :=
  match anchor with
  | none => (⟨b.place, none⟩, b)
  | some a =>
    let n := b.names.length
    (⟨b.place, some n⟩, { b with names := (a, n) :: b.names.filter (·.1 ≠ a) })

/-- A node is put where it belongs. -/
def place? (b : TreeBuilder) (node : Node) : Option TreeBuilder :=
  match b.frames with
  | [] => if b.root.isSome then none else some { b with root := some node }
  | .sequence l items :: frames => some { b with frames := .sequence l (node :: items) :: frames }
  | .mapping l pairs :: frames => some { b with frames := .pair l pairs node :: frames }
  | .pair l pairs key :: frames =>
    some { b with frames := .mapping l ((key, node) :: pairs) :: frames }

/-- A node is complete. -/
def complete? (b : TreeBuilder) (l : Label) (node : Node) : Option TreeBuilder :=
  match l.number with
  | none => b.place? node
  | some n => { b with anchored := ⟨n, l.place, node⟩ :: b.anchored }.place? node

/-- An event, before its place is counted. -/
def accept? (b : TreeBuilder) : Event → Option TreeBuilder
  | .alias a => (b.names.lookup a).bind fun n => b.place? (.alias n)
  | .scalar p text style =>
    let (l, b) := b.label p.anchor
    b.complete? l (.scalar p.tag (String.ofList text) style)
  | .sequenceStart p =>
    let (l, b) := b.label p.anchor
    some { b with frames := .sequence l [] :: b.frames }
  | .mappingStart p =>
    let (l, b) := b.label p.anchor
    some { b with frames := .mapping l [] :: b.frames }
  | .sequenceEnd =>
    match b.frames with
    | .sequence l items :: frames => { b with frames }.complete? l (.sequence items.reverse)
    | _ => none
  | .mappingEnd =>
    match b.frames with
    | .mapping l pairs :: frames => { b with frames }.complete? l (.mapping pairs.reverse)
    | _ => none

/-- An event. -/
def step? (b : TreeBuilder) (e : Event) : Option TreeBuilder :=
  (b.accept? e).map fun b => { b with place := b.place + 1 }

end TreeBuilder

/-- The document that some events describe; every alias has to come after its anchor. -/
def Document.ofEvents? (es : List Event) : Option Document := do
  if es.isEmpty then return ⟨.absent, [], 1⟩
  let b ← es.foldlM TreeBuilder.step? .empty
  if b.frames.isEmpty then b.root.map fun root => ⟨root, b.anchored, b.place⟩ else none

/-- The node that an alias of a number means: of several, the one that begins last. -/
def Document.target? (d : Document) (n : Nat) : Option Node :=
  let later (best : Option Anchored) (a : Anchored) : Option Anchored :=
    match best with
    | none => some a
    | some b => if b.place < a.place then some a else some b
  ((d.anchored.filter (·.number == n)).foldl later none).map (·.node)

/-- The document of a text that holds one document, or none. -/
def parse? (s : String) : Option Document :=
  (events? s.toList).bind Document.ofEvents?

end InlineAudit.Yaml
