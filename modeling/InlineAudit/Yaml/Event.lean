import InlineAudit.Yaml.Token

/-!
The structure of a YAML document, as a sequence of events.

* `Yaml.Event` — scalars and aliases, and the starts and ends of collections;
* `Yaml.events?` — the events of a text that holds one document, or none.

Design notes: the grammar is a machine with a stack.  Each state says what is to be read next, and
the states below it what is to be read after that.  Every step yields one event.
-/

namespace InlineAudit.Yaml

/-- What may stand before a node: an anchor and a tag. -/
structure Properties where
  anchor : Option (List Char)
  tag : Option Bytes
  deriving Repr, DecidableEq, Inhabited

/-- An event. -/
inductive Event
  | alias (name : List Char)
  | scalar (p : Properties) (text : List Char) (style : Style)
  | sequenceStart (p : Properties)
  | sequenceEnd
  | mappingStart (p : Properties)
  | mappingEnd
  deriving Repr, DecidableEq, Inhabited

/-- What is to be read. -/
inductive Expect
  | document
  | node
  | blockItem
  /-- An item of a sequence that is not indented more than its key. -/
  | bareItem
  | blockKey
  | blockValue
  | flowItem (first : Bool)
  /-- The key of a mapping with a single pair, written as an item. -/
  | pairKey
  | pairValue
  | pairEnd
  | flowKey (first : Bool)
  | flowValue
  /-- A value that is not written. -/
  | noValue
  deriving Repr, DecidableEq, Inhabited

/-- The handles of tags, and what they stand for. -/
abbrev Handles := List (Bytes × Bytes)

/-- The handles that every document has. -/
def standardHandles : Handles :=
  [([bang], [bang]), ([bang, bang], Utf8.encode "tag:yaml.org,2002:")]

/-- The whole tag that a handle and suffix stand for. -/
def Tag.resolve? (handles : Handles) (t : Tag) : Option Bytes :=
  if t.handle.isEmpty then some t.suffix else (handles.lookup t.handle).map (· ++ t.suffix)

/-- A scalar that is not written. -/
def Event.empty : Event := .scalar ⟨none, none⟩ [] .plain

/-- The properties at the start of some tokens. -/
def properties? (handles : Handles) (ts : List Token) : Option (Properties × List Token) :=
  match ts with
  | .anchor a :: .tag t :: ts => (t.resolve? handles).map fun t => (⟨some a, some t⟩, ts)
  | .anchor a :: ts => some (⟨some a, none⟩, ts)
  | .tag t :: .anchor a :: ts => (t.resolve? handles).map fun t => (⟨some a, some t⟩, ts)
  | .tag t :: ts => (t.resolve? handles).map fun t => (⟨none, some t⟩, ts)
  | ts => some (⟨none, none⟩, ts)

/-- The outcome of a step: an event, what is to be read next, and the tokens that are left. -/
abbrev Step := Event × List Expect × List Token

/-- A node.  In blocks a collection may be given by indentation; after a key also a sequence that is
not indented more. -/
def node? (handles : Handles) (block afterKey : Bool) (stack : List Expect) (ts : List Token) :
    Option Step :=
  match ts with
  | .alias a :: ts => some (.alias a, stack, ts)
  | _ => do
    let (p, ts) ← properties? handles ts
    match ts with
    | .blockEntry :: _ =>
      if afterKey then some (.sequenceStart p, .bareItem :: stack, ts) else absent p ts
    | .scalar text style :: ts => some (.scalar p text style, stack, ts)
    | .flowSequenceStart :: ts => some (.sequenceStart p, .flowItem true :: stack, ts)
    | .flowMappingStart :: ts => some (.mappingStart p, .flowKey true :: stack, ts)
    | .blockSequenceStart :: rest =>
      if block then some (.sequenceStart p, .blockItem :: stack, rest) else absent p ts
    | .blockMappingStart :: rest =>
      if block then some (.mappingStart p, .blockKey :: stack, rest) else absent p ts
    | _ => absent p ts
where
  /-- Properties stand alone for a scalar that is not written. -/
  absent (p : Properties) (ts : List Token) : Option Step :=
    if p.anchor.isSome || p.tag.isSome then some (.scalar p [] .plain, stack, ts) else none

/-- A node, unless a token follows that means there is none. -/
def nodeUnless? (handles : Handles) (block : Bool) (ends : List Token) (stack : List Expect)
    (ts : List Token) : Option Step :=
  match ts with
  | [] => none
  | t :: _ =>
    if ends.contains t then some (.empty, stack, ts) else node? handles block block stack ts

/-- The tokens after the comma that separates the parts of a collection in brackets. -/
def afterComma? (first : Bool) (ts : List Token) : Option (List Token) :=
  if first then some ts
  else
    match ts with
    | .flowEntry :: ts => some ts
    | _ => none

/-- A token that belongs between documents. -/
def endsDocument : Token → Bool
  | .versionDirective _ _ | .tagDirective _ _ | .documentStart | .documentEnd => true
  | _ => false

/-- What the topmost state reads. -/
def step? (handles : Handles) (e : Expect) (stack : List Expect) (ts : List Token) :
    Option Step :=
  match e with
  | .document =>
    if ts.head?.all endsDocument then some (.empty, stack, ts)
    else node? handles true false stack ts
  | .node => node? handles true false stack ts
  | .blockItem =>
    match ts with
    | .blockEntry :: ts =>
      match ts with
      | .blockEntry :: _ | .blockEnd :: _ => some (.empty, .blockItem :: stack, ts)
      | _ => node? handles true false (.blockItem :: stack) ts
    | .blockEnd :: ts => some (.sequenceEnd, stack, ts)
    | _ => none
  | .bareItem =>
    match ts with
    | .blockEntry :: ts =>
      match ts with
      | .blockEntry :: _ | .key :: _ | .value :: _ | .blockEnd :: _ =>
        some (.empty, .bareItem :: stack, ts)
      | _ => node? handles true false (.bareItem :: stack) ts
    | _ => some (.sequenceEnd, stack, ts)
  | .blockKey =>
    match ts with
    | .key :: ts =>
      nodeUnless? handles true [.key, .value, .blockEnd] (.blockValue :: stack) ts
    | .blockEnd :: ts => some (.mappingEnd, stack, ts)
    | _ => none
  | .blockValue =>
    match ts with
    | .value :: ts => nodeUnless? handles true [.key, .value, .blockEnd] (.blockKey :: stack) ts
    | _ => some (.empty, .blockKey :: stack, ts)
  | .flowItem first =>
    match ts with
    | .flowSequenceEnd :: ts => some (.sequenceEnd, stack, ts)
    | _ => do
      match ← afterComma? first ts with
      | .key :: ts => some (.mappingStart ⟨none, none⟩, .pairKey :: .flowItem false :: stack, ts)
      | .flowSequenceEnd :: ts => some (.sequenceEnd, stack, ts)
      | ts => node? handles false false (.flowItem false :: stack) ts
  | .pairKey =>
    match ts with
    | .value :: ts | .flowEntry :: ts | .flowSequenceEnd :: ts =>
      some (.empty, .pairValue :: stack, ts)
    | _ => node? handles false false (.pairValue :: stack) ts
  | .pairValue =>
    match ts with
    | .value :: ts =>
      nodeUnless? handles false [.flowEntry, .flowSequenceEnd] (.pairEnd :: stack) ts
    | _ => some (.empty, .pairEnd :: stack, ts)
  | .pairEnd => some (.mappingEnd, stack, ts)
  | .flowKey first =>
    match ts with
    | .flowMappingEnd :: ts => some (.mappingEnd, stack, ts)
    | _ => do
      match ← afterComma? first ts with
      | .key :: ts =>
        nodeUnless? handles false [.value, .flowEntry, .flowMappingEnd] (.flowValue :: stack) ts
      | .flowMappingEnd :: ts => some (.mappingEnd, stack, ts)
      | ts => node? handles false false (.noValue :: stack) ts
  | .flowValue =>
    match ts with
    | .value :: ts =>
      nodeUnless? handles false [.flowEntry, .flowMappingEnd] (.flowKey false :: stack) ts
    | _ => some (.empty, .flowKey false :: stack, ts)
  | .noValue => some (.empty, .flowKey false :: stack, ts)

/-- The events until nothing more is to be read, after those so far, the last one first; and the
tokens that are left. -/
def run? (handles : Handles) :
    Nat → List Event → List Expect → List Token → Option (List Event × List Token)
  | _, done, [], ts => some (done.reverse, ts)
  | 0, _, _ :: _, _ => none
  | fuel + 1, done, e :: stack, ts =>
    match step? handles e stack ts with
    | some (event, stack, ts) => run? handles fuel (event :: done) stack ts
    | none => none

/-- The directives at the start of some tokens.  There is at most one for the version, which has to
be 1.1 or 1.2, and at most one for each handle. -/
def directives? (version : Bool) (handles : Handles) :
    List Token → Option (Handles × List Token)
  | .versionDirective major minor :: ts =>
    if version || major != 1 || (minor != 1 && minor != 2) then none
    else directives? true handles ts
  | .tagDirective handle text :: ts =>
    if (handles.lookup handle).isSome then none
    else directives? version (handles ++ [(handle, text)]) ts
  | ts => some (handles, ts)

/-- The events of one document, and the tokens after it. -/
def document? (ts : List Token) : Option (List Event × List Token) :=
  let fuel := 8 * ts.length + 8
  match ts with
  | .versionDirective _ _ :: _ | .tagDirective _ _ :: _ | .documentStart :: _ => do
    match ← directives? false [] ts with
    | (handles, .documentStart :: ts) => run? (handles ++ standardHandles) fuel [] [.document] ts
    | _ => none
  | _ => run? standardHandles fuel [] [.node] ts

/-- Only marks of the end of a document are left. -/
def isOver (ts : List Token) : Bool := ts.all (· == .documentEnd)

/-- The events of a text that holds one document; of a text without a document there are none. -/
def events? (cs : List Char) : Option (List Event) := do
  match ← tokens? cs with
  | [] => some []
  | ts =>
    let (events, rest) ← document? ts
    if isOver rest then some events else none

end InlineAudit.Yaml
