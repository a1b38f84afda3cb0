import InlineAudit.Json.Token

/-!
Reading JSON.

* `Json.Reader` — the machine that puts tokens together, with the containers that are open;
* `Json.parse?` — the value of a text that holds one value and nothing else.

Design notes: the machine is a left fold with a stack, so that there is no limit on how deep a
value may be nested; where there is one, it is a property of the value, `Json.depth`.
-/

namespace InlineAudit.Json

/-- A container that is open, with what it holds so far, the last one first. -/
inductive Frame
  | array (items : List Json)
  | object (members : List (Option String × Json))
  /-- A member whose value is being read; it stands on top of its object. -/
  | member (key : Option String)
  deriving Repr, Inhabited

/-- What can come next. -/
inductive Expecting
  | value
  /-- A first item, or the end of an array. -/
  | item
  /-- A first key, or the end of an object. -/
  | member
  | key
  | colon (key : Option String)
  /-- A value is complete: a comma, the end of a container, or the end of the text. -/
  | separator (value : Json)
  deriving Repr, Inhabited

/-- The machine between two tokens. -/
structure Reader where
  expecting : Expecting
  frames : List Frame
  deriving Repr, Inhabited

namespace Reader

/-- The machine before the first token. -/
def empty : Reader := ⟨.value, []⟩

/-- A token where a value may begin. -/
def beginValue? (frames : List Frame) : Token → Option Reader
  | .scalar v => some ⟨.separator v, frames⟩
  | .beginArray => some ⟨.item, .array [] :: frames⟩
  | .beginObject => some ⟨.member, .object [] :: frames⟩
  | _ => none

/-- A token where a key has to stand. -/
def beginKey? (frames : List Frame) : Token → Option Reader
  | .scalar (.string key) => some ⟨.colon key, frames⟩
  | _ => none

/-- A token after a complete value. -/
def continue? (v : Json) (frames : List Frame) (t : Token) : Option Reader :=
  match frames, t with
  | .array items :: frames, .comma => some ⟨.value, .array (v :: items) :: frames⟩
  | .array items :: frames, .endArray => some ⟨.separator (.array (v :: items).reverse), frames⟩
  | .member key :: .object members :: frames, .comma =>
    some ⟨.key, .object ((key, v) :: members) :: frames⟩
  | .member key :: .object members :: frames, .endObject =>
    some ⟨.separator (.object ((key, v) :: members).reverse), frames⟩
  | _, _ => none

/-- A token. -/
def step? (r : Reader) (t : Token) : Option Reader :=
  match r.expecting, t with
  | .value, t => beginValue? r.frames t
  | .item, .endArray => some ⟨.separator (.array []), r.frames.drop 1⟩
  | .item, t => beginValue? r.frames t
  | .member, .endObject => some ⟨.separator (.object []), r.frames.drop 1⟩
  | .member, t => beginKey? r.frames t
  | .key, t => beginKey? r.frames t
  | .colon key, .colon => some ⟨.value, .member key :: r.frames⟩
  | .colon _, _ => none
  | .separator v, t => continue? v r.frames t

/-- The value at the end of the tokens. -/
def finish? (r : Reader) : Option Json :=
  match r.expecting, r.frames with
  | .separator v, [] => some v
  | _, _ => none

end Reader

/-- The value that some tokens make up. -/
def ofTokens? (ts : List Token) : Option Json :=
  (ts.foldlM Reader.step? .empty).bind Reader.finish?

/-- The value of a text. -/
def parse? (s : String) : Option Json :=
  (tokens? s.toList).bind ofTokens?

mutual

/-- The number of containers around the innermost value, itself included. -/
def depth : Json → Nat
  | .array items => depthOfItems items + 1
  | .object members => depthOfMembers members + 1
  | _ => 0

/-- The greatest depth of some items. -/
def depthOfItems : List Json → Nat
  | [] => 0
  | j :: rest => max (depth j) (depthOfItems rest)

/-- The greatest depth of the values of some members. -/
def depthOfMembers : List (Option String × Json) → Nat
  | [] => 0
  | (_, j) :: rest => max (depth j) (depthOfMembers rest)

end

end InlineAudit.Json
