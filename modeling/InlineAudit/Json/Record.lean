import InlineAudit.Json.Number
import InlineAudit.Json.Value

/-!
JSON values read as something else.

* `Json.text?`, `Json.flag?`, `Json.listOf?` — strings, truth values and lists;
* `Json.fields?` — the fields of a record, given as an object or as an array;
* `Json.isRepresentable` — a value without anything that cannot be held.

Design notes: a record may have members that it does not know, but none of those that it knows may
repeat.  Given as an array its fields come in their order; the last ones may be missing, and there
must not be more.  Which of its fields a record can do without is for the record to say.
-/

namespace InlineAudit.Json

/-- The text of a string. -/
def text? : Json → Option String
  | .string (some s) => some s
  | _ => none

/-- A truth value. -/
def flag? : Json → Option Bool
  | .bool b => some b
  | _ => none

/-- The items of an array, each read in the same way. -/
def listOf? {α : Type} (read : Json → Option α) : Json → Option (List α)
  | .array items => items.mapM read
  | _ => none

/-- A value that may be null. -/
def nullable? {α : Type} (read : Json → Option α) : Json → Option (Option α)
  | .null => some none
  | j => (read j).map some

/-- An integer in the range of 32 bits. -/
def int32? : Json → Option Int32
  | .number written =>
    (Number.int? written).bind fun n =>
      if -2147483648 ≤ n ∧ n ≤ 2147483647 then some (Int32.ofInt n) else none
  | _ => none

/-- The members of an object, if all its keys are text. -/
def members? : Json → Option (List (String × Json))
  | .object members => members.mapM fun m => m.1.map fun k => (k, m.2)
  | _ => none

/-- The value of the only member with a key, if there is one; none at all if there are several. -/
def unique? (members : List (String × Json)) (key : String) : Option (Option Json) :=
  match members.filter (·.1 == key) with
  | [] => some none
  | [m] => some (some m.2)
  | _ => none

/-- The fields of a record, in the order of their names. -/
def fields? (names : List String) : Json → Option (List (Option Json))
  | .array items =>
    if items.length ≤ names.length then
      some (items.map some ++ List.replicate (names.length - items.length) none)
    else none
  | j => j.members?.bind fun ms => names.mapM (unique? ms)

mutual

/-- All strings are text, and all numbers can be held by a double. -/
def isRepresentable : Json → Bool
  | .null | .bool _ => true
  | .number written => Number.isFinite written
  | .string text => text.isSome
  | .array items => areItemsRepresentable items
  | .object members => areMembersRepresentable members

/-- All of some items are representable. -/
def areItemsRepresentable : List Json → Bool
  | [] => true
  | j :: rest => isRepresentable j && areItemsRepresentable rest

/-- All of some members are representable, and their keys are text. -/
def areMembersRepresentable : List (Option String × Json) → Bool
  | [] => true
  | (k, j) :: rest => k.isSome && isRepresentable j && areMembersRepresentable rest

end

/-- A field that may be missing. -/
def field? {α : Type} (read : Json → Option α) (default : α) : Option Json → Option α
  | none => some default
  | some j => read j

end InlineAudit.Json
