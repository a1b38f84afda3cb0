/-!
JSON values.

* `Json` — a value as it stands in a text, with its members in the order of the text.

Design notes: a number is kept as it is written, so that nothing is lost before it is known what
the number is for.  A string is absent where its escapes name half of a surrogate pair: such a
string is well formed, and no text.  Members may repeat a key.
-/

namespace InlineAudit

/-- A JSON value. -/
inductive Json
  | null
  | bool (b : Bool)
  | number (written : List Char)
  | string (text : Option String)
  | array (items : List Json)
  | object (members : List (Option String × Json))
  deriving Repr, Inhabited

namespace Json

/-- A string that is text. -/
def ofString (s : String) : Json := .string (some s)

/-- A list of strings. -/
def ofStrings (ss : List String) : Json := .array (ss.map ofString)

/-- An integer. -/
def ofInt (n : Int) : Json := .number (toString n).toList

/-- An object with keys that are text. -/
def ofMembers (ms : List (String × Json)) : Json := .object (ms.map fun m => (some m.1, m.2))

end Json

end InlineAudit
