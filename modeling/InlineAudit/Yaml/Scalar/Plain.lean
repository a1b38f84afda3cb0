import InlineAudit.Yaml.Scalar.Gap

/-!
Plain scalars: text without quotes.

* `Yaml.plain?` — the plain scalar at a place.

A plain scalar ends before a colon that a space follows, before a comment, before a document mark,
before a line that is not indented enough and, between brackets, before a bracket or comma.
-/

namespace InlineAudit.Yaml

/-- A bracket or comma. -/
def isFlowMark (c : Char) : Bool :=
  c == ',' || c == '[' || c == ']' || c == '{' || c == '}'

/-- The word of a plain scalar that a text starts with, and what follows it.  Between brackets, a
colon must not stand right before a bracket, a comma or a question mark. -/
def plainWord? (inFlow : Bool) : List Char → Option (List Char × List Char)
  | [] => some ([], [])
  | c :: rest =>
    if isSpace c then some ([], c :: rest)
    else if inFlow && c == ':' && rest.head?.any (fun d => isFlowMark d || d == '?') then none
    else if c == ':' && Cursor.atSpace rest then some ([], c :: rest)
    else if inFlow && isFlowMark c then some ([], c :: rest)
    else (plainWord? inFlow rest).map fun (w, after) => (c :: w, after)

/-- The words of a plain scalar from a place where one begins, after those read so far, the last
character first, and a gap.  The gap at the end is given back too, for it is no part of the
scalar. -/
def plainWords? (inFlow : Bool) (margin : Int) :
    Nat → List Char → Gap → Cursor → Option (List Char × Gap × Cursor)
  | 0, _, _, _ => none
  | fuel + 1, seen, gap, c =>
    if c.documentMark?.isSome || c.head? == some '#' then some (seen, gap, c)
    else do
      let (word, _) ← plainWord? inFlow c.rest
      if word.isEmpty then some (seen, gap, c)
      else
        let seen := word.reverse ++ (gap.text.reverse ++ seen)
        let c := c.advance word.length
        if c.head?.any isSpace then
          let (gap, c) ← Gap.read? margin c.bound .empty c
          if !inFlow && (c.column : Int) < margin then some (seen, gap, c)
          else plainWords? inFlow margin fuel seen gap c
        else some (seen, .empty, c)

/-- The plain scalar at a place, inside a block that is indented as given; and whether its end is
at the start of a line. -/
def plain? (inFlow : Bool) (indent : Int) (c : Cursor) : Option (List Char × Bool × Cursor) :=
  (plainWords? inFlow (indent + 1) c.bound [] .empty c).map fun (seen, gap, c) =>
    (seen.reverse, gap.broken, c)

end InlineAudit.Yaml
