import InlineAudit.Yaml.Cursor

/-!
The blanks and line breaks between two words of a scalar.

* `Yaml.Gap` — what a gap consists of;
* `Yaml.Gap.text` — what it stands for;
* `Yaml.Gap.read?` — the gap at a place.

Blanks within a line stand for themselves.  A single line feed stands for a space, and of several
the first stands for nothing; other breaks stand for themselves.  Blanks around a break are dropped.
-/

namespace InlineAudit.Yaml

/-- A gap: the blanks before any break, whether there is a break, the text of the first one and
that of the others.  The blanks and the others are held with the last character first. -/
structure Gap where
  blanks : List Char
  broken : Bool
  first : List Char
  others : List Char
  deriving Repr, DecidableEq

namespace Gap

/-- No gap. -/
def empty : Gap := ⟨[], false, [], []⟩

/-- The gap after a line break that was escaped, and so stands for nothing. -/
def escaped : Gap := ⟨[], true, [], []⟩

/-- What a gap stands for. -/
def text (g : Gap) : List Char :=
  if g.broken then
    if g.first.head? = some '\n' then (if g.others.isEmpty then [' '] else g.others.reverse)
    else g.first ++ g.others.reverse
  else g.blanks.reverse

/-- The gap at a place, going on from one that has begun.  After a break a tab that stands left of
the given column is refused. -/
def read? (margin : Int) : Nat → Gap → Cursor → Option (Gap × Cursor)
  | 0, _, _ => none
  | fuel + 1, g, c =>
    match c.takeBreak? with
    | some (b, c) =>
      if g.broken then read? margin fuel { g with others := b.reverse ++ g.others } c
      else read? margin fuel ⟨[], true, b, []⟩ c
    | none =>
      match c.head? with
      | some a =>
        if isBlank a then
          if g.broken then
            if a = '\t' ∧ (c.column : Int) < margin then none
            else read? margin fuel g (c.advance 1)
          else read? margin fuel { g with blanks := a :: g.blanks } (c.advance 1)
        else some (g, c)
      | none => some (g, c)

end Gap

end InlineAudit.Yaml
