import InlineAudit.Yaml.Cursor

/-!
Scalars that are blocks of lines.

* `Yaml.block?` — the scalar after the mark of a block.

The mark may be followed by the depth of the lines, and by what becomes of the line breaks at the
end: one is kept, or none, or all of them.  A literal block keeps its line breaks; in a folded one a
single break between two lines that do not start with a blank stands for a space.
-/

namespace InlineAudit.Yaml

/-- What becomes of the line breaks at the end of a block. -/
inductive Chomp
  | strip
  | clip
  | keep
  deriving Repr, DecidableEq

/-- What follows the mark of a block: the depth of its lines, if it is given, and what becomes of
the last line breaks. -/
structure BlockHeader where
  depth : Option Nat
  chomp : Chomp
  deriving Repr, DecidableEq

/-- The sign for the last line breaks. -/
def chomp? : Char → Option Chomp
  | '-' => some .strip
  | '+' => some .keep
  | _ => none

/-- The header at a place, in either order. -/
def blockHeader? (c : Cursor) : Option (BlockHeader × Cursor) :=
  let depthAt (cs : List Char) : Option (Option Nat) :=
    match cs with
    | d :: _ =>
      if d == '0' then none
      else if d.isDigit then some (some (d.toNat - 48)) else some none
    | [] => some none
  match c.rest with
  | [] => some (⟨none, .clip⟩, c)
  | a :: rest =>
    match chomp? a with
    | some chomp => (depthAt rest).map fun depth =>
      (⟨depth, chomp⟩, c.advance (if depth.isSome then 2 else 1))
    | none => (depthAt (a :: rest)).map fun depth =>
      match depth with
      | none => (⟨none, .clip⟩, c)
      | some n =>
        match rest.head?.bind chomp? with
        | some chomp => (⟨some n, chomp⟩, c.advance 2)
        | none => (⟨some n, .clip⟩, c.advance 1)

/-- The empty lines at a place, after those so far.  Spaces are passed up to the margin, or all of
them while there is none; a tab instead of such a space is refused.  The result has the greatest
column that was reached, the text of the breaks, and the place; the breaks so far are given with the
last one first. -/
def blankLines? (margin : Option Nat) :
    Nat → Nat → List Char → Cursor → Option (Nat × List Char × Cursor)
  | 0, _, _, _ => none
  | fuel + 1, widest, breaks, c =>
    let spaces := (c.rest.takeWhile (· == ' ')).length
    let c := c.advance <| match margin with
      | none => spaces
      | some m => min spaces (m - c.column)
    let widest := max widest c.column
    if c.head? == some '\t' && margin.all (c.column < ·) then none
    else
      match c.takeBreak? with
      | some (b, c) => blankLines? margin fuel widest (b.reverse ++ breaks) c
      | none => some (widest, breaks.reverse, c)

/-- A block in the making: the text so far, its last character first, the break after its last line,
and the empty lines after that break. -/
structure BlockText where
  seen : List Char
  lineBreak : List Char
  emptyLines : List Char
  /-- The last line starts with a blank. -/
  startsBlank : Bool
  deriving Repr, DecidableEq

namespace BlockText

/-- The text with the breaks that stand before a further line, its last character first. -/
def joined (folded : Bool) (b : BlockText) (nextStartsBlank : Bool) : List Char :=
  if folded && b.lineBreak.head? == some '\n' && !b.startsBlank && !nextStartsBlank then
    (if b.emptyLines.isEmpty then [' '] else b.emptyLines).reverse ++ b.seen
  else (b.lineBreak ++ b.emptyLines).reverse ++ b.seen

/-- The text of a whole block. -/
def finish (b : BlockText) : Chomp → List Char
  | .strip => b.seen.reverse
  | .clip => b.seen.reverse ++ b.lineBreak
  | .keep => b.seen.reverse ++ b.lineBreak ++ b.emptyLines

end BlockText

/-- The lines of a block whose text begins in a column. -/
def blockLines? (folded : Bool) (margin : Nat) :
    Nat → BlockText → Cursor → Option (BlockText × Cursor)
  | 0, _, _ => none
  | fuel + 1, b, c =>
    if c.column = margin ∧ c.rest ≠ [] then
      let startsBlank := c.head?.any isBlank
      let line := c.rest.takeWhile (!isBreak ·)
      let seen := line.reverse ++ b.joined folded startsBlank
      let c := c.advance line.length
      let (lineBreak, c) := c.takeBreak?.getD ([], c)
      match blankLines? (some margin) c.bound 0 [] c with
      | none => none
      | some (_, emptyLines, c) =>
        blockLines? folded margin fuel ⟨seen, lineBreak, emptyLines, startsBlank⟩ c
    else some (b, c)

/-- The scalar after the mark of a block, inside a block that is indented as given. -/
def block? (folded : Bool) (indent : Int) (c : Cursor) : Option (List Char × Cursor) := do
  let (header, c) ← blockHeader? c
  let c := c.skipComment
  if !Cursor.atBreak c.rest then none
  else
    let c := c.skipBreak
    let given := header.depth.map fun n => if 0 ≤ indent then indent.toNat + n else n
    let (widest, emptyLines, c) ← blankLines? given c.bound 0 [] c
    let margin := given.getD (max (max widest (indent + 1).toNat) 1)
    let (b, c) ← blockLines? folded margin c.bound ⟨[], [], emptyLines, false⟩ c
    return (b.finish header.chomp, c)

end InlineAudit.Yaml
