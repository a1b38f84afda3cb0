import InlineAudit.Text.Utf8
import InlineAudit.Yaml.Cursor
import InlineAudit.Yaml.Scalar.Quoted

/-!
Tags, as they are written: a handle and a suffix.

* `Yaml.Tag` — a tag as it is written;
* `Yaml.tag?` — the tag at a place;
* `Yaml.tagDirective?` — what a directive that declares a handle says.

Design notes: a tag may hold bytes that are written as numbers and need not be UTF-8, so its parts
are byte strings; they end before the first byte that is zero, although all that is written has to
be well formed.  A tag in angle brackets has an empty handle, and so has the tag that is a single
exclamation mark.
-/

namespace InlineAudit.Yaml

/-- A tag as it is written. -/
structure Tag where
  handle : Bytes
  suffix : Bytes
  deriving Repr, DecidableEq

/-- A character of a tag.  In angle brackets there may be some more. -/
def isTagChar (verbatim : Bool) (c : Char) : Bool :=
  isNameChar c || ";/?:@&=+$.!~*'()".toList.contains c || (verbatim && ",[]".toList.contains c)

/-- The number of bytes that follow the first byte of a character; none if it cannot be first. -/
def bytesAfter? (b : Nat) : Option Nat :=
  if b < 0x80 then some 0
  else if b < 0xC0 then none
  else if b < 0xE0 then some 1
  else if b < 0xF0 then some 2
  else if b < 0xF8 then some 3
  else none

/-- The bytes of a tag at the start of a text, and what follows.  A byte may be written as a number,
and then also those that belong to the same character have to be. -/
def tagBytes? (verbatim : Bool) : Nat → List Char → Option (Bytes × List Char)
  | owed, '%' :: a :: b :: rest =>
    match digitValue? a, digitValue? b with
    | some x, some y =>
      let v := 16 * x + y
      let owed := match owed with
        | 0 => bytesAfter? v
        | n + 1 => if 0x80 ≤ v ∧ v < 0xC0 then some n else none
      match owed with
      | some n => (tagBytes? verbatim n rest).map fun (bs, after) => (v.toUInt8 :: bs, after)
      | none => none
    | _, _ => none
  | owed, c :: rest =>
    if c == '%' || owed != 0 then none
    else if isTagChar verbatim c then
      (tagBytes? verbatim 0 rest).map fun (bs, after) => (c.toNat.toUInt8 :: bs, after)
    else some ([], c :: rest)
  | owed, [] => if owed = 0 then some ([], []) else none

/-- The bytes of a tag at a place. -/
def tagBytesAt? (verbatim : Bool) (c : Cursor) : Option (Bytes × Cursor) :=
  (tagBytes? verbatim 0 c.rest).map fun (bs, after) =>
    (bs, c.advance (c.rest.length - after.length))

/-- The handle at a place: an exclamation mark, and perhaps a name and a second one. -/
def handle? (c : Cursor) : Option (List Char × Cursor) :=
  match c.rest with
  | '!' :: rest =>
    let name := rest.takeWhile isNameChar
    let closed := (rest.drop name.length).head? == some '!'
    let handle := '!' :: name ++ (if closed then ['!'] else [])
    some (handle, c.advance handle.length)
  | _ => none

/-- The bytes before the first one that is zero. -/
def untilZero (bs : Bytes) : Bytes := bs.takeWhile (· != 0)

/-- The byte of an exclamation mark. -/
def bang : UInt8 := 33

/-- The tag at a place, which begins with an exclamation mark.  A name without a second mark belongs
to the suffix. -/
def tagBody? (c : Cursor) : Option (Tag × Cursor) :=
  match c.rest with
  | '!' :: '<' :: _ => do
    let (suffix, c) ← tagBytesAt? true (c.advance 2)
    if suffix.isEmpty || c.head? != some '>' then none
    else some (⟨[], untilZero suffix⟩, c.advance 1)
  | _ => do
    let (handle, c) ← handle? c
    if handle.length ≥ 2 ∧ handle.getLast? = some '!' then
      let (suffix, c) ← tagBytesAt? false c
      if suffix.isEmpty then none
      else some (⟨Utf8.encodeChars handle, untilZero suffix⟩, c)
    else
      let (more, c) ← tagBytesAt? false c
      let suffix := untilZero (Utf8.encodeChars (handle.drop 1) ++ more)
      some (if suffix.isEmpty then ⟨[], [bang]⟩ else ⟨[bang], suffix⟩, c)

/-- The tag at a place.  A space follows it, or between brackets a comma. -/
def tag? (inFlow : Bool) (c : Cursor) : Option (Tag × Cursor) := do
  let (t, c) ← tagBody? c
  if inFlow && c.head? == some ',' || Cursor.atSpace c.rest then some (t, c) else none

/-- The handle and the text it stands for, in what follows the name of the directive. -/
def tagDirective? (c : Cursor) : Option (Bytes × Bytes × Cursor) := do
  let (handle, c) ← handle? (c.skipWhile isBlank)
  if handle ≠ ['!'] ∧ (handle.length < 2 ∨ handle.getLast? ≠ some '!') then none
  else if !c.head?.any isBlank then none
  else
    let (text, c) ← tagBytesAt? true (c.skipWhile isBlank)
    if text.isEmpty || !Cursor.atSpace c.rest then none
    else some (Utf8.encodeChars handle, untilZero text, c)

end InlineAudit.Yaml
