import InlineAudit.Text.Utf8

/-!
File names and paths.

A path is a byte string; it need not be UTF-8.  Most operations are textual and ask nothing of the
file system.

* `Path.join` — a path seen from a directory;
* `Path.parent` — a path without its last name;
* `Path.extension` — what follows the last dot of the last name;
* `Path.steps` — the walk that a path describes.

Design notes: slashes at the end and steps `.` that are not at the start do not count as names, so
`a/b`, `a//b/` and `a/./b/.` have the same last name.  A step up does count, and is no file name.
-/

namespace InlineAudit

/-- The byte that separates the names of a path. -/
def slash : UInt8 := 47

/-- The byte of a dot. -/
def dot : UInt8 := 46

/-- A path, as bytes. -/
structure Path where
  bytes : Bytes
  deriving Repr, DecidableEq, Inhabited

/-- One move of the walk that a path describes. -/
inductive Step
  /-- To an entry of the directory. -/
  | name (n : Bytes)
  /-- To the directory itself. -/
  | here
  /-- To the directory that holds this one. -/
  | up
  /-- A slash at the end: what was reached has to be a directory. -/
  | endSlash
  deriving Repr, DecidableEq

namespace Path

/-- The path that a text names. -/
def ofString (s : String) : Path := ⟨Utf8.encode s⟩

/-- A path in a message. -/
def text (p : Path) : String := Utf8.decode p.bytes

/-- It starts at the root. -/
def isAbsolute (p : Path) : Bool := p.bytes.head? == some slash

/-- A path seen from a directory: an absolute one stands for itself, and any other is written
after the directory with a slash between them where there is none. -/
def join (base p : Path) : Path :=
  if p.isAbsolute then p
  else if base.bytes.isEmpty then p
  else if base.bytes.getLast? = some slash then ⟨base.bytes ++ p.bytes⟩
  else ⟨base.bytes ++ slash :: p.bytes⟩

/-- The texts between the slashes, empty ones included. -/
def segments (p : Path) : List Bytes := p.bytes.splitOn slash

/-- The names of a path: its segments without empty ones and those that are a dot. -/
def names (p : Path) : List Bytes :=
  p.segments.filter fun s => s ≠ [] ∧ s ≠ [dot]

/-- The last name, unless it is a step up. -/
def fileName? (p : Path) : Option Bytes :=
  match p.names.getLast? with
  | none => none
  | some n => if n = [dot, dot] then none else some n

/-- What follows the last dot of the last name.  A dot at the start of a name does not begin an
extension. -/
def extension (p : Path) : Bytes :=
  match p.fileName? with
  | none => []
  | some n =>
    match (n.reverse.dropWhile (· ≠ dot)).drop 1 with
    | [] => []
    | _ :: _ => (n.reverse.takeWhile (· ≠ dot)).reverse

/-- The bytes of a path, last one first, without slashes and steps `.` at the end; the slash of
the root stays. -/
def trimEnd : Bytes → Bytes
  | [] => []
  | b :: rest =>
    if b = slash then (if rest = [] then [slash] else trimEnd rest)
    else if b = dot ∧ rest.head? = some slash then trimEnd rest
    else b :: rest

/-- The path without its last name; the root has no parent. -/
def parent? (p : Path) : Option Path :=
  match trimEnd p.bytes.reverse with
  | [] => none
  | rev =>
    if rev = [slash] then none
    else some ⟨(trimEnd (rev.dropWhile (· ≠ slash))).reverse⟩

/-- The move that a segment stands for. -/
def stepOf (segment : Bytes) : Step :=
  if segment = [dot] then .here
  else if segment = [dot, dot] then .up
  else .name segment

/-- The walk that a path describes, from the root or from where one stands. -/
def steps (p : Path) : List Step :=
  let moves := (p.segments.filter (· ≠ [])).map stepOf
  if p.bytes.getLast? = some slash then moves ++ [.endSlash] else moves

end Path

end InlineAudit
