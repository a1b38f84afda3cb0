import InlineAudit.Shell.Pattern
import InlineAudit.System.FileTree
import InlineAudit.Text.Search

/-!
Paths that match a pattern.

* `Shell.matchingPaths` — the paths of existing files that match a pattern, in ascending order.

Each part of a path between slashes is matched on its own.  A name that begins with a dot is matched
only by a part that begins with one.
-/

namespace InlineAudit

/-- The names in a directory. -/
def FileTree.names (t : FileTree) (place : Place) : List Bytes :=
  t.entries.filterMap fun (p, _) =>
    match p.getLast? with
    | some n => if p.dropLast = place then some n else none
    | none => none

namespace Shell

/-- The path of a text. -/
def pathOfChars (cs : List Char) : Path := ⟨bytesOfChars cs⟩

/-- The names of a directory that a part of a pattern matches. -/
def matchingNames (t : FileTree) (cwd : Place) (directory : List Char) (part : Pattern) :
    List (List Char) :=
  let path := if directory.isEmpty then ['.'] else directory
  match t.find cwd (pathOfChars path) with
  | .error _ => []
  | .ok place =>
    if !t.isDirectory place then []
    else
      let hidden := part.head?.any (·.char == '.')
      let names := ((t.names place).map charsOfBytes).filter fun n => hidden || n.head? != some '.'
      ((if hidden then [['.'], ['.', '.']] else []) ++ names).filter part.accepts

/-- The paths that begin with a text and go on with names that match the parts of a pattern. -/
def pathsFrom (t : FileTree) (cwd : Place) (start : List Char) : List Pattern → List (List Char)
  | [] => []
  | [part] =>
    if part.isProper then (matchingNames t cwd start part).map (start ++ ·)
    else
      let path := start ++ part.text
      if t.exists? cwd (pathOfChars path) then [path] else []
  | part :: rest =>
    if part.isProper then
      (matchingNames t cwd start part).flatMap fun n => pathsFrom t cwd (start ++ n ++ ['/']) rest
    else pathsFrom t cwd (start ++ part.text ++ ['/']) rest

/-- A pattern cut at its slashes. -/
def partsOfPath (p : Pattern) : List Pattern :=
  p.foldr (fun c parts =>
    if c.char == '/' then [] :: parts
    else
      match parts with
      | [] => [[c]]
      | part :: rest => (c :: part) :: rest) [[]]

/-- The paths that match a pattern, in ascending order. -/
def matchingPaths (t : FileTree) (cwd : Place) (p : Pattern) : List (List Char) :=
  (pathsFrom t cwd [] (partsOfPath p)).mergeSort fun a b => !Text.precedes b a

end Shell

end InlineAudit
