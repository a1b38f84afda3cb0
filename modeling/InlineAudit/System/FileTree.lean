import InlineAudit.System.IoError
import InlineAudit.System.Path

/-!
A file system, as a value.

* `FileTree` — files, directories and symbolic links by their place;
* `FileTree.walk` — where a path leads, through links;
* `FileTree.read`, `FileTree.write` — a whole file;
* `FileTree.canonical?` — the path of an existing entry, without links;
* `Host.absolutize` — a path as it is seen from the root.

Design notes: a place is the list of names that leads to it from the root, none of them a link.
The root is always there.  A walk goes through at most forty links, and the place that a path
leads to may be vacant in its last name only, so that a file can be made there.  The current
directory may be gone, and then no relative path can be made absolute.
-/

namespace InlineAudit

/-- A place in a file system: the names that lead to it from the root. -/
abbrev Place := List Bytes

/-- What can be at a place. -/
inductive Entry
  | file (content : Bytes) (executable : Bool)
  | directory
  | link (target : Path)
  deriving Repr, DecidableEq

/-- Files, directories and links by their place. -/
structure FileTree where
  entries : List (Place × Entry)
  deriving Repr, DecidableEq, Inhabited

/-- Where a walk ends. -/
inductive Goal
  /-- At an entry, which is not a link. -/
  | existing (place : Place)
  /-- At a name that its directory does not hold. -/
  | vacant (place : Place)
  deriving Repr, DecidableEq

/-- The path of a place. -/
def Place.path (p : Place) : Path :=
  match p with
  | [] => ⟨[slash]⟩
  | _ => ⟨p.flatMap fun n => slash :: n⟩

namespace FileTree

/-- The number of links that one walk may go through. -/
def maxLinks : Nat := 40

/-- The number of bytes that a name may have. -/
def maxName : Nat := 255

/-- The number of bytes that a path may have. -/
def maxPath : Nat := 4095

/-- The entry at a place. -/
def entry? (t : FileTree) (place : Place) : Option Entry :=
  if place = [] then some .directory else t.entries.lookup place

/-- There is a directory at a place. -/
def isDirectory (t : FileTree) (place : Place) : Bool :=
  t.entry? place == some .directory

/-- An entry is put at a place, instead of what is there. -/
def put (t : FileTree) (place : Place) (e : Entry) : FileTree :=
  ⟨(place, e) :: t.entries.filter (·.1 ≠ place)⟩

/-- The walk from a place.  Each step is taken in a directory; a link is replaced by the walk that
it describes. -/
def walk (t : FileTree) (links : Nat) (here : Place) (todo : List Step) : Except IoError Goal :=
  match todo with
  | [] => .ok (.existing here)
  | step :: rest =>
    if t.isDirectory here then
      match step with
      | .here | .endSlash => t.walk links here rest
      | .up => t.walk links here.dropLast rest
      | .name n =>
        if n.length > maxName then .error .nameTooLong
        else
        match t.entry? (here ++ [n]) with
        | none => if rest = [] then .ok (.vacant (here ++ [n])) else .error .noSuchFile
        | some (.link target) =>
          match links with
          | 0 => .error .tooManyLinks
          | links + 1 =>
            t.walk links (if target.isAbsolute then [] else here) (target.steps ++ rest)
        | some _ => t.walk links (here ++ [n]) rest
    else .error .notADirectory
termination_by (links, todo.length)

/-- Where a path leads, seen from a directory. -/
def locate (t : FileTree) (cwd : Place) (p : Path) : Except IoError Goal :=
  if p.bytes.contains 0 then .error .nulInName
  else if p.bytes = [] then .error .noSuchFile
  else if p.bytes.length > maxPath then .error .nameTooLong
  else t.walk maxLinks (if p.isAbsolute then [] else cwd) p.steps

/-- The place of an existing entry. -/
def find (t : FileTree) (cwd : Place) (p : Path) : Except IoError Place :=
  match t.locate cwd p with
  | .error e => .error e
  | .ok (.existing place) => .ok place
  | .ok (.vacant _) => .error .noSuchFile

/-- There is something where the path leads. -/
def exists? (t : FileTree) (cwd : Place) (p : Path) : Bool :=
  match t.find cwd p with
  | .ok _ => true
  | .error _ => false

/-- The path of an existing entry from the root, without links. -/
def canonical? (t : FileTree) (cwd : Place) (p : Path) : Option Path :=
  match t.find cwd p with
  | .ok place => some place.path
  | .error _ => none

/-- The content of a file. -/
def read (t : FileTree) (cwd : Place) (p : Path) : Except IoError Bytes :=
  match t.find cwd p with
  | .error e => .error e
  | .ok place =>
    match t.entry? place with
    | some (.file content _) => .ok content
    | some .directory => .error .isADirectory
    | _ => .error .noSuchFile

/-- A whole file is written: the content of an existing one is replaced, and where the last name is
vacant a file is made.  A path that ends in a slash asks for a directory and is refused, once the
directory that would hold it is found. -/
def write (t : FileTree) (cwd : Place) (p : Path) (content : Bytes) : Except IoError FileTree :=
  match t.locate cwd p with
  | .ok (.existing place) =>
    match t.entry? place with
    | some (.file _ executable) => .ok (t.put place (.file content executable))
    | _ => .error .isADirectory
  | .ok (.vacant place) => .ok (t.put place (.file content false))
  | .error e =>
    if p.bytes.getLast? = some slash then
      match t.walk maxLinks (if p.isAbsolute then [] else cwd) p.steps.dropLast with
      | .ok _ => .error .isADirectory
      | .error e => .error e
    else .error e

end FileTree

/-- The surroundings of a program: the file system, the current directory, and the environment. -/
structure Host where
  tree : FileTree
  cwd : Place
  env : List (String × String)
  deriving Inhabited

namespace Host

/-- The value of an environment variable. -/
def envValue? (h : Host) (name : String) : Option String :=
  h.env.lookup name

/-- The current directory, if its path still leads to it. -/
def currentDirectory (h : Host) : Except IoError Place :=
  match h.tree.walk FileTree.maxLinks [] h.cwd.path.steps with
  | .error _ => .error .noSuchFile
  | .ok goal =>
    if goal = .existing h.cwd ∧ h.tree.isDirectory h.cwd then .ok h.cwd else .error .noSuchFile

/-- The directory from which a path is seen: the root, or else the current directory. -/
def viewpoint (h : Host) (p : Path) : Except IoError Place :=
  if p.isAbsolute then .ok [] else h.currentDirectory

/-- A path made absolute: the canonical one of what exists, and otherwise the path as it is seen
from the directory. -/
def absolutize (h : Host) (p : Path) : Except IoError Path :=
  (h.viewpoint p).map fun here => (h.tree.canonical? here p).getD (here.path.join p)

end Host

end InlineAudit
