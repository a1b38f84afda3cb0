import InlineAudit.System.FileTree

/-!
Files that are run by another program.

* `Interpreter` — the program that runs a file, as the first line of the file says;
* `FileTree.program`, `FileTree.search` — how the shell is called to run the file of a path, or of a
  name, as a program.

Design notes: the programs that can run here are the shell and the files that it runs, directly or
through other files.  A file whose first line does not begin with a number sign and an exclamation
mark cannot be started by the system.
-/

namespace InlineAudit

/-- The program that runs a file, and an argument for it. -/
structure Interpreter where
  path : Path
  option : Option Bytes
  deriving Repr, DecidableEq

/-- The number of bytes of a file in which its interpreter has to be named. -/
def interpreterLimit : Nat := 256

/-- The interpreter that the start of a file names.  The rest of its line, without blanks around it,
is a single argument. -/
def Interpreter.ofContent? (content : Bytes) : Option Interpreter :=
  let isBlank (b : UInt8) : Bool := b == 32 || b == 9
  let start := content.take interpreterLimit
  match start with
  | 35 :: 33 :: rest =>
    let line := (rest.takeWhile (· != 10)).dropWhile isBlank
    let path := line.takeWhile fun b => !isBlank b && b != 0
    let isWhole := rest.contains 10 || content.length < interpreterLimit ||
      path.length < line.length
    let option := ((line.drop path.length).dropWhile isBlank).takeWhile (· != 0)
    let option := (option.reverse.dropWhile isBlank).reverse
    if path.isEmpty || !isWhole then none
    else some ⟨⟨path⟩, if option.isEmpty then none else some option⟩
  | _ => none

/-- The places of the shell. -/
def shellPlaces : List Place :=
  [["bin", "sh"], ["bin", "dash"], ["bin", "bash"], ["usr", "bin", "sh"], ["usr", "bin", "dash"],
    ["usr", "bin", "bash"]].map fun p => p.map Utf8.encode

namespace FileTree

/-- The number of files that may stand between a program and the shell that runs it. -/
def maxInterpreters : Nat := 5

/-- The number of bytes that one argument of a program may have. -/
def maxArgument : Nat := 131071

/-- The arguments with which the shell is called, its own name first, to run a path with some
arguments. -/
def shellCall (t : FileTree) (cwd : Place) :
    Nat → Path → List Bytes → Except IoError (List Bytes)
  | 0, _, _ => .error .tooManyLinks
  | fuel + 1, p, args =>
    match t.find cwd p with
    | .error e => .error e
    | .ok place =>
      match t.entry? place with
      | some (.file content true) =>
        if shellPlaces.contains place then .ok (p.bytes :: args)
        else
          match Interpreter.ofContent? content with
          | none => .error .notExecutableFormat
          | some i => t.shellCall cwd fuel i.path (i.option.toList ++ p.bytes :: args)
      | some _ => .error .permissionDenied
      | none => .error .noSuchFile

/-- The arguments with which the shell is called to run the file of a path as a program. -/
def program (t : FileTree) (cwd : Place) (p : Path) (args : List Bytes) :
    Except IoError (List Bytes) := do
  let call ← t.shellCall cwd (maxInterpreters + 1) p args
  if call.any (·.length > maxArgument) then .error .argumentsTooLong else .ok call

/-- The same for the first program of a name in a list of directories.  A file that may not be
executed is passed over, but it is remembered in the error. -/
def search (t : FileTree) (cwd : Place) (name : Bytes) (args : List Bytes) (denied : Bool)
    (last : IoError) : List Bytes → Except IoError (List Bytes)
  | [] => .error (if denied then .permissionDenied else last)
  | d :: rest =>
    match t.program cwd (Path.join ⟨d⟩ ⟨name⟩) args with
    | .ok call => .ok call
    | .error .permissionDenied => search t cwd name args true last rest
    | .error .noSuchFile => search t cwd name args denied .noSuchFile rest
    | .error .notADirectory => search t cwd name args denied .notADirectory rest
    | .error e => .error e

end FileTree

end InlineAudit
