import InlineAudit.Shell.Builtin.Aliases
import InlineAudit.Shell.Builtin.Mask
import InlineAudit.Shell.Builtin.Signals
import InlineAudit.Shell.Builtin.Test
import InlineAudit.Shell.Builtin.Variables

/-!
The commands that a shell has by itself, apart from those that run others.

* `Shell.Builtin.plain?` — the command of a name.
-/

namespace InlineAudit.Shell.Builtin

/-- A format and arguments are printed. -/
def printf (args : List (List Char)) : Run Nat := do
  let (_, args) ← options [] args
  match args with
  | [] => Run.fail "usage: printf format [arg ...]".toList
  | format :: args =>
    let p := Format.printf format args
    p.complaints.forM Run.complain
    Run.print p.text
    return if p.stopped then 2 else if p.complaints.isEmpty then 0 else 1

/-- A test; in brackets the last argument has to close them, and counts by its first character. -/
def test (inBrackets : Bool) (args : List (List Char)) : Run Nat := do
  if inBrackets && (args.getLast?.bind List.head?) != some ']' then Run.fail "missing ]".toList
  match Test.evaluate (← get) (if inBrackets then args.dropLast else args) with
  | .ok holds => return if holds then 0 else 1
  | .error what => Run.fail what

/-- The path of a directory that a path leads to, without steps up and without links followed.  Two
slashes at its start are kept. -/
def logicalPath (directory path : List Char) : List Char :=
  let base := if path.head? == some '/' then [] else directory
  let names := (base.splitOn '/' ++ path.splitOn '/').foldl (fun names n =>
    if n.isEmpty || n == ['.'] then names
    else if n == ['.', '.'] then names.drop 1
    else n :: names) []
  let start := if ((base ++ path).takeWhile (· == '/')).length == 2 then ['/'] else []
  start ++ if names.isEmpty then ['/'] else names.reverse.flatMap ('/' :: ·)

/-- The directories in which a path may be looked for, and whether it is shown where it is found. -/
def directoriesFor (m : Machine) (path : List Char) : List (List Char × Bool) :=
  let first := path.takeWhile (· != '/')
  if path.isEmpty || path.head? == some '/' || first == ['.'] || first == ['.', '.'] then
    [(path, false)]
  else
    let bases := ((m.value? "CDPATH".toList).getD []).splitOn ':'
    bases.map (fun b => if b.isEmpty then (path, false) else (b ++ '/' :: path, true)) ++
      [(path, false)]

/-- The script goes to a directory. -/
def changeDirectory (args : List (List Char)) : Run Nat := do
  let (letters, args) ← options ['L', 'P'] args
  let m ← get
  let returns := args.head? == some ['-']
  let path := match args with
    | [] => m.value? "HOME".toList
    | a :: _ => if returns then m.value? "OLDPWD".toList else some a
  let path := path.getD []
  let place? (path : List Char) : Option Place :=
    let logical := logicalPath m.directory path
    (m.tree.find m.cwd ⟨bytesOfChars logical⟩).toOption.filter m.tree.isDirectory
  match (directoriesFor m path).find? fun (p, _) => (place? p).isSome with
  | some (found, isShown) =>
    let place := (place? found).getD []
    let directory :=
      if letters.getLast? == some 'P' then charsOfBytes place.path.bytes
      else logicalPath m.directory found
    let mark (v : List Char) : Variable := { value := some v, isExported := true }
    set ({ m with cwd := place, directory }.putVariable "OLDPWD".toList
      (some (mark m.directory)) |>.putVariable "PWD".toList (some (mark directory)))
    if returns || isShown then print (directory ++ ['\n']) else return 0
  | none => Run.fail ("can't cd to ".toList ++ path)

/-- The path of the current directory is printed. -/
def printDirectory (args : List (List Char)) : Run Nat := do
  let (letters, _) ← options ['L', 'P'] args
  let m ← get
  let path := if letters.getLast? == some 'P' then charsOfBytes m.cwd.path.bytes else m.directory
  print (path ++ ['\n'])

/-- The limits that are shown: there are none. -/
def limits (args : List (List Char)) : Run Nat := do
  let (_, args) ← options "HSatfdscmlpnvwr".toList args
  match args with
  | [] => print "unlimited\n".toList
  | a :: _ =>
    if isDigits a || a == "unlimited".toList then return 0 else Run.fail "bad number".toList

/-- The times that were used are shown. -/
def times : Run Nat :=
  let line := "0m0.000000s 0m0.000000s\n".toList
  print (line ++ line)

/-- Loops are left, or go on to their next turn. -/
def leaveLoops (flow : Nat → Flow) (args : List (List Char)) : Run Nat := do
  let n ← match args with
    | [] => pure 1
    | a :: _ =>
      let n ← Run.number a
      if n == 0 then Run.fail ("Illegal number: ".toList ++ a)
      pure n
  Run.setStatus 0
  let n := min n (← get).loops
  if n == 0 then return 0 else throw (flow n)

/-- The function or file is left. -/
def return_ (args : List (List Char)) : Run Nat := do
  match args with
  | [] => throw .returns
  | a :: _ =>
    Run.setStatus (← Run.number a)
    throw .returns

/-- The script ends. -/
def exit (args : List (List Char)) : Run Nat := do
  match args with
  | [] =>
    let m ← get
    throw (.exits (m.interrupted.getD m.status))
  | a :: _ => throw (.exits (← Run.number a))

/-- The command of a name. -/
def plain? (name : List Char) : Option (List (List Char) → Run Nat) :=
  match String.ofList name with
  | ":" | "true" => some fun _ => return 0
  | "false" => some fun _ => return 1
  | "echo" => some fun args => print (Format.echo args)
  | "printf" => some printf
  | "test" => some (test false)
  | "[" => some (test true)
  | "cd" | "chdir" => some changeDirectory
  | "pwd" => some printDirectory
  | "read" => some read
  | "getopts" => some nextOption
  | "export" => some passOn
  | "readonly" => some makeReadonly
  | "local" => some declareLocal
  | "unset" => some unset
  | "set" => some configure
  | "shift" => some shift
  | "trap" => some trap
  | "break" => some (leaveLoops .breaks)
  | "continue" => some (leaveLoops .continues)
  | "return" => some return_
  | "exit" => some exit
  | "kill" => some kill
  | "wait" => some wait
  | "umask" => some mask
  | "alias" => some defineAliases
  | "unalias" => some removeAliases
  | "bg" | "fg" => some resume
  | "ulimit" => some limits
  | "times" => some fun _ => times
  | "jobs" => some fun _ => return 0
  | _ => none

/-- The commands that run or look up others. -/
def runners : List String := [".", "command", "eval", "exec", "hash", "type"]

/-- There is a command of this name. -/
def isBuiltin (name : List Char) : Bool :=
  (plain? name).isSome || runners.contains (String.ofList name)

/-- An error of the command ends the script. -/
def isSpecial (name : List Char) : Bool := Script.specialNames.contains (String.ofList name)

/-- Arguments of the command that are assignments are not split. -/
def takesAssignments (name : List Char) : Bool :=
  ["export", "readonly", "local", "alias"].contains (String.ofList name)

end InlineAudit.Shell.Builtin
