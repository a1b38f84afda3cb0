import InlineAudit.Shell.Builtin.Plain
import InlineAudit.System.Interpreter

/-!
What the name of a command means.

* `Shell.Call` — the command that some words call;
* `Shell.Builtin.describe` — what is said about a name;
* `Shell.programCall` — how a program is started.

Functions come before the commands of the shell, apart from those that cannot be redefined, and
these come before programs.
-/

namespace InlineAudit.Shell

/-- What a command word means. -/
inductive Meaning
  /-- There is no command word. -/
  | nothing
  | function (body : Command)
  | builtin
  | program

/-- The command that some words call. -/
structure Call where
  /-- The name of the command and its arguments. -/
  words : List (List Char)
  meaning : Meaning
  /-- An error of the command ends the script, and assignments before it stay. -/
  isSpecial : Bool
  /-- The script itself becomes a program, or its descriptors are redirected. -/
  isExec : Bool

/-- The words after `command`, if they are a command; they are not, if the options ask for something
else, or if there are none. -/
def afterCommand : List (List Char) → Option (List (List Char))
  | [] | [['-', '-']] => none
  | ['-', '-'] :: rest => some rest
  | ('-' :: c :: cs) :: rest => if (c :: cs).all (· == 'p') then afterCommand rest else none
  | words => some words

/-- Where `command` is the name of a command, the words that are left without it, in a number of
steps. -/
def withoutCommand : Nat → List (List Char) → List (List Char)
  | 0, words => words
  | fuel + 1, name :: rest =>
    if name == "command".toList then
      match afterCommand rest with
      | some words => withoutCommand fuel words
      | none => name :: rest
    else name :: rest
  | _ + 1, [] => []

namespace Machine

/-- The function of a name, if one can have it. -/
def function? (m : Machine) (name : List Char) : Option Command :=
  if Builtin.isSpecial name then none else m.functions.lookup name

/-- The command that some words call. -/
def call (m : Machine) (words : List (List Char)) : Call :=
  match words with
  | [] => ⟨[], .nothing, false, false⟩
  | name :: _ =>
    match m.function? name with
    | some body => ⟨words, .function body, false, false⟩
    | none =>
      match withoutCommand words.length words with
      | inner :: args =>
        ⟨inner :: args, if Builtin.isBuiltin inner then .builtin else .program,
          Builtin.isSpecial name, inner == "exec".toList⟩
      | [] => ⟨words, .builtin, false, false⟩

/-- Further words are arguments that may be assignments, whose values are not split; this depends on
the words so far, and may be open. -/
def takesAssignments? (m : Machine) (words : List (List Char)) : Option Bool :=
  match words with
  | [] => none
  | name :: rest =>
    if (m.function? name).isSome then some false
    else if name != "command".toList then some (Builtin.takesAssignments name)
    else
      match withoutCommand words.length words with
      | inner :: _ =>
        if inner != name then some (Builtin.takesAssignments inner)
        else
          let isOption (w : List Char) : Bool :=
            w.head? == some '-' && w.tail.all fun c => c == 'p' || c == '-'
          if rest.all isOption then none else some false
      | [] => none

/-- The directories in which programs are looked up. -/
def searchPath (m : Machine) : List (List Char) :=
  match m.value? "PATH".toList with
  | some dirs => dirs.splitOn ':'
  | none => []

/-- The path of a file of a name in the directories in which programs are looked up. -/
def findFile? (m : Machine) (name : List Char) : Option (List Char) :=
  (m.searchPath.map fun d => if d.isEmpty then name else d ++ '/' :: name).find? fun path =>
    match m.entryAt? path with
    | some (.file _ _) => true
    | _ => false

end Machine

namespace Builtin

/-- What is said about a name, in words or in short; whether it is known. -/
def describe (m : Machine) (inWords : Bool) (name : List Char) : List Char × Bool :=
  let say (what : String) (short : List Char) : List Char × Bool :=
    (if inWords then name ++ what.toList ++ ['\n'] else short ++ ['\n'], true)
  let file := if name.contains '/' then
      if (m.entryAt? name).isSome then some name else none
    else m.findFile? name
  if Token.reservedWords.contains (String.ofList name) then say " is a shell keyword" name
  else
  match m.aliases.find? (·.name == name) with
  | some a =>
    say (" is an alias for " ++ String.ofList a.text) ("alias ".toList ++ (aliasLine a).dropLast)
  | none =>
  if isSpecial name then say " is a special shell builtin" name
  else if (m.function? name).isSome then say " is a shell function" name
  else if isBuiltin name then say " is a shell builtin" name
  else
    match file with
    | some path => say (" is " ++ String.ofList path) path
    | none => (if inWords then name ++ ": not found\n".toList else [], false)

/-- Names are described. -/
def type (args : List (List Char)) : Run Nat := do
  let (_, names) ← options [] args
  let m ← get
  let answers := names.map (describe m true)
  Run.print (answers.flatMap (·.1))
  return if answers.all (·.2) then 0 else 127

/-- Names are looked up; those that mean nothing are complained about. -/
def hash (args : List (List Char)) : Run Nat := do
  let (_, names) ← options ['r'] args
  let m ← get
  let unknown := names.filter fun n =>
    (m.function? n).isNone && !isBuiltin n && !n.contains '/' && (m.findFile? n).isNone
  unknown.forM fun n => Run.complain (n ++ ": not found".toList)
  return if unknown.isEmpty then 0 else 1

/-- A name is described, as the options ask for. -/
def command (args : List (List Char)) : Run Nat := do
  let (letters, names) ← options ['p', 'v', 'V'] args
  let last := (letters.filter (· != 'p')).getLast?
  match last, names with
  | some c, name :: _ =>
    let (text, isKnown) := describe (← get) (c == 'V') name
    Run.print text
    return if isKnown then 0 else 127
  | _, _ => return 0

end Builtin

/-- Why a program cannot be started, and the status that this leaves. -/
structure Refusal where
  reason : String
  status : Nat
  deriving Repr, DecidableEq

/-- The refusal for an error of the system. -/
def Refusal.ofError (e : IoError) : Refusal :=
  match e with
  | .noSuchFile | .notADirectory => ⟨"not found", 127⟩
  | .tooManyLinks | .nameTooLong => ⟨e.reason, 127⟩
  | _ => ⟨e.reason, 126⟩

/-- The words with which the shell is called to run a program.  A file that does not say what runs
it is run by the shell. -/
def programCall (m : Machine) (name : List Char) (args : List (List Char)) :
    Except Refusal (List Bytes) :=
  let args := args.map bytesOfChars
  let start (path : List Char) : Except Refusal (List Bytes) :=
    match m.tree.program m.cwd ⟨bytesOfChars path⟩ args with
    | .ok call => .ok call
    | .error .notExecutableFormat => .ok (Utf8.encode "/bin/sh" :: bytesOfChars path :: args)
    | .error e => .error (.ofError e)
  if name.contains '/' then start name
  else
    match m.findFile? name with
    | none => .error ⟨"not found", 127⟩
    | some _ =>
      match m.tree.search m.cwd (bytesOfChars name) args false .noSuchFile
          (m.searchPath.map bytesOfChars) with
      | .ok call => .ok call
      | .error .notExecutableFormat =>
        .ok (Utf8.encode "/bin/sh" :: bytesOfChars ((m.findFile? name).getD name) :: args)
      | .error e => .error (.ofError e)

end InlineAudit.Shell
