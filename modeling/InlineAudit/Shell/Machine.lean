import InlineAudit.Shell.Field
import InlineAudit.Shell.Format
import InlineAudit.Shell.Script
import InlineAudit.System.Exit
import InlineAudit.System.FileTree

/-!
The state of a running script.

* `Shell.Process` — what a script has to itself: variables, functions, descriptors, and more;
* `Shell.World` — what it shares with the scripts that it starts: files, pipes, and what is printed;
* `Shell.Run` — a computation on this state, which may leave what surrounds it.

Design notes: a part of a script that runs on its own gets a copy of the process and works on the
same world.  Such parts run one after the other.  Both output descriptors of a script go to one
place unless it redirects them, so what is printed is a single sequence.
-/

namespace InlineAudit.Shell

/-- A variable. -/
structure Variable where
  /-- None, as long as it is only marked. -/
  value : Option (List Char)
  isExported : Bool := false
  isReadonly : Bool := false
  deriving Repr, DecidableEq, Inhabited

/-- Where a descriptor can lead. -/
inductive Stream
  /-- To whoever started the script. -/
  | reader
  /-- Nowhere; there is nothing to be read. -/
  | nothing
  /-- What is written can be read again.  The text is in two parts, the second one with its last
  character first. -/
  | pipe (front back : List Char)
  /-- A file, and the place in it. -/
  | file (place : Place) (position : Nat) (isAppended isRead isWritten : Bool)
  deriving Repr, DecidableEq, Inhabited

/-- What scripts share with those that they start. -/
structure World where
  tree : FileTree
  /-- The streams by number. -/
  streams : List (Nat × Stream)
  nextStream : Nat
  /-- What whoever started the script can read, its last character first. -/
  printed : List Char
  /-- The texts of here-documents by number. -/
  documents : List (Nat × Word)
  nextDocument : Nat
  /-- The signals that the script has got, and not acted upon. -/
  received : List Nat
  /-- The number of the next process. -/
  nextProcess : Nat
  deriving Inhabited

/-- The streams by descriptor. -/
abbrev Descriptors := List (Nat × Nat)

/-- What a script has to itself. -/
structure Process where
  bindings : List (List Char × Variable)
  functions : List (List Char × Command)
  aliases : List Alias
  arguments : List (List Char)
  name : List Char
  cwd : Place
  /-- The path of the current directory, as the script went there. -/
  directory : List Char
  descriptors : Descriptors
  /-- The letters of the options that are set. -/
  options : List Char
  status : Nat
  /-- The status of the last output that was taken into the present command. -/
  outputStatus : Nat
  /-- The line of the present command. -/
  line : Nat
  /-- The builtin command that runs. -/
  command : Option (List Char)
  /-- The number of loops around the present command. -/
  loops : Nat
  /-- For each function or command that runs, the variables that it hides. -/
  hidden : List (List (List Char × Option Variable))
  /-- For each function or command that runs, the options from before it, if it keeps its own. -/
  hiddenOptions : List (Option (List Char))
  /-- The number of functions that run. -/
  calls : Nat
  /-- The actions for signals; zero is the end of the script. -/
  traps : List (Nat × List Char)
  /-- In a part of a script that runs on its own, the actions of the script itself: it is the script
  that gets the signals. -/
  outerTraps : Option (List (Nat × List Char))
  /-- The status that the script had when an action for a signal began. -/
  interrupted : Option Nat
  /-- The commands that were started in the background, and their status. -/
  children : List (Nat × Nat)
  lastChild : Option Nat
  /-- The line up to which the script has been read. -/
  lineRead : Nat
  /-- The number of the argument in which options are looked for next, and how much of the one
  before it has been read as options; none if that is done with. -/
  optionIndex : Nat
  optionOffset : Option Nat
  /-- What the present command has printed, and has not been passed on yet; its last character comes
  first. -/
  held : List Char
  /-- The permissions that new files do not get. -/
  mask : Nat
  deriving Inhabited

/-- The state of a running script. -/
structure Machine extends Process, World
  deriving Inhabited

/-- What leaves a command before its end. -/
inductive Flow
  /-- That many loops are left. -/
  | breaks (loops : Nat)
  /-- That many loops but one are left, and that one goes on to its next turn. -/
  | continues (loops : Nat)
  /-- The function or file is left. -/
  | returns
  /-- The script ends with this status. -/
  | exits (status : Nat)
  /-- Something went wrong that a script cannot go on after. -/
  | fails
  /-- A signal ends the script and those around it. -/
  | killed (signal : Nat)
  deriving Repr, DecidableEq, Inhabited

/-- A computation on the state of a script. -/
abbrev Run := ExceptT Flow (StateM Machine)

/-- The number by which a script names itself when it sends a signal. -/
def ownNumber : List Char := ['1']

/-- The place of the device that swallows everything. -/
def nullDevice : Place := [Utf8.encode "dev", Utf8.encode "null"]

/-- The descriptor that a path names. -/
def namedDescriptor? (path : List Char) : Option Nat :=
  let number (start : String) : Option Nat :=
    let digits := path.drop start.length
    if start.toList.isPrefixOf path && isDigits digits then some (Decimal.natOfDigits digits)
    else none
  match String.ofList path with
  | "/dev/stdin" => some 0
  | "/dev/stdout" => some 1
  | "/dev/stderr" => some 2
  | _ => number "/dev/fd/" <|> number "/proc/self/fd/"

/-- The order in which options are listed. -/
def optionLetters : List Char := "pubaCEVvxsnmiIfe".toList

namespace Machine

/-- The variable of a name. -/
def binding? (m : Machine) (name : List Char) : Option Variable := m.bindings.lookup name

/-- The value of a variable. -/
def value? (m : Machine) (name : List Char) : Option (List Char) :=
  (m.binding? name).bind (·.value)

/-- A variable is put in the place of the one of its name. -/
def putVariable (m : Machine) (name : List Char) (v : Option Variable) : Machine :=
  let others := m.bindings.filter (·.1 != name)
  { m with bindings := match v with
    | some v => (name, v) :: others
    | none => others }

/-- An option is set. -/
def has (m : Machine) (option : Char) : Bool := m.options.contains option

/-- The characters that separate fields. -/
def separators (m : Machine) : List Char :=
  match m.binding? "IFS".toList with
  | some v => v.value.getD defaultSeparators
  | none => defaultSeparators

/-- What stands between the arguments when they are one text. -/
def argumentSeparator (m : Machine) : List Char :=
  match m.value? "IFS".toList with
  | some ifs => ifs.take 1
  | none => [' ']

/-- The value of a parameter, if it is set. -/
def parameter? (m : Machine) (name : List Char) : Option (List Char) :=
  match name with
  | ['#'] => some (decimal m.arguments.length)
  | ['?'] => some (decimal m.status)
  | ['$'] => some ownNumber
  | ['!'] => m.lastChild.map decimal
  | ['-'] => some (optionLetters.filter m.has)
  | ['@'] | ['*'] => some (Format.joined m.argumentSeparator m.arguments)
  | _ =>
    if isDigits name then
      match Decimal.natOfDigits name with
      | 0 => some m.name
      | n + 1 => m.arguments[n]?
    else m.value? name

/-- The entry that a path leads to. -/
def entryAt? (m : Machine) (path : List Char) : Option Entry :=
  match m.tree.find m.cwd ⟨bytesOfChars path⟩ with
  | .ok place => m.tree.entry? place
  | .error _ => none

/-- A complaint, as it is printed. -/
def complaint (m : Machine) (line : Nat) (what : List Char) : List Char :=
  let command := match m.command with
    | some c => c ++ [':', ' ']
    | none => []
  m.name ++ ':' :: ' ' :: decimal line ++ ':' :: ' ' :: command ++ what ++ ['\n']

/-- The stream of a descriptor. -/
def stream? (m : Machine) (descriptor : Nat) : Option (Nat × Stream) := do
  let n ← m.descriptors.lookup descriptor
  let s ← m.streams.lookup n
  return (n, s)

/-- A stream is replaced. -/
def putStream (m : Machine) (n : Nat) (s : Stream) : Machine :=
  { m with streams := (n, s) :: m.streams.filter (·.1 != n) }

/-- A new stream, and its number. -/
def addStream (m : Machine) (s : Stream) : Nat × Machine :=
  (m.nextStream,
    { m with streams := (m.nextStream, s) :: m.streams, nextStream := m.nextStream + 1 })

/-- A descriptor leads to a stream, or to none. -/
def connect (m : Machine) (descriptor : Nat) (stream : Option Nat) : Machine :=
  let others := m.descriptors.filter (·.1 != descriptor)
  { m with descriptors := match stream with
    | some n => (descriptor, n) :: others
    | none => others }

/-- The content of a file. -/
def content (m : Machine) (place : Place) : Bytes :=
  match m.tree.entry? place with
  | some (.file content _) => content
  | _ => []

/-- The content of a file is replaced. -/
def putContent (m : Machine) (place : Place) (content : Bytes) : Machine :=
  let executable := match m.tree.entry? place with
    | some (.file _ executable) => executable
    | _ => false
  { m with tree := m.tree.put place (.file content executable) }

/-- Text is written to a stream, if that is possible. -/
def writeStream? (m : Machine) (n : Nat) (cs : List Char) : Option Machine :=
  match m.streams.lookup n with
  | some .reader => some { m with printed := cs.reverse ++ m.printed }
  | some .nothing => some m
  | some (.pipe front back) => some (m.putStream n (.pipe front (cs.reverse ++ back)))
  | some (.file place position isAppended isRead true) =>
    let old := m.content place
    let position := if isAppended then old.length else position
    let padding := List.replicate (position - old.length) 0
    let bytes := bytesOfChars cs
    let content := old.take position ++ padding ++ bytes ++ old.drop (position + bytes.length)
    some ((m.putContent place content).putStream n
      (.file place (position + bytes.length) isAppended isRead true))
  | _ => none

/-- Text is written to a descriptor, if it leads somewhere where it can be written. -/
def write? (m : Machine) (descriptor : Nat) (cs : List Char) : Option Machine := do
  m.writeStream? (← m.descriptors.lookup descriptor) cs

/-- The streams from a number on are forgotten, unless a descriptor leads to them. -/
def forgetStreams (m : Machine) (first : Nat) : Machine :=
  { m with streams := m.streams.filter fun (n, _) =>
      n < first || m.descriptors.any fun d => d.2 == n }

/-- What can be read from a descriptor, if it leads somewhere where something can be. -/
def unread? (m : Machine) (descriptor : Nat) : Option (List Char) :=
  match m.stream? descriptor with
  | some (_, .pipe front back) => some (front ++ back.reverse)
  | some (_, .nothing) => some []
  | some (_, .file place position _ true _) => some (charsOfBytes ((m.content place).drop position))
  | _ => none

/-- Some characters of what can be read from a descriptor are read. -/
def consume (m : Machine) (descriptor count : Nat) : Machine :=
  match m.stream? descriptor with
  | some (n, .pipe front back) => m.putStream n (.pipe ((front ++ back.reverse).drop count) [])
  | some (n, .file place position a r w) => m.putStream n (.file place (position + count) a r w)
  | _ => m

end Machine

namespace Run

/-- The status of the last command. -/
def setStatus (n : Nat) : Run Unit := modify fun m => { m with status := n }

/-- A complaint is printed. -/
def complainAt (line : Nat) (what : List Char) : Run Unit := modify fun m =>
  (m.write? 2 (m.complaint line what)).getD m

/-- A complaint about the present command is printed. -/
def complain (what : List Char) : Run Unit := do complainAt (← get).line what

/-- Something goes wrong that a script cannot go on after. -/
def fail {α : Type} (what : List Char) : Run α := do
  complain what
  throw .fails

/-- A number that is not negative, and not too great. -/
def number (cs : List Char) : Run Nat := do
  match Arithmetic.readDecimal? cs with
  | some n =>
    if 0 ≤ n && n ≤ 0x7FFFFFFF then return n.toNat
    else fail ("Illegal number: ".toList ++ cs)
  | none => fail ("Illegal number: ".toList ++ cs)

/-- Text is printed when the present command ends, after its complaints. -/
def print (cs : List Char) : Run Unit :=
  modify fun m => { m with held := cs.reverse ++ m.held }

/-- What the present command has printed is passed on; whether that is possible. -/
def flush : Run Bool := do
  let m ← get
  let m := { m with held := [] : Machine }
  let text := (← get).held.reverse
  match m.write? 1 text with
  | some m =>
    set m
    return true
  | none =>
    set m
    return text.isEmpty

/-- Options are looked for from an argument on. -/
def lookForOptions (index : Nat) : Run Unit :=
  modify fun m => { m with optionIndex := max 1 index, optionOffset := none }

/-- A variable gets a value.  An equals sign ends the name. -/
def assign (name value : List Char) : Run Unit := do
  let m ← get
  let name := name.takeWhile (· != '=')
  if !isName name then fail (name ++ ": bad variable name".toList)
  let old := (m.binding? name).getD { value := none }
  if old.isReadonly then fail (name ++ ": is read only".toList)
  if name == "OPTIND".toList then lookForOptions (← number value)
  modify fun m => m.putVariable name (some { old with
    value := some value
    isExported := old.isExported || m.has 'a' })

/-- A variable is no longer set.  An equals sign ends the name. -/
def unset (name : List Char) : Run Unit := do
  let m ← get
  let name := name.takeWhile (· != '=')
  if !isName name then fail (name ++ ": bad variable name".toList)
  if (m.binding? name).any (·.isReadonly) then fail (name ++ ": is read only".toList)
  if name == "OPTIND".toList then fail "Illegal number: ".toList
  set (m.putVariable name none)

/-- The present function or command hides a variable: it will be as it was before. -/
def hide (name : List Char) : Run Unit := modify fun m =>
  match m.hidden with
  | [] => m
  | top :: rest =>
    if top.any (·.1 == name) then m
    else { m with hidden := ((name, m.binding? name) :: top) :: rest }

/-- What follows the start of a computation is done before it is left, however that may be. -/
def ensuring {α : Type} (run : Run α) (after : Machine → Machine) : Run α := fun m =>
  match run m with
  | (r, m) => (r, after m)

/-- The present function keeps its options to itself. -/
def hideOptions : Run Unit := modify fun m =>
  match m.hiddenOptions with
  | none :: rest => { m with hiddenOptions := some m.options :: rest }
  | _ => m

/-- Variables and options that are hidden from here on are as before after a computation. -/
def withHidden {α : Type} (run : Run α) : Run α := do
  modify fun m => { m with
    hidden := [] :: m.hidden
    hiddenOptions := none :: m.hiddenOptions }
  ensuring run fun m =>
    let options := (m.hiddenOptions.head?.join).getD m.options
    let n := (m.hidden.headD []).foldl (fun m (name, v) => m.putVariable name v) m
    { n with hidden := m.hidden.tail, hiddenOptions := m.hiddenOptions.tail, options }

/-- Some descriptors lead after a computation to where they led before. -/
def keeping {α : Type} (descriptors : List Nat) (run : Run α) : Run α := do
  let m ← get
  ensuring run fun n =>
    (descriptors.foldl (fun n d => n.connect d (m.descriptors.lookup d)) n).forgetStreams
      m.nextStream

/-- What a computation comes to, whether it is left or not. -/
def attempt {α : Type} (run : Run α) : Run (Except Flow α) := fun m =>
  match run m with
  | (r, m) => (.ok r, m)

end Run

end InlineAudit.Shell
