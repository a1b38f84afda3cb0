import InlineAudit.Command.Inputs

/-!
The command line.

* `Command.Invocation` — what a command line asks for;
* `Command.Invocation.ofArguments` — the reading of a command line.

Design notes: options come before or after each other in any order, but each word is read once, from
the left.  An option that takes a value takes the next word, unless that word looks like an option
itself; only `--arg` takes any word.  Nothing may follow two hyphens that stand alone.  Asking for
help or for the version ends the reading at once, and so does the first mistake.
-/

namespace InlineAudit.Command

/-- A command with its options. -/
inductive Invoked
  | check (options : CheckOptions)
  | init (path : String) (force : Bool)
  | parseLog (path : String) (json : Bool)
  deriving Repr, DecidableEq

/-- What a command line asks for. -/
inductive Invocation
  | run (verbosity : Nat) (command : Invoked)
  | version
  | help
  /-- It cannot be read. -/
  | misuse
  deriving Repr, DecidableEq

/-- What an option is: it is counted, it is set, it takes a value, or it takes a value each time it
is given. -/
inductive OptionKind
  | count
  | flag
  | single
  | many
  deriving Repr, DecidableEq

/-- An option of a command. -/
structure OptionSpec where
  name : String
  kind : OptionKind
  /-- The value may be any word. -/
  anyWord : Bool := false
  deriving Repr, DecidableEq

/-- The options that were given so far, with their values; the last one first. -/
abbrev Given := List (String × Option String)

/-- The names of the commands. -/
def commandNames : List String := ["check", "init", "parse-log", "help"]

/-- The option that is counted, for all commands. -/
def verboseName : String := "verbose"

/-- The option of all commands. -/
def verboseSpec : OptionSpec := { name := verboseName, kind := .count }

/-- The options of a command. -/
def optionsOf : String → List OptionSpec
  | "check" =>
    [{ name := "file", kind := .single }, { name := "sym", kind := .many },
      { name := "go", kind := .single }, { name := "dir", kind := .single },
      { name := "arg", kind := .many, anyWord := true }, { name := "from-log", kind := .single },
      { name := "strict", kind := .flag }, { name := "json", kind := .flag }, verboseSpec]
  | "init" => [{ name := "path", kind := .single }, { name := "force", kind := .flag }, verboseSpec]
  | "parse-log" =>
    [{ name := "path", kind := .single }, { name := "json", kind := .flag }, verboseSpec]
  | _ => [verboseSpec]

/-- Why the reading of words ended early. -/
inductive Stop
  | help
  | version
  | misuse
  deriving Repr, DecidableEq

/-- A further option.  One that is not counted and does not repeat must not be given twice. -/
def give (given : Given) (o : OptionSpec) (value : Option String) : Except Stop Given :=
  match o.kind with
  | .count | .many => .ok ((o.name, value) :: given)
  | .flag | .single =>
    if given.any (·.1 == o.name) then .error .misuse else .ok ((o.name, value) :: given)

/-- The letters of a word after a single hyphen. -/
def letters (withVersion : Bool) : List Char → Given → Except Stop Given
  | [], given => .ok given
  | 'v' :: rest, given => do letters withVersion rest (← give given verboseSpec none)
  | 'h' :: _, _ => .error .help
  | 'V' :: _, _ => .error (if withVersion then .version else .misuse)
  | _ :: _, _ => .error .misuse

/-- What a word is. -/
inductive Word
  /-- A name after two hyphens, with the value after an equals sign. -/
  | long (name : String) (value : Option String)
  | short (letters : List Char)
  /-- Two hyphens alone. -/
  | terminator
  | plain (text : String)
  deriving Repr, DecidableEq

/-- The reading of a word. -/
def wordOf (s : String) : Word :=
  match s.toList with
  | ['-', '-'] => .terminator
  | '-' :: '-' :: cs =>
    .long (String.ofList (cs.takeWhile (· ≠ '='))) <|
      match cs.dropWhile (· ≠ '=') with
      | [] => none
      | _ :: value => some (String.ofList value)
  | '-' :: c :: cs => .short (c :: cs)
  | _ => .plain s

/-- A word that can be the value of an option. -/
def isValue (o : OptionSpec) (s : String) : Bool :=
  o.anyWord || match wordOf s with
    | .plain _ => true
    | _ => false

/-- The options among the words of a command. -/
def readOptions (specs : List OptionSpec) (given : Given) : List String → Except Stop Given
  | [] => .ok given
  | w :: rest =>
    match wordOf w with
    | .plain _ => .error .misuse
    | .terminator => if rest.isEmpty then .ok given else .error .misuse
    | .short cs => do readOptions specs (← letters false cs given) rest
    | .long "help" none => .error .help
    | .long name value =>
      match specs.find? (·.name == name) with
      | none => .error .misuse
      | some o =>
        match o.kind, value with
        | .count, none | .flag, none => do readOptions specs (← give given o none) rest
        | .count, some _ | .flag, some _ => .error .misuse
        | _, some v => do readOptions specs (← give given o (some v)) rest
        | _, none =>
          match rest with
          | [] => .error .misuse
          | v :: rest =>
            if isValue o v then do readOptions specs (← give given o (some v)) rest
            else .error .misuse

namespace Given

/-- The number of times an option was given. -/
def count (g : Given) (name : String) : Nat := (g.filter (·.1 == name)).length

/-- An option was given. -/
def has (g : Given) (name : String) : Bool := g.any (·.1 == name)

/-- The values of an option, in the order of the command line. -/
def values (g : Given) (name : String) : List String :=
  (g.reverse.filter (·.1 == name)).filterMap (·.2)

/-- The value of an option that is given once at most. -/
def value? (g : Given) (name : String) : Option String := (g.values name).head?

end Given

/-- The options of a check; a captured log excludes those of a build. -/
def checkOf? (g : Given) : Option Invoked :=
  if g.has "from-log" && (g.has "go" || g.has "dir" || g.has "arg") then none
  else some <| .check {
    file := g.value? "file"
    symbols := g.values "sym"
    go := g.value? "go"
    dir := g.value? "dir"
    args := g.values "arg"
    fromLog := g.value? "from-log"
    strict := g.has "strict"
    json := g.has "json" }

/-- The file that is written where the command line names none. -/
def defaultPath : String := "inlcheck.yaml"

/-- A command with the options that were given to it. -/
def invoked? (command : String) (g : Given) : Option Invoked :=
  match command with
  | "check" => checkOf? g
  | "init" => some (.init ((g.value? "path").getD defaultPath) (g.has "force"))
  | "parse-log" => (g.value? "path").map fun p => .parseLog p (g.has "json")
  | _ => none

/-- What an early end asks for. -/
def Stop.invocation : Stop → Invocation
  | .help => .help
  | .version => .version
  | .misuse => .misuse

/-- The verbosity: that given to the command, or else the one given before it. -/
def verbosity (before after : Given) : Nat :=
  if after.has verboseName then after.count verboseName else before.count verboseName

/-- A command line from the name of a command onwards. -/
def readCommand (before : Given) (command : String) (rest : List String) : Invocation :=
  if command = "help" then
    match rest with
    | [] => .help
    | [name] => if commandNames.contains name then .help else .misuse
    | _ => .misuse
  else
    match readOptions (optionsOf command) [] rest with
    | .error s => s.invocation
    | .ok g =>
      match invoked? command g with
      | some c => .run (verbosity before g) c
      | none => .misuse

/-- A command line after the options that come before the command. -/
def readLine (before : Given) : List String → Invocation
  | [] => .misuse
  | w :: rest =>
    match wordOf w with
    | .terminator => .misuse
    | .plain name => if commandNames.contains name then readCommand before name rest else .misuse
    | .short cs =>
      match letters true cs before with
      | .error s => s.invocation
      | .ok before => readLine before rest
    | .long "help" none => .help
    | .long "version" none => .version
    | .long name none =>
      if name = verboseName then readLine ((verboseName, none) :: before) rest else .misuse
    | .long _ (some _) => .misuse

/-- The reading of a command line. -/
def Invocation.ofArguments (args : List String) : Invocation := readLine [] args

end InlineAudit.Command
