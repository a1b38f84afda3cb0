import InlineAudit.Shell.Builtin.Options
import InlineAudit.Text.Search

/-!
Commands on the variables, arguments and options of a shell script.

* `Shell.Builtin.passOn`, `Shell.Builtin.declareLocal`, `Shell.Builtin.unset` — variables;
* `Shell.Builtin.configure`, `Shell.Builtin.shift` — options and arguments;
* `Shell.Builtin.read`, `Shell.Builtin.nextOption` — variables from input and from arguments.
-/

namespace InlineAudit.Shell.Builtin

/-- The lines that list variables, in the order of their names. -/
def listed (start : List Char) (vs : List (List Char × Variable)) : List Char :=
  (vs.mergeSort fun a b => !Text.precedes b.1 a.1).flatMap fun (n, v) =>
    start ++ n ++ (match v.value with
      | some value => '=' :: singleQuoted value
      | none => []) ++ ['\n']

/-- The name of an argument, and the value after an equals sign. -/
def nameAndValue (arg : List Char) : List Char × Option (List Char) :=
  let name := arg.takeWhile (· != '=')
  (name, (arg.drop name.length).tail?)

/-- A variable is marked, and gets a value if there is one. -/
def declare (mark : Variable → Variable) (arg : List Char) : Run Unit := do
  let (name, value) := nameAndValue arg
  match value with
  | some v => Run.assign name v
  | none => if !isName name then Run.fail (name ++ ": bad variable name".toList)
  modify fun m => m.putVariable name (some (mark ((m.binding? name).getD { value := none })))

/-- Variables are marked; without any, or with an option, those that are marked are listed. -/
def markAll (command : String) (isMarked : Variable → Bool) (mark : Variable → Variable)
    (args : List (List Char)) : Run Nat := do
  let names ← match args with
    | ['-', '-'] :: rest => pure rest
    | ('-' :: 'p' :: _) :: _ => pure []
    | ('-' :: c :: _) :: _ => Run.fail ("Illegal option -".toList ++ [c])
    | _ => pure args
  if names.isEmpty then
    let vs := (← get).bindings.filter fun v => isMarked v.2
    Run.print (listed (command.toList ++ [' ']) vs)
  else names.forM (declare mark)
  return 0

/-- Variables are passed to other programs. -/
def passOn (args : List (List Char)) : Run Nat :=
  markAll "export" (·.isExported) (fun v => { v with isExported := true }) args

/-- Variables keep their values. -/
def makeReadonly (args : List (List Char)) : Run Nat :=
  markAll "readonly" (·.isReadonly) (fun v => { v with isReadonly := true }) args

/-- Variables are of the present function alone; they keep their values until they get others. -/
def declareLocal (args : List (List Char)) : Run Nat := do
  if (← get).calls == 0 then Run.fail "not in a function".toList
  args.forM fun arg => do
    let (name, value) := nameAndValue arg
    if name == ['-'] then
      Run.hideOptions
      return
    if !isName name then Run.fail (name ++ ": bad variable name".toList)
    Run.hide name
    match value with
    | some v => Run.assign name v
    | none => return
  return 0

/-- Variables or functions are removed. -/
def unset (args : List (List Char)) : Run Nat := do
  let (letters, args) ← options ['v', 'f'] args
  args.forM fun name =>
    if letters.getLast? == some 'f' then modify fun m =>
      { m with functions := m.functions.filter (·.1 != name) }
    else Run.unset name
  return 0

/-- The options by name, with their letters.  Two of them have no letter; digits stand for it. -/
def namedOptions : List (String × Char) :=
  [("errexit", 'e'), ("noglob", 'f'), ("ignoreeof", 'I'), ("interactive", 'i'), ("monitor", 'm'),
    ("noexec", 'n'), ("stdin", 's'), ("xtrace", 'x'), ("verbose", 'v'), ("vi", 'V'), ("emacs", 'E'),
    ("noclobber", 'C'), ("allexport", 'a'), ("notify", 'b'), ("nounset", 'u'),
    ("privileged", 'p'), ("nolog", '1'), ("debug", '2')]

/-- An option is set or reset. -/
def putOption (isOn : Bool) (c : Char) : Run Unit :=
  modify fun m =>
    let others := m.options.filter (· != c)
    { m with options := if isOn then c :: others else others }

/-- An option is set or reset by its letter. -/
def setOption (isOn : Bool) (c : Char) : Run Unit := do
  if !optionLetters.contains c then Run.fail ("Illegal option -".toList ++ [c])
  putOption isOn c

/-- An option is set or reset by its name; without a name, the options are listed. -/
def setNamedOption (isOn : Bool) (name : Option (List Char)) : Run Unit := do
  match name with
  | none =>
    let m ← get
    let lines := namedOptions.map fun (n, c) =>
      if isOn then
        n ++ String.ofList (List.replicate (16 - n.length) ' ') ++
          (if m.has c then "on\n" else "off\n")
      else (if m.has c then "set -o " else "set +o ") ++ n ++ "\n"
    Run.print ((if isOn then "Current option settings\n" else "") ++
      String.join lines).toList
  | some n =>
    match namedOptions.lookup (String.ofList n) with
    | some c => putOption isOn c
    | none => Run.fail ("Illegal option -o ".toList ++ n)

/-- The letters of an argument are set or reset; the names of options are taken from the arguments
after it.  Those that are left are given back. -/
def setLetters (isOn : Bool) : List Char → List (List Char) → Run (List (List Char))
  | [], args => return args
  | 'o' :: cs, args => do
    setNamedOption isOn args.head?
    setLetters isOn cs args.tail
  | c :: cs, args => do
    setOption isOn c
    setLetters isOn cs args

/-- Options at the start of some arguments are set and reset.  The others are given back, unless
there are none and nothing says that there are meant to be none. -/
def setOptions : Nat → List (List Char) → Run (Option (List (List Char)))
  | 0, args => return some args
  | fuel + 1, args => do
    match args with
    | ['-'] :: rest =>
      modify fun m => { m with options := m.options.filter fun c => c != 'x' && c != 'v' }
      return if rest.isEmpty then none else some rest
    | ['-', '-'] :: rest => return some rest
    | ('-' :: cs) :: rest => setOptions fuel (← setLetters true cs rest)
    | ('+' :: cs) :: rest => setOptions fuel (← setLetters false cs rest)
    | [] => return none
    | args => return some args

/-- Options and arguments are set; without any, the variables are listed. -/
def configure (args : List (List Char)) : Run Nat := do
  if args.isEmpty then
    let vs := (← get).bindings.filter (·.2.value.isSome)
    Run.print (listed [] vs)
  else
    match ← setOptions (args.length + 1) args with
    | some arguments => modify fun m => { m with arguments, optionIndex := 1, optionOffset := none }
    | none => return 0
  return 0

/-- The first arguments are removed. -/
def shift (args : List (List Char)) : Run Nat := do
  let n ← match args with
    | [] => pure 1
    | a :: _ => Run.number a
  let m ← get
  if m.arguments.length < n then Run.fail "can't shift that many".toList
  set { m with arguments := m.arguments.drop n, optionIndex := 1, optionOffset := none }
  return 0

/-- A line of input as pieces, the number of characters that it takes, and whether it is ended.
Unless it is raw, a backslash keeps the next character from separating fields, and joins lines. -/
def inputLine (isRaw : Bool) : List Char → List Piece × Nat × Bool
  | [] => ([], 0, false)
  | '\n' :: _ => ([], 1, true)
  | '\\' :: c :: cs =>
    if isRaw then
      let (ps, n, ended) := inputLine isRaw (c :: cs)
      (.char '\\' true true :: ps, n + 1, ended)
    else
      let (ps, n, ended) := inputLine isRaw cs
      (if c == '\n' then ps else .char c true false :: ps, n + 2, ended)
  | c :: cs =>
    let (ps, n, ended) := inputLine isRaw cs
    (if c == '\x00' || (c == '\\' && !isRaw) then ps else .char c true true :: ps, n + 1, ended)

/-- The options of `read`: whether it is raw, and the names.  One of them has an argument, which is
a text that only matters to a terminal. -/
def readOptions : Nat → List (List Char) → Run (Bool × List (List Char))
  | 0, args => return (false, args)
  | fuel + 1, args => do
    match args with
    | ['-', '-'] :: rest => return (false, rest)
    | ('-' :: c :: cs) :: rest =>
      if c == 'r' then
        let (_, names) ← readOptions fuel (if cs.isEmpty then rest else ('-' :: cs) :: rest)
        return (true, names)
      else if c != 'p' then Run.fail ("Illegal option -".toList ++ [c])
      else if !cs.isEmpty then readOptions fuel rest
      else if rest.isEmpty then Run.fail "No arg for -p option".toList
      else readOptions fuel rest.tail
    | args => return (false, args)

/-- Variables get the fields of a line of input.  It is a failure if the input ends before the
line does. -/
def read (args : List (List Char)) : Run Nat := do
  let (isRaw, names) ← readOptions ((args.flatMap (' ' :: ·)).length + 1) args
  if names.isEmpty then Run.fail "arg count".toList
  let m ← get
  let (ps, count, ended) := inputLine isRaw ((m.unread? 0).getD [])
  set (m.consume 0 count)
  let values := Piece.assigned m.separators names.length ps
  (names.zip values).forM fun (n, v) => Run.assign n v
  return if ended then 0 else 1

/-- A letter among the options that are given by their letters; those that take an argument have a
colon after them.  What follows the letter, if it is there. -/
def afterLetter? (letter : Char) : List Char → Option (List Char)
  | [] => none
  | d :: rest =>
    if d == letter then some rest
    else
      match rest with
      | ':' :: rest => afterLetter? letter rest
      | rest => afterLetter? letter rest

/-- The rest of the argument in which options have been found, its place after the argument, and the
number of the next argument; none if there are no more options.  If there are none because of an
argument that says so, that one is passed over. -/
def optionText (args : List (List Char)) (index : Nat) (offset : Option Nat) :
    Option (List Char × Nat) × Nat :=
  let inside :=
    match offset with
    | some n => if index ≤ 1 then [] else ((args[index - 2]?).getD []).drop n
    | none => []
  if !inside.isEmpty then (some (inside, offset.getD 0), index)
  else
    match args[index - 1]? with
    | some ['-', '-'] => (none, index + 1)
    | some ('-' :: c :: cs) => (some (c :: cs, 1), index + 1)
    | _ => (none, index)

/-- A variable gets the next option of some arguments, and another one its argument.  Whether there
are no more options. -/
def putNextOption (spec name : List Char) (args : List (List Char)) (index : Nat) : Run Nat := do
  let m ← get
  let isQuiet := spec.head? == some ':'
  Run.lookForOptions 1
  let finish (index : Nat) (offset : Option Nat) (c : Char) : Run Unit := do
    Run.assign "OPTIND".toList (decimal index)
    Run.lookForOptions 1
    Run.assign name [c]
    modify fun m => { m with optionIndex := index, optionOffset := offset }
  let refuse (c : Char) (what : List Char) : Run Unit :=
    if isQuiet then Run.assign "OPTARG".toList [c]
    else do
      modify fun m => (m.write? 2 what).getD m
      Run.unset "OPTARG".toList
  match optionText args index m.optionOffset with
  | (some (c :: after, offset), next) =>
    match afterLetter? c spec with
    | none =>
      refuse c ("Illegal option -".toList ++ [c, '\n'])
      finish next (some (offset + 1)) '?'
    | some (':' :: _) =>
      match if after.isEmpty then args[next - 1]? else some after with
      | some value =>
        Run.assign "OPTARG".toList value
        finish (if after.isEmpty then next + 1 else next) none c
      | none =>
        refuse c ("No arg for -".toList ++ c :: " option\n".toList)
        finish next none (if isQuiet then ':' else '?')
    | some _ =>
      Run.assign "OPTARG".toList []
      finish next (some (offset + 1)) c
    return 0
  | (_, next) =>
    finish next none '?'
    return 1

/-- A variable gets the next option of the arguments of the script, or of other ones. -/
def nextOption (args : List (List Char)) : Run Nat := do
  match args with
  | spec :: name :: rest =>
    let m ← get
    let args := if rest.isEmpty then m.arguments else rest
    putNextOption spec name args (if m.optionIndex ≤ args.length + 1 then m.optionIndex else 1)
  | _ => Run.fail "Usage: getopts optstring var [arg...]".toList

end InlineAudit.Shell.Builtin
