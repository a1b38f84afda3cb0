import InlineAudit.Shell.Builtin.Lookup
import InlineAudit.Shell.Expansion
import InlineAudit.Shell.Target

/-!
Running a shell script.

A script here is one that stands in for a build tool.  It has the commands of the shell, and can run
other scripts; it reads from an empty input.

* `Shell.exec` — a command;
* `Shell.runLines` — the commands of a text;
* `Shell.runProgram` — a script with a shell of its own;
* `Shell.run` — what a whole script prints, how it ends, and the files after it.

Design notes: the parts of a script that would run at the same time run one after the other: what
such a part prints does not depend on those after it.  A text is read line by line, and each line is
carried out before the next one is read.  A script can loop for ever, so running takes fuel; a
script that uses it up counts as one that was ended from outside.
-/

namespace InlineAudit.Shell

/-- A script that takes too many steps is ended from outside. -/
def outOfSteps : Flow := .killed 9

/-- How a turn of a loop ends. -/
inductive Turn
  | done
  | continued
  | broken
  deriving Repr, DecidableEq

namespace Run

/-- A turn of a loop. -/
def turn (run : Run Unit) : Run Turn := do
  match ← attempt run with
  | .ok () => return .done
  | .error (.breaks n) => if n ≤ 1 then return .broken else throw (.breaks (n - 1))
  | .error (.continues n) => if n ≤ 1 then return .continued else throw (.continues (n - 1))
  | .error f => throw f

/-- A loop around the turns of a computation. -/
def looping {α : Type} (run : Run α) : Run α := do
  let loops := (← get).loops
  modify fun m => { m with loops := loops + 1 }
  ensuring run fun m => { m with loops }

/-- What a computation returns from stays inside. -/
def returning (run : Run Unit) : Run Unit := do
  match ← attempt run with
  | .ok () | .error .returns => return
  | .error f => throw f

/-- Where options say so, a failure ends the script, unless it is tested. -/
def exitOnError (tested : Bool) : Run Unit := do
  let m ← get
  if m.has 'e' && !tested && m.status != 0 then throw (.exits m.status)

/-- A computation by a copy of the process, which has no actions for signals any more. -/
def inCopy {α : Type} (run : Run α) : Run α := do
  let m ← get
  set { m with
    traps := m.traps.filter (·.2.isEmpty)
    outerTraps := some (m.outerTraps.getD m.traps)
    children := [] }
  ensuring run fun n => { toProcess := m.toProcess, toWorld := n.toWorld }

/-- The command by which the script names itself in complaints, during a computation. -/
def asCommand {α : Type} (name : List Char) (run : Run α) : Run α := do
  let command := (← get).command
  modify fun m => { m with command := some name }
  ensuring run fun m => { m with command }

/-- What a command prints is passed on at its end; if that is not possible, it is complained about
and changes the status. -/
def passingOn (run : Run Nat) : Run Nat := do
  let r ← attempt run
  let isPassed ← flush
  match r with
  | .ok status =>
    if isPassed then return status
    else
      complain ((← get).command.getD [] ++ ": I/O error".toList)
      return status ||| 1
  | .error f => throw f

/-- A script in a file is read as a whole. -/
def readFile (path : List Char) : Run (List Char) := do
  let m ← get
  match m.openPath .read path with
  | .error e => fail (Opening.read.complaint path e)
  | .ok (n, opened) =>
    let text ← match opened.streams.lookup n with
      | some (.file place _ _ _ _) => pure (charsOfBytes (opened.content place))
      | some (.pipe front back) =>
        set (opened.putStream n (.pipe [] []))
        pure (front ++ back.reverse)
      | _ => pure []
    return text

/-- Lines that have been read are shown, if options say so. -/
def showLines (lines : List Char) : Run Unit := do
  let m ← get
  if m.has 'v' then set ((m.write? 2 lines).getD m)

end Run

/-- The status with which a part of a script ends on its own, whether or not it is left. -/
def ownStatus (r : Except Flow Unit) : Run Nat := do
  match r with
  | .error (.exits n) => return n
  | .error .fails => return 2
  | .error (.killed signal) => throw (.killed signal)
  | _ => return (← get).status

/-- The descriptor that a word names, or none for closing one. -/
def sourceDescriptor (cs : List Char) : Run (Option Nat) := do
  match cs with
  | ['-'] => return none
  | [c] => if c.isDigit then return some (c.toNat - 48) else bad
  | _ => bad
where
  /-- The word is neither. -/
  bad : Run (Option Nat) := do
    Run.complainAt (← get).lineRead "Syntax error: Bad fd number".toList
    throw .fails

/-- A redirection with its target. -/
def target (capture : Expansion.Capture) (r : Redirection) : Run Target := do
  match r with
  | .file d opening name => return .file d opening (← Expansion.text capture name)
  | .copy d source => return .copy d (← sourceDescriptor (← Expansion.text capture source))
  | .document d n => return .text d (((← get).documents.lookup n).getD [])

/-- The fields of some words, after those of other words.  If the command takes assignments, they
are not split. -/
def commandWords (capture : Expansion.Capture) (done : List (List Char)) :
    List Word → Run (List (List Char))
  | [] => return done
  | w :: rest => do
    let m ← get
    match if m.takesAssignments? done == some true then w.assignment? else none with
    | some (name, w) =>
      let v ← Expansion.value capture w
      commandWords capture (done ++ [name ++ '=' :: v]) rest
    | none => commandWords capture (done ++ (← Expansion.fields capture w)) rest

/-- Assignments before a command; they are passed on to it if they are hidden by it or if they are
exported.  Their texts are given back. -/
def assignAll (capture : Expansion.Capture) (isHidden isExported : Bool) :
    List (List Char × Word) → Run (List (List Char))
  | [] => return []
  | (name, w) :: rest => do
    let v ← Expansion.value capture w
    if isHidden then Run.hide name
    Run.assign name v
    if isExported then
      modify fun m =>
        m.putVariable name ((m.binding? name).map fun v => { v with isExported := true })
    return (name ++ '=' :: v) :: (← assignAll capture isHidden isExported rest)

/-- Words are shown on a stream before they are carried out, if options say so. -/
def trace (capture : Expansion.Capture) (stream : Option Nat) (words : List (List Char)) :
    Run Unit := do
  let m ← get
  if m.has 'x' then
    let text := (m.value? "PS4".toList).getD []
    let start ←
      match (Script.word.run (Source.ofChars text)) with
      | .ok (w, _) =>
        set { m with options := m.options.filter (· != 'x') }
        Run.ensuring (Expansion.text capture w) fun n => { n with options := m.options }
      | .error _ => pure text
    modify fun m =>
      (stream.bind (m.writeStream? · (start ++ Format.joined [' '] words ++ ['\n']))).getD m

/-- The options with which a shell is started, and the other arguments; whether it is given its
commands as an argument. -/
def startOptions : Nat → List (List Char) → Run (Bool × List (List Char))
  | 0, args => return (false, args)
  | fuel + 1, args => do
    match args with
    | ['-'] :: rest | ['-', '-'] :: rest => return (false, rest)
    | ('-' :: cs) :: rest =>
      let rest ← Builtin.setLetters true (cs.filter fun c => c != 'c' && c != 'l') rest
      let (isCommand, rest) ← startOptions fuel rest
      return (isCommand || cs.contains 'c', rest)
    | ('+' :: cs) :: rest =>
      let rest ← Builtin.setLetters false cs rest
      startOptions fuel rest
    | args => return (false, args)

/-- The text of the commands of a shell that is started with some arguments, and whether its lines
can be shown; its name and arguments are set. -/
def startText (args : List (List Char)) : Run (List Char × Bool) := do
  let (isCommand, args) ← startOptions (args.length + 1) args
  let begin (name : List Char) (arguments : List (List Char)) : Run Unit :=
    modify fun m => { m with name, arguments, line := 1 }
  let m ← get
  match isCommand, args with
  | true, [] => Run.fail "-c requires an argument".toList
  | true, text :: args =>
    begin (args.head?.getD m.name) args.tail
    return (text, false)
  | false, path :: rest =>
    if m.has 's' then
      begin m.name args
      input
    else
      let text ← Run.readFile path
      begin path rest
      return (text, true)
  | false, [] =>
    begin m.name []
    input
where
  /-- All that can be read from the input. -/
  input : Run (List Char × Bool) := do
    let m ← get
    let text := (m.unread? 0).getD []
    set (m.consume 0 text.length)
    return (text, true)

/-- The path of a directory as a variable of the environment gives it, or else without links. -/
def startDirectory (tree : FileTree) (cwd : Place) (env : List (List Char × Variable)) :
    List Char :=
  let given := ((env.lookup "PWD".toList).bind (·.value)).getD []
  if given.head? == some '/' && (tree.find [] ⟨bytesOfChars given⟩).toOption == some cwd then given
  else charsOfBytes cwd.path.bytes

/-- A shell that is started, before it has read anything. -/
def Process.start (name : List Char) (env : List (List Char × List Char)) (tree : FileTree)
    (cwd : Place) (descriptors : Descriptors) : Process :=
  let given := (env.filter fun (n, _) => isName n).map fun (n, v) =>
    (n, ({ value := some v, isExported := true } : Variable))
  let directory := startDirectory tree cwd given
  let fixed (n v : String) : List Char × Variable :=
    let old := (given.lookup n.toList).getD { value := none }
    (n.toList, { old with value := some v.toList })
  let usual (n v : String) : List Char × Variable :=
    (n.toList, (given.lookup n.toList).getD { value := some v.toList })
  let own := [fixed "IFS" " \t\n", fixed "OPTIND" "1", fixed "PPID" "0", usual "PS1" "# ",
    usual "PS2" "> ", usual "PS4" "+ ",
    ("PWD".toList, ({ value := some directory, isExported := true } : Variable))]
  { bindings := own ++ given.filter fun (n, _) => (own.lookup n).isNone
    functions := []
    aliases := []
    arguments := []
    name
    cwd
    directory
    descriptors
    options := []
    status := 0
    outputStatus := 0
    line := 0
    command := none
    loops := 0
    hidden := []
    hiddenOptions := []
    calls := 0
    traps := []
    outerTraps := none
    interrupted := none
    children := []
    lastChild := none
    lineRead := 1
    optionIndex := 1
    optionOffset := none
    held := []
    mask := 0o022 }

/-- The variables that a process passes on. -/
def Process.environment (p : Process) : List (List Char × List Char) :=
  p.bindings.filterMap fun (n, v) => if v.isExported then v.value.map fun value => (n, value)
    else none

mutual

/-- A command.  If it is tested, its failure does not end the script. -/
def exec (fuel : Nat) (tested : Bool) (c : Command) : Run Unit :=
  match fuel with
  | 0 => throw outOfSteps
  | fuel + 1 => do
    if (← get).has 'n' then return
    match c with
    | .simple line assignments words redirections =>
      modify fun m => { m with line, outputStatus := 0 }
      simple fuel tested assignments words redirections
      actOnSignals fuel
      Run.exitOnError tested
    | .pipeline stages =>
      let first := (← get).nextStream
      Run.setStatus (← pipeline fuel tested none stages)
      modify (·.forgetStreams first)
      actOnSignals fuel
      Run.exitOnError tested
    | .sequence first second =>
      exec fuel tested first
      exec fuel tested second
    | .both first second =>
      exec fuel true first
      if (← get).status == 0 then exec fuel tested second
    | .either first second =>
      exec fuel true first
      if (← get).status != 0 then exec fuel tested second
    | .negation c =>
      exec fuel true c
      modify fun m => { m with status := if m.status == 0 then 1 else 0 }
    | .conditional test yes no =>
      exec fuel true test
      if (← get).status == 0 then exec fuel tested yes
      else
        match no with
        | some no => exec fuel tested no
        | none => Run.setStatus 0
    | .loop whileTrue test body => Run.looping (loop fuel tested whileTrue test body 0)
    | .forEach line name words body =>
      modify fun m => { m with line }
      let values ← match words with
        | some words => List.flatten <$> words.mapM (Expansion.fields (output fuel))
        | none => (·.arguments) <$> get
      if values.isEmpty then Run.setStatus 0
      Run.looping (forEach fuel tested name body values)
    | .select line subject items =>
      modify fun m => { m with line }
      let text ← Expansion.text (output fuel) subject
      select fuel tested text items
    | .redirected line c redirections =>
      modify fun m => { m with line }
      let targets ← redirections.mapM (target (output fuel))
      Run.keeping (targets.map Target.descriptor) do
        match ← Run.attempt (Run.redirect (Expansion.text (output fuel)) targets) with
        | .ok () => exec fuel tested c
        | .error .fails =>
          Run.setStatus 2
          Run.exitOnError tested
        | .error f => throw f
    | .subshell line c redirections =>
      modify fun m => { m with line }
      let targets ← redirections.mapM (target (output fuel))
      let first := (← get).nextStream
      Run.setStatus (← process fuel do
        Run.redirect (Expansion.text (output fuel)) targets
        exec fuel tested c)
      modify (·.forgetStreams first)
      actOnSignals fuel
      Run.exitOnError tested
    | .background c =>
      let (n, m) := (← get).addStream .nothing
      set m
      let status ← process fuel do
        modify (·.connect 0 (some n))
        exec fuel false c
      modify fun m => { m with
        status := 0
        children := (m.nextProcess, status) :: m.children
        lastChild := some m.nextProcess
        nextProcess := m.nextProcess + 1 }
    | .define name body =>
      modify fun m => { m with
        functions := (name, body) :: m.functions.filter (·.1 != name)
        status := 0 }

/-- Commands that are joined by pipes, the first of which reads from a stream; the status of the
last one. -/
def pipeline (fuel : Nat) (tested : Bool) (input : Option Nat) (stages : List Command) :
    Run Nat :=
  match fuel with
  | 0 => throw outOfSteps
  | fuel + 1 => do
    let enter : Run Unit := modify fun m =>
      match input with
      | some n => m.connect 0 (some n)
      | none => m
    match stages with
    | [] => return 0
    | [c] => process fuel do
      enter
      exec fuel tested c
    | c :: rest =>
      let (n, m) := (← get).addStream (.pipe [] [])
      set m
      let _ ← process fuel do
        enter
        modify (·.connect 1 (some n))
        exec fuel tested c
      pipeline fuel tested (some n) rest

/-- The turns of a loop with a test; the status of the last one is given. -/
def loop (fuel : Nat) (tested whileTrue : Bool) (test body : Command) (last : Nat) : Run Unit :=
  match fuel with
  | 0 => throw outOfSteps
  | fuel + 1 => do
    match ← Run.turn (exec fuel true test) with
    | .broken => Run.setStatus last
    | .continued => loop fuel tested whileTrue test body last
    | .done =>
      if ((← get).status == 0) != whileTrue then Run.setStatus last
      else
        match ← Run.turn (exec fuel tested body) with
        | .broken => return
        | _ => loop fuel tested whileTrue test body (← get).status

/-- The turns of a loop over texts. -/
def forEach (fuel : Nat) (tested : Bool) (name : List Char) (body : Command)
    (values : List (List Char)) : Run Unit :=
  match fuel with
  | 0 => throw outOfSteps
  | fuel + 1 => do
    match values with
    | [] => return
    | v :: rest =>
      Run.assign name v
      match ← Run.turn (exec fuel tested body) with
      | .broken => return
      | _ => forEach fuel tested name body rest

/-- The first of some items that matches a text. -/
def select (fuel : Nat) (tested : Bool) (text : List Char)
    (items : List (List Word × Option Command)) : Run Unit :=
  match fuel with
  | 0 => throw outOfSteps
  | fuel + 1 => do
    match items with
    | [] => Run.setStatus 0
    | ([], _) :: rest => select fuel tested text rest
    | (w :: ws, body) :: rest =>
      if (← Expansion.pattern (output fuel) w).accepts text then
        match body with
        | some c => exec fuel tested c
        | none => Run.setStatus 0
      else select fuel tested text ((ws, body) :: rest)

/-- A simple command. -/
def simple (fuel : Nat) (tested : Bool) (assignments : List (List Char × Word))
    (words : List Word) (redirections : List Redirection) : Run Unit :=
  match fuel with
  | 0 => throw outOfSteps
  | fuel + 1 => do
    let args ← commandWords (output fuel) [] words
    let targets ← redirections.mapM (target (output fuel))
    let m ← get
    let call := m.call args
    let errors := m.descriptors.lookup 2
    let keepsAssignments := args.isEmpty || call.isSpecial
    let staysOpen := call.isExec && call.words.length ≤ 1
    Run.keeping (if staysOpen then [] else targets.map Target.descriptor) do
      match ← Run.attempt (Run.redirect (Expansion.text (output fuel)) targets) with
      | .error .fails =>
        Run.setStatus 2
        if call.isSpecial then throw .fails
      | .error f => throw f
      | .ok () =>
        if keepsAssignments then
          let isExported := call.isExec && call.words.length > 1
          let shown ← assignAll (output fuel) false isExported assignments
          trace (output fuel) errors (shown ++ args)
          invoke fuel tested call
        else Run.withHidden do
          let shown ← assignAll (output fuel) true true assignments
          trace (output fuel) errors (shown ++ args)
          invoke fuel tested call

/-- A command that is called. -/
def invoke (fuel : Nat) (tested : Bool) (call : Call) : Run Unit :=
  match fuel with
  | 0 => throw outOfSteps
  | fuel + 1 => do
    let name := call.words.headD []
    let args := call.words.tail
    match call.meaning with
    | .nothing => modify fun m => { m with status := m.outputStatus }
    | .function body =>
      let m ← get
      set { m with
        arguments := args
        loops := 0
        calls := m.calls + 1
        optionIndex := 1
        optionOffset := none }
      Run.ensuring (Run.returning (exec fuel tested body)) fun n => { n with
        arguments := m.arguments
        loops := m.loops
        calls := m.calls
        optionIndex := m.optionIndex
        optionOffset := m.optionOffset }
    | .builtin =>
      match ← Run.attempt (Run.asCommand name (Run.passingOn (builtin fuel tested name args))) with
      | .ok status => Run.setStatus status
      | .error .fails =>
        Run.setStatus 2
        if call.isSpecial then throw .fails
      | .error f => throw f
    | .program =>
      let m ← get
      match programCall m name args with
      | .error refusal =>
        Run.complain (name ++ (": " ++ refusal.reason).toList)
        Run.setStatus refusal.status
      | .ok words =>
        match ← runProgram fuel words with
        | .status n => Run.setStatus n
        | .signal n =>
          Run.setStatus (128 + n)
          if n != 2 && n != 13 then
            let what := ((Exit.signalDescriptions.lookup n).getD "").toList ++ ['\n']
            modify fun m => (m.write? 2 what).getD m

/-- A command of the shell. -/
def builtin (fuel : Nat) (tested : Bool) (name : List Char) (args : List (List Char)) : Run Nat :=
  match fuel with
  | 0 => throw outOfSteps
  | fuel + 1 => do
    match String.ofList name with
    | "eval" =>
      text fuel tested false (Format.joined [' '] args)
    | "." =>
      let (_, args) ← Builtin.options [] args
      match args with
      | [] => return 0
      | path :: _ =>
        let m ← get
        match if path.contains '/' then some path else m.findFile? path with
        | none => Run.fail (path ++ ": not found".toList)
        | some path =>
          let cs ← Run.readFile path
          Run.setStatus 0
          Run.returning (Run.asCommand path do Run.setStatus (← text fuel false true cs))
          return (← get).status
    | "exec" =>
      match args with
      | [] => return 0
      | program :: args =>
        let m ← get
        match programCall m program args with
        | .error refusal =>
          Run.complain (program ++ (": " ++ refusal.reason).toList)
          throw (.exits refusal.status)
        | .ok words =>
          let exit ← runProgram fuel words
          modify fun m => { m with traps := [] }
          match exit with
          | .status n => throw (.exits n)
          | .signal n => throw (.killed n)
    | "hash" => Builtin.hash args
    | "type" => Builtin.type args
    | "command" => Builtin.command args
    | _ =>
      match Builtin.plain? name with
      | some run => run args
      | none => return 127

/-- The commands of a text are carried out; the status of the last one, or zero if there is none.
Its lines may be shown. -/
def text (fuel : Nat) (tested isShown : Bool) (cs : List Char) : Run Nat :=
  match fuel with
  | 0 => throw outOfSteps
  | fuel + 1 => do
    let lineRead := (← get).lineRead
    let ran ← Run.ensuring (runLines fuel tested isShown (Source.ofChars cs) false) fun m =>
      { m with lineRead }
    let status := (← get).status
    return if ran then status else 0

/-- The commands of what is left of a text are carried out; whether there are any, or have been any.
Its lines may be shown. -/
def runLines (fuel : Nat) (tested isShown : Bool) (s : Source) (ran : Bool) : Run Bool :=
  match fuel with
  | 0 => throw outOfSteps
  | fuel + 1 => do
    let m ← get
    let s := { s with documents := [], nextDocument := m.nextDocument, aliases := m.aliases }
    match Script.next.run s with
    | .error e =>
      if isShown then Run.showLines (s.linesTo e.line)
      Run.complainAt e.line ("Syntax error: " ++ e.text).toList
      throw .fails
    | .ok ((c, isLast), next) =>
      if isShown then Run.showLines (s.rest.take (s.rest.length - next.rest.length))
      modify fun m => { m with
        documents := next.documents ++ m.documents
        nextDocument := next.nextDocument
        lineRead := next.line }
      match c with
      | some c => exec fuel tested c
      | none => pure ()
      if isLast then return ran || c.isSome
      else runLines fuel tested isShown next (ran || c.isSome)

/-- The output of commands. -/
def output (fuel : Nat) (c : Option Command) : Run (List Char) :=
  match fuel with
  | 0 => throw outOfSteps
  | fuel + 1 => do
    match c with
    | none => return []
    | some c =>
      let (n, m) := (← get).addStream (.pipe [] [])
      set m
      let status ← process fuel do
        modify (·.connect 1 (some n))
        exec fuel false c
      let m ← get
      let cs := match m.streams.lookup n with
        | some (.pipe front back) => back.dropWhile (· == '\n') ++ front.reverse
        | _ => []
      set { m.forgetStreams n with outputStatus := status }
      return ((cs.dropWhile (· == '\n')).filter (· != '\x00')).reverse

/-- A part of a script runs on its own; its status. -/
def process (fuel : Nat) (run : Run Unit) : Run Nat :=
  match fuel with
  | 0 => throw outOfSteps
  | fuel + 1 => Run.inCopy (finish fuel run)

/-- A part of a script runs on its own, with its action for the end; its status. -/
def finish (fuel : Nat) (run : Run Unit) : Run Nat :=
  match fuel with
  | 0 => throw outOfSteps
  | fuel + 1 => do
    let status ← ownStatus (← Run.attempt run)
    let m ← get
    match m.traps.lookup 0 with
    | none => return status % 256
    | some action =>
      set { m with
        traps := m.traps.filter (·.1 != 0)
        status
        interrupted := some status
        command := none
        loops := 0 }
      match ← Run.attempt (text fuel false false action) with
      | .error (.exits n) => return n % 256
      | .error .fails => return 2
      | .error (.killed signal) => throw (.killed signal)
      | _ => return status % 256

/-- The actions for the signals that the script has got. -/
def actOnSignals (fuel : Nat) : Run Unit :=
  match fuel with
  | 0 => throw outOfSteps
  | fuel + 1 => do
    let m ← get
    match m.outerTraps, m.received with
    | none, signal :: rest =>
      set { m with received := rest, interrupted := some m.status }
      let _ ← text fuel false false ((m.traps.lookup signal).getD [])
      modify fun n => { n with status := m.status, interrupted := m.interrupted }
      actOnSignals fuel
    | _, _ => return

/-- A shell is started with some words, the first of which is its name; how it ends. -/
def runProgram (fuel : Nat) (words : List Bytes) : Run Exit :=
  match fuel with
  | 0 => throw outOfSteps
  | fuel + 1 => do
    let m ← get
    let words := words.map charsOfBytes
    let child := Process.start (words.headD []) m.environment m.tree m.cwd m.descriptors
    set { toProcess := child, toWorld := { m.toWorld with received := [] } : Machine }
    let r ← Run.attempt (finish fuel do
      let (cs, isShown) ← startText words.tail
      let _ ← runLines fuel false isShown (Source.ofChars cs) false)
    modify fun n =>
      { toProcess := m.toProcess, toWorld := { n.toWorld with received := m.received } }
    match r with
    | .ok n => return .status n
    | .error (.killed n) => return .signal n
    | .error _ => return .status 2

end

/-- The number of steps that a script may nest; far more than one that stands in for a build
takes. -/
def stepLimit : Nat := 1000000

/-- What is left of a script after its end. -/
structure Ending where
  /-- What it printed on both descriptors, as one sequence. -/
  output : Bytes
  exit : Exit
  tree : FileTree

/-- A shell is started with some words, the first of which is its name, in an environment. -/
def run (words : List Bytes) (env : List (String × String)) (tree : FileTree) (cwd : Place) :
    Ending :=
  let bindings := env.map fun (n, v) => (charsOfText n, charsOfText v)
  let world : World :=
    { tree
      streams := [(0, .nothing), (1, .reader)]
      nextStream := 2
      printed := []
      documents := []
      nextDocument := 0
      received := []
      nextProcess := 2 }
  let first := Process.start [] bindings tree cwd [(0, 0), (1, 1), (2, 1)]
  let (r, m) := runProgram stepLimit words { toProcess := first, toWorld := world }
  let exit := match r with
    | .ok e => e
    | .error _ => .signal 9
  ⟨bytesOfChars m.printed.reverse, exit, m.tree⟩

end InlineAudit.Shell
