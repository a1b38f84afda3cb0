import InlineAudit.Shell.Builtin.Options

/-!
Signals, and commands in the background.

* `Shell.Builtin.kill` — a signal is sent;
* `Shell.Builtin.trap` — what is done when one arrives;
* `Shell.Builtin.wait` — commands in the background are awaited.

Design notes: a script can send signals to itself only.  What it does about one waits until the
present command is over.
-/

namespace InlineAudit.Shell.Builtin

/-- The signal of a number or name. -/
def signal? (cs : List Char) : Option Nat :=
  if isDigits cs then
    let n := Decimal.natOfDigits cs
    if n < 65 then some n else none
  else
    let name := String.ofList (cs.map Char.toUpper)
    (Exit.signalNames.find? (·.2 == name)).map (·.1)

/-- The signals that do not end a process unless it asks for it. -/
def harmlessSignals : List Nat := [0, 17, 18, 23, 28]

/-- The script gets a signal from itself.  If it has an action for it, it acts upon it later. -/
def receive (signal : Nat) : Run Unit := do
  if signal == 0 then return
  let m ← get
  match if signal == 9 then none else (m.outerTraps.getD m.traps).lookup signal with
  | some _ => set { m with received := m.received ++ [signal] }
  | none => if !harmlessSignals.contains signal then throw (.killed signal)

/-- What is said about the use of `kill`. -/
def killUsage : List Char :=
  ("Usage: kill [-s sigspec | -signum | -sigspec] [pid | job]... or\n" ++
    "kill -l [exitstatus]").toList

/-- The name of a signal; zero is the end of the script. -/
def signalName (n : Nat) : List Char :=
  if n = 0 then "EXIT".toList
  else if n = 34 then "RTMIN".toList
  else if 34 < n && n < 50 then "RTMIN+".toList ++ decimal (n - 34)
  else if 49 < n && n < 64 then "RTMAX-".toList ++ decimal (64 - n)
  else if n = 64 then "RTMAX".toList
  else if n = 16 then "16".toList
  else ((Exit.signalNames.lookup n).map (·.toList)).getD (decimal n)

/-- The names of all signals, or that of the signal of a number or status. -/
def nameSignals (args : List (List Char)) : Run Nat := do
  match args with
  | [] =>
    let names := ['0'] :: (List.range 64).map fun n => signalName (n + 1)
    print (names.flatMap (· ++ ['\n']))
  | a :: _ =>
    let n ← Run.number a
    let signal := if 128 < n then n - 128 else n
    if 0 < signal && signal < 65 then print (signalName signal ++ ['\n'])
    else Run.fail ("invalid signal number or exit status: ".toList ++ a)

/-- What is said about a command in the background that is not there. -/
def missingJob (name : List Char) : List Char :=
  match name with
  | [] | ['%'] | ['%', '%'] | ['%', '+'] => "No current job".toList
  | ['%', '-'] => "No previous job".toList
  | _ => "No such job: ".toList ++ name

/-- A signal is sent.  The only process that is known is the script itself. -/
def kill (args : List (List Char)) : Run Nat := do
  let (signal, targets) ← match args with
    | [] => Run.fail killUsage
    | [['-', 's']] => Run.fail "No arg for -s option".toList
    | ['-', 's'] :: name :: rest =>
      match signal? name with
      | some n => pure (n, rest)
      | none => Run.fail ("invalid signal number or name: ".toList ++ name)
    | ['-', 'l'] :: rest => return (← nameSignals rest)
    | ('-' :: name) :: rest =>
      match signal? name with
      | some n => pure (n, rest)
      | none =>
        match name with
        | '-' :: [] => pure (15, rest)
        | c :: _ => Run.fail ("Illegal option -".toList ++ [c])
        | [] => pure (15, args)
    | _ => pure (15, args)
  if targets.isEmpty then Run.fail killUsage
  let mut status := 0
  for target in targets do
    match target with
    | '%' :: _ => Run.fail (missingJob target)
    | '-' :: group =>
      let _ ← Run.number group
      Run.complain "No such process\n".toList
      status := 1
    | _ =>
      let n ← Run.number target
      if decimal n == ownNumber then receive signal
      else
        Run.complain "No such process\n".toList
        status := 1
  return status

/-- Commands in the background are awaited; the status is that of the last one that is named. -/
def wait (args : List (List Char)) : Run Nat := do
  let mut status := 0
  for a in args do
    let children := (← get).children
    match a with
    | '%' :: n =>
      match if isDigits n then children.reverse[Decimal.natOfDigits n - 1]? else none with
      | some (_, s) => status := s
      | none => Run.fail (missingJob a)
    | _ =>
      let n ← Run.number a
      status := (children.lookup n).getD 127
  return status

/-- A command in the background is looked for. -/
def resume (args : List (List Char)) : Run Nat := do
  let (_, args) ← options [] args
  Run.fail (missingJob (args.headD []))

/-- Actions for signals are set or removed; without arguments, they are listed. -/
def trap (args : List (List Char)) : Run Nat := do
  let (_, args) ← options [] args
  let m ← get
  let (action, names) := match args with
    | [] => (none, [])
    | [name] => (none, [name])
    | action :: names =>
      if isDigits action && (signal? action).isSome then (none, args)
      else (if action == ['-'] then none else some action, names)
  if args.isEmpty then
    let traps := m.traps.mergeSort fun a b => decide (a.1 ≤ b.1)
    Run.print (traps.flatMap fun (n, action) =>
      "trap -- ".toList ++ singleQuoted action ++ ' ' :: signalName n ++ ['\n'])
  for name in names do
    match if name == "EXIT".toList || name == "exit".toList then some 0 else signal? name with
    | none =>
      modify fun m => (m.write? 2 ("trap: ".toList ++ name ++ ": bad trap\n".toList)).getD m
      return 1
    | some n => modify fun m =>
      let others := m.traps.filter (·.1 != n)
      { m with traps := match action with
        | some a => (n, a) :: others
        | none => others }
  return 0

end InlineAudit.Shell.Builtin
