import InlineAudit.Command.Program
import InlineAudit.Text.Timestamp
import Std.Time.DateTime.Timestamp

/-!
The command line.

Everything that is decided is decided by `Command.perform`.  What is left is to look at the files
that a command line can mean, to print, and to write the files that have changed.  No process is
started here: a build is run by the shell of this library.
-/

namespace InlineAudit.Main

/-- The names of a path from the root. -/
def placeOf (path : String) : Place := (Path.ofString path).names

/-- The text of a place. -/
def textOf (place : Place) : String := (Place.path place).text

/-- The path without links of what is there. -/
def real? (path : String) : IO (Option String) := do
  try
    let p ← IO.FS.realPath path
    return some p.toString
  catch _ => return none

/-- The entry at a path without links. -/
def entry? (path : String) : IO (Option Entry) := do
  try
    let p ← IO.FS.realPath path
    if ← p.isDir then return some .directory
    if shellPlaces.contains (placeOf p.toString) then return some (.file [] true)
    let bytes := (← IO.FS.readBinFile p).toList
    return some (.file bytes (Interpreter.ofContent? bytes).isSome)
  catch _ => return none

/-- What stands at a path, and at those that lead to it, is put into a file system. -/
def look (tree : FileTree) (path : String) : IO FileTree := do
  let mut tree := tree
  let mut here : Place := []
  for n in placeOf path do
    let place := if n = [dot, dot] then here.dropLast else here ++ [n]
    match ← real? (textOf place) with
    | none => return tree
    | some target =>
      let goal := placeOf target
      if goal ≠ place then tree := tree.put place (.link ⟨(Place.path goal).bytes⟩)
      if (tree.entry? goal).isNone then
        match ← entry? target with
        | some e => tree := tree.put goal e
        | none => return tree
      here := goal
  return tree

/-- A path seen from a directory. -/
def seenFrom (base : Path) (p : String) : String := (base.join (.ofString p)).text

/-- The paths that a command means by itself. -/
def named : Command.Invoked → List String
  | .check o => [o.file, o.fromLog, o.dir].filterMap id
  | .init path _ => [path]
  | .parseLog path _ => [path]

/-- The paths of the programs that a build can start, and the directory of the build. -/
def ofBuild (h : Host) : Command.Invoked → List String
  | .check o =>
    match Command.resolve h o with
    | .error _ => []
    | .ok i =>
      let t := i.toolchain h
      let base := t.directory.getD h.cwd.path
      let directories := ((h.envValue? "PATH").getD Host.defaultSearchPath).splitOn ":"
      let found (d : String) : String := seenFrom (.ofString (seenFrom base d)) t.executable.text
      textOf [] :: "/bin/sh" :: base.text :: seenFrom base t.executable.text ::
        directories.map found
  | _ => []

/-- A place that no entry can have, for a current directory that is gone. -/
def nowhere : Place := [[]]

/-- The surroundings of a command, as far as it can ask for them. -/
def surroundings (args : List String) : IO Host := do
  let here? ← try pure (some (← IO.currentDir).toString) catch _ => pure none
  let mut env := []
  for n in ["PATH", executableVariable, Trace.Filter.variableName] do
    if let some v := ← IO.getEnv n then env := (n, v) :: env
  let tree ← look ⟨[]⟩ (here?.getD (textOf []))
  let mut h : Host := { tree, cwd := (here?.map placeOf).getD nowhere, env }
  match Command.Invocation.ofArguments args with
  | .run _ c =>
    for p in named c do
      h := { h with tree := ← look h.tree (seenFrom h.cwd.path p) }
    for p in ofBuild h c do
      h := { h with tree := ← look h.tree (seenFrom h.cwd.path p) }
    return h
  | _ => return h

/-- The files that are not as they were are written. -/
def writeChanges (before after : FileTree) : IO Unit := do
  for (place, e) in after.entries do
    if let .file content _ := e then
      if before.entry? place ≠ some e then
        IO.FS.writeBinFile (textOf place) (ByteArray.mk content.toArray)

/-- The present time. -/
def now : IO Timestamp := do
  let t ← Std.Time.Timestamp.now
  let n := t.toNanosecondsSinceUnixEpoch.val.toNat
  return ⟨n / 1000000000, n % 1000000000⟩

end InlineAudit.Main

open InlineAudit in
/-- A run of the program. -/
def main (args : List String) : IO UInt32 := do
  let time ← Main.now
  let h ← Main.surroundings args
  let r := Command.perform h args ⟨time.offsetText, time.offsetText⟩ time.zoneText
  (← IO.getStdout).putStr r.stdout
  (← IO.getStderr).putStr r.stderr
  Main.writeChanges h.tree r.tree
  return r.code.toUInt32
