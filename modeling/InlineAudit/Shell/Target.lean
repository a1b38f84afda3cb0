import InlineAudit.Shell.Machine

/-!
Where the redirections of a script lead.

* `Shell.Target` — a redirection whose target is known;
* `Shell.Run.redirect` — the descriptors lead to their targets.

A file that is written anew is emptied when it is opened, and made if there is none.  The paths that
name descriptors lead to where these lead.
-/

namespace InlineAudit.Shell

/-- A redirection whose target is known. -/
inductive Target
  | file (descriptor : Nat) (opening : Opening) (path : List Char)
  /-- To where another descriptor leads, or nowhere. -/
  | copy (descriptor : Nat) (source : Option Nat)
  /-- From a text, which is expanded when the descriptor comes to lead to it. -/
  | text (descriptor : Nat) (content : Word)
  deriving Inhabited

/-- The descriptor that is redirected. -/
def Target.descriptor : Target → Nat
  | .file d _ _ | .copy d _ | .text d _ => d

/-- Why a file cannot be opened.  A missing file or directory is named by what is missing. -/
def Opening.complaint (o : Opening) (path : List Char) (e : IoError) : List Char :=
  let (act, missing) :=
    if o == .read then ("cannot open ", "No such file")
    else ("cannot create ", "Directory nonexistent")
  let reason := match e with
    | .noSuchFile | .notADirectory => missing
    | e => e.reason
  act.toList ++ path ++ (": " ++ reason).toList

namespace Machine

/-- The stream of a file that exists. -/
def streamOf (m : Machine) (o : Opening) (place : Place) : Stream :=
  if place == nullDevice || m.tree.isDirectory place then .nothing
  else .file place 0 (o == .append) (o == .read || o == .readWrite) (o != .read)

/-- A file is opened: what it becomes by that, and its place. -/
def openFile (m : Machine) (o : Opening) (path : List Char) : Except IoError (Place × Machine) := do
  let p : Path := ⟨bytesOfChars path⟩
  let old := m.tree.find m.cwd p
  let tree ←
    match o, old with
    | .read, .error e => throw e
    | .read, .ok _ => pure m.tree
    | o, .ok place =>
      if place == nullDevice then pure m.tree
      else
        match m.tree.entry? place with
        | some (.file _ _) =>
          if o == .write && m.has 'C' then throw (.reported "File exists")
          else if o == .write || o == .clobber then m.tree.write m.cwd p []
          else pure m.tree
        | _ => throw .isADirectory
    | _, .error _ => m.tree.write m.cwd p []
  return (← tree.find m.cwd p, { m with tree })

/-- A path is opened; the number of the stream to which that leads. -/
def openPath (m : Machine) (o : Opening) (path : List Char) : Except IoError (Nat × Machine) :=
  match namedDescriptor? path with
  | some d =>
    match m.stream? d with
    | some (_, .file place _ _ _ _) =>
      let m := if o == .write || o == .clobber then m.putContent place [] else m
      .ok (m.addStream (m.streamOf o place))
    | some (n, _) => .ok (n, m)
    | none => .error .noSuchFile
  | none =>
    match m.openFile o path with
    | .ok (place, m) => .ok (m.addStream (m.streamOf o place))
    | .error e => .error e

end Machine

/-- A descriptor leads to its target; texts are expanded in the given way. -/
def Run.redirectOne (expand : Word → Run (List Char)) (t : Target) : Run Unit := do
  let m ← get
  match t with
  | .file d o path =>
    match m.openPath o path with
    | .ok (n, m) => set (m.connect d (some n))
    | .error e => Run.fail (o.complaint path e)
  | .copy d none => set (m.connect d none)
  | .copy d (some s) =>
    if s != d then
      match m.descriptors.lookup s with
      | some n => set (m.connect d (some n))
      | none => Run.fail (decimal s ++ ": Bad file descriptor".toList)
  | .text d content =>
    let text ← expand content
    let (n, m) := (← get).addStream (.pipe text [])
    set (m.connect d (some n))

/-- The descriptors lead to their targets; texts are expanded in the given way. -/
def Run.redirect (expand : Word → Run (List Char)) (ts : List Target) : Run Unit :=
  ts.forM (Run.redirectOne expand)

end InlineAudit.Shell
