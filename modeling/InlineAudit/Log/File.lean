import InlineAudit.Source
import InlineAudit.System.FileTree

/-!
Logs in a file system.
-/

namespace InlineAudit.Log

/-- The log in a file, as a stream.  A directory can be opened, and fails when it is read. -/
def openFile (h : Host) (p : Path) : Except IoError Stream :=
  match h.tree.read h.cwd p with
  | .ok content => .ok (.ofBytes content .replayed)
  | .error .isADirectory => .ok ⟨[], some .isADirectory, .known .replayed, List.forall_mem_nil _⟩
  | .error e => .error e

/-- The log in a file, as a source. -/
def fileSource (h : Host) (p : Path) : Source := .replay (openFile h p)

/-- A log that is at hand, as a source. -/
def textSource (log : Bytes) : Source := .replay (.ok (.ofBytes log .replayed))

end InlineAudit.Log
