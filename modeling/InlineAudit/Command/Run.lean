import InlineAudit.Command.Inputs
import InlineAudit.Log.Listing
import InlineAudit.Report.Json

/-!
The commands.

* `Command.reportFrom`, `Command.runCheck` — the report that a check comes to, against any source
  and against the one that its options ask for;
* `Command.checkFrom`, `Command.check` — the check, with its report printed;
* `Command.init` — a new candidates file;
* `Command.parseLog` — a log laid out line by line.

Design notes: what a command does is a value: the texts that it prints, the file system after it,
and why it failed, if it did.  What was printed before a failure stays printed.
-/

namespace InlineAudit.Command

/-- What a command does. -/
structure Outcome where
  stdout : String := ""
  stderr : String := ""
  tree : FileTree
  problem : Option Problem := none

/-- A text with a line end. -/
def line (s : String) : String := s ++ "\n"

/-- The report of a check whose output comes from this source. -/
def reportFrom (sourceOf : Inputs → Except Problem Source) (h : Host) (o : CheckOptions)
    (clock : Check.Clock) : Except Problem Report := do
  let inputs ← resolve h o
  let source ← sourceOf inputs
  (Check.run source inputs.file.build.strict inputs.file.candidates clock).mapError .checkFailed

/-- The report of a check. -/
def runCheck (h : Host) (o : CheckOptions) (clock : Check.Clock) : Except Problem Report :=
  reportFrom (·.source h o) h o clock

/-- A report as it is printed. -/
def reportText (json : Bool) (r : Report) : String :=
  if json then line r.toJson.pretty
  else if r.isClean then
    line ("All candidates are inlineable (" ++ toString r.packages.length ++ " package(s)).")
  else String.join (r.lines.map line)

/-- What is said about a build that failed. -/
def buildWarning (status : Build.Status) : String :=
  if status.isSuccess then ""
  else line ("warning: " ++ status.text ++ "; results may be incomplete")

/-- The verdict on a report: every candidate was proven inlineable, or it is a failure. -/
def verdict (r : Report) : Option Problem :=
  if r.isClean then none else some (.unproven r.issues.length)

/-- The files after a check, which is carried out only if its inputs are valid. -/
def treeAfterCheck (h : Host) (o : CheckOptions) : FileTree :=
  match resolve h o with
  | .error _ => h.tree
  | .ok inputs => inputs.treeAfter h o

/-- The check of output that comes from this source, with its report printed. -/
def checkFrom (sourceOf : Inputs → Except Problem Source) (h : Host) (o : CheckOptions)
    (clock : Check.Clock) : Outcome :=
  match reportFrom sourceOf h o clock with
  | .error p => { tree := treeAfterCheck h o, problem := some p }
  | .ok r =>
    { stdout := reportText o.json r
      stderr := buildWarning r.build
      tree := treeAfterCheck h o
      problem := verdict r }

/-- The check, with its report printed. -/
def check (h : Host) (o : CheckOptions) (clock : Check.Clock) : Outcome :=
  checkFrom (·.source h o) h o clock

/-- What is said about a new file. -/
def initText (target : Path) : String :=
  line ("Wrote candidates file: " ++ target.text) ++
    line "Edit the \x60candidates\x60 section, then run:" ++
    line ("  inlcheck check --file " ++ target.text)

/-- A new candidates file at a path from the root; one that is there is replaced only by force. -/
def initAt (h : Host) (target : Path) (force : Bool) : Outcome :=
  if h.tree.exists? h.cwd target && !force then
    { tree := h.tree, problem := some (.fileExists target) }
  else
    match CandidatesFile.store h target .starter with
    | .error p => { tree := h.tree, problem := some (.file p) }
    | .ok tree => { stdout := initText target, tree }

/-- A new candidates file. -/
def init (h : Host) (path : String) (force : Bool) : Outcome :=
  match pathOf h path with
  | .error p => { tree := h.tree, problem := some p }
  | .ok target => initAt h target force

/-- The lines of a log as they are printed. -/
def listingText (json : Bool) (lines : List Log.ListedLine) : String :=
  if json then line (Json.array (lines.map Log.ListedLine.toJson)).pretty
  else
    line ("Recognized lines (" ++ toString lines.length ++ "):") ++
      String.join (lines.map fun l => line l.text)

/-- A log laid out line by line. -/
def parseLog (h : Host) (path : String) (json : Bool) : Outcome :=
  match pathOf h path with
  | .error p => { tree := h.tree, problem := some p }
  | .ok path =>
    match h.tree.read h.cwd path with
    | .error cause => { tree := h.tree, problem := some (.unreadableLog path cause) }
    | .ok log => { stdout := listingText json (Log.listing log), tree := h.tree }

end InlineAudit.Command
