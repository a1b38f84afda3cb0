import InlineAudit.Command.Run
import InlineAudit.Trace.Filter

/-!
What is told of a check.

* `Trace.ofCheck` — the events of a check with the options of a command, in order.

Design notes: the events are those of the stages that are reached: the inputs, the source, the lines
of the log, the end of the build, and the judgement.
-/

namespace InlineAudit.Trace

/-- The events of one line. -/
def ofLine (l : String) : List Event :=
  let d := Diagnostic.ofLine l
  .classified d ::
    match d with
    | .header package => [.enteringPackage package]
    | _ => []

/-- The events of a source that is opened. -/
def ofOpening (h : Host) (i : Command.Inputs) (o : Command.CheckOptions)
    (packages : List String) : List Event :=
  match o.fromLog with
  | some _ => [.replaying packages]
  | none =>
    let t := i.toolchain h
    [.startingBuild t.executable.text (t.arguments packages)]

/-- The event of the end of a build, if a build was started. -/
def ofBuildEnd (h : Host) (i : Command.Inputs) (o : Command.CheckOptions)
    (packages : List String) : List Event :=
  match o.fromLog with
  | some _ => []
  | none =>
    match (i.toolchain h).launch h packages with
    | .ok e => [.buildExited e.exit]
    | .error _ => []

/-- The events of the judgement on a stream. -/
def ofJudgement (p : Pending) (stream : Stream) (lines : List String) : List Event :=
  match stream.completion.await, stream.failure with
  | .ok status, none =>
    .consumed lines.length (Check.scanned p stream).size ::
      if status.isSuccess then [] else [.incomplete status]
  | _, _ => []

/-- The events of a check of valid inputs against a source. -/
def ofInputs (h : Host) (i : Command.Inputs) (o : Command.CheckOptions) (p : Pending)
    (source : Source) : List Event :=
  let cs := i.file.candidates
  [.runningCheck source.name cs.size, .checking source.name cs.packages.length p.size] ++
    ofOpening h i o cs.packages ++
      match source.openFor cs.packages with
      | .error _ => []
      | .ok stream =>
        let lines := (stream.pieces Log.isNewline).map Log.lineText
        lines.flatMap ofLine ++ ofBuildEnd h i o cs.packages ++ ofJudgement p stream lines

/-- The events of a check with the options of a command; there are none before its inputs are valid
and its source is known. -/
def ofCheck (h : Host) (o : Command.CheckOptions) : List Event :=
  match Command.resolve h o with
  | .error _ => []
  | .ok i =>
    match i.file.candidates.validate, i.source h o with
    | .ok p, .ok source => ofInputs h i o p source
    | _, _ => []

end InlineAudit.Trace
