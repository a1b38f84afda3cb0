import InlineAudit.Report
import InlineAudit.Source

/-!
The check: which candidates does a source of compiler output leave unproven?

* `Check.run` — the report, or the first thing that went wrong;
* `Check.calls` — what the source was asked for on the way;
* `Check.Failure` — what can go wrong.

The order of events is fixed: the candidates are validated; the source is opened; the stream is
read to its end; what is behind it is awaited, also after an error in reading, and its death wins;
then an error in reading counts; then, under the strict rule, a build that did not succeed.

Design notes: a source is asked for three things, and each request goes into a record, so that it
can be said of a check not only what it comes to but also what it did not ask for.
-/

namespace InlineAudit.Check

/-- How a check can fail. -/
inductive Failure
  | error (cause : CheckError)
  /-- The task behind the stream died with this message. -/
  | producerDied (message : String)
  deriving Repr, DecidableEq

/-- When a check began and when it ended. -/
structure Clock where
  started : String
  finished : String
  deriving Repr, Inhabited

/-- What a check asks of its source. -/
inductive Call
  /-- To open a stream for these packages. -/
  | openFor (packages : List String)
  /-- To deliver the stream to its end. -/
  | read
  /-- To wait for what is behind the stream. -/
  | await
  deriving Repr, DecidableEq

/-- Work that keeps a record of its calls, the first one first. -/
abbrev Recorded := StateM (List Call)

/-- A call is put into the record. -/
def record (c : Call) : Recorded Unit := modify (· ++ [c])

/-- What is read from an open stream, before its end is judged. -/
def scanned (p : Pending) (stream : Stream) : Pending :=
  ((stream.pieces Log.isNewline).map Log.lineText).foldl Pending.observe p

/-- The source is asked for a stream. -/
def openFor (source : Source) (packages : List String) : Recorded (Except CheckError Stream) := do
  record (.openFor packages)
  return source.openFor packages

/-- The stream is read; an error at its end is kept for later. -/
def read (stream : Stream) (p : Pending) : Recorded (Pending × Option IoError) := do
  record .read
  return (scanned p stream, stream.failure)

/-- The end of what is behind the stream. -/
def await (stream : Stream) : Recorded (Except String Build.Status) := do
  record .await
  return stream.completion.await

/-- The end of a build passes: it succeeded, or the strict rule does not hold. -/
def passes (strict : Bool) (status : Build.Status) : Bool :=
  status.isSuccess || !strict

/-- The judgement on a stream that was read to its end. -/
def conclude (sourceName : String) (strict : Bool) (cs : Candidates) (clock : Clock)
    (p : Pending) (failure : Option IoError) (status : Build.Status) : Except Failure Report :=
  match failure with
  | some cause => .error (.error (.unreadable cause))
  | none =>
    if passes strict status then
      .ok {
        source := sourceName
        packages := cs.packages
        digest := cs.digest
        build := status
        issues := p.issues
        startedAt := clock.started
        finishedAt := clock.finished }
    else .error (.error (.buildFailed status))

/-- The check of a candidate set against a source, call by call. -/
def session (source : Source) (strict : Bool) (cs : Candidates) (clock : Clock) :
    Recorded (Except Failure Report) := do
  match cs.validate with
  | .error cause => return .error (.error (.invalid cause))
  | .ok p =>
    match ← openFor source cs.packages with
    | .error cause => return .error (.error cause)
    | .ok stream =>
      let (p, failure) ← read stream p
      match ← await stream with
      | .error message => return .error (.producerDied message)
      | .ok status => return conclude source.name strict cs clock p failure status

/-- The check of a candidate set against a source. -/
def run (source : Source) (strict : Bool) (cs : Candidates) (clock : Clock) :
    Except Failure Report :=
  ((session source strict cs clock).run []).1

/-- The calls of a check, in order. -/
def calls (source : Source) (strict : Bool) (cs : Candidates) (clock : Clock) : List Call :=
  ((session source strict cs clock).run []).2

end InlineAudit.Check
