import InlineAudit.Check.Error

/-!
Where compiler output comes from.

A source is asked for the output that concerns a list of packages.  It refuses, or it opens a
stream: bytes that arrive in chunks, an end that is clean or an error, and behind the stream
something that knows how the build ended.

* `Stream` — one run of a source;
* `Stream.read` — its pieces and its end, whatever the chunks;
* `Source` — a source, by what it does when it is opened;
* `Source.replay` — a log that was captured earlier.

Design notes: a stream that fails delivers its complete lines only; the bytes after the last
newline are not a line until it is known where the line ends.  A reader takes an empty chunk for the
end, so a stream has none.
-/

namespace InlineAudit

/-- What is behind a stream. -/
inductive Completion
  /-- The end of the build was known from the start. -/
  | known (status : Build.Status)
  /-- A task that runs beside the reader and ends with a status, or dies with a message. -/
  | producer (result : Except String Build.Status)
  deriving Repr

/-- What the task behind a stream comes to. -/
def Completion.await : Completion → Except String Build.Status
  | .known status => .ok status
  | .producer result => result

/-- One run of a source: what is read, in the chunks in which it arrives, the error that ends it,
if any, and what is behind it.  An empty chunk would be the end. -/
structure Stream where
  chunks : List Bytes
  failure : Option IoError
  completion : Completion
  nonempty : ∀ chunk ∈ chunks, chunk ≠ []
  deriving Repr

namespace Stream

/-- A byte string that arrives at once. -/
def atOnce (log : Bytes) (completion : Completion) : Stream where
  chunks := if log = [] then [] else [log]
  failure := none
  completion
  nonempty := by split <;> simp_all

/-- A log whose build is over. -/
def ofBytes (log : Bytes) (status : Build.Status) : Stream := .atOnce log (.known status)

/-- The bytes that are delivered. -/
def bytes (s : Stream) : Bytes := s.chunks.flatten

@[simp] theorem bytes_atOnce (log : Bytes) (completion : Completion) :
    (atOnce log completion).bytes = log := by
  rw [bytes, atOnce]
  split <;> simp_all

/-- The cut of the stream into lines, chunk by chunk. -/
def cutter (isEnd : UInt8 → Bool) (s : Stream) : Cutter UInt8 :=
  s.chunks.foldl (Cutter.feed isEnd) .empty

/-- The pieces of the stream that count as lines. -/
def pieces (isEnd : UInt8 → Bool) (s : Stream) : List Bytes :=
  match s.failure with
  | none => (s.cutter isEnd).close
  | some _ => (s.cutter isEnd).complete

end Stream

/-- A source of compiler output.  It may refuse with any error that a check knows. -/
structure Source where
  name : String
  openFor : List String → Except Check.CheckError Stream

/-- Output that was captured earlier.  It covers what it covers: the packages that are asked for
make no difference. -/
def Source.replay (log : Except IoError Stream) : Source :=
  ⟨"replay", fun _ => log.mapError .unreadable⟩

end InlineAudit
