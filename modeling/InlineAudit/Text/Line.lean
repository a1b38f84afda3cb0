/-!
Cutting a sequence into lines.

The cut comes after each terminator, so that nothing is lost: the pieces put together are the
sequence.  The terminators here are a newline byte or a newline character.

* `Cutter` — the state of a cut that is fed one element at a time;
* `pieces` — the pieces of a whole sequence, each but perhaps the last with its terminator.

Design notes: the cutter is a left fold, so feeding a sequence in chunks of any size ends in
the same state as feeding it at once.
-/

namespace InlineAudit

/-- A cut in progress: the finished pieces and the piece that is open, both the last one
first. -/
structure Cutter (α : Type) where
  finished : List (List α)
  current : List α

namespace Cutter

variable {α : Type}

/-- The cut before the first element. -/
def empty : Cutter α := ⟨[], []⟩

/-- One element; a terminator closes its piece. -/
def step (isEnd : α → Bool) (c : Cutter α) (a : α) : Cutter α :=
  if isEnd a then ⟨(a :: c.current).reverse :: c.finished, []⟩
  else ⟨c.finished, a :: c.current⟩

/-- A chunk of elements. -/
def feed (isEnd : α → Bool) (c : Cutter α) (chunk : List α) : Cutter α :=
  chunk.foldl (step isEnd) c

/-- The pieces that ended in a terminator. -/
def complete (c : Cutter α) : List (List α) :=
  c.finished.reverse

/-- All pieces: the elements after the last terminator are one more, if there are any. -/
def close (c : Cutter α) : List (List α) :=
  if c.current.isEmpty then c.complete else (c.current.reverse :: c.finished).reverse

end Cutter

/-- The pieces of a sequence, cut after each terminator. -/
def pieces {α : Type} (isEnd : α → Bool) (xs : List α) : List (List α) :=
  (Cutter.empty.feed isEnd xs).close

/-- A list without its last element, where that is `a`. -/
def dropEnd {α : Type} [DecidableEq α] (a : α) (xs : List α) : List α :=
  if xs.getLast? = some a then xs.dropLast else xs

end InlineAudit
