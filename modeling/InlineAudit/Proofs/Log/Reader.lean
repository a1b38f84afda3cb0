/-
Reading a log line by line.

A log arrives in reads of any size, and is asked for one line at a time.  A line may lie in many
reads, and a read may hold many lines, so a reader keeps what it has read too much, and goes on
reading where it has too little:

* `Log.Reader.nextLine` — the bytes up to the next newline, over as many reads as it takes;
* `Log.Reader.scan` — the lines are observed one after the other, and counted, up to the end of the
  log or an error;
* `nextLine_line`, `nextLine_unended` — the next line is known from the bytes that are left;
* **`scan_eq`** — and so is what the whole scan comes to.

Design notes: a read that brings nothing is the end of a log, for the line that is being read at
least; a reader may be asked again.  The statements are about reads that bring something.
-/
import InlineAudit.Pending
import InlineAudit.System.IoError
import InlineAudit.Proofs.Text.Pieces
import Mathlib.Data.List.TakeWhile

namespace InlineAudit.Log

/-- A log that is being read. -/
structure Reader where
  /-- What was read and not yet asked for. -/
  buffer : Bytes
  /-- The reads that are to come. -/
  reads : List Bytes
  /-- The error behind the last of them; without one the log ends there. -/
  failure : Option IoError

/-! ### Lines -/

/-- The lines of a log that have their newline. -/
def endedLines (log : Bytes) : List String :=
  ((pieces isNewline log).filter fun piece => piece.getLast?.any isNewline).map lineText

/-- The lines that count: all of them, or, where an error follows the log, those that have their
newline. -/
def linesBefore (failure : Option IoError) (log : Bytes) : List String :=
  match failure with
  | none => lines log
  | some _ => endedLines log

theorem linesBefore_line {xs : Bytes} (h : ∀ b ∈ xs, isNewline b = false) (ys : Bytes)
    (failure : Option IoError) :
    linesBefore failure (xs ++ 10 :: ys) = lineText (xs ++ [10]) :: linesBefore failure ys := by
  have hline := pieces_line h (show isNewline 10 = true from rfl) ys
  cases failure with
  | none =>
    rw [linesBefore, lines, hline]
    rfl
  | some cause =>
    rw [linesBefore, endedLines, hline, List.filter_cons, if_pos (by simp [isNewline])]
    rfl

theorem endedLines_unended {xs : Bytes} (h : ∀ b ∈ xs, isNewline b = false) :
    endedLines xs = [] := by
  rw [endedLines, ← complete_feed, Cutter.feed_of_forall_not h]
  rfl

/-! ### Reading -/

/-- The line that a buffer starts with, if it holds the end of that line, and what follows it. -/
def cutLine? (buffer : Bytes) : Option (Bytes × Bytes) :=
  match buffer.dropWhile (!isNewline ·) with
  | [] => none
  | newline :: rest => some (buffer.takeWhile (!isNewline ·) ++ [newline], rest)

namespace Reader

/-- A log before it is read. -/
def ofReads (reads : List Bytes) (failure : Option IoError) : Reader := ⟨[], reads, failure⟩

/-- The bytes that are still to be asked for. -/
def left (r : Reader) : Bytes := r.buffer ++ r.reads.flatten

/-- What comes of a line without a newline when there is nothing more to read. -/
def lastLine (failure : Option IoError) (taken : Bytes) : Except IoError (Bytes × Reader) :=
  match failure with
  | some cause => .error cause
  | none => .ok (taken, ⟨[], [], none⟩)

/-- The rest of a line of which some bytes were taken already. -/
def restOfLine (failure : Option IoError) (taken buffer : Bytes) :
    List Bytes → Except IoError (Bytes × Reader)
  | [] =>
    match cutLine? buffer with
    | some (line, rest) => .ok (taken ++ line, ⟨rest, [], failure⟩)
    | none => lastLine failure (taken ++ buffer)
  | read :: reads =>
    match cutLine? buffer with
    | some (line, rest) => .ok (taken ++ line, ⟨rest, read :: reads, failure⟩)
    | none =>
      if read = [] then .ok (taken ++ buffer, ⟨[], reads, failure⟩)
      else restOfLine failure (taken ++ buffer) read reads

/-- The next line with its newline, and the reader after it; the last line may have none.  An error
takes the place of the bytes that were read on the way to it. -/
def nextLine (r : Reader) : Except IoError (Bytes × Reader) :=
  restOfLine r.failure [] r.buffer r.reads

theorem cutLine?_line {xs : Bytes} (h : ∀ b ∈ xs, isNewline b = false) (ys : Bytes) :
    cutLine? (xs ++ 10 :: ys) = some (xs ++ [10], ys) := by
  have hxs : ∀ b ∈ xs, (!isNewline b) = true := fun b hb => by rw [h b hb]; rfl
  rw [cutLine?, List.dropWhile_append_of_pos hxs, List.takeWhile_append_of_pos hxs]
  simp [isNewline]

theorem cutLine?_unended {xs : Bytes} (h : ∀ b ∈ xs, isNewline b = false) : cutLine? xs = none := by
  have hxs : xs.dropWhile (!isNewline ·) = [] :=
    List.dropWhile_eq_nil_iff.2 fun b hb => by rw [h b hb]; rfl
  rw [cutLine?, hxs]

/-- A buffer holds a whole line, or none. -/
theorem line_or_unended (buffer : Bytes) :
    (∃ xs ys, (∀ b ∈ xs, isNewline b = false) ∧ buffer = xs ++ 10 :: ys) ∨
      ∀ b ∈ buffer, isNewline b = false := by
  by_cases h : (10 : UInt8) ∈ buffer
  · obtain ⟨xs, ys, rfl, hxs⟩ := List.eq_append_cons_of_mem h
    refine .inl ⟨xs, ys, fun b hb => ?_, rfl⟩
    rw [isNewline, beq_eq_false_iff_ne]
    rintro rfl
    exact hxs hb
  · refine .inr fun b hb => ?_
    rw [isNewline, beq_eq_false_iff_ne]
    rintro rfl
    exact h hb

/-- A line goes on where a buffer without its newline ends. -/
theorem append_of_unended {buffer rest xs ys : Bytes} (h : ∀ b ∈ buffer, isNewline b = false)
    (heq : buffer ++ rest = xs ++ 10 :: ys) : ∃ more, xs = buffer ++ more ∧ rest = more ++ 10 :: ys := by
  rcases List.append_eq_append_iff.1 heq with ⟨more, hxs, hrest⟩ | ⟨more, hbuffer, hrest⟩
  · exact ⟨more, hxs, hrest⟩
  · cases more with
    | nil => exact ⟨[], by simpa using hbuffer.symm, hrest.symm⟩
    | cons b more =>
      obtain rfl : (10 : UInt8) = b := (List.cons.inj hrest).1
      exact absurd (h 10 (by simp [hbuffer])) (by decide)

section

variable {failure : Option IoError} {taken buffer : Bytes} {reads : List Bytes}

/-! ### One line -/

theorem restOfLine_line {xs : Bytes} (h : ∀ b ∈ xs, isNewline b = false) (ys : Bytes) :
    restOfLine failure taken (xs ++ 10 :: ys) reads =
      .ok (taken ++ (xs ++ [10]), ⟨ys, reads, failure⟩) := by
  cases reads <;> rw [restOfLine, cutLine?_line h]

theorem restOfLine_nil (h : ∀ b ∈ buffer, isNewline b = false) :
    restOfLine failure taken buffer [] = lastLine failure (taken ++ buffer) := by
  rw [restOfLine, cutLine?_unended h]

theorem restOfLine_cons (h : ∀ b ∈ buffer, isNewline b = false) (read : Bytes) :
    restOfLine failure taken buffer (read :: reads) =
      if read = [] then .ok (taken ++ buffer, ⟨[], reads, failure⟩)
      else restOfLine failure (taken ++ buffer) read reads := by
  rw [restOfLine, cutLine?_unended h]

/-- A line is taken from the bytes that are left. -/
theorem append_left_of_restOfLine {line : Bytes} {rest : Reader}
    (h : restOfLine failure taken buffer reads = .ok (line, rest)) :
    line ++ rest.left = taken ++ buffer ++ reads.flatten := by
  induction reads generalizing taken buffer with
  | nil =>
    rcases line_or_unended buffer with ⟨xs, ys, hxs, rfl⟩ | hb
    · rw [restOfLine_line hxs, Except.ok.injEq, Prod.mk.injEq] at h
      obtain ⟨rfl, rfl⟩ := h
      simp [left]
    · rw [restOfLine_nil hb] at h
      cases failure with
      | some cause => cases h
      | none =>
        rw [lastLine, Except.ok.injEq, Prod.mk.injEq] at h
        obtain ⟨rfl, rfl⟩ := h
        simp [left]
  | cons read reads ih =>
    rcases line_or_unended buffer with ⟨xs, ys, hxs, rfl⟩ | hb
    · rw [restOfLine_line hxs, Except.ok.injEq, Prod.mk.injEq] at h
      obtain ⟨rfl, rfl⟩ := h
      simp [left]
    · rw [restOfLine_cons hb] at h
      split at h
      · rename_i hread
        rw [Except.ok.injEq, Prod.mk.injEq] at h
        obtain ⟨rfl, rfl⟩ := h
        simp [left, hread]
      · rw [ih h, List.flatten_cons, List.append_assoc (taken ++ buffer)]

/-- The first line of what is left is taken, in however many reads it lies. -/
theorem restOfLine_of_flatten {xs ys : Bytes} (hxs : ∀ b ∈ xs, isNewline b = false)
    (hreads : ∀ read ∈ reads, read ≠ []) (heq : buffer ++ reads.flatten = xs ++ 10 :: ys) :
    ∃ rest, restOfLine failure taken buffer reads = .ok (taken ++ (xs ++ [10]), rest) ∧
      rest.left = ys ∧ rest.failure = failure ∧ ∀ read ∈ rest.reads, read ≠ [] := by
  induction reads generalizing taken buffer xs with
  | nil =>
    rw [List.flatten_nil, List.append_nil] at heq
    rw [heq, restOfLine_line hxs]
    exact ⟨_, rfl, by simp [left], rfl, by simp⟩
  | cons read reads ih =>
    rcases line_or_unended buffer with ⟨us, vs, hus, rfl⟩ | hb
    · -- the buffer holds the line, which is the first one of what is left
      have hcut := cutLine?_line hus (vs ++ (read :: reads).flatten)
      rw [← List.cons_append, ← List.append_assoc, heq, cutLine?_line hxs, Option.some.injEq,
        Prod.mk.injEq] at hcut
      obtain ⟨hline, hrest⟩ := hcut
      rw [restOfLine_line hus, hline]
      exact ⟨_, rfl, hrest.symm, rfl, hreads⟩
    · obtain ⟨hread, hreads⟩ := List.forall_mem_cons.1 hreads
      obtain ⟨more, rfl, hmore⟩ := append_of_unended hb heq
      rw [restOfLine_cons hb, if_neg hread, List.append_assoc buffer, ← List.append_assoc taken]
      refine ih (fun b hb => hxs b (List.mem_append_right _ hb)) hreads ?_
      rw [← hmore, List.flatten_cons]

/-- Where no newline is left, the rest is the last line. -/
theorem restOfLine_of_unended (hreads : ∀ read ∈ reads, read ≠ [])
    (h : ∀ b ∈ buffer ++ reads.flatten, isNewline b = false) :
    restOfLine failure taken buffer reads =
      lastLine failure (taken ++ (buffer ++ reads.flatten)) := by
  induction reads generalizing taken buffer with
  | nil => rw [List.flatten_nil, List.append_nil] at h ⊢; exact restOfLine_nil h
  | cons read reads ih =>
    obtain ⟨hread, hreads⟩ := List.forall_mem_cons.1 hreads
    obtain ⟨hb, hrest⟩ := List.forall_mem_append.1 h
    rw [List.flatten_cons] at hrest ⊢
    rw [restOfLine_cons hb, if_neg hread, ih hreads hrest, List.append_assoc]

end

theorem append_left_of_nextLine {r rest : Reader} {line : Bytes}
    (h : r.nextLine = .ok (line, rest)) : line ++ rest.left = r.left := by
  rw [append_left_of_restOfLine h]
  rfl

/-- The lines of a log are observed and counted, up to its end or to an error. -/
def scan (r : Reader) (p : Pending) (count : Nat) : Pending × Except IoError Nat :=
  match h : r.nextLine with
  | .error cause => (p, .error cause)
  | .ok (line, rest) =>
    if hline : line = [] then (p, .ok count)
    else scan rest (p.observe (lineText line)) (count + 1)
termination_by r.left.length
decreasing_by
  have hlen := congrArg List.length (append_left_of_nextLine h)
  have hpos := List.length_pos_iff.2 hline
  rw [List.length_append] at hlen
  omega

/-! ### All lines -/

/-- What a scan has to say at the end: the number of lines, or the error. -/
def ending (failure : Option IoError) (count : Nat) : Except IoError Nat :=
  match failure with
  | some cause => .error cause
  | none => .ok count

theorem scan_of_error {r : Reader} {cause : IoError} (h : r.nextLine = .error cause) (p : Pending)
    (count : Nat) : r.scan p count = (p, .error cause) := by
  rw [scan]
  split
  · rename_i h'
    rw [h, Except.error.injEq] at h'
    rw [h']
  · rename_i h'
    rw [h] at h'
    cases h'

theorem scan_of_ok {r rest : Reader} {line : Bytes} (h : r.nextLine = .ok (line, rest)) (p : Pending)
    (count : Nat) :
    r.scan p count =
      if line = [] then (p, .ok count) else rest.scan (p.observe (lineText line)) (count + 1) := by
  rw [scan]
  split
  · rename_i h'
    rw [h] at h'
    cases h'
  · rename_i h'
    rw [h, Except.ok.injEq, Prod.mk.injEq] at h'
    obtain ⟨rfl, rfl⟩ := h'
    rfl

theorem nextLine_line {r : Reader} (hreads : ∀ read ∈ r.reads, read ≠ []) {xs ys : Bytes}
    (hxs : ∀ b ∈ xs, isNewline b = false) (hleft : r.left = xs ++ 10 :: ys) :
    ∃ rest, r.nextLine = .ok (xs ++ [10], rest) ∧ rest.left = ys ∧ rest.failure = r.failure ∧
      ∀ read ∈ rest.reads, read ≠ [] :=
  restOfLine_of_flatten hxs hreads hleft

theorem nextLine_unended {r : Reader} (hreads : ∀ read ∈ r.reads, read ≠ [])
    (h : ∀ b ∈ r.left, isNewline b = false) : r.nextLine = lastLine r.failure r.left :=
  restOfLine_of_unended hreads h

/-- Where no newline is left, there is one more line, if any. -/
theorem scan_of_unended (p : Pending) (count : Nat) {r : Reader}
    (hreads : ∀ read ∈ r.reads, read ≠ []) (h : ∀ b ∈ r.left, isNewline b = false) :
    r.scan p count =
      ((linesBefore r.failure r.left).foldl Pending.observe p,
        ending r.failure (count + (linesBefore r.failure r.left).length)) := by
  have hnext := nextLine_unended hreads h
  cases hf : r.failure with
  | some cause =>
    rw [hf] at hnext
    rw [scan_of_error hnext, linesBefore, endedLines_unended h]
    rfl
  | none =>
    rw [hf] at hnext
    rw [scan_of_ok hnext]
    by_cases hleft : r.left = []
    · rw [if_pos hleft, hleft]
      rfl
    · -- after the last line there is another one, which is empty
      have hdone : nextLine ⟨[], [], none⟩ = .ok ([], ⟨[], [], none⟩) := rfl
      rw [if_neg hleft, scan_of_ok hdone, if_pos rfl, linesBefore, lines, pieces_unended hleft h]
      rfl

/-- **What a scan comes to is known from the bytes that are left**, and from the error behind them:
the reads in which they arrive leave no trace. -/
theorem scan_eq (p : Pending) (count : Nat) {r : Reader} (hreads : ∀ read ∈ r.reads, read ≠ []) :
    r.scan p count =
      ((linesBefore r.failure r.left).foldl Pending.observe p,
        ending r.failure (count + (linesBefore r.failure r.left).length)) := by
  -- line by line, as the bytes that are left are cut
  induction hleft : r.left using line_induction isNewline generalizing r p count with
  | nil =>
    rw [← hleft]
    exact scan_of_unended p count hreads (by simp [hleft])
  | unended xs _ h =>
    rw [← hleft] at h ⊢
    exact scan_of_unended p count hreads h
  | line xs e ys h he ih =>
    obtain rfl : e = 10 := by simpa [isNewline] using he
    obtain ⟨rest, hnext, hrest, hfailure, hreads⟩ := nextLine_line hreads h hleft
    rw [scan_of_ok hnext, if_neg (List.concat_ne_nil 10 xs), ih _ _ hreads hrest, hfailure,
      linesBefore_line h, List.length_cons, Nat.add_right_comm]
    rfl

end Reader

end InlineAudit.Log
