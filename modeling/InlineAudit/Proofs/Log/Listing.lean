/-
The listing of a log beside its scan.

A listing decodes a log and then cuts it, a scan cuts it and then decodes, and they drop line ends
by rules of their own:

* `Log.listed`, `Log.observed` — the readings that a listing goes through, and the listing that a
  scan would show;
* `Log.Dangles` — a log that ends in a carriage return without a newline;
* `listed_eq_diagnostics`, `Dangles.listed_eq` — the readings are the same, but for the last line of
  such a log;
* **`listing_follows_scan`** — what that line must be for the difference to show.
-/
import InlineAudit.Log.Listing
import InlineAudit.Proofs.Diagnostic.LineEnd
import InlineAudit.Proofs.Pending.Agreement
import InlineAudit.Proofs.Text.Decoding
import Mathlib.Data.List.Basic

namespace InlineAudit

open Diagnostic

namespace Log

/-- The readings that say something, with their numbers. -/
def numbered (start : Nat) (ds : List Diagnostic) : List ListedLine :=
  (ds.zipIdx start).filterMap fun (d, number) =>
    match d with
    | .other => none
    | d => some ⟨number, d⟩

/-- The lines that say something, as a scan reads them. -/
def observed (log : Bytes) : List ListedLine :=
  numbered 1 (diagnostics log)

/-- The readings that a listing goes through. -/
def listed (log : Bytes) : List Diagnostic :=
  (pieces (· == '\n') (Utf8.decodeChars log)).map fun piece => ofChars (dropLineEnd piece)

/-- The log ends, after some whole lines, in a line with a carriage return and without a
newline. -/
structure Dangles (log front tail : Bytes) : Prop where
  eq_append : log = front ++ tail ++ [13]
  whole : ∀ b ∈ front.getLast?, isNewline b = true
  line : ∀ b ∈ tail, isNewline b = false

/-! ### Numbers -/

theorem numbered_append (k : Nat) (ds es : List Diagnostic) :
    numbered k (ds ++ es) = numbered k ds ++ numbered (k + ds.length) es := by
  rw [numbered, List.zipIdx_append, List.filterMap_append]
  rfl

theorem numbered_singleton_inj {k : Nat} {d e : Diagnostic} :
    numbered k [d] = numbered k [e] ↔ d = e := by
  cases d <;> cases e <;> simp [numbered]

theorem listing_eq_numbered (log : Bytes) : listing log = numbered 1 (listed log) := by
  rw [listing, listText, numbered, listed, List.zipIdx_map, List.filterMap_map]
  rfl

/-! ### Line ends -/

theorem dropEnd_concat {α : Type} [DecidableEq α] (a : α) (xs : List α) :
    dropEnd a (xs ++ [a]) = xs := by
  simp [dropEnd]

theorem dropEnd_of_ne {α : Type} [DecidableEq α] {a : α} {xs : List α} (h : xs.getLast? ≠ some a) :
    dropEnd a xs = xs :=
  if_neg h

theorem diagnostics_eq_map (log : Bytes) :
    diagnostics log = (pieces isNewline log).map fun piece =>
      ofChars (dropEnd '\r' (dropEnd '\n' (Utf8.decodeChars piece))) := by
  rw [diagnostics, lines, List.map_map]
  refine List.map_congr_left fun piece _ => ?_
  rw [Function.comp, ofLine, lineText, String.toList_ofList]

theorem listed_eq_map (log : Bytes) :
    listed log = (pieces isNewline log).map fun piece =>
      ofChars (dropLineEnd (Utf8.decodeChars piece)) := by
  rw [listed, ← Utf8.map_decodeChars_pieces, List.map_map]
  rfl

variable {log front tail : Bytes}

theorem newline_notMem (h : ∀ b ∈ tail, isNewline b = false) : '\n' ∉ Utf8.decodeChars tail :=
  Utf8.newline_notMem_decodeChars (Utf8.notMem_of_unended h)

theorem getLast?_ne_newline (h : ∀ b ∈ tail, isNewline b = false) :
    (Utf8.decodeChars tail).getLast? ≠ some '\n' :=
  fun hlast => newline_notMem h (List.mem_of_getLast? hlast)

/-- Whole lines are read by a listing as by a scan. -/
theorem listed_of_whole (h : ∀ b ∈ front.getLast?, isNewline b = true) :
    listed front = diagnostics front := by
  rw [listed_eq_map, diagnostics_eq_map]
  refine List.map_congr_left fun piece hpiece => ?_
  obtain ⟨xs, e, rfl, -, he⟩ := exists_of_mem_pieces h piece hpiece
  obtain rfl : e = 10 := by simpa [isNewline] using he
  have hend : Utf8.decodeChars (xs ++ [10]) = Utf8.decodeChars xs ++ ['\n'] :=
    Utf8.decodeChars_line xs []
  rw [hend, dropEnd_concat, dropLineEnd, if_pos (by simp), List.dropLast_concat]

/-- The last line of a log is read by a listing with all that it holds. -/
theorem listed_append (hf : ∀ b ∈ front.getLast?, isNewline b = true) (hne : tail ≠ [])
    (ht : ∀ b ∈ tail, isNewline b = false) :
    listed (front ++ tail) = diagnostics front ++ [ofChars (Utf8.decodeChars tail)] := by
  have hn := getLast?_ne_newline ht
  rw [listed_eq_map, pieces_append hf, List.map_append, ← listed_eq_map, listed_of_whole hf,
    pieces_unended hne ht, List.map_singleton, dropLineEnd, if_neg hn]

theorem diagnostics_append (hf : ∀ b ∈ front.getLast?, isNewline b = true) (hne : tail ≠ [])
    (ht : ∀ b ∈ tail, isNewline b = false) :
    diagnostics (front ++ tail) =
      diagnostics front ++ [ofChars (dropEnd '\r' (Utf8.decodeChars tail))] := by
  have hn := getLast?_ne_newline ht
  rw [diagnostics_eq_map, pieces_append hf, List.map_append, ← diagnostics_eq_map,
    pieces_unended hne ht, List.map_singleton, dropEnd_of_ne hn]

theorem exists_dangles (h : log.getLast? = some 13) : ∃ front tail, Dangles log front tail := by
  obtain ⟨front, tail, rfl, hf, ht⟩ := exists_unended isNewline log
  rcases List.eq_nil_or_concat' tail with rfl | ⟨line, b, rfl⟩
  · rw [List.append_nil] at h
    exact absurd (hf 13 h) (by decide)
  · obtain rfl : b = 13 := by simpa [← List.append_assoc] using h
    exact ⟨front, line, (List.append_assoc front line [13]).symm, hf,
      fun b hb => ht b (List.mem_append_left _ hb)⟩

/-- A log without a carriage return at its end is read by a listing as by a scan. -/
theorem listed_eq_diagnostics (h : log.getLast? ≠ some 13) : listed log = diagnostics log := by
  obtain ⟨front, tail, rfl, hf, ht⟩ := exists_unended isNewline log
  rcases List.eq_nil_or_concat' tail with rfl | ⟨line, b, rfl⟩
  · rw [List.append_nil]
    exact listed_of_whole hf
  · have hb : b ≠ 13 := by
      rintro rfl
      exact h (by simp [← List.append_assoc])
    have hne : line ++ [b] ≠ [] := List.concat_ne_nil b line
    rw [listed_append hf hne ht, diagnostics_append hf hne ht,
      dropEnd_of_ne (Utf8.getLast?_decodeChars_ne hb line)]

namespace Dangles

variable (h : Dangles log front tail)
include h

theorem getLast?_eq : log.getLast? = some 13 := by
  rw [h.eq_append, List.getLast?_concat]

theorem line_return : ∀ b ∈ tail ++ [13], isNewline b = false := by
  intro b hb
  rcases List.mem_append.1 hb with hb | hb
  · exact h.line b hb
  · rw [List.mem_singleton.1 hb]
    decide

/-- A listing reads the last line with its carriage return. -/
theorem listed_eq :
    listed log = diagnostics front ++ [ofChars (Utf8.decodeChars tail ++ ['\r'])] := by
  rw [h.eq_append, List.append_assoc, listed_append h.whole (List.concat_ne_nil 13 tail)
    h.line_return, Utf8.decodeChars_return]

/-- A scan reads it without. -/
theorem diagnostics_eq :
    diagnostics log = diagnostics front ++ [ofChars (Utf8.decodeChars tail)] := by
  rw [h.eq_append, List.append_assoc, diagnostics_append h.whole (List.concat_ne_nil 13 tail)
    h.line_return, Utf8.decodeChars_return, dropEnd_concat]

theorem listing_eq_iff : listing log = observed log ↔ ¬ ReachesEnd (Utf8.decodeChars tail) := by
  rw [listing_eq_numbered, observed, h.listed_eq, h.diagnostics_eq, numbered_append,
    numbered_append, List.append_cancel_left_eq, numbered_singleton_inj]
  exact ofChars_return_eq_iff (newline_notMem h.line)

/-- Without the carriage return a listing shows what a scan reads. -/
theorem listing_dropEnd : listing (dropEnd 13 log) = observed log := by
  rw [observed, h.diagnostics_eq, h.eq_append, dropEnd_concat, listing_eq_numbered]
  cases tail with
  | nil =>
    -- the last line holds nothing else, and is not listed
    rw [List.append_nil, listed_of_whole h.whole, numbered_append]
    exact (List.append_nil _).symm
  | cons b bs => rw [listed_append h.whole (List.cons_ne_nil b bs) h.line]

end Dangles

/-- A listing shows what a scan reads of the log that has a carriage return at its end dropped. -/
theorem listing_dropEnd (log : Bytes) : listing (dropEnd 13 log) = observed log := by
  by_cases hlast : log.getLast? = some 13
  · obtain ⟨front, tail, h⟩ := exists_dangles hlast
    exact h.listing_dropEnd
  · rw [dropEnd_of_ne hlast, listing_eq_numbered, listed_eq_diagnostics hlast, observed]

end Log

/-! ### States -/

namespace Pending

open Log

/-- The lines of a listing, one after the other. -/
def replay (p : Pending) (ls : List ListedLine) : Pending :=
  ls.foldl (fun q l => q.apply l.diagnostic) p

/-- A carriage return after this reading makes no difference: it does not switch the package, and
names that are there are not meant by it, with the carriage return or without. -/
def Spared (p : Pending) : Diagnostic → Prop
  | .header _ => False
  | .inliningCall symbol => fullName p.package (symbol ++ "\r") ∉ p.names ∧
      fullName p.package symbol ∉ p.names
  | .canInline symbol => fullName p.package (symbol ++ "\r") ∉ p.names ∧
      fullName p.package symbol ∉ p.names
  | .cannotInline symbol _ => fullName p.package symbol ∉ p.names
  | .other => True

theorem replay_numbered (p : Pending) (k : Nat) (ds : List Diagnostic) :
    p.replay (numbered k ds) = ds.foldl apply p := by
  induction ds generalizing p k with
  | nil => rfl
  | cons d ds ih =>
    have hfirst : p.replay (numbered k [d]) = p.apply d := by cases d <;> rfl
    rw [← List.singleton_append, numbered_append, replay, List.foldl_append, ← replay, ← replay,
      hfirst, ih, List.singleton_append, List.foldl_cons]

theorem replay_observed (p : Pending) (log : Bytes) : p.replay (observed log) = p.scan log := by
  rw [observed, replay_numbered, scan_eq_foldl_apply]

theorem agrees_returned_iff (p : Pending) (d : Diagnostic) :
    (p.apply d.returned).Agrees (p.apply d) ↔ p.Spared d := by
  have hreturn : ∀ s : String, s ++ "\r" ≠ s := by simp
  have hname : ∀ s, fullName p.package (s ++ "\r") ≠ fullName p.package s := by
    intro s h
    rw [fullName, fullName, ← String.append_assoc] at h
    exact hreturn _ h
  cases d with
  | header package =>
    simp only [Spared, iff_false]
    exact fun h => hreturn package h.1
  | inliningCall s => exact agrees_discharge_iff (hname s)
  | canInline s => exact agrees_discharge_iff (hname s)
  | cannotInline s why => exact agrees_explain_iff (hreturn why)
  | other => exact ⟨fun _ => trivial, fun _ => ⟨rfl, fun _ => rfl⟩⟩

/-- What a listing and a scan leave of the names of a log that dangles. -/
theorem agrees_replay_listing_iff {log front tail : Bytes} (h : Dangles log front tail)
    (p : Pending) :
    (p.replay (listing log)).Agrees (p.scan log) ↔
      (ReachesEnd (Utf8.decodeChars tail) →
        (p.scan front).Spared (ofChars (Utf8.decodeChars tail))) := by
  have hn := newline_notMem h.line
  have hscan : p.scan log = (p.scan front).apply (ofChars (Utf8.decodeChars tail)) := by
    rw [scan_eq_foldl_apply, h.diagnostics_eq, List.foldl_append, ← scan_eq_foldl_apply]
    rfl
  have hlisting : p.replay (listing log) =
      (p.scan front).apply (ofChars (Utf8.decodeChars tail ++ ['\r'])) := by
    rw [listing_eq_numbered, replay_numbered, h.listed_eq, List.foldl_append,
      ← scan_eq_foldl_apply]
    rfl
  rw [hscan, hlisting]
  by_cases hreach : ReachesEnd (Utf8.decodeChars tail)
  · rw [(ofChars_return hn).1 hreach, agrees_returned_iff]
    exact ⟨fun hs _ => hs, fun hs => hs hreach⟩
  · rw [(ofChars_return hn).2 hreach]
    exact ⟨fun _ hr => absurd hr hreach, fun _ => ⟨rfl, fun _ => rfl⟩⟩

end Pending

namespace Log

/-- **A listing shows what a scan does, but for a carriage return at the end of the log.**  The
two go apart exactly when the log ends in a carriage return that no newline follows, and the
reading of its last line reaches that line's end; the names that they leave differ exactly when
that reading also means something to them.  Without that carriage return the listing is right, and
to go through what a scan reads is to scan. -/
theorem listing_follows_scan (log : Bytes) :
    (listing log = observed log ↔
      ∀ front tail, Dangles log front tail → ¬ ReachesEnd (Utf8.decodeChars tail)) ∧
    (∀ p : Pending, (p.replay (listing log)).Agrees (p.scan log) ↔
      ∀ front tail, Dangles log front tail → ReachesEnd (Utf8.decodeChars tail) →
        (p.scan front).Spared (ofChars (Utf8.decodeChars tail))) ∧
    listing (dropEnd 13 log) = observed log ∧
    ∀ p : Pending, p.replay (observed log) = p.scan log := by
  refine ⟨?_, fun p => ?_, listing_dropEnd log, fun p => p.replay_observed log⟩
  -- a log without a carriage return at its end does not dangle, and both sides hold
  · by_cases hlast : log.getLast? = some 13
    · obtain ⟨front, tail, h⟩ := exists_dangles hlast
      exact ⟨fun heq _ _ h' => h'.listing_eq_iff.1 heq, fun hall => h.listing_eq_iff.2 (hall _ _ h)⟩
    · have heq : listing log = observed log := by
        rw [listing_eq_numbered, listed_eq_diagnostics hlast, observed]
      exact ⟨fun _ _ _ h => absurd h.getLast?_eq hlast, fun _ => heq⟩
  · by_cases hlast : log.getLast? = some 13
    · obtain ⟨front, tail, h⟩ := exists_dangles hlast
      exact ⟨fun hag _ _ h' => (Pending.agrees_replay_listing_iff h' p).1 hag,
        fun hall => (Pending.agrees_replay_listing_iff h p).2 (hall _ _ h)⟩
    · have heq : p.replay (listing log) = p.scan log := by
        rw [listing_eq_numbered, listed_eq_diagnostics hlast, ← observed, p.replay_observed]
      rw [heq]
      exact ⟨fun _ _ _ h => absurd h.getLast?_eq hlast, fun _ => ⟨rfl, fun _ => rfl⟩⟩

example : listing (Utf8.encode "# a\r") = [⟨1, .header "a\r"⟩] ∧
    observed (Utf8.encode "# a\r") = [⟨1, .header "a"⟩] := by
  decide +kernel

end Log

end InlineAudit
