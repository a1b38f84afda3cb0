/-
Cutting a sequence after each terminator.

The cutter reads one element at a time; what it comes to can be said of the sequence as a whole:

* `Cutter.foldl_feed` — chunks make no difference;
* `pieces_line`, `pieces_unended` — the two ways in which a piece can end;
* `line_induction` — every sequence is made of ended pieces and perhaps one that is not, so a
  property of sequences can be shown piece by piece;
* `exists_unended` — and it ends where the last ended piece does, or later;
* `flatten_pieces`, `pieces_append` — nothing is lost, and after a terminator the cut starts anew;
* `length_pieces` — how many pieces there are;
* `complete_feed` — the pieces that count where it is not known how the sequence goes on.
-/
import InlineAudit.Text.Line

namespace InlineAudit

variable {α : Type} {isEnd : α → Bool}

namespace Cutter

theorem feed_append (c : Cutter α) (xs ys : List α) :
    c.feed isEnd (xs ++ ys) = (c.feed isEnd xs).feed isEnd ys := by
  rw [feed, feed, feed, List.foldl_append]

theorem foldl_feed (c : Cutter α) (chunks : List (List α)) :
    chunks.foldl (feed isEnd) c = c.feed isEnd chunks.flatten := by
  induction chunks generalizing c with
  | nil => rfl
  | cons chunk chunks ih => rw [List.foldl_cons, ih, List.flatten_cons, feed_append]

/-- Pieces that are finished stay as they are. -/
theorem feed_finished (done : List (List α)) (current xs : List α) :
    feed isEnd ⟨done, current⟩ xs =
      ⟨(feed isEnd ⟨[], current⟩ xs).finished ++ done, (feed isEnd ⟨[], current⟩ xs).current⟩ := by
  -- a terminator adds to the finished pieces, so they are generalized
  induction xs generalizing done current with
  | nil => rfl
  | cons x xs ih =>
    simp only [feed, List.foldl_cons, step] at ih ⊢
    split
    · rw [ih ((x :: current).reverse :: done), ih [(x :: current).reverse]]
      simp
    · exact ih done (x :: current)

theorem feed_of_forall_not {xs : List α} (h : ∀ a ∈ xs, isEnd a = false) (c : Cutter α) :
    c.feed isEnd xs = ⟨c.finished, xs.reverse ++ c.current⟩ := by
  induction xs generalizing c with
  | nil => rfl
  | cons x xs ih =>
    have hx : isEnd x = false := h x List.mem_cons_self
    have hxs : ∀ a ∈ xs, isEnd a = false := fun a ha => h a (List.mem_cons_of_mem _ ha)
    rw [feed, List.foldl_cons, ← feed, ih hxs, step, hx]
    simp

theorem close_finished (done : List (List α)) (c : Cutter α) :
    close ⟨c.finished ++ done, c.current⟩ = done.reverse ++ c.close := by
  simp only [close, complete]
  split <;> simp

end Cutter

@[simp] theorem pieces_nil : pieces isEnd ([] : List α) = [] := rfl

/-- Without a terminator there is one piece. -/
theorem pieces_unended {xs : List α} (hne : xs ≠ []) (h : ∀ a ∈ xs, isEnd a = false) :
    pieces isEnd xs = [xs] := by
  rw [pieces, Cutter.feed_of_forall_not h]
  simp [Cutter.close, Cutter.empty, hne]

theorem Cutter.feed_line {xs : List α} {e : α} (h : ∀ a ∈ xs, isEnd a = false)
    (he : isEnd e = true) (ys : List α) :
    Cutter.feed isEnd .empty (xs ++ e :: ys) =
      ⟨(Cutter.feed isEnd .empty ys).finished ++ [xs ++ [e]],
        (Cutter.feed isEnd .empty ys).current⟩ := by
  have hline : Cutter.feed isEnd .empty (xs ++ [e]) = ⟨[xs ++ [e]], []⟩ := by
    rw [Cutter.feed_append, Cutter.feed_of_forall_not h]
    simp [Cutter.feed, Cutter.step, Cutter.empty, he]
  rw [List.append_cons, Cutter.feed_append, hline, Cutter.feed_finished]
  rfl

/-- The first terminator ends the first piece. -/
theorem pieces_line {xs : List α} {e : α} (h : ∀ a ∈ xs, isEnd a = false) (he : isEnd e = true)
    (ys : List α) : pieces isEnd (xs ++ e :: ys) = (xs ++ [e]) :: pieces isEnd ys := by
  rw [pieces, Cutter.feed_line h he, Cutter.close_finished]
  rfl

theorem complete_feed_line {xs : List α} {e : α} (h : ∀ a ∈ xs, isEnd a = false)
    (he : isEnd e = true) (ys : List α) :
    (Cutter.feed isEnd .empty (xs ++ e :: ys)).complete =
      (xs ++ [e]) :: (Cutter.feed isEnd .empty ys).complete := by
  rw [Cutter.feed_line h he, Cutter.complete, Cutter.complete]
  simp

/-- Every sequence is empty, or one piece without an end, or a piece with its end and a sequence
after it. -/
theorem line_induction {P : List α → Prop} (isEnd : α → Bool) (nil : P [])
    (unended : ∀ xs, xs ≠ [] → (∀ a ∈ xs, isEnd a = false) → P xs)
    (line : ∀ xs e ys, (∀ a ∈ xs, isEnd a = false) → isEnd e = true → P ys → P (xs ++ e :: ys))
    (xs : List α) : P xs := by
  induction hn : xs.length using Nat.strongRecOn generalizing xs with
  | _ n ih =>
    have hsplit : xs.takeWhile (!isEnd ·) ++ xs.dropWhile (!isEnd ·) = xs :=
      List.takeWhile_append_dropWhile
    have hfront : ∀ a ∈ xs.takeWhile (!isEnd ·), isEnd a = false := by
      intro a ha
      simpa using List.all_eq_true.1 List.all_takeWhile a ha
    cases hrest : xs.dropWhile (!isEnd ·) with
    | nil =>
      rw [hrest, List.append_nil] at hsplit
      rw [hsplit] at hfront
      by_cases hxs : xs = []
      · rw [hxs]
        exact nil
      · exact unended xs hxs hfront
    | cons e ys =>
      have he : isEnd e = true := by
        have := List.head?_dropWhile_not (fun a => !isEnd a) xs
        rw [hrest] at this
        simpa using this
      rw [hrest] at hsplit
      have hlen : ys.length < n := by
        rw [← hn, ← hsplit, List.length_append, List.length_cons]
        omega
      rw [← hsplit]
      exact line _ e ys hfront he (ih ys.length hlen ys rfl)

/-- The pieces put together are the sequence. -/
theorem flatten_pieces (xs : List α) : (pieces isEnd xs).flatten = xs := by
  induction xs using line_induction isEnd with
  | nil => rfl
  | unended xs hne h => rw [pieces_unended hne h, List.flatten_singleton]
  | line xs e ys h he ih =>
    rw [pieces_line h he, List.flatten_cons, ih]
    simp

/-- There is a piece for each terminator, and one more where the sequence does not end in one. -/
theorem length_pieces (xs : List α) :
    (pieces isEnd xs).length =
      xs.countP isEnd + if ∀ a ∈ xs.getLast?, isEnd a = true then 0 else 1 := by
  induction xs using line_induction isEnd with
  | nil => rfl
  | unended xs hne h =>
    have hcount : xs.countP isEnd = 0 := List.countP_eq_zero.2 fun a ha => by simp [h a ha]
    have hlast : ¬ ∀ a ∈ xs.getLast?, isEnd a = true := by
      intro hend
      have hl := hend _ (List.getLast?_eq_some_getLast hne)
      rw [h _ (List.getLast_mem hne)] at hl
      exact absurd hl (by decide)
    rw [pieces_unended hne h, hcount, if_neg hlast]
    rfl
  | line xs e ys h he ih =>
    have hcount : xs.countP isEnd = 0 := List.countP_eq_zero.2 fun a ha => by simp [h a ha]
    have hlast : (∀ a ∈ (xs ++ e :: ys).getLast?, isEnd a = true) ↔
        ∀ a ∈ ys.getLast?, isEnd a = true := by
      rw [List.getLast?_append, List.getLast?_cons]
      cases ys.getLast? <;> simp [he]
    rw [pieces_line h he, List.length_cons, ih, List.countP_append, hcount,
      List.countP_cons_of_pos he]
    simp only [hlast]
    omega

/-- Without its end a piece does not count, as long as the sequence may go on. -/
theorem complete_feed (xs : List α) :
    (Cutter.empty.feed isEnd xs).complete =
      (pieces isEnd xs).filter fun piece => piece.getLast?.any isEnd := by
  induction xs using line_induction isEnd with
  | nil => rfl
  | unended xs hne h =>
    have hlast : xs.getLast?.any isEnd = false := by
      rw [List.getLast?_eq_some_getLast hne, Option.any_some]
      exact h _ (List.getLast_mem hne)
    rw [pieces_unended hne h, List.filter_cons_of_neg (by simp [hlast]),
      Cutter.feed_of_forall_not h]
    rfl
  | line xs e ys h he ih =>
    have hlast : (xs ++ [e]).getLast?.any isEnd = true := by simp [he]
    rw [pieces_line h he, List.filter_cons, if_pos hlast, ← ih, complete_feed_line h he]

/-- A sequence is its ended pieces and what is left after them. -/
theorem exists_unended (isEnd : α → Bool) (xs : List α) :
    ∃ front tail, xs = front ++ tail ∧ (∀ a ∈ front.getLast?, isEnd a = true) ∧
      ∀ a ∈ tail, isEnd a = false := by
  induction xs using line_induction isEnd with
  | nil => exact ⟨[], [], rfl, by simp, by simp⟩
  | unended xs _ h => exact ⟨[], xs, rfl, by simp, h⟩
  | line xs e ys _ he ih =>
    obtain ⟨front, tail, rfl, hfront, htail⟩ := ih
    refine ⟨xs ++ e :: front, tail, by simp, fun a ha => ?_, htail⟩
    rw [List.getLast?_append, List.getLast?_cons] at ha
    cases hlast : front.getLast? with
    | none =>
      rw [hlast] at ha
      obtain rfl : e = a := by simpa using ha
      exact he
    | some b =>
      rw [hlast] at ha
      obtain rfl : b = a := by simpa using ha
      exact hfront b hlast

/-- A sequence that is empty or ends in a terminator is made of ended pieces alone. -/
theorem whole_induction (P : List α → Prop) (nil : P [])
    (line : ∀ xs e ys, (∀ a ∈ xs, isEnd a = false) → isEnd e = true → P ys → P (xs ++ e :: ys))
    {xs : List α} (h : ∀ a ∈ xs.getLast?, isEnd a = true) : P xs := by
  induction xs using line_induction isEnd with
  | nil => exact nil
  | unended xs hne hxs =>
    have hlast := h _ (List.getLast?_eq_some_getLast hne)
    rw [hxs _ (List.getLast_mem hne)] at hlast
    exact absurd hlast (by decide)
  | line xs e ys hxs he ih =>
    have hys : ∀ a ∈ ys.getLast?, isEnd a = true := by
      intro a ha
      refine h a ?_
      rw [List.getLast?_append, List.getLast?_cons, Option.mem_def.1 ha]
      rfl
    exact line xs e ys hxs he (ih hys)

/-- It is cut apart from what follows it. -/
theorem pieces_append {xs : List α} (h : ∀ a ∈ xs.getLast?, isEnd a = true) (ys : List α) :
    pieces isEnd (xs ++ ys) = pieces isEnd xs ++ pieces isEnd ys := by
  refine whole_induction (fun xs => pieces isEnd (xs ++ ys) = pieces isEnd xs ++ pieces isEnd ys)
    rfl (fun xs e zs hxs he ih => ?_) h
  rw [List.append_assoc, List.cons_append, pieces_line hxs he, pieces_line hxs he, ih,
    List.cons_append]

/-- Each of its pieces has its end. -/
theorem exists_of_mem_pieces {xs : List α} (h : ∀ a ∈ xs.getLast?, isEnd a = true) :
    ∀ piece ∈ pieces isEnd xs,
      ∃ ys e, piece = ys ++ [e] ∧ (∀ a ∈ ys, isEnd a = false) ∧ isEnd e = true := by
  refine whole_induction (fun xs => ∀ piece ∈ pieces isEnd xs,
    ∃ ys e, piece = ys ++ [e] ∧ (∀ a ∈ ys, isEnd a = false) ∧ isEnd e = true) (by simp)
    (fun xs e zs hxs he ih piece hpiece => ?_) h
  rw [pieces_line hxs he, List.mem_cons] at hpiece
  rcases hpiece with rfl | hpiece
  · exact ⟨xs, e, rfl, hxs, he⟩
  · exact ih piece hpiece

end InlineAudit
