/-
What a history of operations leaves pending.

Names may be registered before, between and after the lines of logs.  A name can be proven and
registered again, and then nothing that was said of it before counts any more.  What is pending at
the end can be read off the history, without going through the states in between:

* `Operation`, `Pending.after` — a history, and the state that it leads to;
* `Step`, `steps` — the history taken apart into registrations and lines;
* `Pends` — the name is registered, and no later line proves it;
* `reason?_foldl_step_ne_none_iff`, `reason?_foldl_step` — what steps do to a name, from any state;
* **`pending_iff_history`** — which names are there at the end, with which reasons.

Design notes: the package that a line speaks of is that of the last header before it, in the whole
history: an observed line and a scanned log go on where the one before left off.
-/
import InlineAudit.Proofs.Pending.Agreement
import InlineAudit.Proofs.Pending.Validation
import Mathlib.Data.Set.Card

namespace InlineAudit

open Log

namespace History

/-- What can be asked of a pending set. -/
inductive Operation
  | register (name : String)
  /-- One line, without its terminator. -/
  | observe (line : String)
  | scan (log : Bytes)
  deriving Repr, DecidableEq

/-- What is given back. -/
inductive Answer
  /-- Whether the name was put in. -/
  | registered (isNew : Bool)
  | observed
  /-- The number of lines. -/
  | scanned (count : Nat)
  deriving Repr, DecidableEq

end History

open History

namespace Pending

/-- An operation, with its answer. -/
def perform (p : Pending) : Operation → Answer × Pending
  | .register name =>
    if p.contains name then (.registered false, p) else (.registered true, p.register name)
  | .observe line => (.observed, p.observe line)
  | .scan log => (.scanned (lines log).length, p.scan log)

/-- The state after a history. -/
def after (ops : List Operation) : Pending :=
  ops.foldl (fun p op => (p.perform op).2) .empty

end Pending

/-! ### Histories -/

namespace History

/-- One thing that happens to a pending set. -/
inductive Step
  | register (name : String)
  /-- A line with this reading. -/
  | line (diagnostic : Diagnostic)

/-- An operation, step by step. -/
def Operation.steps : Operation → List Step
  | .register name => [.register name]
  | .observe line => [.line (.ofLine line)]
  | .scan log => (diagnostics log).map .line

/-- A history, step by step. -/
def steps (ops : List Operation) : List Step := ops.flatMap Operation.steps

namespace Step

/-- The reading of a step, if it is a line. -/
def heard? : Step → Option Diagnostic
  | .register _ => none
  | .line d => some d

end Step

/-- The lines among some steps. -/
def heard (ss : List Step) : List Diagnostic := ss.filterMap Step.heard?

/-- The lines among some steps, each under the package of the last header before it; `before` are
the steps before these. -/
def readingsAfter (before later : List Step) : List Reading :=
  readingsFrom (cursor "" (heard before)) (heard later)

/-- Some registration of the name is not followed by a line that proves it. -/
def Pends (ss : List Step) (n : String) : Prop :=
  ∃ before later, ss = before ++ .register n :: later ∧ ¬ Proven (readingsAfter before later) n

@[simp] theorem heard_nil : heard [] = [] := rfl

@[simp] theorem heard_register (m : String) (ss : List Step) :
    heard (.register m :: ss) = heard ss := rfl

@[simp] theorem heard_line (d : Diagnostic) (ss : List Step) :
    heard (.line d :: ss) = d :: heard ss := rfl

theorem heard_append (ss ts : List Step) : heard (ss ++ ts) = heard ss ++ heard ts :=
  List.filterMap_append

/-- The registrations of a name among some steps, the first step looked at by itself. -/
theorem exists_cut_cons_iff {s : Step} {ss : List Step} {n : String}
    {P : List Step → List Step → Prop} :
    (∃ before later, s :: ss = before ++ .register n :: later ∧ P before later) ↔
      s = .register n ∧ P [] ss ∨
        ∃ before later, ss = before ++ .register n :: later ∧ P (s :: before) later := by
  constructor
  · rintro ⟨before, later, heq, hp⟩
    rcases List.cons_eq_append_iff.1 heq with ⟨rfl, h⟩ | ⟨before, rfl, rfl⟩
    · obtain ⟨rfl, rfl⟩ := List.cons.inj h
      exact .inl ⟨rfl, hp⟩
    · exact .inr ⟨before, later, rfl, hp⟩
  · rintro (⟨rfl, hp⟩ | ⟨before, later, rfl, hp⟩)
    · exact ⟨[], ss, rfl, hp⟩
    · exact ⟨s :: before, later, rfl, hp⟩

/-- The lines after a registration, cut at a second one. -/
theorem readingsAfter_cut (before between later : List Step) (m : String) :
    readingsAfter before (between ++ .register m :: later) =
      readingsAfter before between ++ readingsAfter (before ++ .register m :: between) later := by
  simp only [readingsAfter, heard_append, heard_register, readingsFrom_append, cursor_append]

/-- A name that is pending has a registration that made it so: it was not pending before, and no line
has proven it since. -/
theorem pends_iff_exists_first {ss : List Step} {n : String} :
    Pends ss n ↔ ∃ before later, ss = before ++ .register n :: later ∧ ¬ Pends before n ∧
      ¬ Proven (readingsAfter before later) n := by
  constructor
  · rintro ⟨before, later, rfl, hlater⟩
    -- of two registrations that are not followed by a proof the earlier one is taken
    induction hlen : before.length using Nat.strongRecOn generalizing before later with
    | _ k ih =>
      by_cases hbefore : Pends before n
      · obtain ⟨earlier, between, rfl, hbetween⟩ := hbefore
        rw [List.append_assoc, List.cons_append]
        refine ih earlier.length ?_ earlier (between ++ .register n :: later) ?_ rfl
        · rw [← hlen, List.length_append, List.length_cons]
          omega
        · rw [readingsAfter_cut, proven_append, not_or]
          exact ⟨hbetween, hlater⟩
      · exact ⟨before, later, rfl, hbefore, hlater⟩
  · rintro ⟨before, later, hss, -, hlater⟩
    exact ⟨before, later, hss, hlater⟩

end History

namespace Pending

/-- One step. -/
def step (p : Pending) : Step → Pending
  | .register name => p.register name
  | .line d => p.apply d

/-! ### One step -/

theorem contains_eq_isSome (p : Pending) (n : String) : p.contains n = (p.reason? n).isSome := by
  rw [Bool.eq_iff_iff, contains_iff_mem_names, Option.isSome_iff_ne_none, Ne, reason?_eq_none_iff,
    not_not]

theorem reason?_register (p : Pending) (m n : String) :
    (p.register m).reason? n =
      if m = n then some ((p.reason? n).getD unknownReason) else p.reason? n := by
  by_cases hm : m ∈ p.names
  · have hsome : p.reason? m ≠ none := fun h => reason?_eq_none_iff.1 h hm
    rw [register, if_pos (contains_iff_mem_names.2 hm)]
    by_cases hmn : m = n
    · subst hmn
      obtain ⟨why, hwhy⟩ := Option.ne_none_iff_exists'.1 hsome
      rw [if_pos rfl, hwhy]
      rfl
    · rw [if_neg hmn]
  · have hnone : p.reason? m = none := reason?_eq_none_iff.2 hm
    rw [register_of_notMem hm]
    simp only [reason?, withNames, List.lookup_append, List.map_cons, List.map_nil,
      lookup_cons_eq_ite, List.lookup_nil] at hnone ⊢
    by_cases hmn : m = n
    · subst hmn
      simp [hnone]
    · simp [hmn, Ne.symm hmn]

theorem package_step (p : Pending) (s : Step) :
    (p.step s).package = cursor p.package (heard [s]) := by
  cases s with
  | register m =>
    rw [step, register]
    split <;> rfl
  | line d => exact package_apply p d

theorem nodup_names_step {p : Pending} (h : p.names.Nodup) (s : Step) :
    (p.step s).names.Nodup := by
  cases s with
  | register m =>
    by_cases hm : m ∈ p.names
    · rwa [step, register, if_pos (contains_iff_mem_names.2 hm)]
    · rw [step, register_of_notMem hm, names_withNames]
      refine List.nodup_append.2 ⟨h, List.nodup_singleton m, fun a ha b hb => ?_⟩
      rintro rfl
      exact hm (List.mem_singleton.1 hb ▸ ha)
  | line d => exact nodup_names_apply h d

theorem perform_snd (p : Pending) (op : Operation) : (p.perform op).2 = op.steps.foldl step p := by
  cases op with
  | register m =>
    rw [perform]
    split
    · rename_i hm
      exact (if_pos hm).symm
    · rfl
  | observe l => rfl
  | scan log =>
    rw [Operation.steps, List.foldl_map]
    exact scan_eq_foldl_apply p log

/-! ### All steps -/

theorem after_eq_foldl_step (ops : List Operation) : after ops = (steps ops).foldl step .empty := by
  rw [after, steps, List.foldl_flatMap]
  congr 1
  funext p op
  exact perform_snd p op

theorem package_foldl_step (p : Pending) (ss : List Step) :
    (ss.foldl step p).package = cursor p.package (heard ss) := by
  induction ss generalizing p with
  | nil => rfl
  | cons s ss ih =>
    rw [List.foldl_cons, ih, package_step, ← cursor_append, ← heard_append, List.singleton_append]

theorem nodup_names_foldl_step {p : Pending} (h : p.names.Nodup) (ss : List Step) :
    (ss.foldl step p).names.Nodup := by
  induction ss generalizing p with
  | nil => exact h
  | cons s ss ih => exact ih (nodup_names_step h s)

/-- **Which names steps leave**: those that were there and that no line proves, and those that are
registered on the way and that no later line proves. -/
theorem reason?_foldl_step_ne_none_iff (p : Pending) (ss : List Step) (n : String) :
    (ss.foldl step p).reason? n ≠ none ↔
      p.reason? n ≠ none ∧ ¬ Proven (readingsFrom p.package (heard ss)) n ∨
        ∃ before later, ss = before ++ .register n :: later ∧
          ¬ Proven (readingsFrom (cursor p.package (heard before)) (heard later)) n := by
  induction ss generalizing p with
  | nil => simp [Proven]
  | cons s ss ih =>
    rw [List.foldl_cons, ih, exists_cut_cons_iff, package_step]
    cases s with
    | register m =>
      simp only [step, reason?_register, heard_register, heard_nil, cursor_nil, Step.register.injEq]
      by_cases hm : m = n
      · simp only [hm, if_true, true_and, ne_eq, reduceCtorEq, not_false_eq_true]
        tauto
      · simp [hm]
    | line d =>
      have hcursor : ∀ before, cursor p.package (d :: heard before) =
          cursor (cursor p.package [d]) (heard before) :=
        fun before => cursor_append p.package [d] (heard before)
      simp only [step, reason?_apply, heard_line, heard_nil, readingsFrom_cons, proven_cons, hcursor]
      by_cases hd : Reading.Proves ⟨p.package, d⟩ n <;> simp [hd]

/-- What steps leave of the reason of a name that no line proves. -/
theorem reason?_foldl_step {p : Pending} {ss : List Step} {n why : String}
    (hn : p.reason? n = some why) (h : ¬ Proven (readingsFrom p.package (heard ss)) n) :
    (ss.foldl step p).reason? n =
      some ((lastReason? (readingsFrom p.package (heard ss)) n).getD why) := by
  induction ss generalizing p why with
  | nil => exact hn
  | cons s ss ih =>
    rw [List.foldl_cons]
    cases s with
    | register m =>
      -- the name is there already, so its registration does nothing
      have hpkg : (p.step (.register m)).package = p.package := package_step p (.register m)
      rw [heard_register] at h ⊢
      rw [← hpkg] at h ⊢
      refine ih ?_ h
      rw [step, reason?_register, hn]
      simp
    | line d =>
      have hpkg : (p.step (.line d)).package = cursor p.package [d] := package_step p (.line d)
      rw [heard_line, readingsFrom_cons, proven_cons, not_or, ← hpkg] at h
      have hstep : (p.step (.line d)).reason? n =
          some ((Reading.reason? ⟨p.package, d⟩ n).getD why) := by
        rw [step, reason?_apply, if_neg h.1, hn]
        rfl
      rw [ih hstep h.2, heard_line, readingsFrom_cons, lastReason?_cons, ← hpkg]
      cases lastReason? (readingsFrom (p.step (.line d)).package (heard ss)) n <;> rfl

/-! ### Histories -/

theorem contains_after_iff (ops : List Operation) (n : String) :
    (after ops).contains n = true ↔ Pends (steps ops) n := by
  rw [contains_eq_isSome, Option.isSome_iff_ne_none, after_eq_foldl_step,
    reason?_foldl_step_ne_none_iff]
  constructor
  · rintro (⟨h, -⟩ | h)
    · exact absurd rfl h
    · exact h
  · exact .inr

theorem nodup_names_after (ops : List Operation) : (after ops).names.Nodup := by
  have hempty : empty.names.Nodup := List.nodup_nil
  rw [after_eq_foldl_step]
  exact nodup_names_foldl_step hempty _

/-- The reason of a name is known from what follows the registration that made it pending. -/
theorem reason?_after_of_first {ops : List Operation} {before later : List Step} {n : String}
    (hops : steps ops = before ++ .register n :: later) (hbefore : ¬ Pends before n)
    (hlater : ¬ Proven (readingsAfter before later) n) :
    (after ops).reason? n =
      some ((lastReason? (readingsAfter before later) n).getD unknownReason) := by
  have hpkg : ((before.foldl step empty).step (.register n)).package =
      cursor "" (heard before) := by
    rw [package_step, package_foldl_step]
    rfl
  have habsent : (before.foldl step empty).reason? n = none := by
    by_contra h
    rcases (reason?_foldl_step_ne_none_iff empty before n).1 h with ⟨h, -⟩ | h
    · exact h rfl
    · exact hbefore h
  have hnew : ((before.foldl step empty).step (.register n)).reason? n = some unknownReason := by
    rw [step, reason?_register, if_pos rfl, habsent]
    rfl
  rw [readingsAfter, ← hpkg] at hlater ⊢
  rw [after_eq_foldl_step, hops, List.foldl_append, List.foldl_cons]
  exact reason?_foldl_step hnew hlater

theorem size_eq_ncard {p : Pending} (h : p.names.Nodup) :
    p.size = {n | p.contains n = true}.ncard := by
  have hset : {n | p.contains n = true} = (p.names.toFinset : Set String) := by
    ext n
    simp [contains_iff_mem_names]
  rw [hset, Set.ncard_coe_finset, List.toFinset_card_of_nodup h, names, List.length_map]
  rfl

/-- **What is pending after a history is known from the history.**  A name is there if and only if
one of its registrations is not followed by a line that proves it; its reason is that of the last
line which refuses it after the registration that made it pending, or the unknown one; a
registration is answered with yes exactly where the name is not pending, and one that is answered
with no changes nothing; the package is that of the last header; and the size is the number of
names. -/
theorem pending_iff_history (ops : List Operation) :
    (∀ n, (after ops).contains n = true ↔ Pends (steps ops) n) ∧
    (∀ n why, (after ops).reason? n = some why ↔
      ∃ before later, steps ops = before ++ .register n :: later ∧ ¬ Pends before n ∧
        ¬ Proven (readingsAfter before later) n ∧
          why = (lastReason? (readingsAfter before later) n).getD unknownReason) ∧
    (∀ n, ¬ Pends (steps ops) n ∧
        (after ops).perform (.register n) = (.registered true, (after ops).register n) ∨
      Pends (steps ops) n ∧
        (after ops).perform (.register n) = (.registered false, after ops)) ∧
    (after ops).package = cursor "" (heard (steps ops)) ∧
    (after ops).size = {n | (after ops).contains n = true}.ncard := by
  refine ⟨contains_after_iff ops, fun n why => ?_, fun n => ?_, ?_, ?_⟩
  · constructor
    · intro hwhy
      have hpends : Pends (steps ops) n := by
        rw [← contains_after_iff, contains_eq_isSome, hwhy]
        rfl
      obtain ⟨before, later, hops, hbefore, hlater⟩ := pends_iff_exists_first.1 hpends
      rw [reason?_after_of_first hops hbefore hlater, Option.some.injEq] at hwhy
      exact ⟨before, later, hops, hbefore, hlater, hwhy.symm⟩
    · rintro ⟨before, later, hops, hbefore, hlater, rfl⟩
      exact reason?_after_of_first hops hbefore hlater
  · rw [← contains_after_iff, perform]
    by_cases hn : (after ops).contains n = true
    · exact .inr ⟨hn, if_pos hn⟩
    · exact .inl ⟨hn, if_neg hn⟩
  · rw [after_eq_foldl_step, package_foldl_step]
    rfl
  · exact size_eq_ncard (nodup_names_after ops)

/-- A name that was proven starts anew, with neither of the reasons given before. -/
example :
    after [.register "p.F", .scan (Utf8.encode "# p\n: cannot inline F: big\n"),
      .observe ": can inline F", .observe ": cannot inline F: huge", .register "p.F"] =
        ⟨[("p.F", unknownReason)], "p"⟩ := by
  decide +kernel

end Pending

end InlineAudit
