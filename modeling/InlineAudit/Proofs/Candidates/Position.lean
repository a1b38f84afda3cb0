/-
Where the full names of a set stand.

A set lists its symbols by package, so a full name stands at a position: a package, and a place in
the list of it.  Two positions may have one name, in one list or in two, where the packages differ
and the names agree only after they are joined.

* `Position.Before` — packages in ascending order, and the symbols of one in the order of its list;
* `walk` — the positions of a set with their names, in that order;
* **`distinct_iff_nodup_names`** — no two positions have one name exactly when no name is listed
  twice;
* **`firstRepeatedAt_iff`** — the name at the first position that repeats an earlier one is the
  first that the list of names repeats.
-/
import InlineAudit.Candidates
import Mathlib.Data.List.Pairwise

namespace InlineAudit

/-- Some names, of which this one is the first that was there before. -/
def FirstRepeated (ns : List String) (n : String) : Prop :=
  ∃ before after, ns = before ++ n :: after ∧ before.Nodup ∧ n ∈ before

namespace Candidates

/-- A place in the list of a package, counted from zero. -/
structure Position where
  package : String
  index : Nat
  deriving Repr, DecidableEq

namespace Position

/-- Packages in ascending order, and the symbols of one in the order of its list. -/
def Before (a b : Position) : Prop :=
  a.package < b.package ∨ a.package = b.package ∧ a.index < b.index

variable {a b c : Position}

theorem Before.ne (h : a.Before b) : a ≠ b := by
  rintro rfl
  rcases h with h | ⟨-, h⟩
  · exact String.lt_irrefl _ h
  · exact Nat.lt_irrefl _ h

theorem Before.asymm (h : a.Before b) : ¬ b.Before a := by
  rcases h with h | ⟨heq, h⟩
  · rintro (h' | ⟨heq', -⟩)
    · exact String.lt_irrefl _ (String.lt_trans h h')
    · rw [heq'] at h
      exact String.lt_irrefl _ h
  · rintro (h' | ⟨-, h'⟩)
    · rw [heq] at h'
      exact String.lt_irrefl _ h'
    · exact Nat.lt_asymm h h'

theorem Before.trans (hab : a.Before b) (hbc : b.Before c) : a.Before c := by
  rcases hab with hab | ⟨hab, hi⟩ <;> rcases hbc with hbc | ⟨hbc, hj⟩
  · exact .inl (String.lt_trans hab hbc)
  · exact .inl (hbc ▸ hab)
  · exact .inl (hab ▸ hbc)
  · exact .inr ⟨hab.trans hbc, Nat.lt_trans hi hj⟩

theorem before_or_eq_or_before (a b : Position) : a.Before b ∨ a = b ∨ b.Before a := by
  obtain ⟨package, i⟩ := a
  obtain ⟨package', j⟩ := b
  rcases Std.lt_trichotomy package package' with hlt | rfl | hlt
  · exact .inl (.inl hlt)
  · rcases Nat.lt_trichotomy i j with hij | rfl | hij
    · exact .inl (.inr ⟨rfl, hij⟩)
    · exact .inr (.inl rfl)
    · exact .inr (.inr (.inr ⟨rfl, hij⟩))
  · exact .inr (.inr (.inl hlt))

end Position

/-- At this position a set has this full name. -/
def NameAt (cs : Candidates) (a : Position) (n : String) : Prop :=
  ∃ symbols symbol, (a.package, symbols) ∈ cs.entries ∧ symbols[a.index]? = some symbol ∧
    fullName a.package symbol = n

/-- No two positions have one full name. -/
def Distinct (cs : Candidates) : Prop :=
  ∀ a b n, cs.NameAt a n ∧ cs.NameAt b n → a = b

/-- The name at this position stands at an earlier one too. -/
def Repeats (cs : Candidates) (a : Position) (n : String) : Prop :=
  cs.NameAt a n ∧ ∃ earlier : Position, earlier.Before a ∧ cs.NameAt earlier n

/-- Of all positions that repeat an earlier one the first has this full name. -/
def FirstRepeatedAt (cs : Candidates) (n : String) : Prop :=
  ∃ a, cs.Repeats a n ∧ ∀ b m, cs.Repeats b m → ¬ b.Before a

/-! ### The walk over a set -/

/-- The positions in the list of one package, with their full names. -/
def walkList (package : String) (symbols : List String) : List (Position × String) :=
  symbols.zipIdx.map fun s => (⟨package, s.2⟩, fullName package s.1)

/-- The positions of a set with their full names, in order. -/
def walk (cs : Candidates) : List (Position × String) :=
  cs.entries.flatMap fun e => walkList e.1 e.2

variable {cs : Candidates}

theorem map_snd_walk (cs : Candidates) : cs.walk.map Prod.snd = cs.names := by
  rw [walk, List.map_flatMap, names]
  congr 1
  funext e
  have hsymbols : e.2.zipIdx.map Prod.fst = e.2 := List.zipIdx_map_fst 0 e.2
  calc (walkList e.1 e.2).map Prod.snd
      = (e.2.zipIdx.map Prod.fst).map (fullName e.1) := by
        rw [walkList, List.map_map, List.map_map]
        rfl
    _ = e.2.map (fullName e.1) := by rw [hsymbols]

theorem mem_walk_iff {a : Position} {n : String} : (a, n) ∈ cs.walk ↔ cs.NameAt a n := by
  simp only [walk, walkList, List.mem_flatMap, List.mem_map, Prod.mk.injEq]
  constructor
  · rintro ⟨e, he, s, hs, rfl, rfl⟩
    exact ⟨e.2, s.1, he, List.mem_zipIdx_iff_getElem?.1 hs, rfl⟩
  · rintro ⟨symbols, symbol, he, hs, rfl⟩
    have hplace := List.mk_mem_zipIdx_iff_getElem?.2 hs
    exact ⟨(a.package, symbols), he, (symbol, a.index), hplace, rfl, rfl⟩

theorem pairwise_walk (cs : Candidates) :
    cs.walk.Pairwise fun a b => a.1.Before b.1 := by
  rw [walk, List.pairwise_flatMap]
  constructor
  · -- in one list the places ascend
    intro e _
    have hindices : e.2.zipIdx.Pairwise fun s t => s.2 < t.2 := by
      rw [← List.pairwise_map (f := Prod.snd) (R := (· < ·)), List.zipIdx_map_snd]
      exact List.pairwise_lt_range' 1
    rw [walkList, List.pairwise_map]
    exact hindices.imp fun hlt => .inr ⟨rfl, hlt⟩
  · -- and of two lists the packages do
    refine cs.ascending.imp fun {e f} hlt => ?_
    intro a ha b hb
    obtain ⟨s, -, rfl⟩ := List.mem_map.1 ha
    obtain ⟨t, -, rfl⟩ := List.mem_map.1 hb
    exact .inl hlt

/-! ### Names that stand twice -/

/-- In a walk no name stands twice exactly when no later position has the name of an earlier one. -/
theorem nodup_map_snd_iff {ws : List (Position × String)}
    (hws : ws.Pairwise fun a b => a.1.Before b.1) :
    (ws.map Prod.snd).Nodup ↔ ∀ a ∈ ws, ∀ b ∈ ws, a.1.Before b.1 → a.2 ≠ b.2 := by
  rw [List.nodup_iff_pairwise_ne, List.pairwise_map]
  constructor
  · intro hne a ha b hb hlt
    have hsymm : Std.Symm fun a b : Position × String => a.2 ≠ b.2 := ⟨fun _ _ => Ne.symm⟩
    refine hne.forall ha hb ?_
    rintro rfl
    exact hlt.ne rfl
  · exact fun h => hws.imp_of_mem fun ha hb hlt => h _ ha _ hb hlt

/-- Before a position of the walk are the positions that come earlier in it. -/
theorem mem_before_iff {us vs : List (Position × String)} {a b : Position} {n m : String}
    (hwalk : cs.walk = us ++ (a, n) :: vs) : (b, m) ∈ us ↔ b.Before a ∧ cs.NameAt b m := by
  have hpairs := cs.pairwise_walk
  rw [hwalk, List.pairwise_append] at hpairs
  obtain ⟨-, htail, hfront⟩ := hpairs
  constructor
  · intro hb
    refine ⟨hfront _ hb _ List.mem_cons_self, mem_walk_iff.1 ?_⟩
    rw [hwalk]
    exact List.mem_append_left _ hb
  · rintro ⟨hlt, hb⟩
    have hmem := mem_walk_iff.2 hb
    rw [hwalk, List.mem_append, List.mem_cons] at hmem
    rcases hmem with hmem | hhere | hmem
    · exact hmem
    · exact absurd (congrArg Prod.fst hhere) hlt.ne
    · exact absurd hlt ((List.pairwise_cons.1 htail).1 _ hmem).asymm

/-- **No two positions have one name exactly when no name is listed twice.** -/
theorem distinct_iff_nodup_names : cs.Distinct ↔ cs.names.Nodup := by
  rw [← map_snd_walk, nodup_map_snd_iff cs.pairwise_walk]
  constructor
  · rintro h ⟨a, n⟩ ha ⟨b, m⟩ hb hlt rfl
    exact hlt.ne (h a b n ⟨mem_walk_iff.1 ha, mem_walk_iff.1 hb⟩)
  · rintro h a b n ⟨ha, hb⟩
    rw [← mem_walk_iff] at ha hb
    rcases a.before_or_eq_or_before b with hlt | rfl | hlt
    · exact absurd rfl (h (a, n) ha (b, n) hb hlt)
    · rfl
    · exact absurd rfl (h (b, n) hb (a, n) ha hlt)

/-- **The name at the first position that repeats an earlier one** is the first that the list of
names repeats. -/
theorem firstRepeatedAt_iff {n : String} : cs.FirstRepeatedAt n ↔ FirstRepeated cs.names n := by
  have hcut : FirstRepeated cs.names n ↔ ∃ us a vs, cs.walk = us ++ (a, n) :: vs ∧
      (us.map Prod.snd).Nodup ∧ n ∈ us.map Prod.snd := by
    rw [FirstRepeated, ← map_snd_walk]
    constructor
    · rintro ⟨before, after, hnames, hnodup, hn⟩
      obtain ⟨us, ws, hwalk, rfl, hws⟩ := List.map_eq_append_iff.1 hnames
      obtain ⟨⟨a, m⟩, vs, rfl, rfl, rfl⟩ := List.map_eq_cons_iff.1 hws
      exact ⟨us, a, vs, hwalk, hnodup, hn⟩
    · rintro ⟨us, a, vs, hwalk, hnodup, hn⟩
      exact ⟨us.map Prod.snd, vs.map Prod.snd, by rw [hwalk, List.map_append, List.map_cons],
        hnodup, hn⟩
  rw [hcut]
  constructor
  · rintro ⟨a, ⟨ha, earlier, hlt, hearlier⟩, hfirst⟩
    obtain ⟨us, vs, hwalk⟩ := List.append_of_mem (mem_walk_iff.2 ha)
    refine ⟨us, a, vs, hwalk, ?_, List.mem_map_of_mem ((mem_before_iff hwalk).2 ⟨hlt, hearlier⟩)⟩
    have hpairs := cs.pairwise_walk
    rw [hwalk, List.pairwise_append] at hpairs
    rw [nodup_map_snd_iff hpairs.1]
    -- a repetition among the earlier positions would come first
    rintro ⟨b, m⟩ hb ⟨c, k⟩ hc hbc rfl
    obtain ⟨-, hb⟩ := (mem_before_iff hwalk).1 hb
    obtain ⟨hca, hc⟩ := (mem_before_iff hwalk).1 hc
    exact hfirst c m ⟨hc, b, hbc, hb⟩ hca
  · rintro ⟨us, a, vs, hwalk, hnodup, hn⟩
    have hpairs := cs.pairwise_walk
    rw [hwalk, List.pairwise_append] at hpairs
    rw [nodup_map_snd_iff hpairs.1] at hnodup
    obtain ⟨⟨b, m⟩, hb, rfl⟩ := List.mem_map.1 hn
    obtain ⟨hba, hb⟩ := (mem_before_iff hwalk).1 hb
    refine ⟨a, ⟨mem_walk_iff.1 ?_, b, hba, hb⟩, ?_⟩
    · rw [hwalk]
      exact List.mem_append_right _ List.mem_cons_self
    · -- two equal names before this position are both among the earlier ones, which differ
      rintro c k ⟨hc, d, hdc, hd⟩ hca
      have hc := (mem_before_iff hwalk).2 ⟨hca, hc⟩
      have hd := (mem_before_iff hwalk).2 ⟨hdc.trans hca, hd⟩
      exact hnodup _ hd _ hc hdc rfl

end Candidates

end InlineAudit
