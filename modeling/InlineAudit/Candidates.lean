import InlineAudit.Digest.Sha256

/-!
The functions to check, grouped by import path.

A candidate is a package, named by its import path, and a symbol in it: a function such as
`ReadAll` in `io`, or a method such as `(*Buffer).Len` in `bytes`.

* `fullName` — a package and a symbol joined by a dot;
* `Candidates` — a finite map from packages to lists of symbols;
* `Candidates.digest` — a fingerprint of the names in a set, whatever its order of assembly.

Design notes: the map is a list of entries with strictly ascending packages, by code point, and
the order is part of the type, so that two sets are equal exactly when they hold the same
packages with the same lists.  Symbols keep the order in which they were added, and may repeat:
a set is checked for repetition when it is used, not when it is built.
-/

namespace InlineAudit

/-- The name of a symbol together with its package. -/
def fullName (package symbol : String) : String :=
  package ++ "." ++ symbol

theorem toList_fullName (package symbol : String) :
    (fullName package symbol).toList = package.toList ++ '.' :: symbol.toList := by
  simp [fullName]

/-- Symbols by package. -/
structure Candidates where
  entries : List (String × List String)
  ascending : entries.Pairwise (fun a b => a.1 < b.1)
  deriving DecidableEq

namespace Candidates

/-- The entries with the list of one package changed; a package that is absent is put in its
place in the order. -/
def alter (p : String) (f : List String → List String) :
    List (String × List String) → List (String × List String)
  | [] => [(p, f [])]
  | (q, symbols) :: rest =>
    if p < q then (p, f []) :: (q, symbols) :: rest
    else if p = q then (q, f symbols) :: rest
    else (q, symbols) :: alter p f rest

theorem fst_of_mem_alter {p : String} {f : List String → List String}
    {es : List (String × List String)} {e : String × List String} (h : e ∈ alter p f es) :
    e.1 = p ∨ ∃ e' ∈ es, e'.1 = e.1 := by
  induction es with
  | nil => simp_all [alter]
  | cons a rest ih =>
    obtain ⟨q, symbols⟩ := a
    simp only [alter] at h
    split at h
    · rcases List.mem_cons.1 h with rfl | h
      · exact .inl rfl
      · exact .inr ⟨e, h, rfl⟩
    · split at h
      · rcases List.mem_cons.1 h with rfl | h
        · exact .inr ⟨(q, symbols), by simp, rfl⟩
        · exact .inr ⟨e, List.mem_cons_of_mem _ h, rfl⟩
      · rcases List.mem_cons.1 h with rfl | h
        · exact .inr ⟨_, List.mem_cons_self, rfl⟩
        · rcases ih h with h | ⟨e', h, h'⟩
          · exact .inl h
          · exact .inr ⟨e', List.mem_cons_of_mem _ h, h'⟩

theorem ascending_alter (p : String) (f : List String → List String)
    {es : List (String × List String)} (h : es.Pairwise (fun a b => a.1 < b.1)) :
    (alter p f es).Pairwise (fun a b => a.1 < b.1) := by
  induction es with
  | nil => simp [alter]
  | cons a rest ih =>
    obtain ⟨q, symbols⟩ := a
    obtain ⟨hq, hrest⟩ := List.pairwise_cons.1 h
    simp only [alter]
    split
    · rename_i hpq
      refine List.pairwise_cons.2 ⟨fun e he => ?_, h⟩
      rcases List.mem_cons.1 he with rfl | he
      · exact hpq
      · exact String.lt_trans hpq (hq e he)
    · rename_i hpq
      split
      · exact List.pairwise_cons.2 ⟨hq, hrest⟩
      · rename_i hne
        refine List.pairwise_cons.2 ⟨fun e he => ?_, ih hrest⟩
        rcases fst_of_mem_alter he with h' | ⟨e', he', h'⟩
        · rw [h']
          exact Std.lt_of_le_of_ne (String.not_lt.1 hpq) (Ne.symm hne)
        · rw [← h']
          exact hq e' he'

/-- The empty set. -/
def empty : Candidates := ⟨[], .nil⟩

instance : Inhabited Candidates := ⟨empty⟩

/-- The packages with their symbols, in ascending order. -/
def toList (cs : Candidates) : List (String × List String) := cs.entries

/-- Further symbols for a package, after those that it has. -/
def append (cs : Candidates) (package : String) (symbols : List String) : Candidates :=
  ⟨alter package (· ++ symbols) cs.entries, ascending_alter _ _ cs.ascending⟩

/-- One further symbol for a package. -/
def add (cs : Candidates) (package symbol : String) : Candidates :=
  cs.append package [symbol]

/-- The list of a package, in place of any that it has. -/
def set (cs : Candidates) (package : String) (symbols : List String) : Candidates :=
  ⟨alter package (fun _ => symbols) cs.entries, ascending_alter _ _ cs.ascending⟩

/-- Everything in a second set, after what the first has. -/
def merge (cs other : Candidates) : Candidates :=
  other.entries.foldl (fun acc e => acc.append e.1 e.2) cs

/-- The set of a list of pairs; the lists of a package that is repeated are joined. -/
def ofList (pairs : List (String × List String)) : Candidates :=
  pairs.foldl (fun acc e => acc.append e.1 e.2) empty

/-- The set of a list of pairs; of a package that is repeated the last list stands. -/
def ofListLast (pairs : List (String × List String)) : Candidates :=
  pairs.foldl (fun acc e => acc.set e.1 e.2) empty

/-- The packages, in ascending order. -/
def packages (cs : Candidates) : List String :=
  cs.entries.map (·.1)

theorem nodup_packages (cs : Candidates) : cs.packages.Nodup := by
  refine (List.pairwise_map.2 cs.ascending).imp ?_
  rintro p _ hlt rfl
  exact String.lt_irrefl p hlt

theorem nodup_entries (cs : Candidates) : cs.entries.Nodup := by
  refine cs.ascending.imp ?_
  rintro e _ hlt rfl
  exact String.lt_irrefl _ hlt

/-- A set is known from its entries in any order. -/
theorem eq_of_perm {a b : Candidates} (h : a.entries.Perm b.entries) : a = b := by
  have hentries : a.entries = b.entries :=
    h.eq_of_pairwise (fun e f _ _ hef hfe => absurd (String.lt_trans hef hfe)
      (String.lt_irrefl _)) a.ascending b.ascending
  cases a
  cases b
  cases hentries
  rfl

/-- The full names of all candidates, packages ascending and symbols in list order. -/
def names (cs : Candidates) : List String :=
  cs.entries.flatMap fun e => e.2.map (fullName e.1)

/-- The number of symbols. -/
def size (cs : Candidates) : Nat :=
  (cs.entries.flatMap (·.2)).length

/-- There is no symbol; there may be packages without any. -/
def isEmpty (cs : Candidates) : Bool :=
  cs.size == 0

/-- What the digest is taken of: the full names in ascending order, a newline after each. -/
def digestInput (cs : Candidates) : Bytes :=
  (cs.names.mergeSort (fun a b => decide (a ≤ b))).flatMap fun n => Utf8.encode (n ++ "\n")

/-- The SHA-256 digest of the sorted full names, in lowercase hexadecimal. -/
def digest (cs : Candidates) : String :=
  Sha256.hex cs.digestInput

end Candidates

end InlineAudit
