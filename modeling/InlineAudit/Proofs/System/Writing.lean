/-
What is written to a path can be read from it.

A path may lead through links and up again, so after a write it has to be walked anew, in a file
system that is no longer the same.  It ends where it ended before, since only the end of a walk can
be at a file, or at a name that is vacant:

* `entry?_put_self`, `entry?_put_of_ne` — what is where after something is put at a place;
* `locate_eq_ok_iff`, `find_eq_ok_iff` — a path leads where its walk ends;
* `walk_put` — a walk that ended somewhere ends there again, once there is a new file;
* `write_eq_ok_iff` — where a file can be written, and what it changes;
* **`read_of_write`** — a path gives back what was written to it.
-/
import InlineAudit.System.FileTree

namespace InlineAudit.FileTree

variable {t : FileTree} {place q cwd : Place} {p : Path} {goal : Goal}

theorem lookup_filter_ne (entries : List (Place × Entry)) (h : q ≠ place) :
    (entries.filter (·.1 ≠ place)).lookup q = entries.lookup q := by
  induction entries with
  | nil => rfl
  | cons e entries ih =>
    obtain ⟨p, entry⟩ := e
    by_cases hp : p = place
    · have hother : (q == p) = false := beq_eq_false_iff_ne.2 (hp ▸ h)
      rw [List.filter_cons_of_neg (by simpa using hp), List.lookup_cons, hother]
      exact ih
    · rw [List.filter_cons_of_pos (by simpa using hp), List.lookup_cons, List.lookup_cons, ih]

theorem entry?_put_self (hplace : place ≠ []) (e : Entry) :
    FileTree.entry? (t.put place e) place = some e := by
  rw [put, entry?, if_neg hplace, List.lookup_cons_self]

theorem entry?_put_of_ne (e : Entry) (h : q ≠ place) :
    FileTree.entry? (t.put place e) q = t.entry? q := by
  have hother : (q == place) = false := beq_eq_false_iff_ne.2 h
  rw [put, entry?, entry?, List.lookup_cons, hother]
  dsimp only
  rw [lookup_filter_ne _ h]

theorem walk_nil (t : FileTree) (links : Nat) (here : Place) :
    t.walk links here [] = .ok (.existing here) := by
  rw [walk]

/-- A name that is vacant ends a walk. -/
theorem walk_vacant {here : Place} {n : Bytes} (hdir : t.isDirectory here = true)
    (hn : n.length ≤ maxName) (hentry : t.entry? (here ++ [n]) = none) (links : Nat) :
    t.walk links here [.name n] = .ok (.vacant (here ++ [n])) := by
  rw [walk, if_pos hdir, if_neg (Nat.not_lt.2 hn), hentry]
  rfl

/-- In front of other steps it is in the way. -/
theorem walk_lost {here : Place} {n : Bytes} {rest : List Step} (hdir : t.isDirectory here = true)
    (hn : n.length ≤ maxName) (hentry : t.entry? (here ++ [n]) = none) (hrest : rest ≠ [])
    (links : Nat) : t.walk links here (.name n :: rest) = .error .noSuchFile := by
  rw [walk, if_pos hdir, if_neg (Nat.not_lt.2 hn), hentry]
  exact if_neg hrest

/-- A link is replaced by the walk that it describes. -/
theorem walk_link {here : Place} {n : Bytes} {target : Path} (hdir : t.isDirectory here = true)
    (hn : n.length ≤ maxName) (hentry : t.entry? (here ++ [n]) = some (.link target)) (links : Nat)
    (rest : List Step) :
    t.walk (links + 1) here (.name n :: rest) =
      t.walk links (if target.isAbsolute then [] else here) (target.steps ++ rest) := by
  rw [walk, if_pos hdir, if_neg (Nat.not_lt.2 hn), hentry]

/-- The walk goes on from any other entry. -/
theorem walk_entry {here : Place} {n : Bytes} {links : Nat} {e : Entry}
    (hdir : t.isDirectory here = true) (hn : n.length ≤ maxName)
    (hentry : t.entry? (here ++ [n]) = some e) (direct : ∀ target, e ≠ .link target)
    (rest : List Step) :
    t.walk links here (.name n :: rest) = t.walk links (here ++ [n]) rest := by
  rw [walk, if_pos hdir, if_neg (Nat.not_lt.2 hn), hentry]
  cases e with
  | link target => exact absurd rfl (direct target)
  | file content executable => rfl
  | directory => rfl

/-- At a place there is a file, or nothing. -/
def HoldsFile (t : FileTree) (place : Place) : Prop :=
  t.entry? place = none ∨ ∃ content executable, t.entry? place = some (.file content executable)

theorem HoldsFile.ne_nil (h : t.HoldsFile place) : place ≠ [] := by
  rintro rfl
  rcases h with h | ⟨content, executable, h⟩ <;> cases h

theorem HoldsFile.isDirectory_eq_false (h : t.HoldsFile place) : t.isDirectory place = false := by
  rw [isDirectory]
  rcases h with h | ⟨content, executable, h⟩ <;> rw [h] <;> rfl

theorem HoldsFile.isDirectory_put (h : t.HoldsFile place) {here : Place} (e : Entry)
    (hhere : t.isDirectory here = true) : (t.put place e).isDirectory here = true := by
  have hne : here ≠ place := by
    rintro rfl
    rw [h.isDirectory_eq_false] at hhere
    cases hhere
  rw [isDirectory, entry?_put_of_ne e hne]
  exact hhere

/-- Where a walk ends once there is something at a place. -/
def filled (place : Place) (goal : Goal) : Goal :=
  if goal = .vacant place then .existing place else goal

/-- A walk that ended somewhere ends there again, once there is a new file. -/
theorem walk_put (h : t.HoldsFile place) (content : Bytes) (executable : Bool) {links : Nat}
    {here : Place} {todo : List Step} (hwalk : t.walk links here todo = .ok goal) :
    (t.put place (.file content executable)).walk links here todo = .ok (filled place goal) := by
  have hnew := entry?_put_self (t := t) h.ne_nil (.file content executable)
  have hsame {q : Place} (hq : q ≠ place) :=
    entry?_put_of_ne (t := t) (.file content executable) hq
  -- every directory on the way is still there, and so is every link
  fun_induction walk t links here todo with
  | case1 links here =>
    obtain rfl := Except.ok.inj hwalk
    rw [walk]
    rfl
  | case2 links here rest hdir ih =>
    rw [walk, if_pos (h.isDirectory_put _ hdir)]
    exact ih hwalk
  | case3 links here rest hdir ih =>
    rw [walk, if_pos (h.isDirectory_put _ hdir)]
    exact ih hwalk
  | case4 links here rest hdir ih =>
    rw [walk, if_pos (h.isDirectory_put _ hdir)]
    exact ih hwalk
  | case5 => cases hwalk
  | case6 links here hdir n hn hentry =>
    obtain rfl := Except.ok.inj hwalk
    rw [walk, if_pos (h.isDirectory_put _ hdir), filled]
    -- the vacant name may now be that of the file
    by_cases hplace : here ++ [n] = place
    · simp only [hn, if_false, hplace, hnew, if_true]
      rw [walk]
    · have hother : Goal.vacant (here ++ [n]) ≠ .vacant place := by simpa using hplace
      simp only [hn, if_false, hsame hplace, hentry, if_neg hother, if_true]
  | case7 => cases hwalk
  | case8 => cases hwalk
  | case9 here rest hdir n hn target hentry links ih =>
    have hplace : here ++ [n] ≠ place := by
      rintro rfl
      rcases h with h | ⟨old, oldExecutable, h⟩ <;> rw [hentry] at h <;> cases h
    rw [walk, if_pos (h.isDirectory_put _ hdir)]
    simp only [hn, if_false, hsame hplace, hentry]
    exact ih hwalk
  | case10 links here rest hdir n hn entry hentry hlink ih =>
    rw [walk, if_pos (h.isDirectory_put _ hdir)]
    -- where the old file was the new one is now
    by_cases hplace : here ++ [n] = place
    · simp only [hn, if_false, hplace, hnew]
      rw [hplace] at ih hwalk
      exact ih hwalk
    · simp only [hn, if_false, hsame hplace, hlink]
      cases entry with
      | link target => exact absurd rfl (hentry target)
      | file old oldExecutable => exact ih hwalk
      | directory => exact ih hwalk
  | case11 => cases hwalk

theorem locate_eq_ok_iff :
    t.locate cwd p = .ok goal ↔
      0 ∉ p.bytes ∧ p.bytes ≠ [] ∧ p.bytes.length ≤ maxPath ∧
        t.walk maxLinks (if p.isAbsolute then [] else cwd) p.steps = .ok goal := by
  rw [locate, ← List.contains_iff_mem]
  split
  · rename_i hnul
    exact iff_of_false (fun h => nomatch h) fun h => h.1 hnul
  · rename_i hnul
    rw [and_iff_right hnul]
    split
    · rename_i hnil
      exact iff_of_false (fun h => nomatch h) fun h => h.1 hnil
    · rename_i hne
      rw [and_iff_right hne]
      split
      · rename_i hlong
        exact iff_of_false (fun h => nomatch h) fun h => absurd h.1 (Nat.not_le.2 hlong)
      · rename_i hshort
        rw [and_iff_right (Nat.le_of_not_lt hshort)]

theorem find_eq_ok_iff : t.find cwd p = .ok place ↔ t.locate cwd p = .ok (.existing place) := by
  rw [find]
  cases t.locate cwd p with
  | error e => simp
  | ok goal => cases goal <;> simp

theorem locate_put (h : t.HoldsFile place) (content : Bytes) (executable : Bool)
    (hlocate : t.locate cwd p = .ok goal) :
    (t.put place (.file content executable)).locate cwd p = .ok (filled place goal) := by
  obtain ⟨hnul, hne, hshort, hwalk⟩ := locate_eq_ok_iff.1 hlocate
  exact locate_eq_ok_iff.2 ⟨hnul, hne, hshort, walk_put h content executable hwalk⟩

/-- What a path leads to it leads to again, once there is a new file. -/
theorem find_put (h : t.HoldsFile place) (content : Bytes) (executable : Bool)
    (hfind : t.find cwd p = .ok q) :
    (t.put place (.file content executable)).find cwd p = .ok q :=
  find_eq_ok_iff.2 (locate_put h content executable (find_eq_ok_iff.1 hfind))

/-- A walk that does not find a name ends where nothing is. -/
theorem entry?_of_walk_vacant {links : Nat} {here : Place} {todo : List Step}
    (h : t.walk links here todo = .ok (.vacant place)) : t.entry? place = none := by
  fun_induction walk t links here todo with
  | case6 links here hdir n hn hentry =>
    cases h
    exact hentry
  | case1 => cases h
  | case2 _ _ _ _ ih => exact ih h
  | case3 _ _ _ _ ih => exact ih h
  | case4 _ _ _ _ ih => exact ih h
  | case9 _ _ _ _ _ _ _ _ ih => exact ih h
  | case10 _ _ _ _ _ _ _ _ _ ih => exact ih h
  | case5 => cases h
  | case7 => cases h
  | case8 => cases h
  | case11 => cases h

theorem entry?_of_locate_vacant
    (h : t.locate cwd p = .ok (.vacant place)) : t.entry? place = none :=
  entry?_of_walk_vacant (locate_eq_ok_iff.1 h).2.2.2

theorem read_of_locate {content : Bytes} {executable : Bool}
    (hlocate : t.locate cwd p = .ok (.existing place))
    (hentry : t.entry? place = some (.file content executable)) : t.read cwd p = .ok content := by
  rw [read, find, hlocate]
  dsimp only
  rw [hentry]

/-- A path denotes a place, through links: something is there, or the name is vacant. -/
def Denotes (t : FileTree) (cwd : Place) (p : Path) (place : Place) : Prop :=
  t.locate cwd p = .ok (.existing place) ∨ t.locate cwd p = .ok (.vacant place)

/-- A file can be written to a path: it is made where the name is vacant, or replaces one that stays
as executable as it was. -/
inductive Writable (t : FileTree) (cwd : Place) (p : Path) : Place → Bool → Prop
  | vacant {place : Place} (located : t.locate cwd p = .ok (.vacant place)) :
      Writable t cwd p place false
  | existing {place : Place} {old : Bytes} {executable : Bool}
      (located : t.locate cwd p = .ok (.existing place))
      (found : t.entry? place = some (.file old executable)) : Writable t cwd p place executable

theorem Writable.eq_of_vacant {executable : Bool} (h : t.Writable cwd p place executable)
    (hlocate : t.locate cwd p = .ok (.vacant q)) : place = q ∧ executable = false := by
  cases h with
  | vacant located =>
    cases located.symm.trans hlocate
    exact ⟨rfl, rfl⟩
  | existing located => cases located.symm.trans hlocate

theorem Writable.eq_of_existing {executable executable' : Bool} {old : Bytes}
    (h : t.Writable cwd p place executable) (hlocate : t.locate cwd p = .ok (.existing q))
    (hentry : t.entry? q = some (.file old executable')) :
    place = q ∧ executable = executable' := by
  cases h with
  | vacant located => cases located.symm.trans hlocate
  | existing located found =>
    cases located.symm.trans hlocate
    cases found.symm.trans hentry
    exact ⟨rfl, rfl⟩

/-- There is one place for the file, and one way to make it. -/
theorem Writable.unique {executable executable' : Bool} (h : t.Writable cwd p place executable)
    (h' : t.Writable cwd p q executable') : place = q ∧ executable = executable' := by
  cases h' with
  | vacant located => exact h.eq_of_vacant located
  | existing located found => exact h.eq_of_existing located found

theorem Writable.denotes {executable : Bool} (h : t.Writable cwd p place executable) :
    t.Denotes cwd p place := by
  cases h with
  | vacant located => exact .inr located
  | existing located => exact .inl located

theorem Writable.holdsFile {executable : Bool} (h : t.Writable cwd p place executable) :
    t.HoldsFile place := by
  cases h with
  | vacant located => exact .inl (entry?_of_locate_vacant located)
  | existing _ found => exact .inr ⟨_, executable, found⟩

/-- A write puts a file at the place that the path denotes. -/
theorem write_eq_ok_iff {content : Bytes} {t' : FileTree} :
    t.write cwd p content = .ok t' ↔
      ∃ place executable, t.Writable cwd p place executable ∧
        t' = t.put place (.file content executable) := by
  rw [write]
  constructor
  · intro h
    split at h
    · rename_i place hlocate
      split at h
      · rename_i old executable hentry
        exact ⟨place, executable, .existing hlocate hentry, (Except.ok.inj h).symm⟩
      · cases h
    · rename_i place hlocate
      exact ⟨place, false, .vacant hlocate, (Except.ok.inj h).symm⟩
    · -- a path that is refused leaves no file system behind
      split at h
      · split at h <;> cases h
      · cases h
  · rintro ⟨place, executable, hwritable, rfl⟩
    cases hwritable with
    | vacant located => rw [located]
    | existing located found =>
      rw [located]
      dsimp only
      rw [found]

/-- A write fails where there is something else than a file, and where the path leads nowhere. -/
theorem error_of_write {content : Bytes} {cause : IoError}
    (h : t.write cwd p content = .error cause) :
    (∃ place, t.locate cwd p = .ok (.existing place) ∧
        (∀ old executable, t.entry? place ≠ some (.file old executable)) ∧
        cause = .isADirectory) ∨
      ∃ e, t.locate cwd p = .error e ∧ (cause = e ∨ p.bytes.getLast? = some slash) := by
  rw [write] at h
  split at h
  · rename_i place hlocate
    split at h
    · cases h
    · rename_i hother
      exact .inl ⟨place, hlocate, hother, (Except.error.inj h).symm⟩
  · cases h
  · rename_i e hlocate
    refine .inr ⟨e, hlocate, ?_⟩
    split at h
    · exact .inr ‹_›
    · exact .inl (Except.error.inj h).symm

/-- A path that denoted a place leads to it once there is a file. -/
theorem Denotes.find_put (h : t.Denotes cwd p place) (hfile : t.HoldsFile place) (content : Bytes)
    (executable : Bool) : (t.put place (.file content executable)).find cwd p = .ok place := by
  rcases h with h | h
  · exact FileTree.find_put hfile content executable (find_eq_ok_iff.2 h)
  · refine find_eq_ok_iff.2 ((locate_put hfile content executable h).trans ?_)
    rw [filled, if_pos rfl]

/-- **A path gives back what was written to it.** -/
theorem read_of_write {content : Bytes} {t' : FileTree}
    (h : t.write cwd p content = .ok t') : t'.read cwd p = .ok content := by
  obtain ⟨place, executable, hwritable, rfl⟩ := write_eq_ok_iff.1 h
  have hfind := hwritable.denotes.find_put hwritable.holdsFile content executable
  exact read_of_locate (find_eq_ok_iff.1 hfind) (entry?_put_self hwritable.holdsFile.ne_nil _)

end InlineAudit.FileTree
