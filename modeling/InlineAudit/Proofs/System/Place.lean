/-
Paths that are written out from the root.

A path that leads to an entry is made absolute as the path of the place of this entry, and any other
is written after the current directory.  In both cases nothing is lost:

* `Reached` — a place to which a walk can lead, by names of directories and through no link;
* `reached_of_walk`, `walk_names` — walks end at such places, and the names of such a place lead to
  it;
* `parent?_path` — the path of a place without its last name is that of the directory around it;
* `locate_of_locate_join`, `leads_of_find_join` — a path written after that of a directory leads
  where it leads from there;
* `currentDirectory_eq_ok_iff`, `absolutize_cases` — when a path can be made absolute, and what it
  becomes;
* **`leads_of_find_absolutize`**, `find_absolutize_of_leads` — a path made absolute leads where the
  path itself does, and nowhere else.

Design notes: the empty path is no path to the file system, but written after that of a directory it
stays there.
-/
import InlineAudit.Proofs.System.Writing
import InlineAudit.Proofs.Text.Decoding
import InlineAudit.Proofs.Text.Encoding
import Mathlib.Data.List.Induction

namespace InlineAudit

variable {p : Path} {place dir : Place} {n : Bytes}

/-- A name that an entry of a directory can have. -/
structure IsName (n : Bytes) : Prop where
  ne_nil : n ≠ []
  slash_notMem : slash ∉ n
  ne_here : n ≠ [dot]
  ne_up : n ≠ [dot, dot]

instance : Decidable (IsName n) :=
  decidable_of_iff (n ≠ [] ∧ slash ∉ n ∧ n ≠ [dot] ∧ n ≠ [dot, dot])
    ⟨fun ⟨hnil, hslash, hhere, hup⟩ => ⟨hnil, hslash, hhere, hup⟩,
      fun hn => ⟨hn.ne_nil, hn.slash_notMem, hn.ne_here, hn.ne_up⟩⟩

namespace Path

theorem text_ofString (s : String) : (ofString s).text = s := by
  rw [text, ofString, Utf8.decode, Utf8.encode, Utf8.decodeChars_encodeChars, String.ofList_toList]

/-- A path is UTF-8, so that it can be passed on as a text. -/
def IsText (p : Path) : Prop := ∃ s, p = ofString s

theorem IsText.ofString_text (h : p.IsText) : ofString p.text = p := by
  obtain ⟨s, rfl⟩ := h
  rw [text_ofString]

/-- The system takes the path: it holds no NUL, and is not too long. -/
structure Fits (p : Path) : Prop where
  nul_notMem : 0 ∉ p.bytes
  short : p.bytes.length ≤ FileTree.maxPath

instance (p : Path) : Decidable p.Fits :=
  decidable_of_iff (0 ∉ p.bytes ∧ p.bytes.length ≤ FileTree.maxPath)
    ⟨fun ⟨hnul, hshort⟩ => ⟨hnul, hshort⟩, fun hp => ⟨hp.nul_notMem, hp.short⟩⟩

theorem exists_of_isAbsolute (h : p.isAbsolute = true) : ∃ rest, p.bytes = slash :: rest := by
  rw [isAbsolute, beq_iff_eq, List.head?_eq_some_iff] at h
  exact h

/-- A path that starts at the root still does so as a text. -/
theorem isAbsolute_ofString_text (h : p.isAbsolute = true) :
    (ofString p.text).isAbsolute = true := by
  obtain ⟨rest, hbytes⟩ := exists_of_isAbsolute h
  have hslash : Utf8.Decoder.step .empty slash = ⟨['/'], none⟩ := by decide
  have hfirst : Utf8.decodeChars p.bytes = '/' :: Utf8.decodeChars rest := by
    rw [hbytes, Utf8.decodeChars, List.foldl_cons, hslash, Utf8.Decoder.finish_foldl_step]
    rfl
  rw [text, ofString, Utf8.decode, hfirst, Utf8.encode, String.toList_ofList]
  rfl

theorem getLast?_append_slash (as : Bytes) {bs : Bytes} (h : bs ≠ []) :
    (as ++ slash :: bs).getLast? = bs.getLast? := by
  obtain ⟨b, hb⟩ := Option.ne_none_iff_exists'.1 (mt List.getLast?_eq_none_iff.1 h)
  rw [List.getLast?_append, List.getLast?_cons, hb, Option.getD_some, Option.some_or]

/-- The moves that the segments of a path stand for. -/
def moves (bs : Bytes) : List Step :=
  ((bs.splitOn slash).filter (· ≠ [])).map stepOf

theorem steps_of_endSlash (h : p.bytes.getLast? = some slash) :
    p.steps = moves p.bytes ++ [.endSlash] :=
  if_pos h

theorem steps_of_not_endSlash (h : p.bytes.getLast? ≠ some slash) : p.steps = moves p.bytes :=
  if_neg h

theorem slash_notMem_segment {bs segment : Bytes} (h : segment ∈ bs.splitOn slash) :
    slash ∉ segment := by
  induction bs generalizing segment with
  | nil =>
    rw [List.splitOn_nil, List.mem_singleton] at h
    subst h
    exact List.not_mem_nil
  | cons b bs ih =>
    rw [List.splitOn_cons_eq_if_modifyHead] at h
    split at h
    · rcases List.mem_cons.1 h with rfl | h
      · exact List.not_mem_nil
      · exact ih h
    · rename_i hb
      obtain ⟨first, rest, hsplit⟩ := List.exists_cons_of_ne_nil (List.splitOn_ne_nil slash bs)
      rw [hsplit, List.modifyHead_cons] at h
      rcases List.mem_cons.1 h with rfl | h
      · rw [List.mem_cons, not_or]
        exact ⟨fun heq => hb (beq_iff_eq.2 heq.symm), ih (hsplit ▸ List.mem_cons_self)⟩
      · exact ih (hsplit ▸ List.mem_cons_of_mem _ h)

/-- The steps to an entry are by names. -/
theorem isName_of_mem_moves {bs : Bytes} (h : .name n ∈ moves bs) : IsName n := by
  obtain ⟨segment, hmem, hstep⟩ := List.mem_map.1 h
  obtain ⟨hsegment, hne⟩ := List.mem_filter.1 hmem
  rw [stepOf] at hstep
  split at hstep
  · cases hstep
  · rename_i hhere
    split at hstep
    · cases hstep
    · rename_i hup
      obtain rfl := Step.name.inj hstep
      exact ⟨of_decide_eq_true hne, slash_notMem_segment hsegment, hhere, hup⟩

theorem isName_of_mem_steps (h : .name n ∈ p.steps) : IsName n := by
  by_cases hend : p.bytes.getLast? = some slash
  · rw [steps_of_endSlash hend, List.mem_append, List.mem_singleton] at h
    exact isName_of_mem_moves (h.resolve_right Step.noConfusion)
  · rw [steps_of_not_endSlash hend] at h
    exact isName_of_mem_moves h

theorem moves_append (as bs : Bytes) : moves (as ++ slash :: bs) = moves as ++ moves bs := by
  rw [moves, List.splitOn_append_cons_self, List.filter_append, List.map_append]
  rfl

theorem moves_name (hn : IsName n) : moves n = [.name n] := by
  rw [moves, List.splitOn_eq_singleton hn.slash_notMem,
    List.filter_cons_of_pos (by simpa using hn.ne_nil), List.filter_nil, List.map_cons, stepOf,
    if_neg hn.ne_here, if_neg hn.ne_up, List.map_nil]

end Path

namespace Place

/-- The bytes of the path of a place, but for the slash of the root. -/
def bytes (place : Place) : Bytes := place.flatMap fun n => slash :: n

theorem bytes_append (dir : Place) (n : Bytes) : bytes (dir ++ [n]) = bytes dir ++ slash :: n := by
  rw [bytes, List.flatMap_append, List.flatMap_cons, List.flatMap_nil, List.append_nil]
  rfl

theorem path_of_ne_nil (h : place ≠ []) : place.path = ⟨bytes place⟩ := by
  cases place with
  | nil => exact absurd rfl h
  | cons n rest => rfl

theorem path_append (dir : Place) (n : Bytes) :
    path (dir ++ [n]) = ⟨bytes dir ++ slash :: n⟩ := by
  rw [path_of_ne_nil (List.append_ne_nil_of_right_ne_nil _ (List.cons_ne_nil _ _)), bytes_append]

theorem isAbsolute_path (place : Place) : place.path.isAbsolute = true := by
  cases place <;> rfl

/-- What is seen from the path of a place is seen from everywhere. -/
theorem isAbsolute_join (place : Place) (p : Path) : (place.path.join p).isAbsolute = true := by
  obtain ⟨rest, hbytes⟩ := Path.exists_of_isAbsolute place.isAbsolute_path
  rw [Path.join]
  split
  · assumption
  · rw [hbytes, if_neg (by simp)]
    split <;> rfl

theorem moves_bytes (hnames : ∀ n ∈ place, IsName n) :
    Path.moves (bytes place) = place.map .name := by
  induction place using List.reverseRecOn with
  | nil => rfl
  | append_singleton dir n ih =>
    have hdir : ∀ m ∈ dir, IsName m := fun m hm => hnames m (List.mem_append_left _ hm)
    have hn : IsName n := hnames n (List.mem_append_right _ (List.mem_singleton_self n))
    rw [bytes_append, Path.moves_append, ih hdir, Path.moves_name hn, List.map_append,
      List.map_cons, List.map_nil]

theorem getLast?_bytes_append (hn : IsName n) :
    (bytes dir ++ slash :: n).getLast? ≠ some slash := by
  rw [Path.getLast?_append_slash _ hn.ne_nil]
  exact fun hlast => hn.slash_notMem (List.mem_of_getLast? hlast)

theorem steps_path_append (hnames : ∀ m ∈ dir ++ [n], IsName m) :
    (path (dir ++ [n])).steps = (dir ++ [n]).map .name := by
  have hn : IsName n := hnames n (List.mem_append_right _ (List.mem_singleton_self n))
  rw [path_append, Path.steps_of_not_endSlash (getLast?_bytes_append hn), ← bytes_append,
    moves_bytes hnames]

/-- A path is written after the path of a place with one slash between them. -/
theorem join_path (hnames : ∀ m ∈ place, IsName m) (hp : p.isAbsolute = false) :
    place.path.join p = ⟨bytes place ++ slash :: p.bytes⟩ := by
  rw [Path.join, if_neg (Bool.eq_false_iff.1 hp)]
  rcases List.eq_nil_or_concat place with rfl | ⟨dir, n, rfl⟩
  · rfl
  · have hn : IsName n := hnames n (by simp)
    have hne : (bytes dir ++ slash :: n).isEmpty = false := by simp
    rw [List.concat_eq_append, path_append, hne, if_neg Bool.false_ne_true,
      if_neg (getLast?_bytes_append hn), bytes_append]

theorem steps_join (hnames : ∀ m ∈ place, IsName m) (hp : p.isAbsolute = false) :
    (place.path.join p).steps =
      place.map .name ++ if p.bytes = [] then [.endSlash] else p.steps := by
  rw [join_path hnames hp]
  split
  · rename_i hnil
    rw [hnil, Path.steps_of_endSlash (by simp), Path.moves_append, moves_bytes hnames,
      List.append_assoc]
    rfl
  · rename_i hne
    have hlast := Path.getLast?_append_slash (bytes place) hne
    by_cases hend : p.bytes.getLast? = some slash
    · rw [Path.steps_of_endSlash hend, Path.steps_of_endSlash (hlast.trans hend),
        Path.moves_append, moves_bytes hnames, List.append_assoc]
    · rw [Path.steps_of_not_endSlash hend, Path.steps_of_not_endSlash (hlast ▸ hend),
        Path.moves_append, moves_bytes hnames]

theorem trimEnd_reverse_append (hn : IsName n) (bs : Bytes) :
    Path.trimEnd (bs ++ slash :: n).reverse = (bs ++ slash :: n).reverse := by
  obtain ⟨front, b, rfl⟩ : ∃ front b, n = front ++ [b] :=
    ⟨_, _, (List.dropLast_concat_getLast hn.ne_nil).symm⟩
  have hb : b ≠ slash := fun heq => hn.slash_notMem (by simp [heq])
  simp only [List.reverse_append, List.reverse_cons, List.reverse_nil, List.nil_append,
    List.append_assoc, List.cons_append]
  rw [Path.trimEnd, if_neg hb, if_neg]
  -- a dot after the slash would be the whole name
  rintro ⟨rfl, hhead⟩
  rcases List.eq_nil_or_concat front with rfl | ⟨front', c, rfl⟩
  · exact hn.ne_here rfl
  · simp only [List.concat_eq_append, List.reverse_append, List.reverse_cons, List.reverse_nil,
      List.nil_append, List.cons_append, List.head?_cons, Option.some.injEq] at hhead
    exact hn.slash_notMem (by simp [hhead])

/-- The path of an entry without its last name is that of the directory around it. -/
theorem parent?_path (hnames : ∀ m ∈ dir ++ [n], IsName m) :
    (path (dir ++ [n])).parent? = some dir.path := by
  have hn : IsName n := hnames n (List.mem_append_right _ (List.mem_singleton_self n))
  have hdrop : (bytes dir ++ slash :: n).reverse.dropWhile (· ≠ slash) =
      slash :: (bytes dir).reverse := by
    rw [List.reverse_append, List.reverse_cons, List.append_assoc, List.dropWhile_append_of_pos]
    · rfl
    · intro b hb
      exact decide_eq_true fun heq => hn.slash_notMem (heq ▸ List.mem_reverse.1 hb)
  have hlong : (bytes dir ++ slash :: n).reverse ≠ [slash] := by
    intro heq
    have hlen := congrArg List.length heq
    have hpos := List.length_pos_iff.2 hn.ne_nil
    simp at hlen
    omega
  have hparent : (Path.trimEnd (slash :: (bytes dir).reverse)).reverse = dir.path.bytes := by
    rcases List.eq_nil_or_concat dir with rfl | ⟨up, m, rfl⟩
    · rfl
    · have hm : IsName m := hnames m (by simp)
      have hne : (bytes up ++ slash :: m).reverse ≠ [] := by simp
      rw [List.concat_eq_append, bytes_append, Path.trimEnd, if_pos rfl, if_neg hne,
        trimEnd_reverse_append hm, List.reverse_reverse, path_append]
  rw [path_append, Path.parent?]
  dsimp only
  rw [trimEnd_reverse_append hn]
  split
  · rename_i hnil
    simp at hnil
  · rw [if_neg hlong, hdrop, hparent]

end Place

namespace FileTree

variable {t : FileTree} {here : Place} {cwd : Place} {todo : List Step} {goal : Goal}

/-- A place to which a walk can lead: its names are those of entries, one in the other, and none of
them is a link. -/
inductive Reached (t : FileTree) : Place → Prop
  | root : Reached t []
  | entry {dir : Place} {n : Bytes} {e : Entry} (reached : Reached t dir)
      (isDirectory : t.isDirectory dir = true) (isName : IsName n) (short : n.length ≤ maxName)
      (found : t.entry? (dir ++ [n]) = some e) (direct : ∀ target, e ≠ .link target) :
      Reached t (dir ++ [n])

theorem Reached.directory (h : t.Reached dir) (hdir : t.isDirectory dir = true) (hn : IsName n)
    (hshort : n.length ≤ maxName) (hchild : t.isDirectory (dir ++ [n]) = true) :
    t.Reached (dir ++ [n]) :=
  .entry h hdir hn hshort (beq_iff_eq.1 hchild) (by simp)

theorem Reached.isName (h : t.Reached place) : ∀ n ∈ place, IsName n := by
  induction h with
  | root => exact fun n hn => nomatch hn
  | entry _ _ hname _ _ _ ih =>
    intro m hm
    rcases List.mem_append.1 hm with hm | hm
    · exact ih m hm
    · exact List.mem_singleton.1 hm ▸ hname

theorem Reached.of_append (h : t.Reached (dir ++ [n])) :
    t.Reached dir ∧ t.isDirectory dir = true := by
  generalize hplace : dir ++ [n] = place at h
  cases h with
  | root => exact absurd hplace (List.append_ne_nil_of_right_ne_nil _ (List.cons_ne_nil _ _))
  | entry hdir hisDir =>
    obtain ⟨rfl, -⟩ := List.append_inj' hplace rfl
    exact ⟨hdir, hisDir⟩

theorem Reached.dropLast (h : t.Reached place) : t.Reached place.dropLast := by
  cases h with
  | root => exact .root
  | entry hdir => rwa [List.dropLast_concat]

/-- Walks end at such places. -/
theorem reached_of_walk {links : Nat} (hhere : t.Reached here)
    (htodo : ∀ n, .name n ∈ todo → IsName n)
    (hwalk : t.walk links here todo = .ok (.existing place)) : t.Reached place := by
  fun_induction walk t links here todo with
  | case1 links here =>
    cases hwalk
    exact hhere
  | case2 links here rest _ ih | case3 links here rest _ ih =>
    exact ih hhere (fun n hn => htodo n (List.mem_cons_of_mem _ hn)) hwalk
  | case4 links here rest _ ih =>
    exact ih hhere.dropLast (fun n hn => htodo n (List.mem_cons_of_mem _ hn)) hwalk
  | case9 here rest _ n _ target _ links ih =>
    refine ih ?_ (fun m hm => ?_) hwalk
    · split
      · exact .root
      · exact hhere
    · rcases List.mem_append.1 hm with hm | hm
      · exact Path.isName_of_mem_steps hm
      · exact htodo m (List.mem_cons_of_mem _ hm)
  | case10 links here rest hdir n hshort e hdirect hfound ih =>
    refine ih ?_ (fun m hm => htodo m (List.mem_cons_of_mem _ hm)) hwalk
    exact .entry hhere hdir (htodo n List.mem_cons_self) (Nat.le_of_not_lt hshort) hfound hdirect
  | case5 | case6 | case7 | case8 | case11 => cases hwalk

/-- The names of such a place lead to it, from the root. -/
theorem walk_names (h : t.Reached place) (links : Nat) (rest : List Step) :
    t.walk links [] (place.map .name ++ rest) = t.walk links place rest := by
  induction h generalizing rest with
  | root => rfl
  | @entry dir n e _ hdir _ hshort hfound hdirect ih =>
    rw [List.map_append, List.append_assoc, ih]
    exact walk_entry hdir hshort hfound hdirect rest

theorem walk_path (h : t.Reached place) (links : Nat) :
    t.walk links [] place.path.steps = .ok (.existing place) := by
  rcases List.eq_nil_or_concat place with rfl | ⟨dir, n, rfl⟩
  · have hsteps : (Place.path []).steps = [.endSlash] := rfl
    have hroot : t.isDirectory [] = true := rfl
    rw [hsteps, walk, if_pos hroot]
    exact walk_nil t links []
  · rw [List.concat_eq_append] at h ⊢
    have hwalk := walk_names h links []
    rwa [List.append_nil, walk_nil, ← Place.steps_path_append h.isName] at hwalk

theorem read_eq_ok_iff {content : Bytes} :
    t.read cwd p = .ok content ↔
      ∃ place executable, t.find cwd p = .ok place ∧
        t.entry? place = some (.file content executable) := by
  constructor
  · intro hread
    rw [read] at hread
    split at hread
    · cases hread
    · rename_i place hfind
      split at hread
      · rename_i content' executable hentry
        cases hread
        exact ⟨place, executable, hfind, hentry⟩
      · cases hread
      · cases hread
  · rintro ⟨place, executable, hfind, hentry⟩
    exact read_of_locate (find_eq_ok_iff.1 hfind) hentry

theorem reached_of_find (hcwd : t.Reached cwd) (hfind : t.find cwd p = .ok place) :
    t.Reached place := by
  obtain ⟨-, -, -, hwalk⟩ := locate_eq_ok_iff.1 (find_eq_ok_iff.1 hfind)
  refine reached_of_walk ?_ (fun _ => Path.isName_of_mem_steps) hwalk
  split
  · exact .root
  · exact hcwd

/-- Where an absolute path leads is the same from everywhere. -/
theorem locate_of_isAbsolute (hp : p.isAbsolute = true) (cwd cwd' : Place) :
    t.locate cwd p = t.locate cwd' p := by
  rw [locate, locate, if_pos hp, if_pos hp]

theorem find_of_isAbsolute (hp : p.isAbsolute = true) (cwd cwd' : Place) :
    t.find cwd p = t.find cwd' p := by
  rw [find, find, locate_of_isAbsolute hp cwd cwd']

/-- The path of a place leads to it, unless it is too long for a path. -/
theorem find_path (h : t.Reached place) (cwd : Place) (hfits : place.path.Fits) :
    t.find cwd place.path = .ok place := by
  obtain ⟨rest, hbytes⟩ := Path.exists_of_isAbsolute place.isAbsolute_path
  refine find_eq_ok_iff.2
    (locate_eq_ok_iff.2 ⟨hfits.nul_notMem, by simp [hbytes], hfits.short, ?_⟩)
  rw [if_pos place.isAbsolute_path]
  exact walk_path h maxLinks

/-- A path of names leads from the root to the place of these names. -/
theorem find_names (h : t.Reached place) (hp : p.steps = place.map .name) (hne : p.bytes ≠ [])
    (hfits : p.Fits) : t.find [] p = .ok place := by
  refine find_eq_ok_iff.2 (locate_eq_ok_iff.2 ⟨hfits.nul_notMem, hne, hfits.short, ?_⟩)
  rw [ite_self, hp, ← List.append_nil (place.map Step.name), walk_names h, walk_nil]

/-- A path leads to a place, seen from a directory.  The empty path stays in the directory. -/
def Leads (t : FileTree) (dir : Place) (p : Path) (place : Place) : Prop :=
  t.find dir p = .ok place ∨ p.bytes = [] ∧ place = dir

/-- A path that is written after the path of a directory ends where it ends from there. -/
theorem locate_of_locate_join (hdir : t.Reached dir) (hisDir : t.isDirectory dir = true)
    (hlocate : t.locate cwd (dir.path.join p) = .ok goal) :
    t.locate dir p = .ok goal ∨ p.bytes = [] ∧ goal = .existing dir := by
  cases habs : p.isAbsolute with
  | true =>
    rw [Path.join, if_pos habs] at hlocate
    exact .inl ((locate_of_isAbsolute habs dir cwd).trans hlocate)
  | false =>
    obtain ⟨hnul, -, hshort, hwalk⟩ := locate_eq_ok_iff.1 hlocate
    rw [if_pos (Place.isAbsolute_join dir p), Place.steps_join hdir.isName habs,
      walk_names hdir] at hwalk
    rw [Place.join_path hdir.isName habs] at hnul hshort
    by_cases hnil : p.bytes = []
    · rw [if_pos hnil, walk, if_pos hisDir, walk_nil] at hwalk
      exact .inr ⟨hnil, (Except.ok.inj hwalk).symm⟩
    · rw [if_neg hnil] at hwalk
      have hlength : p.bytes.length ≤ maxPath := by
        simp only [List.length_append, List.length_cons] at hshort
        omega
      refine .inl (locate_eq_ok_iff.2 ⟨fun hmem => hnul (by simp [hmem]), hnil, hlength, ?_⟩)
      rw [habs]
      exact hwalk

/-- **A path that is written after the path of a directory leads where it leads from there.** -/
theorem leads_of_find_join (hdir : t.Reached dir) (hisDir : t.isDirectory dir = true)
    (hfind : t.find cwd (dir.path.join p) = .ok place) : t.Leads dir p place := by
  rcases locate_of_locate_join hdir hisDir (find_eq_ok_iff.1 hfind) with hlocate | ⟨hnil, hgoal⟩
  · exact .inl (find_eq_ok_iff.2 hlocate)
  · exact .inr ⟨hnil, Goal.existing.inj hgoal⟩

theorem Leads.unique {place' : Place} (h : t.Leads dir p place) (h' : t.Leads dir p place') :
    place = place' := by
  have hempty {q : Place} (hnil : p.bytes = []) (hfind : t.find dir p = .ok q) : False :=
    (locate_eq_ok_iff.1 (find_eq_ok_iff.1 hfind)).2.1 hnil
  rcases h with h | ⟨hnil, rfl⟩ <;> rcases h' with h' | ⟨hnil', rfl⟩
  · exact Except.ok.inj (h.symm.trans h')
  · exact (hempty hnil' h).elim
  · exact (hempty hnil h').elim
  · rfl

/-- The other way round this holds where the path that is written fits. -/
theorem find_join_of_leads (hdir : t.Reached dir) (hisDir : t.isDirectory dir = true)
    (hfits : (dir.path.join p).Fits) (hleads : t.Leads dir p place) (cwd : Place) :
    t.find cwd (dir.path.join p) = .ok place := by
  cases habs : p.isAbsolute with
  | true =>
    rw [Path.join, if_pos habs, find_of_isAbsolute habs cwd dir]
    refine hleads.resolve_right fun hempty => ?_
    obtain ⟨rest, hbytes⟩ := Path.exists_of_isAbsolute habs
    rw [hbytes] at hempty
    exact List.cons_ne_nil _ _ hempty.1
  | false =>
    have hjoin := Place.isAbsolute_join dir p
    obtain ⟨rest, hbytes⟩ := Path.exists_of_isAbsolute hjoin
    refine find_eq_ok_iff.2
      (locate_eq_ok_iff.2 ⟨hfits.nul_notMem, by simp [hbytes], hfits.short, ?_⟩)
    rw [if_pos hjoin, Place.steps_join hdir.isName habs, walk_names hdir]
    rcases hleads with hfind | ⟨hnil, rfl⟩
    · obtain ⟨-, hne, -, hwalk⟩ := locate_eq_ok_iff.1 (find_eq_ok_iff.1 hfind)
      rw [if_neg hne]
      rwa [habs] at hwalk
    · rw [if_pos hnil, walk, if_pos hisDir, walk_nil]

end FileTree

namespace Host

variable {h : Host} {here : Place} {q : Path} {goal : Goal}

/-- The current directory is a directory of the file system, and no link leads to it. -/
structure Stands (h : Host) : Prop where
  reached : h.tree.Reached h.cwd
  isDirectory : h.tree.isDirectory h.cwd = true

/-- There is a current directory exactly where one stands. -/
theorem currentDirectory_eq_ok_iff : h.currentDirectory = .ok here ↔ here = h.cwd ∧ h.Stands := by
  rw [currentDirectory]
  constructor
  · intro hhere
    split at hhere
    · cases hhere
    · rename_i goal hwalk
      split at hhere
      · rename_i hcwd
        obtain ⟨rfl, hdir⟩ := hcwd
        have hreached := FileTree.reached_of_walk .root (fun _ => Path.isName_of_mem_steps) hwalk
        exact ⟨(Except.ok.inj hhere).symm, hreached, hdir⟩
      · cases hhere
  · rintro ⟨rfl, hh⟩
    rw [FileTree.walk_path hh.reached]
    exact if_pos ⟨rfl, hh.isDirectory⟩

theorem currentDirectory_eq_error_iff {e : IoError} :
    h.currentDirectory = .error e ↔ ¬ h.Stands ∧ e = .noSuchFile := by
  by_cases hh : h.Stands
  · rw [currentDirectory_eq_ok_iff.2 ⟨rfl, hh⟩]
    exact iff_of_false (fun heq => nomatch heq) fun hgone => hgone.1 hh
  · have herror : h.currentDirectory = .error .noSuchFile := by
      cases hhere : h.currentDirectory with
      | ok here => exact absurd (currentDirectory_eq_ok_iff.1 hhere).2 hh
      | error e =>
        rw [currentDirectory] at hhere
        split at hhere
        · exact hhere.symm
        · split at hhere
          · cases hhere
          · exact hhere.symm
    rw [herror, Except.error.injEq, eq_comm, and_iff_right hh]

/-- A path is seen, from the root or from a current directory that is there. -/
def Sees (h : Host) (p : Path) : Prop := p.isAbsolute = true ∨ h.Stands

/-- What is known of the directory from which a path is seen. -/
theorem viewpoint_eq_ok_iff :
    h.viewpoint p = .ok here ↔
      p.isAbsolute = true ∧ here = [] ∨ p.isAbsolute = false ∧ here = h.cwd ∧ h.Stands := by
  rw [viewpoint]
  cases p.isAbsolute with
  | true => simp [eq_comm]
  | false => simp [currentDirectory_eq_ok_iff]

theorem viewpoint_of_stands (hh : h.Stands) (hp : p.isAbsolute = false) :
    h.viewpoint p = .ok h.cwd :=
  viewpoint_eq_ok_iff.2 (.inr ⟨hp, rfl, hh⟩)

theorem exists_viewpoint_iff : (∃ here, h.viewpoint p = .ok here) ↔ h.Sees p := by
  simp only [viewpoint_eq_ok_iff, Sees]
  cases p.isAbsolute <;> simp

theorem reached_of_viewpoint (hv : h.viewpoint p = .ok here) :
    h.tree.Reached here ∧ h.tree.isDirectory here = true := by
  rcases viewpoint_eq_ok_iff.1 hv with ⟨-, rfl⟩ | ⟨-, rfl, hh⟩
  · exact ⟨.root, rfl⟩
  · exact ⟨hh.reached, hh.isDirectory⟩

/-- A path leads from there where it leads from the current directory. -/
theorem locate_viewpoint (hv : h.viewpoint p = .ok here) :
    h.tree.locate here p = h.tree.locate h.cwd p := by
  rcases viewpoint_eq_ok_iff.1 hv with ⟨habs, rfl⟩ | ⟨-, rfl, -⟩
  · exact FileTree.locate_of_isAbsolute habs _ _
  · rfl

theorem find_viewpoint (hv : h.viewpoint p = .ok here) :
    h.tree.find here p = h.tree.find h.cwd p := by
  rw [FileTree.find, FileTree.find, locate_viewpoint hv]

theorem reached_of_sees (hp : h.Sees p) (hfind : h.tree.find h.cwd p = .ok place) :
    h.tree.Reached place := by
  obtain ⟨here, hv⟩ := exists_viewpoint_iff.2 hp
  rw [← find_viewpoint hv] at hfind
  exact FileTree.reached_of_find (reached_of_viewpoint hv).1 hfind

theorem absolutize_eq_ok_iff :
    h.absolutize p = .ok q ↔
      ∃ here, h.viewpoint p = .ok here ∧
        (h.tree.canonical? here p).getD (here.path.join p) = q := by
  rw [absolutize]
  cases h.viewpoint p with
  | error e => simp [Except.map]
  | ok here => simp [Except.map]

theorem absolutize_eq_error_iff {e : IoError} :
    h.absolutize p = .error e ↔ ¬ h.Sees p ∧ e = .noSuchFile := by
  rw [absolutize, viewpoint, Sees]
  cases p.isAbsolute with
  | true => simp [Except.map]
  | false =>
    simp only [Bool.false_eq_true, if_false, false_or, ← currentDirectory_eq_error_iff]
    cases h.currentDirectory <;> simp [Except.map]

theorem exists_absolutize_iff : (∃ q, h.absolutize p = .ok q) ↔ h.Sees p := by
  rw [← exists_viewpoint_iff]
  simp only [absolutize_eq_ok_iff]
  exact ⟨fun ⟨_, here, hv, _⟩ => ⟨here, hv⟩, fun ⟨here, hv⟩ => ⟨_, here, hv, rfl⟩⟩

/-- A path that leads somewhere is made absolute as the path of this place, and any other is written
after the path of a directory. -/
theorem absolutize_cases (ha : h.absolutize p = .ok q) :
    (∃ place, h.tree.find h.cwd p = .ok place ∧ h.tree.Reached place ∧ q = place.path) ∨
      ∃ here e, h.viewpoint p = .ok here ∧ h.tree.find h.cwd p = .error e ∧
        q = here.path.join p := by
  obtain ⟨here, hv, rfl⟩ := absolutize_eq_ok_iff.1 ha
  rw [FileTree.canonical?, find_viewpoint hv]
  cases hfind : h.tree.find h.cwd p with
  | error e => exact .inr ⟨here, e, hv, rfl, rfl⟩
  | ok place =>
    exact .inl ⟨place, rfl, reached_of_sees (exists_viewpoint_iff.1 ⟨here, hv⟩) hfind, rfl⟩

theorem absolutize_of_find (hv : h.viewpoint p = .ok here)
    (hfind : h.tree.find h.cwd p = .ok place) : h.absolutize p = .ok place.path := by
  refine absolutize_eq_ok_iff.2 ⟨here, hv, ?_⟩
  rw [FileTree.canonical?, find_viewpoint hv, hfind, Option.getD_some]

theorem absolutize_of_find_error {e : IoError} (hv : h.viewpoint p = .ok here)
    (hfind : h.tree.find h.cwd p = .error e) : h.absolutize p = .ok (here.path.join p) := by
  refine absolutize_eq_ok_iff.2 ⟨here, hv, ?_⟩
  rw [FileTree.canonical?, find_viewpoint hv, hfind, Option.getD_none]

theorem isAbsolute_of_absolutize (ha : h.absolutize p = .ok q) : q.isAbsolute = true := by
  rcases absolutize_cases ha with ⟨place, -, -, rfl⟩ | ⟨here, e, -, -, rfl⟩
  · exact place.isAbsolute_path
  · exact here.isAbsolute_join p

/-- Only the current directory is seen from itself by the empty path. -/
theorem eq_cwd_of_viewpoint (hv : h.viewpoint p = .ok here) (hnil : p.bytes = []) :
    here = h.cwd := by
  have hrelative : p.isAbsolute = false := by
    rw [Path.isAbsolute, hnil]
    rfl
  rcases viewpoint_eq_ok_iff.1 hv with ⟨habs, -⟩ | ⟨-, rfl, -⟩
  · cases hrelative.symm.trans habs
  · rfl

/-- A path made absolute ends where the path itself ends, seen from the current directory. -/
theorem locate_of_locate_absolutize (ha : h.absolutize p = .ok q) {cwd : Place}
    (hlocate : h.tree.locate cwd q = .ok goal) :
    h.tree.locate h.cwd p = .ok goal ∨ p.bytes = [] ∧ goal = .existing h.cwd ∧ h.Stands := by
  rcases absolutize_cases ha with ⟨place, hp, hreached, rfl⟩ | ⟨here, e, hv, -, rfl⟩
  · obtain ⟨-, -, -, hwalk⟩ := FileTree.locate_eq_ok_iff.1 hlocate
    rw [if_pos place.isAbsolute_path, FileTree.walk_path hreached] at hwalk
    exact .inl (Except.ok.inj hwalk ▸ FileTree.find_eq_ok_iff.1 hp)
  · obtain ⟨hreached, hdir⟩ := reached_of_viewpoint hv
    rcases FileTree.locate_of_locate_join hreached hdir hlocate with hl | ⟨hnil, hgoal⟩
    · exact .inl ((locate_viewpoint hv).symm.trans hl)
    · obtain rfl := eq_cwd_of_viewpoint hv hnil
      exact .inr ⟨hnil, hgoal, hreached, hdir⟩

/-- **A path made absolute leads where the path itself leads**, seen from the current directory. -/
theorem leads_of_find_absolutize (ha : h.absolutize p = .ok q) {cwd : Place}
    (hfind : h.tree.find cwd q = .ok place) : h.tree.Leads h.cwd p place := by
  rcases locate_of_locate_absolutize ha (FileTree.find_eq_ok_iff.1 hfind) with
    hlocate | ⟨hnil, hgoal, -⟩
  · exact .inl (FileTree.find_eq_ok_iff.2 hlocate)
  · exact .inr ⟨hnil, Goal.existing.inj hgoal⟩

/-- It does lead there where it fits. -/
theorem find_absolutize_of_leads (ha : h.absolutize p = .ok q) (hfits : q.Fits)
    (hleads : h.tree.Leads h.cwd p place) (cwd : Place) : h.tree.find cwd q = .ok place := by
  rcases absolutize_cases ha with ⟨place', hp, hreached, rfl⟩ | ⟨here, e, hv, he, rfl⟩
  · obtain rfl := hleads.unique (.inl hp)
    exact FileTree.find_path hreached cwd hfits
  · obtain ⟨hreached, hdir⟩ := reached_of_viewpoint hv
    rcases hleads with hp | ⟨hnil, rfl⟩
    · cases he.symm.trans hp
    · obtain rfl := eq_cwd_of_viewpoint hv hnil
      exact FileTree.find_join_of_leads hreached hdir hfits (.inr ⟨hnil, rfl⟩) cwd

end Host

end InlineAudit
