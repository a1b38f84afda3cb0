/-
Which arguments name a candidate.

There are two ways to write a candidate as an argument, told apart by an equals sign.  With one, the
package is what comes before the first; without, the package ends at the first dot after the last
slash:

* `LastElement` — the part of a path after its last slash;
* `splitAtDot?_eq_some_iff` — where a text without an equals sign is cut;
* `Names` — the arguments that name a candidate, as a grammar;
* `candidate?_eq_some_iff` — an argument is read as the candidate that it names;
* `resolve_eq_emptyPackage_iff` — so no argument brings in a package without a name;
* **`argument_names_one`** — what is accepted, what is refused, and how each candidate can be
  written.
-/
import InlineAudit.Proofs.Candidates.Arrangement
import InlineAudit.Proofs.Command.Inputs
import InlineAudit.Proofs.Text.Occurrence
import Mathlib.Data.List.Infix

namespace InlineAudit.Command

variable {path element cs p s : List Char} {package symbol argument : String}

/-! ### The last element of a path -/

/-- The part of a path after its last slash, or all of a path that has none. -/
structure LastElement (path element : List Char) : Prop where
  flat : '/' ∉ element
  ends : path = element ∨ ∃ front, path = front ++ '/' :: element

theorem lastElement_of_flat (h : '/' ∉ path) : lastElement path = path := by
  have hrev : '/' ∉ path.reverse := by rwa [List.mem_reverse]
  have hall := takeWhile_ne_of_notMem hrev []
  rw [List.append_nil, List.takeWhile_nil, List.append_nil] at hall
  rw [lastElement, hall, List.reverse_reverse]

theorem lastElement_append (front : List Char) (h : '/' ∉ element) :
    lastElement (front ++ '/' :: element) = element := by
  have hrev : '/' ∉ element.reverse := by rwa [List.mem_reverse]
  have hcut : (front ++ '/' :: element).reverse = element.reverse ++ '/' :: front.reverse := by
    simp
  rw [lastElement, hcut, takeWhile_ne_of_notMem hrev, List.takeWhile_cons_of_neg (by simp),
    List.append_nil, List.reverse_reverse]

theorem lastElement_spec (path : List Char) : LastElement path (lastElement path) := by
  by_cases h : '/' ∈ path
  · -- the last slash of the path is the first of its reverse
    obtain ⟨word, rest, hrev, hword⟩ := List.eq_append_cons_of_mem (List.mem_reverse.2 h)
    have hpath : path = rest.reverse ++ '/' :: word.reverse := by
      rw [← List.reverse_reverse path, hrev]
      simp
    have hflat : '/' ∉ word.reverse := by rwa [List.mem_reverse]
    rw [hpath, lastElement_append _ hflat]
    exact ⟨hflat, .inr ⟨_, rfl⟩⟩
  · rw [lastElement_of_flat h]
    exact ⟨h, .inl rfl⟩

theorem lastElement_eq_iff : lastElement path = element ↔ LastElement path element := by
  constructor
  · rintro rfl
    exact lastElement_spec path
  · rintro ⟨hflat, rfl | ⟨front, rfl⟩⟩
    · exact lastElement_of_flat hflat
    · exact lastElement_append front hflat

/-- A path ends in its last element, so the two are told apart by their lengths. -/
theorem take_append_lastElement (path : List Char) :
    path.take (path.length - (lastElement path).length) ++ lastElement path = path := by
  have hsuffix : lastElement path <:+ path := by
    rcases (lastElement_spec path).ends with h | ⟨front, h⟩
    · exact h ▸ List.suffix_rfl
    · exact ⟨front ++ ['/'], by rw [List.append_assoc]; exact h.symm⟩
  exact List.suffix_iff_eq_append.1 hsuffix

/-- Behind the last slash a path can go on. -/
theorem LastElement.append (h : LastElement path element) (hs : '/' ∉ s) :
    LastElement (path ++ '.' :: s) (element ++ '.' :: s) := by
  obtain ⟨hflat, hends⟩ := h
  refine ⟨by simp [hflat, hs], ?_⟩
  rcases hends with rfl | ⟨front, rfl⟩
  · exact .inl rfl
  · exact .inr ⟨front, by simp⟩

/-- A text is cut at the dot that is the first after its last slash. -/
theorem splitAtDot?_eq_some_iff :
    splitAtDot? cs = some (p, s) ↔ cs = p ++ '.' :: s ∧ '/' ∉ s ∧ '.' ∉ lastElement p := by
  have hcut := take_append_lastElement cs
  rw [splitAtDot?]
  dsimp only
  generalize cs.take (cs.length - (lastElement cs).length) = front at hcut
  rw [Option.map_eq_some_iff]
  constructor
  · rintro ⟨⟨before, after⟩, hsplit, heq⟩
    obtain ⟨rfl, rfl⟩ := Prod.mk.inj heq
    obtain ⟨helement, hrun⟩ := splitAtFirst?_eq_some_iff.1 hsplit
    have hspec := lastElement_spec cs
    rw [helement] at hspec hcut
    obtain ⟨hflat, hends⟩ := hspec
    rw [List.mem_append, List.mem_cons, not_or, not_or] at hflat
    obtain ⟨hbefore, -, hafter⟩ := hflat
    rw [← List.append_assoc] at hcut
    refine ⟨hcut.symm, hafter, ?_⟩
    -- the front ends in the last slash, or there is none
    have hlast : LastElement (front ++ before) before := by
      refine ⟨hbefore, ?_⟩
      rw [← hcut, List.append_assoc] at hends
      rcases hends with hends | ⟨front', hends⟩
      · exact .inl (by rw [List.append_left_eq_self.1 hends]; rfl)
      · refine .inr ⟨front', ?_⟩
        have hfront : front = front' ++ ['/'] := by
          have hsame : front ++ (before ++ '.' :: after) =
              front' ++ ['/'] ++ (before ++ '.' :: after) := by
            rw [hends, List.append_assoc]
            rfl
          exact List.append_cancel_right hsame
        rw [hfront, List.append_assoc]
        rfl
    rw [lastElement_eq_iff.2 hlast]
    exact hrun.free
  · rintro ⟨rfl, hs, hp⟩
    have hlast := lastElement_eq_iff.2 ((lastElement_spec p).append hs)
    rw [hlast] at hcut ⊢
    refine ⟨(lastElement p, s), splitAtFirst?_append hp s, ?_⟩
    rw [← List.append_assoc] at hcut
    rw [List.append_cancel_right hcut]

/-! ### Arguments -/

/-- A pair of names, of which the joined name is cut where the two were joined. -/
structure Dotted (package symbol : String) : Prop where
  named : package ≠ ""
  given : symbol ≠ ""
  /-- The symbol has no slash. -/
  flat : '/' ∉ symbol.toList
  /-- The part of the package after its last slash has no dot. -/
  undotted : ∀ element, LastElement package.toList element → '.' ∉ element

/-- The ways to write a candidate as an argument. -/
inductive Names : String → String → String → Prop
  /-- The package ends at the first equals sign. -/
  | equals {package symbol : String} (named : package ≠ "") (given : symbol ≠ "")
    (free : '=' ∉ package.toList) : Names (package ++ "=" ++ symbol) package symbol
  /-- There is no equals sign, and the package ends at the first dot after the last slash. -/
  | dotted {package symbol : String} (shape : Dotted package symbol)
    (free : '=' ∉ (fullName package symbol).toList) : Names (fullName package symbol) package symbol

theorem Names.named (h : Names argument package symbol) : package ≠ "" := by
  cases h with
  | equals named => exact named
  | dotted shape => exact shape.named

/-- Both halves of an argument have to be there. -/
theorem named_halves_iff {before after : List Char} :
    (if before.isEmpty || after.isEmpty then none
      else some (String.ofList before, String.ofList after)) = some (package, symbol) ↔
      package.toList = before ∧ symbol.toList = after ∧ package ≠ "" ∧ symbol ≠ "" := by
  have hempty (text : String) : text ≠ "" ↔ text.toList.isEmpty = false := by
    rw [Ne, ← String.toList_eq_nil_iff, ← List.isEmpty_iff, Bool.not_eq_true]
  constructor
  · intro h
    split at h
    · cases h
    · rename_i hne
      obtain ⟨rfl, rfl⟩ := Prod.mk.inj (Option.some.inj h)
      rw [Bool.or_eq_true, not_or, Bool.not_eq_true, Bool.not_eq_true] at hne
      rw [hempty, hempty, String.toList_ofList, String.toList_ofList]
      exact ⟨rfl, rfl, hne⟩
  · rintro ⟨rfl, rfl, hpackage, hsymbol⟩
    rw [hempty] at hpackage hsymbol
    rw [hpackage, hsymbol, String.ofList_toList, String.ofList_toList]
    rfl

/-- **An argument is read as the candidate that it names.** -/
theorem candidate?_eq_some_iff :
    candidate? argument = some (package, symbol) ↔ Names argument package symbol := by
  rw [candidate?]
  by_cases hsign : '=' ∈ argument.toList
  · obtain ⟨before, after, hcut, hbefore⟩ := List.eq_append_cons_of_mem hsign
    rw [hcut, splitAtFirst?_append hbefore]
    dsimp only
    rw [named_halves_iff]
    constructor
    · rintro ⟨rfl, rfl, hpackage, hsymbol⟩
      have hargument : argument = package ++ "=" ++ symbol := by
        rw [← String.toList_inj, hcut]
        simp
      rw [hargument]
      exact .equals hpackage hsymbol hbefore
    · intro h
      cases h with
      | equals hpackage hsymbol hfree =>
        -- a text has one first equals sign
        have hsame : splitAtFirst? '=' (package.toList ++ '=' :: symbol.toList) =
            some (before, after) := by
          rw [← splitAtFirst?_append hbefore after, ← hcut]
          simp
        rw [splitAtFirst?_append hfree, Option.some.injEq, Prod.mk.injEq] at hsame
        exact ⟨hsame.1, hsame.2, hpackage, hsymbol⟩
      | dotted _ hfree => exact absurd hsign hfree
  · rw [splitAtFirst?_of_notMem hsign]
    dsimp only
    constructor
    · intro h
      split at h
      · cases h
      · rename_i before after hsplit
        obtain ⟨rfl, rfl, hpackage, hsymbol⟩ := named_halves_iff.1 h
        obtain ⟨hcut, hflat, hundotted⟩ := splitAtDot?_eq_some_iff.1 hsplit
        have hargument : argument = fullName package symbol := by
          rw [← String.toList_inj, toList_fullName, hcut]
        rw [hargument] at hsign ⊢
        refine .dotted ⟨hpackage, hsymbol, hflat, fun element helement => ?_⟩ hsign
        rwa [← lastElement_eq_iff.2 helement]
    · intro h
      cases h with
      | equals => exact absurd (by simp) hsign
      | dotted shape =>
        have hsplit : splitAtDot? (fullName package symbol).toList =
            some (package.toList, symbol.toList) :=
          splitAtDot?_eq_some_iff.2 ⟨toList_fullName _ _, shape.flat,
            shape.undotted _ (lastElement_spec _)⟩
        rw [hsplit]
        exact named_halves_iff.2 ⟨rfl, rfl, shape.named, shape.given⟩

theorem Names.unique {package' symbol' : String} (h : Names argument package symbol)
    (h' : Names argument package' symbol') : package = package' ∧ symbol = symbol' := by
  have hread := candidate?_eq_some_iff.2 h
  rw [candidate?_eq_some_iff.2 h', Option.some.injEq, Prod.mk.injEq] at hread
  exact ⟨hread.1.symm, hread.2.symm⟩

/-- An argument that names nothing is refused, whatever is there already. -/
theorem addCandidate_eq_error_iff (cs : Candidates) :
    addCandidate cs argument = .error (.badCandidate argument) ↔
      ¬ ∃ package symbol, Names argument package symbol := by
  cases hc : candidate? argument with
  | none =>
    rw [addCandidate_of_none hc, eq_self_iff_true, true_iff]
    rintro ⟨p, s, hnames⟩
    rw [candidate?_eq_some_iff.2 hnames] at hc
    cases hc
  | some c =>
    obtain ⟨p, s⟩ := c
    rw [addCandidate_of_some hc, iff_not_comm]
    exact ⟨fun _ h => (nomatch h), fun _ => ⟨p, s, candidate?_eq_some_iff.1 hc⟩⟩

/-- Arguments bring in no package without a name. -/
theorem empty_notMem_packages_argued (arguments : List String) :
    "" ∉ (Candidates.ofList (argued arguments)).packages := by
  rw [Candidates.ofList, Candidates.mem_packages_foldl_append_iff, not_or]
  refine ⟨List.not_mem_nil, fun h => ?_⟩
  obtain ⟨e, he, hempty⟩ := List.mem_map.1 h
  obtain ⟨argument, -, symbol, hc, -⟩ := mem_argued_iff.1 he
  exact (candidate?_eq_some_iff.1 hc).named hempty

/-- Where a package without a name is found it is one of the file. -/
theorem resolve_eq_emptyPackage_iff {h : Host} {o : CheckOptions} :
    resolve h o = .error (.invalid .emptyPackage) ↔
      ∃ base, baseFile h o.file = .ok base ∧ AllNamed o.symbols ∧
        (∀ d, o.dir = some d → h.Sees (.ofString d)) ∧
        base.file.candidates.validate = .error .emptyPackage := by
  rw [resolve_eq_invalid_iff]
  simp only [Candidates.validate_eq_emptyPackage_iff]
  constructor
  · rintro ⟨inputs, hmerge, hempty⟩
    obtain ⟨base, extra, build, hbase, hextra, hbuild, rfl⟩ := merge_eq_ok_iff.1 hmerge
    obtain ⟨hall, rfl⟩ := candidates_eq_ok_iff.1 hextra
    rw [Candidates.mem_packages_merge_iff,
      or_iff_left (empty_notMem_packages_argued o.symbols)] at hempty
    exact ⟨base, hbase, hall, exists_mergeSettings_iff.1 ⟨build, hbuild⟩, hempty⟩
  · rintro ⟨base, hbase, hall, hseen, hempty⟩
    obtain ⟨build, hbuild⟩ := exists_mergeSettings_iff.2 hseen
    refine ⟨_, merge_eq_ok_iff.2
      ⟨base, _, build, hbase, candidates_of_allNamed hall, hbuild, rfl⟩, ?_⟩
    exact Candidates.mem_packages_merge_iff.2 (.inl hempty)

/-- **An argument is read as the one candidate that it names, or it is refused.**  A pair of names
that is cut where it was joined can be written with a dot, every pair whose package has no equals
sign can be written with one, and where a check is refused for a package without a name the file has
such a package. -/
theorem argument_names_one (argument : String) :
    (∀ package symbol,
      candidate? argument = some (package, symbol) ↔ Names argument package symbol) ∧
    (∀ p s q t, Names argument p s → Names argument q t → p = q ∧ s = t) ∧
    (∀ cs, addCandidate cs argument = .error (.badCandidate argument) ↔
      ¬ ∃ package symbol, Names argument package symbol) ∧
    (∀ package symbol, Dotted package symbol → '=' ∉ (fullName package symbol).toList →
      candidate? (fullName package symbol) = some (package, symbol)) ∧
    (∀ package symbol, package ≠ "" → symbol ≠ "" → '=' ∉ package.toList →
      candidate? (package ++ "=" ++ symbol) = some (package, symbol)) ∧
    ∀ h o, resolve h o = .error (.invalid .emptyPackage) ↔
      ∃ base, baseFile h o.file = .ok base ∧ AllNamed o.symbols ∧
        (∀ d, o.dir = some d → h.Sees (.ofString d)) ∧
        base.file.candidates.validate = .error .emptyPackage := by
  refine ⟨fun _ _ => candidate?_eq_some_iff, fun _ _ _ _ h h' => h.unique h',
    addCandidate_eq_error_iff, fun package symbol shape hfree => ?_,
    fun package symbol hpackage hsymbol hfree => ?_, fun _ _ => resolve_eq_emptyPackage_iff⟩
  · exact candidate?_eq_some_iff.2 (.dotted shape hfree)
  · exact candidate?_eq_some_iff.2 (.equals hpackage hsymbol hfree)

/-- A method of a package whose path has a dot, and a package whose last element has one. -/
theorem argument_names_one_method :
    Dotted "github.com/x/y" "(*T).M" ∧
      candidate? "github.com/x/y.(*T).M" = some ("github.com/x/y", "(*T).M") ∧
      candidate? "gopkg.in/yaml.v3=Marshal" = some ("gopkg.in/yaml.v3", "Marshal") ∧
      ∀ p s, Names "gopkg.in/yaml.v3=Marshal" p s → p = "gopkg.in/yaml.v3" ∧ s = "Marshal" := by
  have hshape : Dotted "github.com/x/y" "(*T).M" := by
    refine ⟨by decide, by decide, by decide, fun element helement => ?_⟩
    rw [← lastElement_eq_iff.2 helement]
    decide
  obtain ⟨-, -, -, hdotted, hequals, -⟩ := argument_names_one "gopkg.in/yaml.v3=Marshal"
  have hsign := hequals "gopkg.in/yaml.v3" "Marshal" (by decide) (by decide) (by decide)
  obtain ⟨hread, hunique, -⟩ := argument_names_one "gopkg.in/yaml.v3=Marshal"
  refine ⟨hshape, hdotted _ _ hshape (by decide), hsign, fun p s hnames => ?_⟩
  exact hunique p s _ _ hnames ((hread _ _).1 hsign)

end InlineAudit.Command
