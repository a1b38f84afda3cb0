/-
Candidate sets, however they are put together.

A set grows by one symbol, by several symbols of a package, or by another set.  Order is kept inside
a package and forgotten between packages, so a set is known from what it holds for each package, and
this is read off what was given for it:

* `list?`, `eq_of_list?` — the list of a package, and sets that agree in all of these;
* `symbolsOf`, `eq_of_symbolsOf` — the same without telling a package that has no symbols from one
  that is not there;
* `given?` — the list that some pairs give for a package, one after the other;
* `list?_foldl_append`, `list?_merge` — what a set holds after further pairs, or another set;
* `Gathers` — a set holds what some pairs give, and nothing else;
* **`builders_agree`** — every sequence of additions gathers what it is given, and the ways to put a
  set together that give the same come to the same set.

Design notes: joined lists are joined in the order in which they are given, and a package that is
given without symbols is there all the same, so what is given for a package is an optional list.
-/
import InlineAudit.Proofs.Candidates.Validity
import InlineAudit.Proofs.Text.ByteOrder

namespace InlineAudit.Candidates

variable {a b c cs other : Candidates} {p q s : String} {symbols : List String}
  {es ws : List (String × List String)}

/-! ### What a set holds for a package -/

/-- The list of a package, if the set has the package. -/
def list? (cs : Candidates) (package : String) : Option (List String) :=
  cs.entries.lookup package

/-- Of two lists the one behind the other, where both are there. -/
def joined : Option (List String) → Option (List String) → Option (List String) :=
  Option.merge (· ++ ·)

theorem joined_assoc (xs ys zs : Option (List String)) :
    joined (joined xs ys) zs = joined xs (joined ys zs) :=
  @Std.Associative.assoc _ (Option.merge (· ++ ·)) _ xs ys zs

@[simp] theorem joined_none_left (xs : Option (List String)) : joined none xs = xs :=
  Option.merge_none_left

@[simp] theorem joined_none_right (xs : Option (List String)) : joined xs none = xs :=
  Option.merge_none_right

/-- A package that comes before all others of a list is not in it. -/
theorem lookup_eq_none_of_lt (h : ∀ e ∈ es, p < e.1) : es.lookup p = none := by
  rw [List.lookup_eq_none_iff]
  intro e he
  rw [bne_iff_ne]
  rintro rfl
  exact String.lt_irrefl _ (h e he)

theorem list?_eq_some_iff : cs.list? p = some symbols ↔ (p, symbols) ∈ cs.toList :=
  lookup_eq_some_iff_mem (nodup_packages cs)

/-- **A set is known from the lists of its packages.** -/
theorem eq_of_list? (h : ∀ package, a.list? package = b.list? package) : a = b := by
  refine eq_of_perm ((List.perm_ext_iff_of_nodup a.nodup_entries b.nodup_entries).2 fun e => ?_)
  rw [← toList, ← toList, ← list?_eq_some_iff, ← list?_eq_some_iff, h]

/-- The symbols of a package; one that the set does not have has none. -/
def symbolsOf (cs : Candidates) (package : String) : List String :=
  (cs.list? package).getD []

theorem isEmpty_eq_true_iff : cs.isEmpty = true ↔ cs.size = 0 := by
  rw [isEmpty, beq_iff_eq]

theorem mem_packages_iff_exists_list? : p ∈ cs.packages ↔ ∃ symbols, cs.list? p = some symbols := by
  simp only [list?_eq_some_iff, packages, List.mem_map, Prod.exists, exists_and_right,
    exists_eq_right]
  rfl

theorem list?_eq (cs : Candidates) (p : String) :
    cs.list? p = if p ∈ cs.packages then some (cs.symbolsOf p) else none := by
  rw [symbolsOf]
  split
  · rename_i hmem
    obtain ⟨symbols, hlist⟩ := mem_packages_iff_exists_list?.1 hmem
    rw [hlist, Option.getD_some]
  · rename_i hmem
    rw [mem_packages_iff_exists_list?] at hmem
    exact Option.eq_none_iff_forall_ne_some.2 fun symbols hlist => hmem ⟨symbols, hlist⟩

/-- A set is known from its packages and their symbols. -/
theorem eq_of_symbolsOf (hpackages : ∀ p, p ∈ a.packages ↔ p ∈ b.packages)
    (hsymbols : ∀ p, a.symbolsOf p = b.symbolsOf p) : a = b := by
  refine eq_of_list? fun p => ?_
  rw [list?_eq, list?_eq, hsymbols]
  simp only [hpackages]

theorem lookup_alter (f : List String → List String) (p q : String)
    (hes : es.Pairwise fun a b => a.1 < b.1) :
    (alter p f es).lookup q =
      if q = p then some (f ((es.lookup p).getD [])) else es.lookup q := by
  induction es with
  | nil => exact lookup_cons_eq_ite (p, f []) [] q
  | cons e es ih =>
    obtain ⟨r, ts⟩ := e
    obtain ⟨hr, hes⟩ := List.pairwise_cons.1 hes
    rw [alter]
    split
    · rename_i hpr
      have hnone : List.lookup p ((r, ts) :: es) = none := by
        refine lookup_eq_none_of_lt fun e he => ?_
        rcases List.mem_cons.1 he with rfl | he
        · exact hpr
        · exact String.lt_trans hpr (hr e he)
      rw [lookup_cons_eq_ite, hnone, Option.getD_none]
    · split
      · rename_i hpr
        subst hpr
        rw [List.lookup_cons_self, lookup_cons_eq_ite, lookup_cons_eq_ite, Option.getD_some]
        split <;> rfl
      · rename_i hpr
        have hlater : List.lookup p ((r, ts) :: es) = es.lookup p := by
          rw [lookup_cons_eq_ite, if_neg hpr]
        rw [hlater, lookup_cons_eq_ite, lookup_cons_eq_ite, ih hes]
        by_cases hqp : q = p
        · rw [if_pos hqp, if_pos hqp, if_neg (fun hqr => hpr (hqp.symm.trans hqr))]
        · rw [if_neg hqp, if_neg hqp]

theorem list?_empty (package : String) : empty.list? package = none := rfl

theorem list?_append (cs : Candidates) (p q : String) (symbols : List String) :
    (cs.append p symbols).list? q =
      joined (cs.list? q) (if p = q then some symbols else none) := by
  rw [append, list?, lookup_alter _ p q cs.ascending]
  by_cases h : p = q
  · subst h
    rw [if_pos rfl, if_pos rfl, list?]
    cases cs.entries.lookup p <;> rfl
  · rw [if_neg (Ne.symm h), if_neg h, joined_none_right, list?]

/-! ### What some pairs give -/

/-- The list that some pairs give for a package, one after the other. -/
def given? (package : String) : List (String × List String) → Option (List String)
  | [] => none
  | e :: rest => joined (if e.1 = package then some e.2 else none) (given? package rest)

theorem given?_append (package : String) (vs ws : List (String × List String)) :
    given? package (vs ++ ws) = joined (given? package vs) (given? package ws) := by
  induction vs with
  | nil => rw [List.nil_append, given?, joined_none_left]
  | cons e vs ih => rw [List.cons_append, given?, given?, ih, joined_assoc]

/-- What some pairs give for a package is there if one of them names the package, and then it is made
of the lists of all that do. -/
theorem given?_eq (package : String) (ws : List (String × List String)) :
    given? package ws = if package ∈ ws.map (·.1) then
      some ((ws.filter fun e => e.1 = package).flatMap (·.2)) else none := by
  induction ws with
  | nil => rfl
  | cons e ws ih =>
    rw [given?, ih]
    by_cases he : e.1 = package
    · have hmem : package ∈ (e :: ws).map (·.1) := List.mem_cons.2 (.inl he.symm)
      rw [if_pos he, if_pos hmem, List.filter_cons_of_pos (by simpa using he), List.flatMap_cons]
      by_cases hws : package ∈ ws.map (·.1)
      · rw [if_pos hws]
        rfl
      · have hnone : ws.filter (fun e => e.1 = package) = [] := by
          rw [List.filter_eq_nil_iff]
          intro f hf
          rw [decide_eq_true_iff]
          rintro rfl
          exact hws (List.mem_map_of_mem hf)
        rw [if_neg hws, hnone, joined_none_right, List.flatMap_nil, List.append_nil]
    · have hmem : package ∈ (e :: ws).map (·.1) ↔ package ∈ ws.map (·.1) :=
        List.mem_cons.trans (or_iff_right (Ne.symm he))
      rw [if_neg he, joined_none_left, List.filter_cons_of_neg (by simpa using he)]
      simp only [hmem]

/-- Pairs that name each package once give its list. -/
theorem given?_eq_some_iff (hws : (ws.map (·.1)).Nodup) :
    given? p ws = some symbols ↔ (p, symbols) ∈ ws := by
  induction ws with
  | nil => simp [given?]
  | cons e ws ih =>
    obtain ⟨q, ts⟩ := e
    rw [List.map_cons, List.nodup_cons] at hws
    obtain ⟨hq, hws⟩ := hws
    rw [given?, List.mem_cons, Prod.mk.injEq]
    by_cases hqp : q = p
    · subst hqp
      have hnone : given? q ws = none := by rw [given?_eq, if_neg hq]
      have hmem : (q, symbols) ∉ ws := fun h => hq (List.mem_map.2 ⟨_, h, rfl⟩)
      rw [if_pos rfl, hnone, joined_none_right]
      simp [hmem, eq_comm]
    · rw [if_neg hqp, joined_none_left, ih hws]
      simp [Ne.symm hqp]

/-- The entries of a set, in any order, give what the set holds. -/
theorem given?_of_perm (h : ws.Perm cs.toList) (package : String) :
    given? package ws = cs.list? package := by
  have hws : (ws.map (·.1)).Nodup := (h.map _).nodup_iff.2 (nodup_packages cs)
  refine Option.ext fun symbols => ?_
  rw [given?_eq_some_iff hws, list?_eq_some_iff, h.mem_iff]

/-! ### Sets put together -/

/-- A set holds what it held and what further pairs give. -/
theorem list?_foldl_append (ws : List (String × List String)) (cs : Candidates)
    (package : String) :
    (ws.foldl (fun acc e => acc.append e.1 e.2) cs).list? package =
      joined (cs.list? package) (given? package ws) := by
  induction ws generalizing cs with
  | nil => rw [List.foldl_nil, given?, joined_none_right]
  | cons e ws ih => rw [List.foldl_cons, ih, list?_append, given?, joined_assoc]

theorem list?_ofList (ws : List (String × List String)) (package : String) :
    (ofList ws).list? package = given? package ws := by
  rw [ofList, list?_foldl_append, list?_empty, joined_none_left]

/-- Two sets merged hold what the first holds and then what the second does. -/
theorem list?_merge (cs other : Candidates) (package : String) :
    (cs.merge other).list? package = joined (cs.list? package) (other.list? package) := by
  rw [merge, list?_foldl_append, ← given?_of_perm (List.Perm.refl other.toList), toList]

theorem symbolsOf_merge (cs other : Candidates) (p : String) :
    (cs.merge other).symbolsOf p = cs.symbolsOf p ++ other.symbolsOf p := by
  rw [symbolsOf, list?_merge, symbolsOf, symbolsOf]
  cases cs.list? p <;> cases other.list? p <;> simp [joined]

theorem merge_assoc (a b c : Candidates) : (a.merge b).merge c = a.merge (b.merge c) := by
  refine eq_of_list? fun package => ?_
  rw [list?_merge, list?_merge, list?_merge, list?_merge, joined_assoc]

theorem empty_merge (cs : Candidates) : empty.merge cs = cs := by
  refine eq_of_list? fun package => ?_
  rw [list?_merge, list?_empty, joined_none_left]

theorem ofList_append (vs ws : List (String × List String)) :
    ofList (vs ++ ws) = (ofList vs).merge (ofList ws) := by
  refine eq_of_list? fun package => ?_
  rw [list?_merge, list?_ofList, list?_ofList, list?_ofList, given?_append]

/-- The entries of another set may be added in any order. -/
theorem foldl_append_of_perm (h : ws.Perm other.toList) (cs : Candidates) :
    ws.foldl (fun acc e => acc.append e.1 e.2) cs = cs.merge other := by
  refine eq_of_list? fun package => ?_
  rw [list?_foldl_append, given?_of_perm h, list?_merge]

theorem append_append (cs : Candidates) (p : String) (ss ts : List String) :
    (cs.append p ss).append p ts = cs.append p (ss ++ ts) := by
  refine eq_of_list? fun q => ?_
  rw [list?_append, list?_append, list?_append, joined_assoc]
  by_cases h : p = q
  · rw [if_pos h, if_pos h, if_pos h]
    rfl
  · rw [if_neg h, if_neg h, if_neg h, joined_none_right]

/-- Symbols added one by one, of which there is at least one. -/
theorem foldl_add (cs : Candidates) (p s : String) (ss : List String) :
    (s :: ss).foldl (fun acc t => acc.add p t) cs = cs.append p (s :: ss) := by
  induction ss generalizing cs s with
  | nil => rfl
  | cons t ss ih =>
    rw [List.foldl_cons, ih, add, append_append]
    rfl

/-! ### Additions -/

/-- Something that is added to a set. -/
inductive Addition
  /-- A symbol of a package. -/
  | symbol (package symbol : String)
  /-- Symbols of a package, or the package alone. -/
  | symbols (package : String) (symbols : List String)
  /-- Another set. -/
  | set (other : Candidates)

namespace Addition

/-- A set with an addition. -/
def addTo (cs : Candidates) : Addition → Candidates
  | .symbol p s => cs.add p s
  | .symbols p ss => cs.append p ss
  | .set other => cs.merge other

/-- What an addition gives. -/
def pairs : Addition → List (String × List String)
  | .symbol p s => [(p, [s])]
  | .symbols p ss => [(p, ss)]
  | .set other => other.toList

end Addition

/-- Whatever is added, its pairs are. -/
theorem foldl_addTo (additions : List Addition) (cs : Candidates) :
    additions.foldl Addition.addTo cs =
      (additions.flatMap Addition.pairs).foldl (fun acc e => acc.append e.1 e.2) cs := by
  induction additions generalizing cs with
  | nil => rfl
  | cons x additions ih =>
    rw [List.foldl_cons, ih, List.flatMap_cons, List.foldl_append]
    cases x <;> rfl

/-- A set holds what some pairs give, and nothing else. -/
structure Gathers (cs : Candidates) (ws : List (String × List String)) : Prop where
  /-- The packages ascend, by their bytes. -/
  ascending : (cs.packages.map Utf8.encode).Pairwise (· < ·)
  /-- A package that is given without symbols is there too. -/
  packages : ∀ p, p ∈ cs.packages ↔ p ∈ ws.map (·.1)
  /-- The symbols of a package stand in the order in which they are given. -/
  symbols : ∀ p symbols, (p, symbols) ∈ cs.toList →
    symbols = (ws.filter fun e => e.1 = p).flatMap (·.2)
  size : cs.size = (ws.flatMap (·.2)).length

theorem pairwise_encode_packages (cs : Candidates) :
    (cs.packages.map Utf8.encode).Pairwise (· < ·) := by
  rw [packages, List.map_map, List.pairwise_map]
  exact cs.ascending.imp fun hlt => Utf8.encode_lt_encode_iff.2 hlt

theorem gathers_ofList (ws : List (String × List String)) : (ofList ws).Gathers ws where
  ascending := pairwise_encode_packages _
  packages p := by
    rw [ofList, mem_packages_foldl_append_iff]
    exact or_iff_right List.not_mem_nil
  symbols p symbols hmem := by
    rw [← list?_eq_some_iff, list?_ofList, given?_eq] at hmem
    split at hmem
    · exact (Option.some.inj hmem).symm
    · cases hmem
  size := by
    have hnames := (names_foldl_append_perm empty ws).length_eq
    rw [← length_names, ofList, hnames, List.length_append, List.length_flatMap, List.length_flatMap]
    simp [names, empty]

/-- **The ways to put a set together agree.**  Whatever is added to a set that starts from some
pairs, the set gathers these and all that is added.  Pairs taken together give the sets of both
parts, merged; merging is associative, with the empty set on either side; symbols added one by one
are symbols added at once; and to merge with a set is to add its entries, in any order. -/
theorem builders_agree :
    (∀ start additions, (List.foldl Addition.addTo (ofList start) additions).Gathers
      (start ++ additions.flatMap Addition.pairs)) ∧
    (∀ vs ws, ofList (vs ++ ws) = (ofList vs).merge (ofList ws)) ∧
    (∀ a b c : Candidates, (a.merge b).merge c = a.merge (b.merge c)) ∧
    (∀ cs : Candidates, empty.merge cs = cs ∧ cs.merge empty = cs) ∧
    (∀ (cs : Candidates) p (symbols : List String), symbols ≠ [] →
      symbols.foldl (fun acc s => acc.add p s) cs = cs.append p symbols) ∧
    ∀ (cs other : Candidates) (pairs : List (String × List String)), pairs.Perm other.toList →
      pairs.foldl (fun acc e => acc.append e.1 e.2) cs = cs.merge other := by
  refine ⟨fun start additions => ?_, ofList_append, merge_assoc, fun cs => ⟨empty_merge cs, rfl⟩,
    fun cs p symbols hne => ?_, fun cs other pairs h => foldl_append_of_perm h cs⟩
  · rw [foldl_addTo, ofList, ← List.foldl_append]
    exact gathers_ofList _
  · obtain ⟨s, ss, rfl⟩ := List.exists_cons_of_ne_nil hne
    exact foldl_add cs p s ss

/-- Two packages that come in the other order, one of which the set has already. -/
theorem builders_agree_swapped :
    let start := ofList [("q", ["Z"])]
    let other := ofList [("p", ["A", "B"]), ("q", ["C"])]
    let swapped := [("q", ["C"]), ("p", ["A", "B"])]
    swapped.Perm other.toList ∧
      swapped.foldl (fun acc e => acc.append e.1 e.2) start = start.merge other ∧
      (start.merge other).toList = [("p", ["A", "B"]), ("q", ["Z", "C"])] ∧
      ["A", "B"] ≠ [] ∧
      ["A", "B"].foldl (fun acc s => acc.add "p" s) start = start.append "p" ["A", "B"] := by
  intro start other swapped
  have hperm : swapped.Perm other.toList := List.Perm.swap _ _ _
  obtain ⟨-, -, -, -, honebyone, hanyorder⟩ := builders_agree
  exact ⟨hperm, hanyorder start other swapped hperm, by decide +kernel, by decide,
    honebyone start "p" ["A", "B"] (by decide)⟩

end InlineAudit.Candidates
