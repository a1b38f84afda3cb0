/-
The events of texts, lists and mappings.

* `pairTokens`, `listTokens`, `sequenceTokens`, `mappingTokens` — the tokens of what stands in a
  mapping;
* `Passes` — the machine goes from one place to another, with some events;
* `Reads` — tokens behind a key, and the events of the node that they are;
* **`events?_of_reads`** — the events of a text whose tokens are a mapping.

Design notes: a list may be written in three ways, in brackets if it is empty, with its items
indented like its key, or in a block of its own.  From the events on these are all the same.
-/
import InlineAudit.Yaml.Event
import InlineAudit.Yaml.Scalar.Written

namespace InlineAudit.Yaml

/-- The token of a scalar that is written as a text. -/
def scalarToken (s : String) : Token := .scalar s.toList (styleFor s)

/-- The tokens of the items of a list. -/
def itemTokens (items : List String) : List Token :=
  items.flatMap fun s => [.blockEntry, scalarToken s]

/-- The tokens of a list behind a simple key. -/
def listTokens (items : List String) : List Token :=
  if items.isEmpty then [.flowSequenceStart, .flowSequenceEnd] else itemTokens items

/-- The tokens of a list behind a key with a mark of its own. -/
def sequenceTokens (items : List String) : List Token :=
  if items.isEmpty then [.flowSequenceStart, .flowSequenceEnd]
  else .blockSequenceStart :: itemTokens items ++ [.blockEnd]

/-- The tokens of a pair. -/
def pairTokens (key : String) (value : List Token) : List Token :=
  .key :: scalarToken key :: .value :: value

/-- The tokens of a mapping that is not in brackets. -/
def mappingTokens (pairs : List Token) : List Token := .blockMappingStart :: pairs ++ [.blockEnd]

/-- The event of a scalar that is written as a text. -/
def scalarEvent (s : String) : Event := .scalar ⟨none, none⟩ s.toList (styleFor s)

/-- The events of a list. -/
def sequenceEvents (items : List String) : List Event :=
  .sequenceStart ⟨none, none⟩ :: items.map scalarEvent ++ [.sequenceEnd]

/-- The events of a mapping. -/
def mappingEvents (pairs : List Event) : List Event :=
  .mappingStart ⟨none, none⟩ :: pairs ++ [.mappingEnd]

section Machine

variable {e : Expect} {event : Event} {stack stack' stack'' : List Expect}
  {ts ts' ts'' : List Token} {es es' : List Event}

/-- The machine goes from one stack and some tokens to others, with some events. -/
def Passes (stack : List Expect) (ts : List Token) (stack' : List Expect) (ts' : List Token)
    (es : List Event) : Prop :=
  ∀ fuel done, run? standardHandles (es.length + fuel) done stack ts =
    run? standardHandles fuel (es.reverse ++ done) stack' ts'

theorem Passes.refl (stack : List Expect) (ts : List Token) : Passes stack ts stack ts [] :=
  fun fuel done => by rw [List.length_nil, Nat.zero_add, List.reverse_nil, List.nil_append]

theorem Passes.trans (h : Passes stack ts stack' ts' es) (h' : Passes stack' ts' stack'' ts'' es') :
    Passes stack ts stack'' ts'' (es ++ es') := fun fuel done => by
  rw [List.length_append, Nat.add_assoc, h, h', List.reverse_append, List.append_assoc]

theorem Passes.step (hstep : step? standardHandles e stack ts = some (event, stack', ts'))
    (h : Passes stack' ts' stack'' ts'' es) :
    Passes (e :: stack) ts stack'' ts'' (event :: es) := fun fuel done => by
  rw [List.length_cons, Nat.add_right_comm, run?, hstep]
  dsimp only
  rw [h, List.reverse_cons, List.append_assoc, List.singleton_append]

end Machine

section Values

variable {stack : List Expect} {ts rest : List Token} {es : List Event}

theorem passes_items (items : List String) :
    Passes (.blockItem :: stack) (itemTokens items ++ rest) (.blockItem :: stack) rest
      (items.map scalarEvent) := by
  induction items with
  | nil => exact .refl _ _
  | cons s items ih => exact .step rfl ih

theorem passes_bareItems (items : List String) :
    Passes (.bareItem :: stack) (itemTokens items ++ rest) (.bareItem :: stack) rest
      (items.map scalarEvent) := by
  induction items with
  | nil => exact .refl _ _
  | cons s items ih => exact .step rfl ih

theorem length_itemTokens (items : List String) : (itemTokens items).length = 2 * items.length := by
  induction items with
  | nil => rfl
  | cons s items ih =>
    rw [itemTokens, List.flatMap_cons, List.length_append, ← itemTokens, ih, List.length_cons]
    simp only [List.length_cons, List.length_nil]
    omega

/-- Behind the key of a pair these tokens are a node with these events, whatever comes next but
another item. -/
structure Reads (ts : List Token) (es : List Event) : Prop where
  passes : ∀ stack rest, rest.head? ≠ some .blockEntry →
    Passes (.blockValue :: stack) (.value :: (ts ++ rest)) (.blockKey :: stack) rest es
  length_le : es.length ≤ 2 * ts.length

theorem reads_scalar (cs : List Char) (style : Style) :
    Reads [.scalar cs style] [.scalar ⟨none, none⟩ cs style] where
  passes _ _ _ := .step rfl (.refl _ _)
  length_le := by simp

theorem reads_emptySequence :
    Reads [.flowSequenceStart, .flowSequenceEnd] (sequenceEvents []) where
  passes _ _ _ := .step rfl (.step rfl (.refl _ _))
  length_le := by simp [sequenceEvents]

theorem reads_emptyMapping : Reads [.flowMappingStart, .flowMappingEnd] (mappingEvents []) where
  passes _ _ _ := .step rfl (.step rfl (.refl _ _))
  length_le := by simp [mappingEvents]

/-- Items that are indented like their key end where no further one follows. -/
theorem step?_bareItem_end (hrest : rest.head? ≠ some .blockEntry) :
    step? standardHandles .bareItem stack rest = some (.sequenceEnd, stack, rest) := by
  rw [step?]
  rintro ts rfl
  exact hrest rfl

theorem reads_list (items : List String) : Reads (listTokens items) (sequenceEvents items) := by
  rw [listTokens]
  cases items with
  | nil => exact reads_emptySequence
  | cons s items =>
    refine ⟨fun stack rest hrest => ?_, ?_⟩
    · refine .step rfl (.trans (passes_bareItems (s :: items)) (.step (step?_bareItem_end hrest) ?_))
      exact .refl _ _
    · rw [if_neg (by simp), length_itemTokens, sequenceEvents]
      simp only [List.length_append, List.length_cons, List.length_map, List.length_nil]
      omega

theorem reads_sequence (items : List String) :
    Reads (sequenceTokens items) (sequenceEvents items) := by
  cases items with
  | nil => exact reads_emptySequence
  | cons s items =>
    refine ⟨fun stack rest _ => ?_, ?_⟩
    · rw [sequenceTokens, if_neg (by simp), List.append_assoc]
      exact .step rfl (.trans (passes_items (s :: items)) (.step rfl (.refl _ _)))
    · rw [sequenceTokens, if_neg (by simp), sequenceEvents]
      simp only [List.length_append, List.length_cons, List.length_map, length_itemTokens]
      omega

end Values

section Pairs

variable {ts ts' : List Token} {es es' : List Event}

/-- These tokens are pairs of a mapping, and these are their events. -/
structure ReadsPairs (ts : List Token) (es : List Event) : Prop where
  passes : ∀ stack rest, rest.head? ≠ some .blockEntry →
    Passes (.blockKey :: stack) (ts ++ rest) (.blockKey :: stack) rest es
  head_ne : ts.head? ≠ some .blockEntry
  length_le : es.length ≤ 2 * ts.length

theorem Reads.pair (h : Reads ts es) (key : String) :
    ReadsPairs (pairTokens key ts) (scalarEvent key :: es) where
  passes stack rest hrest := .step rfl (h.passes stack rest hrest)
  head_ne := by simp [pairTokens]
  length_le := by
    have hle := h.length_le
    simp only [pairTokens, List.length_cons]
    omega

theorem ReadsPairs.append (h : ReadsPairs ts es) (h' : ReadsPairs ts' es') :
    ReadsPairs (ts ++ ts') (es ++ es') where
  passes stack rest hrest := by
    rw [List.append_assoc]
    refine .trans (h.passes stack _ ?_) (h'.passes stack rest hrest)
    cases ts' with
    | nil => exact hrest
    | cons t ts' => exact h'.head_ne
  head_ne := by
    cases ts with
    | nil => exact h'.head_ne
    | cons t ts => exact h.head_ne
  length_le := by
    have hle := h.length_le
    have hle' := h'.length_le
    simp only [List.length_append]
    omega

theorem readsPairs_flatMap {α : Type} {xs : List α} {tokens : α → List Token}
    {events : α → List Event} (h : ∀ x ∈ xs, ReadsPairs (tokens x) (events x)) :
    ReadsPairs (xs.flatMap tokens) (xs.flatMap events) := by
  induction xs with
  | nil => exact ⟨fun stack rest _ => .refl _ _, by simp, Nat.le_refl 0⟩
  | cons x xs ih =>
    obtain ⟨hx, hxs⟩ := List.forall_mem_cons.1 h
    exact hx.append (ih hxs)

theorem ReadsPairs.passes_close (h : ReadsPairs ts es) (stack : List Expect) (rest : List Token) :
    Passes (.blockKey :: stack) (ts ++ .blockEnd :: rest) stack rest (es ++ [.mappingEnd]) :=
  .trans (h.passes stack _ (by simp)) (.step rfl (.refl _ _))

theorem ReadsPairs.mapping (h : ReadsPairs ts es) : Reads (mappingTokens ts) (mappingEvents es) where
  passes stack rest _ := by
    rw [mappingTokens, List.append_assoc]
    exact .step rfl (h.passes_close _ rest)
  length_le := by
    have hle := h.length_le
    simp only [mappingTokens, mappingEvents, List.length_append, List.length_cons]
    omega

/-- **The events of a text that is a mapping.** -/
theorem events?_of_readsPairs {cs : List Char} (hcs : tokens? cs = some (mappingTokens ts))
    (h : ReadsPairs ts es) : events? cs = some (mappingEvents es) := by
  have hpass : Passes [.node] (mappingTokens ts) [] [] (mappingEvents es) := by
    rw [mappingTokens]
    exact .step rfl (h.passes_close _ [])
  -- there are at most as many events as steps for these tokens
  obtain ⟨spare, hspare⟩ : ∃ spare, 8 * (mappingTokens ts).length + 8 =
      (mappingEvents es).length + spare := by
    have hle := h.mapping.length_le
    exact Nat.exists_eq_add_of_le (by omega)
  have hdocument : document? (mappingTokens ts) = some (mappingEvents es, []) := by
    have hrun : document? (mappingTokens ts) =
      run? standardHandles (8 * (mappingTokens ts).length + 8) [] [.node] (mappingTokens ts) := rfl
    rw [hrun, hspare, hpass, List.append_nil, run?, List.reverse_reverse]
  rw [events?, hcs]
  show ((document? (mappingTokens ts)).bind fun r => if isOver r.2 then some r.1 else none) = _
  rw [hdocument]
  rfl

end Pairs

end InlineAudit.Yaml
