/-
The trees that the events of texts, lists and mappings describe.

* `TreeBuilder.Builds` — some events put a tree where it belongs, and nothing else;
* `TreeBuilder.BuildsPairs` — some events add pairs to a mapping;
* **`parse?_of_buildsPairs`** — the document of a text whose events are a mapping.
-/
import InlineAudit.Yaml.Node
import InlineAudit.Proofs.Yaml.Event

namespace InlineAudit.Yaml

/-- The node of a scalar that is written as a text. -/
def scalarNode (s : String) : Node := .scalar none s (styleFor s)

/-- The node of a list. -/
def sequenceNode (items : List String) : Node := .sequence (items.map scalarNode)

namespace TreeBuilder

/-- These events put a tree where it belongs. -/
def Builds (es : List Event) (n : Node) : Prop :=
  ∀ b : TreeBuilder, es.foldlM step? b = { b with place := b.place + es.length }.place? n

/-- These events add pairs to a mapping. -/
def BuildsPairs (es : List Event) (pairs : List (Node × Node)) : Prop :=
  ∀ (b : TreeBuilder) (l : Label) (done : List (Node × Node)) (frames : List NodeFrame),
    b.frames = .mapping l done :: frames → es.foldlM step? b = some { b with
      place := b.place + es.length
      frames := .mapping l (pairs.reverse ++ done) :: frames }

section Steps

variable {b b' : TreeBuilder} {e : Event} {es : List Event}

theorem foldlM_step (h : b.step? e = some b') :
    (e :: es).foldlM step? b = es.foldlM step? b' := by
  rw [List.foldlM_cons, h]
  rfl

theorem foldlM_append_of_eq_some {es' : List Event} (h : es.foldlM step? b = some b') :
    (es ++ es').foldlM step? b = es'.foldlM step? b' := by
  rw [List.foldlM_append, h]
  rfl

theorem foldlM_singleton (e : Event) (b : TreeBuilder) : [e].foldlM step? b = b.step? e := by
  simp

/-- The place of a node that is complete does not matter where it belongs. -/
theorem map_place? (b : TreeBuilder) (n : Node) :
    ((b.place? n).map fun b => { b with place := b.place + 1 }) =
      { b with place := b.place + 1 }.place? n := by
  obtain ⟨place, names, anchored, frames, root⟩ := b
  rcases frames with _ | ⟨_ | _ | _, frames⟩
  · cases root <;> rfl
  all_goals rfl

theorem step?_sequenceEnd {place : Nat} {items : List Node} {frames : List NodeFrame}
    (hb : b.frames = .sequence ⟨place, none⟩ items :: frames) :
    b.step? .sequenceEnd =
      { b with place := b.place + 1, frames := frames }.place? (.sequence items.reverse) := by
  rw [step?, accept?, hb]
  exact map_place? { b with frames := frames } _

theorem step?_mappingEnd {place : Nat} {pairs : List (Node × Node)} {frames : List NodeFrame}
    (hb : b.frames = .mapping ⟨place, none⟩ pairs :: frames) :
    b.step? .mappingEnd =
      { b with place := b.place + 1, frames := frames }.place? (.mapping pairs.reverse) := by
  rw [step?, accept?, hb]
  exact map_place? { b with frames := frames } _

end Steps

theorem builds_scalar (cs : List Char) (style : Style) :
    Builds [.scalar ⟨none, none⟩ cs style] (.scalar none (String.ofList cs) style) := fun b => by
  rw [foldlM_singleton]
  exact map_place? b _

theorem builds_scalarEvent (s : String) : Builds [scalarEvent s] (scalarNode s) := by
  have hbuilds := builds_scalar s.toList (styleFor s)
  rw [String.ofList_toList] at hbuilds
  exact hbuilds

theorem step?_scalarEvent (s : String) (b : TreeBuilder) :
    b.step? (scalarEvent s) = { b with place := b.place + 1 }.place? (scalarNode s) := by
  rw [← foldlM_singleton, builds_scalarEvent]
  rfl

/-- The items of a list that has begun are added to it. -/
theorem foldlM_items (items : List String) (b : TreeBuilder) {l : Label} {done : List Node}
    {frames : List NodeFrame} (hb : b.frames = .sequence l done :: frames) :
    (items.map scalarEvent).foldlM step? b = some { b with
      place := b.place + items.length
      frames := .sequence l ((items.map scalarNode).reverse ++ done) :: frames } := by
  -- the items are collected in reverse
  induction items generalizing b done with
  | nil =>
    rw [List.map_nil, List.map_nil, List.reverse_nil, List.nil_append, ← hb]
    rfl
  | cons s items ih =>
    have hitem : b.step? (scalarEvent s) = some { b with
        place := b.place + 1
        frames := .sequence l (scalarNode s :: done) :: frames } := by
      rw [step?_scalarEvent, place?]
      simp [hb]
    rw [List.map_cons, foldlM_step hitem, ih _ rfl, List.map_cons, List.reverse_cons,
      List.append_assoc, List.length_cons, Nat.add_assoc b.place, Nat.add_comm 1]
    rfl

theorem builds_sequence (items : List String) :
    Builds (sequenceEvents items) (sequenceNode items) := by
  intro b
  have hitems := foldlM_items items
    { b with place := b.place + 1, frames := .sequence ⟨b.place, none⟩ [] :: b.frames } rfl
  have hlength : b.place + (sequenceEvents items).length = b.place + 1 + items.length + 1 := by
    simp only [sequenceEvents, List.length_append, List.length_cons, List.length_map,
      List.length_nil]
    omega
  rw [hlength, sequenceEvents, List.cons_append, foldlM_step rfl,
    foldlM_append_of_eq_some hitems, foldlM_singleton, step?_sequenceEnd rfl, List.append_nil,
    List.reverse_reverse]
  rfl

theorem Builds.pair {es : List Event} {n : Node} (h : Builds es n) (key : String) :
    BuildsPairs (scalarEvent key :: es) [(scalarNode key, n)] := by
  intro b l done frames hb
  have hkey : b.step? (scalarEvent key) = some { b with
      place := b.place + 1
      frames := .pair l done (scalarNode key) :: frames } := by
    rw [step?_scalarEvent, place?]
    simp [hb]
  rw [foldlM_step hkey, h, place?, List.length_cons, Nat.add_assoc, Nat.add_comm 1]
  rfl

theorem buildsPairs_nil : BuildsPairs [] [] := by
  intro b l done frames hb
  rw [List.reverse_nil, List.nil_append, ← hb]
  rfl

theorem BuildsPairs.append {es es' : List Event} {pairs pairs' : List (Node × Node)}
    (h : BuildsPairs es pairs) (h' : BuildsPairs es' pairs') :
    BuildsPairs (es ++ es') (pairs ++ pairs') := by
  intro b l done frames hb
  rw [foldlM_append_of_eq_some (h b l done frames hb), h' _ l _ frames rfl, List.length_append,
    List.reverse_append, List.append_assoc, Nat.add_assoc]

theorem buildsPairs_flatMap {α : Type} {xs : List α} {events : α → List Event}
    {pair : α → Node × Node} (h : ∀ x ∈ xs, BuildsPairs (events x) [pair x]) :
    BuildsPairs (xs.flatMap events) (xs.map pair) := by
  induction xs with
  | nil => exact buildsPairs_nil
  | cons x xs ih =>
    obtain ⟨hx, hxs⟩ := List.forall_mem_cons.1 h
    exact hx.append (ih hxs)

theorem BuildsPairs.mapping {es : List Event} {pairs : List (Node × Node)}
    (h : BuildsPairs es pairs) : Builds (mappingEvents es) (.mapping pairs) := by
  intro b
  have hpairs := h { b with
    place := b.place + 1
    frames := .mapping ⟨b.place, none⟩ [] :: b.frames } _ _ _ rfl
  have hlength : b.place + (mappingEvents es).length = b.place + 1 + es.length + 1 := by
    simp only [mappingEvents, List.length_append, List.length_cons, List.length_nil]
    omega
  rw [hlength, mappingEvents, List.cons_append, foldlM_step rfl,
    foldlM_append_of_eq_some hpairs, foldlM_singleton, step?_mappingEnd rfl, List.append_nil,
    List.reverse_reverse]

end TreeBuilder

/-- **The document of a text that is a mapping.** -/
theorem parse?_of_buildsPairs {s : String} {ts : List Token} {es : List Event}
    {pairs : List (Node × Node)} (htokens : tokens? s.toList = some (mappingTokens ts))
    (hreads : ReadsPairs ts es) (hbuilds : TreeBuilder.BuildsPairs es pairs) :
    ∃ size, parse? s = some ⟨.mapping pairs, [], size⟩ := by
  refine ⟨(mappingEvents es).length, ?_⟩
  rw [parse?, events?_of_readsPairs htokens hreads, Option.bind_some, Document.ofEvents?,
    if_neg (by simp [mappingEvents]), hbuilds.mapping]
  simp [TreeBuilder.empty, TreeBuilder.place?]

end InlineAudit.Yaml
