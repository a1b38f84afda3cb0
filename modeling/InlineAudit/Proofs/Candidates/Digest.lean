/-
What the digest of a candidate set tells of it.

The digest is taken of the full names in order, with a newline after each.  A newline inside a name
looks the same as one after it, so what is hashed is a list of lines, and a name may be several of
them:

* `splitOn_terminated` — texts with a newline after each are read back as their lines;
* `nameLines` — the lines of the full names in order;
* **`digestInput_eq_iff`** — two sets are hashed alike exactly when their names have the same lines,
  so the digest tells valid sets apart whose names are one line each;
* `digestInput_of_newline` — a name of two lines, which is hashed like two names.

Design notes: nothing keeps a newline out of a name, neither the form of a file nor validation.
-/
import InlineAudit.Proofs.Candidates.Arrangement
import InlineAudit.Proofs.Text.Encoding

namespace InlineAudit

namespace Text

/-- Texts with a newline after each. -/
def terminated (texts : List (List Char)) : List Char :=
  texts.flatMap (· ++ ['\n'])

/-- The lines of some texts, one after the other. -/
def linesOf (texts : List (List Char)) : List (List Char) :=
  texts.flatMap (·.splitOn '\n')

theorem splitOn_terminated (texts : List (List Char)) :
    (terminated texts).splitOn '\n' = linesOf texts ++ [[]] := by
  induction texts with
  | nil => rfl
  | cons t texts ih =>
    have hcut : terminated (t :: texts) = t ++ '\n' :: terminated texts := by
      rw [terminated, List.flatMap_cons, List.append_assoc]
      rfl
    rw [hcut, List.splitOn_append_cons_self, ih, linesOf, linesOf, List.flatMap_cons,
      List.append_assoc]

/-- Nothing but the lines can be read back. -/
theorem terminated_eq_iff {as bs : List (List Char)} :
    terminated as = terminated bs ↔ linesOf as = linesOf bs := by
  constructor
  · intro h
    have hsplit : (terminated as).splitOn '\n' = (terminated bs).splitOn '\n' := by rw [h]
    rwa [splitOn_terminated, splitOn_terminated, List.append_cancel_right_eq] at hsplit
  · intro h
    have hread (cs : List Char) : ['\n'].intercalate (cs.splitOn '\n') = cs :=
      List.intercalate_splitOn '\n'
    rw [← hread (terminated as), splitOn_terminated, h, ← splitOn_terminated, hread]

theorem linesOf_eq_self {texts : List (List Char)} (h : ∀ t ∈ texts, '\n' ∉ t) :
    linesOf texts = texts := by
  induction texts with
  | nil => rfl
  | cons t texts ih =>
    rw [linesOf, List.flatMap_cons, List.splitOn_eq_singleton (h t List.mem_cons_self),
      List.singleton_append, ← linesOf, ih fun u hu => h u (List.mem_cons_of_mem _ hu)]

end Text

namespace Candidates

variable {a b cs : Candidates}

/-- The lines of the full names in ascending order. -/
def nameLines (cs : Candidates) : List (List Char) :=
  Text.linesOf ((Text.ascending cs.names).map String.toList)

theorem digestInput_eq_encodeChars (cs : Candidates) :
    cs.digestInput =
      Utf8.encodeChars (Text.terminated ((Text.ascending cs.names).map String.toList)) := by
  rw [digestInput, ← Text.ascending, Text.terminated, Utf8.encodeChars, List.flatMap_map,
    List.flatMap_assoc]
  congr 1
  funext n
  rw [Utf8.encode, String.toList_append]
  rfl

theorem digestInput_eq_iff_nameLines_eq :
    a.digestInput = b.digestInput ↔ a.nameLines = b.nameLines := by
  rw [digestInput_eq_encodeChars, digestInput_eq_encodeChars, Utf8.encodeChars_inj,
    Text.terminated_eq_iff]
  rfl

/-- Where every name is one line the lines are the names in order. -/
theorem nameLines_eq_map (h : ∀ n ∈ cs.names, '\n' ∉ n.toList) :
    cs.nameLines = (Text.ascending cs.names).map String.toList := by
  refine Text.linesOf_eq_self fun t ht => ?_
  obtain ⟨n, hn, rfl⟩ := List.mem_map.1 ht
  exact h n ((Text.ascending_perm _).mem_iff.1 hn)

/-- **The digest tells the lines of the full names, and no more.**  Two sets are hashed alike exactly
when their sorted names have the same lines.  Of valid sets whose names are one line each those with
the same names are hashed alike, and only those. -/
theorem digestInput_eq_iff (a b : Candidates) :
    (a.digestInput = b.digestInput ↔ a.nameLines = b.nameLines) ∧
      ((∃ p, a.validate = .ok p) → (∃ p, b.validate = .ok p) →
        (∀ n ∈ a.names ++ b.names, '\n' ∉ n.toList) →
          (a.digestInput = b.digestInput ↔ ∀ n, n ∈ a.names ↔ n ∈ b.names)) := by
  refine ⟨digestInput_eq_iff_nameLines_eq, fun ha hb hline => ?_⟩
  obtain ⟨-, ha⟩ := exists_validate_iff.1 ha
  obtain ⟨-, hb⟩ := exists_validate_iff.1 hb
  rw [digestInput_eq_iff_nameLines_eq,
    nameLines_eq_map fun n hn => hline n (List.mem_append_left _ hn),
    nameLines_eq_map fun n hn => hline n (List.mem_append_right _ hn),
    List.map_inj_right fun _ _ => String.toList_inj.1, ← List.perm_ext_iff_of_nodup ha hb]
  constructor
  · intro h
    exact (Text.ascending_perm _).symm.trans (h ▸ Text.ascending_perm _)
  · exact Text.ascending_of_perm

/-- A name of two lines is hashed like two names of one line; sets of such names are told apart. -/
theorem digestInput_of_newline :
    let two := ofList [("p", ["A", "B"])]
    let broken := ofList [("p", ["A\np.B"])]
    let one := ofList [("p", ["A"])]
    (∃ p, two.validate = .ok p) ∧ (∃ p, broken.validate = .ok p) ∧ (∃ p, one.validate = .ok p) ∧
      two.names = ["p.A", "p.B"] ∧ broken.names = ["p.A\np.B"] ∧ one.names = ["p.A"] ∧
      two.digestInput = broken.digestInput ∧ two.digestInput ≠ one.digestInput := by
  intro two broken one
  have htwo : two.names = ["p.A", "p.B"] := by decide
  have hbroken : broken.names = ["p.A\np.B"] := by decide
  have hone : one.names = ["p.A"] := by decide
  have hvalid (cs : Candidates) (hpackages : "" ∉ cs.packages) (hnames : cs.names.Nodup) :
      ∃ p, cs.validate = .ok p := exists_validate_iff.2 ⟨hpackages, hnames⟩
  have hvtwo := hvalid two (by decide) (by rw [htwo]; decide)
  have hvbroken := hvalid broken (by decide) (by rw [hbroken]; decide)
  have hvone := hvalid one (by decide) (by rw [hone]; decide)
  refine ⟨hvtwo, hvbroken, hvone, htwo, hbroken, hone, ?_, ?_⟩
  · refine (digestInput_eq_iff two broken).1.2 ?_
    rw [nameLines, nameLines, htwo, hbroken, Text.ascending_eq_self (by decide),
      Text.ascending_eq_self (by decide)]
    decide
  · have htold := (digestInput_eq_iff two one).2 hvtwo hvone (by rw [htwo, hone]; decide)
    rw [Ne, htold, htwo, hone]
    intro h
    exact absurd ((h "p.B").1 (by decide)) (by decide)

end Candidates

end InlineAudit
