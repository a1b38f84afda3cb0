/-
A candidates file survives its JSON form.

Settings without a value are left out of the text, and a missing field takes its default, so nothing
is lost; and the packages of a set are in order and differ, so that the set is put together again.

* `Candidates.ofListLast_entries` — a set is put together from its own entries;
* `Candidates.ofJson?_toJson`, `Build.Settings.ofJson?_toJson` — its parts survive;
* **`ofJsonText?_toJsonText`** — the file of the text of a file is this file.
-/
import InlineAudit.CandidatesFile.Json
import InlineAudit.Proofs.Candidates.Standing
import InlineAudit.Proofs.Json.Record
import InlineAudit.Proofs.Json.RoundTrip

namespace InlineAudit

namespace Candidates

/-- A set is put together from its own entries. -/
theorem ofListLast_entries (cs : Candidates) : ofListLast cs.entries = cs := by
  have hperm : (ofListLast cs.entries).entries.Perm cs.entries := by
    have hall := entries_ofListLast_perm cs.entries
    rwa [standing_eq_self cs.nodup_packages] at hall
  exact eq_of_perm hperm

theorem wellFormed_toJson (cs : Candidates) : cs.toJson.WellFormed := by
  refine Json.wellFormed_ofMembers fun m hm => ?_
  obtain ⟨e, -, rfl⟩ := List.mem_map.1 hm
  exact Json.wellFormed_ofStrings e.2

theorem pairsOfJson?_toJson (cs : Candidates) : pairsOfJson? cs.toJson = some cs.entries := by
  rw [pairsOfJson?, toJson, Json.members?_ofMembers]
  refine Json.mapM_of_inverse (fun e => ?_) cs.entries
  dsimp only
  rw [Json.listOf?_ofStrings, Option.map_some]

/-- A candidate set survives its JSON form. -/
theorem ofJson?_toJson (cs : Candidates) : ofJson? cs.toJson = some cs := by
  rw [ofJson?, pairsOfJson?_toJson, Option.map_some, ofListLast_entries]

end Candidates

namespace Build.Settings

/-- Settings survive their JSON form: what is left out of it is what a missing field stands for. -/
theorem ofJson?_toJson (s : Settings) : ofJson? s.toJson = some s := by
  obtain ⟨go, dir, args, strict⟩ := s
  rw [ofJson?, toJson, Json.fields?_ofMembers]
  -- one case for each way of leaving fields out
  cases go <;> cases dir <;> cases args <;>
    simp [Json.unique?, Json.field?, Json.nullable?, Json.text?, Json.ofString, Json.flag?,
      Json.listOf?_ofStrings]

theorem wellFormed_toJson (s : Settings) : s.toJson.WellFormed := by
  obtain ⟨go, dir, args, strict⟩ := s
  refine Json.wellFormed_ofMembers ?_
  cases go <;> cases dir <;> cases args <;>
    simp [Json.WellFormed, Json.ofString, Json.wellFormed_ofStrings]

end Build.Settings

namespace CandidatesFile

theorem ofJson?_toJson (f : CandidatesFile) : ofJson? f.toJson = some f := by
  have hfields : f.toJson.fields? ["build", "candidates"] =
      some [some f.build.toJson, some f.candidates.toJson] := by
    rw [toJson, Json.fields?_ofMembers]
    rfl
  rw [ofJson?, hfields]
  simp only [Option.bind_eq_bind, Option.bind_some, Json.field?, Build.Settings.ofJson?_toJson,
    Candidates.ofJson?_toJson]
  rfl

theorem wellFormed_toJson (f : CandidatesFile) : f.toJson.WellFormed := by
  refine Json.wellFormed_ofMembers (List.forall_mem_cons.2 ⟨f.build.wellFormed_toJson, ?_⟩)
  exact List.forall_mem_singleton.2 f.candidates.wellFormed_toJson

/-- **The file of the text of a file is this file.** -/
theorem ofJsonText?_toJsonText (f : CandidatesFile) : ofJsonText? f.toJsonText = some f := by
  rw [ofJsonText?, toJsonText, Json.parse?_pretty (wellFormed_toJson f), Option.bind_some,
    ofJson?_toJson]

end CandidatesFile

end InlineAudit
