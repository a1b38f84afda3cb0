/-
A report survives its JSON form.

The end of a build is an object that says by its tag which other members it has, and it is read only
if all that it holds can be held: so an exit code has to come back as an integer, and also to be a
number that a double can hold.

* `Build.Status.ofJson?_toJson` — the end of a build, inside as many containers as a report puts
  around it;
* `Issue.ofJson?_toJson`, `Report.ofJson?_toJson` — an issue, and a whole report;
* `Report.ofText?_reportText` — what is printed of a report is read back as that report;
* **`Report.survives_json`** — for the text of a report, with or without its line end, for the end
  of a build by itself, and for what a check prints.
-/
import InlineAudit.Command.Run
import InlineAudit.Proofs.Json.Compact
import InlineAudit.Proofs.Json.Integer
import InlineAudit.Proofs.Json.Record

namespace InlineAudit

namespace Json

/-- A 32-bit integer is read back. -/
theorem int32?_ofInt (code : Int32) : int32? (ofInt code.toInt) = some code := by
  have hlow : -2147483648 ≤ code.toInt := code.le_toInt
  have hhigh : code.toInt ≤ 2147483647 := Int.le_of_lt_add_one code.toInt_lt
  rw [ofInt, int32?, Number.int?_toString, Option.bind_some, if_pos ⟨hlow, hhigh⟩,
    Int32.ofInt_toInt]

/-- A double holds a 32-bit integer. -/
theorem isRepresentable_ofInt (code : Int32) : (ofInt code.toInt).isRepresentable = true := by
  have hlow : -2147483648 ≤ code.toInt := code.le_toInt
  have hhigh : code.toInt < 2147483648 := code.toInt_lt
  exact Number.isFinite_toString (by omega)

/-- A blank line end after a value is not a part of it. -/
theorem parse?_pretty_line {j : Json} (h : j.WellFormed) :
    parse? (Command.line j.pretty) = some j := by
  have hline : (Command.line j.pretty).toList = prettyChars 0 j ++ newLine 0 := by
    rw [Command.line, String.toList_append, pretty, String.toList_ofList]
    rfl
  rw [parse?, hline, ((reads_prettyChars 0 j h).newLine 0).reads.tokens?]
  exact ofTokens?_tokens j

end Json

open Json

namespace Build.Status

theorem wellFormed_toJson (s : Status) : s.toJson.WellFormed := by
  cases s with
  | failed code =>
    cases code <;>
      exact wellFormed_ofMembers (by simp [wellFormed_ofString, wellFormed_ofInt, WellFormed])
  | _ => exact wellFormed_ofMembers (by simp [wellFormed_ofString])

/-- The end of a build is one object without containers in it. -/
theorem depth_toJson (s : Status) : s.toJson.depth = 1 := by
  cases s with
  | failed code => cases code <;> rfl
  | _ => rfl

theorem isRepresentable_toJson (s : Status) : s.toJson.isRepresentable = true := by
  cases s with
  | failed code =>
    cases code with
    | none => rfl
    | some n =>
      have hcode := isRepresentable_ofInt n
      simp [toJson, ofMembers, isRepresentable, areMembersRepresentable, Json.ofString, hcode]
  | _ => rfl

/-- The tag is the first member, and the others are those of its end of a build. -/
theorem ofFields?_toJson (s : Status) :
    ∃ ms tag, s.toJson = ofMembers ms ∧ unique? ms tagName = some (some (.ofString tag)) ∧
      ofFields? tag ms = some s := by
  cases s with
  | succeeded => exact ⟨_, "succeeded", rfl, rfl, rfl⟩
  | replayed => exact ⟨_, "replayed", rfl, rfl, rfl⟩
  | launchFailed message => exact ⟨_, "launch_failed", rfl, rfl, rfl⟩
  | failed code =>
    refine ⟨_, "failed", rfl, rfl, ?_⟩
    cases code with
    | none => rfl
    | some n =>
      show ((int32? (ofInt n.toInt)).map some).map Status.failed = _
      rw [int32?_ofInt]
      rfl

/-- The end of a build survives its JSON form, inside as many containers as are allowed. -/
theorem ofJson?_toJson (s : Status) {outer : Nat} (h : outer < depthLimit) :
    ofJson? outer s.toJson = some s := by
  obtain ⟨ms, tag, hms, htag, hfields⟩ := s.ofFields?_toJson
  have hdepth := s.depth_toJson
  have hrepresentable := s.isRepresentable_toJson
  rw [hms] at hdepth hrepresentable ⊢
  have hheld : ¬ ((decide (depthLimit < outer + (ofMembers ms).depth) ||
      !(ofMembers ms).isRepresentable) = true) := by
    rw [hdepth, hrepresentable]
    simp
    omega
  unfold ofJson?
  rw [if_neg hheld]
  show ((ofMembers ms).members?.bind fun members =>
    (unique? members tagName).bind fun tag => _) = _
  rw [members?_ofMembers, Option.bind_some, htag, Option.bind_some]
  exact hfields

end Build.Status

namespace Issue

theorem wellFormed_toJson (i : Issue) : i.toJson.WellFormed :=
  wellFormed_ofMembers (by simp [wellFormed_ofString])

theorem ofJson?_toJson (i : Issue) : ofJson? i.toJson = some i := by
  rw [ofJson?, toJson, fields?_ofMembers]
  rfl

end Issue

namespace Report

theorem wellFormed_toJson (r : Report) : r.toJson.WellFormed := by
  have hissues : (Json.array (r.issues.map Issue.toJson)).WellFormed := by
    refine wellFormed_array fun j hj => ?_
    obtain ⟨i, -, rfl⟩ := List.mem_map.1 hj
    exact i.wellFormed_toJson
  refine wellFormed_ofMembers ?_
  simp [hissues, r.build.wellFormed_toJson, wellFormed_ofStrings, wellFormed_ofString]

/-- A report survives its JSON form. -/
theorem ofJson?_toJson (r : Report) : ofJson? r.toJson = some r := by
  have hfields : r.toJson.fields? fieldNames = some [some (.ofString r.source),
      some (.ofStrings r.packages), some (.ofString r.digest), some r.build.toJson,
      some (.array (r.issues.map Issue.toJson)), some (.ofString r.startedAt),
      some (.ofString r.finishedAt)] := by
    rw [toJson, fields?_ofMembers]
    rfl
  have hissues : listOf? Issue.ofJson? (.array (r.issues.map Issue.toJson)) = some r.issues :=
    mapM_of_inverse Issue.ofJson?_toJson r.issues
  have hbuild : Build.Status.ofJson? 1 r.build.toJson = some r.build :=
    r.build.ofJson?_toJson (by decide)
  rw [ofJson?, hfields]
  simp only [Option.bind_eq_bind, Option.bind_some, listOf?_ofStrings, hissues, hbuild]
  rfl

theorem toJson_inj {r s : Report} : r.toJson = s.toJson ↔ r = s := by
  refine ⟨fun h => ?_, fun h => h ▸ rfl⟩
  rw [← Option.some.injEq, ← r.ofJson?_toJson, ← s.ofJson?_toJson, h]

/-- The report of a text. -/
def ofText? (text : String) : Option Report := (Json.parse? text).bind ofJson?

theorem ofText?_reportText (r : Report) : ofText? (Command.reportText true r) = some r := by
  show (Json.parse? (Command.line r.toJson.pretty)).bind ofJson? = some r
  rw [parse?_pretty_line r.wellFormed_toJson, Option.bind_some, ofJson?_toJson]

/-- What a check prints in JSON is the report that it comes to, and nothing if it comes to none. -/
theorem ofText?_stdout (sourceOf : Command.Inputs → Except Command.Problem Source) (h : Host)
    (o : Command.CheckOptions) (clock : Check.Clock) :
    ofText? (Command.checkFrom sourceOf h { o with json := true } clock).stdout =
      (Command.reportFrom sourceOf h { o with json := true } clock).toOption := by
  rw [Command.checkFrom]
  cases Command.reportFrom sourceOf h { o with json := true } clock with
  | error p => rfl
  | ok r => exact ofText?_reportText r

/-- **Reports survive their JSON form.**  Whatever its texts, its lists and the end of its build, a
report is read back from what is printed of it, with or without the line end, so the report that is
read is clean if and only if the printed one was, and has the same lines; the end of a build is read
back by itself from its text without blanks; and what a check prints in JSON is read as the report
that it comes to. -/
theorem survives_json :
    (∀ r : Report, ofText? (Command.reportText true r) = some r ∧
      ofText? r.toJson.pretty = some r ∧
      (ofText? (Command.reportText true r)).map isClean = some r.isClean ∧
      (ofText? (Command.reportText true r)).map lines = some r.lines) ∧
    (∀ s : Build.Status,
      (Json.parse? s.toJson.compact).bind (Build.Status.ofJson? 0) = some s) ∧
    ∀ sourceOf h (o : Command.CheckOptions) clock,
      ofText? (Command.checkFrom sourceOf h { o with json := true } clock).stdout =
        (Command.reportFrom sourceOf h { o with json := true } clock).toOption := by
  refine ⟨fun r => ?_, fun s => ?_, ofText?_stdout⟩
  · have hpretty : ofText? r.toJson.pretty = some r := by
      rw [ofText?, parse?_pretty r.wellFormed_toJson, Option.bind_some, ofJson?_toJson]
    rw [ofText?_reportText]
    exact ⟨rfl, hpretty, rfl, rfl⟩
  · rw [parse?_compact s.wellFormed_toJson, Option.bind_some]
    exact s.ofJson?_toJson (by decide)

/-- The least exit code, and a message with a quote and a line end in it. -/
example :
    (Json.parse? (Build.Status.toJson (.failed (some (-2147483648)))).compact).bind
        (Build.Status.ofJson? 0) = some (.failed (some (-2147483648))) ∧
      (Build.Status.toJson (.launchFailed "\"a\"\n")).compact =
        "\x7b\"status\":\"launch_failed\",\"message\":\"\\\"a\\\"\\n\"\x7d" := by
  decide +kernel

end Report

end InlineAudit
