/-
What a check shows of the order in which a map gives its entries.

Two checks of one set against one log come to the same map of names with reasons, and each puts its
entries in a report in the order in which it happens to get them, but for sorting.

* `Pending.Clashes.exists_names` — names that can clash: one goes on, after a colon and a space,
  where the other ends;
* **`order_hidden_iff`** — the lines are the same in every order, and the issues and their JSON
  are too, unless two entries clash.
-/
import InlineAudit.Proofs.Check.Delivery
import InlineAudit.Proofs.Pending.Enumeration
import InlineAudit.Proofs.Pending.History
import InlineAudit.Proofs.Report.RoundTrip

namespace InlineAudit

open Log Pending History

/-- Of two entries that clash one has a name that goes on where that of the other ends. -/
theorem Pending.Clashes.exists_names {p : Pending} (h : p.Clashes) :
    ∃ name between, name ∈ p.names ∧ name ++ ": " ++ between ∈ p.names := by
  obtain ⟨name, between, reason, hone, htwo⟩ := h
  exact ⟨name, between, List.mem_map_of_mem (f := Prod.fst) hone,
    List.mem_map_of_mem (f := Prod.fst) htwo⟩

namespace Check

variable {source : Source} {cs : Candidates} {clock : Clock} {status : Build.Status}

theorem mem_of_mem_names_scan {ns : List String} {log : Bytes} {n : String}
    (hn : n ∈ ((unexplained ns).scan log).names) : n ∈ ns := by
  by_contra hnot
  have hnone : ((unexplained ns).scan log).reason? n = none := by
    rw [reason?_scan_unexplained, if_pos (.inr hnot)]
  exact reason?_eq_none_iff.1 hnone hn

/-- Reports on two orders of one map differ in their JSON as their issues do. -/
theorem toJson_reportOn_iff (q r : Pending) :
    (reportOn source cs clock q status).toJson = (reportOn source cs clock r status).toJson ↔
      q.issues = r.issues := by
  rw [Report.toJson_inj]
  constructor
  · exact fun h => congrArg Report.issues h
  · intro h
    rw [reportOn, reportOn, h]

/-- **The order does not show unless two entries clash.**  After any history, in whatever order the
entries come, the lines are the same, and the issues are the same too unless a name goes on, after a
colon and a space, where another pending name has its reason.  So it is with checks of a valid set
against one log: their lines are the same, and with the times left out their JSON is, unless such
names are left; and such names are never left where no full name of the set goes on like that where
another one ends. -/
theorem order_hidden_iff (ops : List Operation) :
    (∀ q, (after ops).Reordered q → q.issues.Perm (after ops).issues ∧
      q.issues.map Issue.text = (after ops).issues.map Issue.text) ∧
    ((∀ q r, (after ops).Reordered q → (after ops).Reordered r → q.issues = r.issues) ↔
      ¬ (after ops).Clashes) ∧
    ∀ (source : Source) (cs : Candidates) (p : Pending) (log : Bytes) (status : Build.Status)
      (clock : Clock), cs.validate = .ok p → source.Delivers cs.packages log status →
      run source false cs clock = .ok (reportOn source cs clock (p.scan log) status) ∧
      (∀ q, (p.scan log).Reordered q → (reportOn source cs clock q status).lines =
        (reportOn source cs clock (p.scan log) status).lines) ∧
      ((∀ q r, (p.scan log).Reordered q → (p.scan log).Reordered r →
          (reportOn source cs clock q status).toJson = (reportOn source cs clock r status).toJson) ↔
        ¬ (p.scan log).Clashes) ∧
      ((∀ name ∈ cs.names, ∀ between, name ++ ": " ++ between ∉ cs.names) →
        ¬ (p.scan log).Clashes) := by
  refine ⟨fun q hq => ?_, forall_reordered_iff (nodup_names_after ops), ?_⟩
  · exact ⟨hq.issues_perm.symm, (map_text_issues_of_reordered hq).symm⟩
  · intro source cs p log status clock hv hd
    obtain ⟨-, hnodup, rfl⟩ := Candidates.validate_eq_ok_iff.1 hv
    have hnames := nodup_names_scan_unexplained hnodup log
    refine ⟨run_of_delivers clock hv hd (by simp), fun q hq => ?_, ?_, ?_⟩
    · exact (map_text_issues_of_reordered hq).symm
    · simp only [toJson_reportOn_iff]
      exact forall_reordered_iff hnames
    · intro hapart hclash
      obtain ⟨name, between, hone, htwo⟩ := hclash.exists_names
      exact hapart name (mem_of_mem_names_scan hone) between (mem_of_mem_names_scan htwo)

/-- Two symbols of which one goes on, after a colon and a space, where the other ends. -/
def colons : Candidates := ⟨[("p", ["F: a", "F"])], by decide⟩

/-- A log that refuses the shorter one, with a reason that goes on like the longer one. -/
def colonsLog : Bytes := Utf8.encode "# p\n: cannot inline F: a: unknown reason\n"

/-- What they are left with. -/
theorem scan_colonsLog : (unexplained colons.names).scan colonsLog =
    ⟨[("p.F: a", "unknown reason"), ("p.F", "a: unknown reason")], "p"⟩ := by
  decide +kernel

/-- The two registered, and then the log. -/
def colonsHistory : List Operation :=
  [.register "p.F: a", .register "p.F", .scan colonsLog]

/-- Both names are left with one line, and their order shows: in the issues, and in the JSON of a
check. -/
theorem order_shows_of_colons :
    (¬ ∀ q r, (after colonsHistory).Reordered q → (after colonsHistory).Reordered r →
      q.issues = r.issues) ∧
    ∃ p, colons.validate = .ok p ∧
      ¬ ∀ q r, (p.scan colonsLog).Reordered q → (p.scan colonsLog).Reordered r →
        (reportOn (textSource colonsLog) colons default q .replayed).toJson =
          (reportOn (textSource colonsLog) colons default r .replayed).toJson := by
  have hafter : after colonsHistory = (unexplained colons.names).scan colonsLog := by
    decide +kernel
  have hclash : ((unexplained colons.names).scan colonsLog).Clashes := by
    rw [scan_colonsLog]
    exact ⟨"p.F", "a", "unknown reason", by decide +kernel, by decide +kernel⟩
  have hvalid : colons.validate = .ok (.unexplained colons.names) := rfl
  obtain ⟨-, hhistory, hcheck⟩ := order_hidden_iff colonsHistory
  obtain ⟨-, -, hjson, -⟩ := hcheck (textSource colonsLog) colons _ colonsLog .replayed default
    hvalid (delivers_textSource _ _)
  refine ⟨fun h => ?_, _, hvalid, fun h => hjson.1 h hclash⟩
  rw [hhistory, hafter] at h
  exact h hclash

end Check

end InlineAudit
