/-
What a check comes to, and what it asks of its source.

Several things can go wrong in one check: the candidates may be invalid and the source closed, a
stream may break off while the task behind it dies, a build may fail in either case.  The outcome
is that of the first cause in a fixed order, and `Goes` lists the causes in that order:

* `goes_session`, `Goes.unique` — a check goes in one of these ways, and they exclude each other;
* `openFor_mem_calls_iff`, `count_await_calls` — an invalid set leaves the source alone, and an open
  stream is always awaited, once;
* `Goes.underStrictRule` — the strict rule changes nothing but the fate of a report on a failed
  build;
* **`outcome_eq_first_cause`** — all of this in one.
-/
import InlineAudit.Check

namespace InlineAudit.Check

variable {source : Source} {strict : Bool} {cs : Candidates} {clock : Clock} {p : Pending}
  {stream : Stream}

/-- The calls of a check that gets as far as an open stream. -/
def allCalls (cs : Candidates) : List Call :=
  [.openFor cs.packages, .read, .await]

/-- The report on a stream that was read to its end. -/
def reportOn (source : Source) (cs : Candidates) (clock : Clock) (p : Pending)
    (status : Build.Status) : Report where
  source := source.name
  packages := cs.packages
  digest := cs.digest
  build := status
  issues := p.issues
  startedAt := clock.started
  finishedAt := clock.finished

/-- How a check goes: its outcome, and the calls on the way to it.  Each row says of the rows
before it that they do not apply. -/
inductive Goes (source : Source) (strict : Bool) (cs : Candidates) (clock : Clock) :
    Except Failure Report → List Call → Prop
  | invalid {cause : InvalidCandidates} (invalid : cs.validate = .error cause) :
      Goes source strict cs clock (.error (.error (.invalid cause))) []
  | refused {p : Pending} {cause : CheckError} (valid : cs.validate = .ok p)
      (refused : source.openFor cs.packages = .error cause) :
      Goes source strict cs clock (.error (.error cause)) [.openFor cs.packages]
  | died {p : Pending} {stream : Stream} {message : String} (valid : cs.validate = .ok p)
      (opened : source.openFor cs.packages = .ok stream)
      (died : stream.completion.await = .error message) :
      Goes source strict cs clock (.error (.producerDied message)) (allCalls cs)
  | unreadable {p : Pending} {stream : Stream} {status : Build.Status} {cause : IoError}
      (valid : cs.validate = .ok p) (opened : source.openFor cs.packages = .ok stream)
      (ended : stream.completion.await = .ok status) (failed : stream.failure = some cause) :
      Goes source strict cs clock (.error (.error (.unreadable cause))) (allCalls cs)
  | buildFailed {p : Pending} {stream : Stream} {status : Build.Status}
      (valid : cs.validate = .ok p) (opened : source.openFor cs.packages = .ok stream)
      (ended : stream.completion.await = .ok status) (complete : stream.failure = none)
      (strictly : strict = true) (notSucceeded : status ≠ .succeeded)
      (notReplayed : status ≠ .replayed) :
      Goes source strict cs clock (.error (.error (.buildFailed status))) (allCalls cs)
  | reported {p : Pending} {stream : Stream} {status : Build.Status}
      (valid : cs.validate = .ok p) (opened : source.openFor cs.packages = .ok stream)
      (ended : stream.completion.await = .ok status) (complete : stream.failure = none)
      (passes : strict = true → status = .succeeded ∨ status = .replayed) :
      Goes source strict cs clock (.ok (reportOn source cs clock (scanned p stream) status))
        (allCalls cs)

/-! ### The rows one by one -/

theorem isSuccess_iff {status : Build.Status} :
    status.isSuccess = true ↔ status = .succeeded ∨ status = .replayed := by
  cases status <;> simp [Build.Status.isSuccess]

theorem run_openFor (packages : List String) (before : List Call) :
    (openFor source packages).run before =
      pure (source.openFor packages, before ++ [.openFor packages]) :=
  rfl

theorem run_read (before : List Call) :
    (read stream p).run before =
      pure ((scanned p stream, stream.failure), before ++ [.read]) :=
  rfl

theorem run_await (before : List Call) :
    (await stream).run before = pure (stream.completion.await, before ++ [.await]) :=
  rfl

theorem session_of_invalid {cause : InvalidCandidates} (hv : cs.validate = .error cause) :
    (session source strict cs clock).run [] = (.error (.error (.invalid cause)), []) := by
  rw [session, hv]
  rfl

theorem session_of_refused {cause : CheckError} (hv : cs.validate = .ok p)
    (ho : source.openFor cs.packages = .error cause) :
    (session source strict cs clock).run [] =
      (.error (.error cause), [.openFor cs.packages]) := by
  simp only [session, hv, StateT.run_bind, run_openFor, ho, pure_bind]
  rfl

/-- Whatever a stream does, it is read and awaited; only then is it judged. -/
theorem session_of_opened (hv : cs.validate = .ok p)
    (ho : source.openFor cs.packages = .ok stream) :
    (session source strict cs clock).run [] =
      (match stream.completion.await with
        | .error message => .error (.producerDied message)
        | .ok status =>
          conclude source.name strict cs clock (scanned p stream) stream.failure status,
        allCalls cs) := by
  simp only [session, hv, StateT.run_bind, run_openFor, ho, run_read, run_await, pure_bind]
  cases stream.completion.await <;> rfl

theorem conclude_of_passes {status : Build.Status} (h : passes strict status = true) :
    conclude source.name strict cs clock p none status =
      .ok (reportOn source cs clock p status) := by
  rw [conclude, if_pos h]
  rfl

theorem conclude_of_not_passes {name : String} {status : Build.Status}
    (h : ¬ passes strict status = true) :
    conclude name strict cs clock p none status = .error (.error (.buildFailed status)) := by
  rw [conclude, if_neg h]

theorem passes_iff {status : Build.Status} :
    passes strict status = true ↔
      (strict = true → status = .succeeded ∨ status = .replayed) := by
  rw [← isSuccess_iff, passes]
  cases strict <;> simp

/-! ### Outcome and calls -/

theorem goes_session (source : Source) (strict : Bool) (cs : Candidates) (clock : Clock) :
    Goes source strict cs clock (run source strict cs clock) (calls source strict cs clock) := by
  rw [run, calls]
  cases hv : cs.validate with
  | error cause =>
    rw [session_of_invalid hv]
    exact .invalid hv
  | ok p =>
    cases ho : source.openFor cs.packages with
    | error cause =>
      rw [session_of_refused hv ho]
      exact .refused hv ho
    | ok stream =>
      rw [session_of_opened hv ho]
      cases ha : stream.completion.await with
      | error message => exact .died hv ho ha
      | ok status =>
        cases hf : stream.failure with
        | some cause => exact .unreadable hv ho ha hf
        | none =>
          dsimp only
          by_cases hs : passes strict status = true
          · rw [conclude_of_passes hs]
            exact .reported hv ho ha hf (passes_iff.1 hs)
          · rw [conclude_of_not_passes hs]
            rw [passes_iff, ← isSuccess_iff] at hs
            obtain ⟨hstrict, hfail⟩ := Classical.not_imp.1 hs
            rw [isSuccess_iff, not_or] at hfail
            exact .buildFailed hv ho ha hf hstrict hfail.1 hfail.2

/-- The rows exclude each other, so they leave no choice. -/
theorem Goes.unique {o o' : Except Failure Report} {l l' : List Call}
    (h : Goes source strict cs clock o l) (h' : Goes source strict cs clock o' l') :
    o = o' ∧ l = l' := by
  cases h <;> cases h' <;> simp_all

theorem run_goes_iff {outcome : Except Failure Report} {made : List Call} :
    run source strict cs clock = outcome ∧ calls source strict cs clock = made ↔
      Goes source strict cs clock outcome made := by
  constructor
  · rintro ⟨rfl, rfl⟩
    exact goes_session source strict cs clock
  · exact (goes_session source strict cs clock).unique

/-- The source is opened exactly when the candidates are valid, and for their packages. -/
theorem openFor_mem_calls_iff {packages : List String} :
    .openFor packages ∈ calls source strict cs clock ↔
      packages = cs.packages ∧ ∃ p, cs.validate = .ok p := by
  have h := goes_session source strict cs clock
  generalize run source strict cs clock = outcome, calls source strict cs clock = made at h ⊢
  cases h <;> simp_all [allCalls]

/-- What is behind a stream is awaited exactly when there is a stream, and then once. -/
theorem count_await_calls :
    (calls source strict cs clock).count .await = 1 ↔
      ∃ p stream, cs.validate = .ok p ∧ source.openFor cs.packages = .ok stream := by
  have h := goes_session source strict cs clock
  generalize run source strict cs clock = outcome, calls source strict cs clock = made at h ⊢
  cases h <;> simp_all [allCalls]

/-! ### The strict rule -/

/-- What the strict rule makes of the outcome of a check without it: a report on a failed build
becomes an error, and everything else stays, but for the time of day. -/
def underStrictRule (clock : Clock) : Except Failure Report → Except Failure Report
  | .error failure => .error failure
  | .ok r =>
    if r.build.isSuccess then
      .ok { r with startedAt := clock.started, finishedAt := clock.finished }
    else .error (.error (.buildFailed r.build))

theorem Goes.underStrictRule {clock' : Clock} {outcome : Except Failure Report}
    {made : List Call} (h : Goes source false cs clock outcome made) :
    Goes source true cs clock' (underStrictRule clock' outcome) made := by
  cases h with
  | invalid hv => exact .invalid hv
  | refused hv ho => exact .refused hv ho
  | died hv ho ha => exact .died hv ho ha
  | unreadable hv ho ha hf => exact .unreadable hv ho ha hf
  | buildFailed _ _ _ _ hstrict => exact absurd hstrict (by decide)
  | @reported p stream status hv ho ha hf =>
    -- the strict rule looks at nothing but the status
    by_cases hs : status.isSuccess = true
    · rw [Check.underStrictRule, if_pos (by exact hs)]
      exact .reported hv ho ha hf fun _ => isSuccess_iff.1 hs
    · rw [Check.underStrictRule, if_neg (by exact hs)]
      rw [isSuccess_iff, not_or] at hs
      exact .buildFailed hv ho ha hf rfl hs.1 hs.2

/-- **A check comes to the first cause that applies**, with the calls that lead there: an invalid
set is never put to the source, an open stream is awaited once whatever happened to it, and the
strict rule turns a report on a failed build into an error and does nothing else. -/
theorem outcome_eq_first_cause (source : Source) (cs : Candidates) :
    (∀ strict clock outcome made,
      run source strict cs clock = outcome ∧ calls source strict cs clock = made ↔
        Goes source strict cs clock outcome made) ∧
    (∀ strict clock packages, .openFor packages ∈ calls source strict cs clock ↔
      packages = cs.packages ∧ ∃ p, cs.validate = .ok p) ∧
    (∀ strict clock, (calls source strict cs clock).count .await = 1 ↔
      ∃ p stream, cs.validate = .ok p ∧ source.openFor cs.packages = .ok stream) ∧
    ∀ clock clock',
      run source true cs clock' = underStrictRule clock' (run source false cs clock) ∧
        calls source true cs clock' = calls source false cs clock := by
  refine ⟨fun _ _ _ _ => run_goes_iff, fun _ _ _ => openFor_mem_calls_iff,
    fun _ _ => count_await_calls, fun clock clock' => ?_⟩
  exact run_goes_iff.2 (goes_session source false cs clock).underStrictRule

end InlineAudit.Check
