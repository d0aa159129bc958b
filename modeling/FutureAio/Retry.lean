import Mathlib.Logic.Function.Iterate
import Mathlib.Tactic.IntervalCases
import FutureAio.Lib.Loop

/-!
# `retry` and `retry_if`

`retry_if` asks a factory for a future, awaits it, and on an error that the condition lets pass
sleeps for the next delay and asks again; when the delays run out it returns the last error.  The
factory is an `FnMut` and the delays come from an iterator, so both are state: an attempt and a
draw each return the state to go on with.

* `pollErr` — the macro: one attempt, and whether it ends the function.
* `retryPass` — one pass of the `for` loop.
* `Event` — what a run does, in order: factory calls, evaluations of the condition, draws from
  the iterator, sleeps.

`retryIf_exact` gives the result and the whole trace, for every factory, condition and iterator.
-/

namespace FutureAio.Retry

open OracleLoop

/-- `core::time::Duration`. -/
structure Duration where
  secs : UInt64
  nanos : ℕ
  nanos_lt : nanos < 10 ^ 9
  deriving DecidableEq, Repr

/-- `Duration::from_secs`. -/
def Duration.fromSecs (secs : UInt64) : Duration := ⟨secs, 0, by decide⟩

inductive Event (O E : Type*) where
  | call (result : Except E O)
  | check (err : E)
  | draw (delay : Option Duration)
  | sleep (delay : Duration)
  deriving DecidableEq, Repr

/-- What `retry_if` returns, and what it did. -/
structure RetryOutcome (O E : Type*) where
  result : Except E O
  trace : List (Event O E)

/-- The variables of `retry_if` at the head of its loop. -/
structure RetryState (φ ι O E : Type*) where
  factory : φ
  retries : ι
  err : E
  trace : List (Event O E)

section Code

variable {φ ι O E : Type*} (attempt : φ → Except E O × φ) (condition : E → Bool)
variable (next : ι → Option Duration × ι)

/-- `poll_err!`: a result to return with, or the error to go on with. -/
def pollErr (factory : φ) : Flow E (Except E O) × φ × List (Event O E) :=
  match attempt factory with
  | (Except.ok output, factory') =>
      (Flow.leave (Except.ok output), factory', [Event.call (Except.ok output)])
  | (Except.error err, factory') =>
      if !condition err then
        (Flow.leave (Except.error err), factory', [Event.call (Except.error err), Event.check err])
      else (Flow.again err, factory', [Event.call (Except.error err), Event.check err])

/-- One pass of the loop over the delays. -/
def retryPass (s : RetryState φ ι O E) : Flow (RetryState φ ι O E) (RetryOutcome O E) :=
  match next s.retries with
  | (none, _) => Flow.leave ⟨Except.error s.err, s.trace ++ [Event.draw none]⟩
  | (some delay, retries) =>
      let trace := s.trace ++ [Event.draw (some delay), Event.sleep delay]
      match pollErr attempt condition s.factory with
      | (Flow.leave result, _, events) => Flow.leave ⟨result, trace ++ events⟩
      | (Flow.again err, factory, events) => Flow.again ⟨factory, retries, err, trace ++ events⟩

/-- `retry_if`, after `n` passes of its loop. -/
def retryIf (factory : φ) (retries : ι) (n : ℕ) :
    Flow (RetryState φ ι O E) (RetryOutcome O E) :=
  match pollErr attempt condition factory with
  | (Flow.leave result, _, events) => Flow.leave ⟨result, events⟩
  | (Flow.again err, factory', events) =>
      loopAt (fun s (_ : Unit) => retryPass attempt condition next s) (fun _ => ())
        ⟨factory', retries, err, events⟩ n

/-- `retry`. -/
def retry (factory : φ) (retries : ι) (n : ℕ) :
    Flow (RetryState φ ι O E) (RetryOutcome O E) :=
  retryIf attempt (fun _ => true) next factory retries n

end Code

/-! ## The sequences behind a run -/

section Sequences

variable {φ ι O E : Type*}

/-- The result of the factory's call number `i`. -/
def resultAt (attempt : φ → Except E O × φ) (factory : φ) (i : ℕ) : Except E O :=
  (attempt ((fun f => (attempt f).2)^[i] factory)).1

/-- Draw number `i` from the iterator. -/
def delayAt (next : ι → Option Duration × ι) (retries : ι) (i : ℕ) : Option Duration :=
  (next ((fun r => (next r).2)^[i] retries)).1

/-- The results that end `retry_if`: an `Ok`, or an error the condition rejects. -/
def Stops (condition : E → Bool) : Except E O → Prop
  | Except.ok _ => True
  | Except.error err => condition err = false

/-- An attempt checks the condition once if it failed, and else not at all. -/
def attemptEvents : Except E O → List (Event O E)
  | Except.ok output => [Event.call (Except.ok output)]
  | Except.error err => [Event.call (Except.error err), Event.check err]

/-- The trace up to and including attempt `k`: between two attempts there is one draw and one
sleep of what was drawn. -/
def attemptsTrace (result : ℕ → Except E O) (delay : ℕ → Duration) : ℕ → List (Event O E)
  | 0 => attemptEvents (result 0)
  | k + 1 =>
      attemptsTrace result delay k ++ [Event.draw (some (delay k)), Event.sleep (delay k)]
        ++ attemptEvents (result (k + 1))

/-! ### What a trace accounts for -/

def calls : List (Event O E) → List (Except E O) :=
  List.filterMap fun
    | Event.call result => some result
    | _ => none

def checks : List (Event O E) → List E :=
  List.filterMap fun
    | Event.check err => some err
    | _ => none

/-- The elements drawn; a draw from an exhausted iterator is none. -/
def draws : List (Event O E) → List Duration :=
  List.filterMap fun
    | Event.draw delay => delay
    | _ => none

def sleeps : List (Event O E) → List Duration :=
  List.filterMap fun
    | Event.sleep delay => some delay
    | _ => none

def errorOf : Except E O → Option E
  | Except.ok _ => none
  | Except.error err => some err

@[simp] lemma calls_append (s t : List (Event O E)) : calls (s ++ t) = calls s ++ calls t :=
  List.filterMap_append

@[simp] lemma draws_append (s t : List (Event O E)) : draws (s ++ t) = draws s ++ draws t :=
  List.filterMap_append

@[simp] lemma sleeps_append (s t : List (Event O E)) : sleeps (s ++ t) = sleeps s ++ sleeps t :=
  List.filterMap_append

/-- `k + 1` calls, each failed one checked once, `k` elements drawn and slept for. -/
structure Accounts (result : ℕ → Except E O) (delay : ℕ → Duration) (k : ℕ)
    (trace : List (Event O E)) : Prop where
  called : calls trace = (List.range (k + 1)).map result
  checked : checks trace = (List.range (k + 1)).filterMap fun i => errorOf (result i)
  drawn : draws trace = (List.range k).map delay
  slept : sleeps trace = (List.range k).map delay

/-- An attempt makes one call and, if that fails, one check. -/
lemma accounts_attemptEvents (result : ℕ → Except E O) (i : ℕ) :
    calls (attemptEvents (result i)) = [result i] ∧
      checks (attemptEvents (result i)) = [i].filterMap (fun i => errorOf (result i)) ∧
      draws (attemptEvents (result i)) = [] ∧ sleeps (attemptEvents (result i)) = [] := by
  cases h : result i with
  | ok output => simp [attemptEvents, calls, checks, draws, sleeps, errorOf, h]
  | error err => simp [attemptEvents, calls, checks, draws, sleeps, errorOf, h]

lemma accounts_attemptsTrace (result : ℕ → Except E O) (delay : ℕ → Duration) (k : ℕ) :
    Accounts result delay k (attemptsTrace result delay k) := by
  induction k with
  | zero =>
      obtain ⟨hcalls, hchecks, hdraws, hsleeps⟩ := accounts_attemptEvents result 0
      exact ⟨hcalls, hchecks, hdraws, hsleeps⟩
  | succ k ih =>
      obtain ⟨hcalls, hchecks, hdraws, hsleeps⟩ := accounts_attemptEvents result (k + 1)
      refine ⟨?_, ?_, ?_, ?_⟩
      · rw [List.range_succ, List.map_append, ← ih.called]
        rw [attemptsTrace, calls_append, calls_append, hcalls]
        simp [calls]
      · rw [List.range_succ, List.filterMap_append, ← ih.checked, ← hchecks]
        simp [attemptsTrace, checks]
      · rw [List.range_succ, List.map_append, ← ih.drawn]
        rw [attemptsTrace, draws_append, draws_append, hdraws]
        simp [draws]
      · rw [List.range_succ, List.map_append, ← ih.slept]
        rw [attemptsTrace, sleeps_append, sleeps_append, hsleeps]
        simp [sleeps]

/-- A draw that finds nothing left is not an element drawn. -/
lemma accounts_append_draw_none {result : ℕ → Except E O} {delay : ℕ → Duration} {k : ℕ}
    {trace : List (Event O E)} (h : Accounts result delay k trace) :
    Accounts result delay k (trace ++ [Event.draw none]) := by
  refine ⟨?_, ?_, ?_, ?_⟩
  · rw [← h.called]
    simp [calls]
  · rw [← h.checked]
    simp [checks]
  · rw [← h.drawn]
    simp [draws]
  · rw [← h.slept]
    simp [sleeps]

end Sequences

/-! ## Following a run -/

section Follow

variable {φ ι O E : Type*} {attempt : φ → Except E O × φ} {condition : E → Bool}
variable {next : ι → Option Duration × ι}

lemma pollErr_of_stops {f : φ} (h : Stops condition (attempt f).1) :
    pollErr attempt condition f
      = (Flow.leave (attempt f).1, (attempt f).2, attemptEvents (attempt f).1) := by
  rw [pollErr]
  cases hres : attempt f with
  | mk res f' =>
      rw [hres] at h
      cases res with
      | ok output => rfl
      | error err =>
          have hrejects : condition err = false := h
          simp [hrejects, attemptEvents]

lemma pollErr_of_not_stops {f : φ} (h : ¬ Stops condition (attempt f).1) :
    ∃ err, (attempt f).1 = Except.error err ∧
      pollErr attempt condition f
        = (Flow.again err, (attempt f).2, attemptEvents (attempt f).1) := by
  rw [pollErr]
  cases hres : attempt f with
  | mk res f' =>
      rw [hres] at h
      cases res with
      | ok output => exact absurd trivial h
      | error err =>
          have hpasses : condition err = true := by
            simpa [Stops] using h
          exact ⟨err, rfl, by simp [hpasses, attemptEvents]⟩

/-- A pass that finds a delay sleeps for it and makes the next attempt. -/
lemma retryPass_of_some {s : RetryState φ ι O E} {delay : Duration}
    (h : (next s.retries).1 = some delay) :
    retryPass attempt condition next s
      = match pollErr attempt condition s.factory with
        | (Flow.leave result, _, events) => Flow.leave
            ⟨result, s.trace ++ [Event.draw (some delay), Event.sleep delay] ++ events⟩
        | (Flow.again err, factory, events) => Flow.again ⟨factory, (next s.retries).2, err,
            s.trace ++ [Event.draw (some delay), Event.sleep delay] ++ events⟩ := by
  have hnext : next s.retries = (some delay, (next s.retries).2) := Prod.ext h rfl
  rw [retryPass, hnext]

lemma retryPass_of_none {s : RetryState φ ι O E} (h : (next s.retries).1 = none) :
    retryPass attempt condition next s
      = Flow.leave ⟨Except.error s.err, s.trace ++ [Event.draw none]⟩ := by
  have hnext : next s.retries = (none, (next s.retries).2) := Prod.ext h rfl
  rw [retryPass, hnext]

variable {factory : φ} {retries : ι} {delay : ℕ → Duration}

lemma retryIf_succ {n : ℕ} {s : RetryState φ ι O E}
    (h : retryIf attempt condition next factory retries n = Flow.again s) :
    retryIf attempt condition next factory retries (n + 1)
      = retryPass attempt condition next s := by
  unfold retryIf at h ⊢
  split at h
  · exact absurd h (by simp)
  · exact loopAt_succ_of_again h

/-- While nothing stops it and the delays last, the loop head after `k` passes has made `k + 1`
attempts and drawn `k` delays. -/
lemma retryIf_head (k : ℕ) :
    (∀ i ≤ k, ¬ Stops condition (resultAt attempt factory i)) →
    (∀ i < k, delayAt next retries i = some (delay i)) →
    ∃ err, resultAt attempt factory k = Except.error err ∧
      retryIf attempt condition next factory retries k = Flow.again
        ⟨(fun f => (attempt f).2)^[k + 1] factory, (fun r => (next r).2)^[k] retries, err,
          attemptsTrace (resultAt attempt factory) delay k⟩ := by
  induction k with
  | zero =>
      intro hgo _
      obtain ⟨err, herr, hpoll⟩ := pollErr_of_not_stops (hgo 0 (le_refl 0))
      refine ⟨err, herr, ?_⟩
      rw [Function.iterate_zero, id] at hpoll
      simp only [retryIf, hpoll, loopAt]
      rfl
  | succ k ih =>
      intro hgo hdelay
      obtain ⟨err, -, hhead⟩ := ih (fun i hi => hgo i (by omega)) (fun i hi => hdelay i (by omega))
      obtain ⟨err', herr', hpoll⟩ := pollErr_of_not_stops (hgo (k + 1) (le_refl _))
      refine ⟨err', herr', ?_⟩
      rw [retryIf_succ hhead, retryPass_of_some (hdelay k (by omega)), hpoll]
      simp only [Function.iterate_succ_apply', attemptsTrace, resultAt]

/-- A run that some attempt ends. -/
lemma retryIf_of_stops {k : ℕ} (hgo : ∀ i < k, ¬ Stops condition (resultAt attempt factory i))
    (hstop : Stops condition (resultAt attempt factory k))
    (hdelay : ∀ i < k, delayAt next retries i = some (delay i)) :
    retryIf attempt condition next factory retries k = Flow.leave
      ⟨resultAt attempt factory k, attemptsTrace (resultAt attempt factory) delay k⟩ := by
  have hpoll := pollErr_of_stops hstop
  cases k with
  | zero =>
      rw [Function.iterate_zero, id] at hpoll
      simp only [retryIf, hpoll]
      rfl
  | succ k =>
      obtain ⟨err, -, hhead⟩ := retryIf_head k (fun i hi => hgo i (by omega))
        (fun i hi => hdelay i (by omega))
      rw [retryIf_succ hhead, retryPass_of_some (hdelay k (by omega)), hpoll]
      rfl

/-- A run that the delays end. -/
lemma retryIf_of_exhausted {n : ℕ}
    (hgo : ∀ i ≤ n, ¬ Stops condition (resultAt attempt factory i))
    (hdelay : ∀ i < n, delayAt next retries i = some (delay i))
    (hnone : delayAt next retries n = none) :
    retryIf attempt condition next factory retries (n + 1) = Flow.leave
      ⟨resultAt attempt factory n,
        attemptsTrace (resultAt attempt factory) delay n ++ [Event.draw none]⟩ := by
  obtain ⟨err, herr, hhead⟩ := retryIf_head n hgo hdelay
  rw [retryIf_succ hhead, retryPass_of_none hnone, herr]

end Follow

/-- What `retry_if` does with a sequence of results and of delays, in the three ways a run can
go: an attempt ends it, the delays end it, or nothing does. -/
structure RetriesExactly {φ ι O E : Type*} (condition : E → Bool) (result : ℕ → Except E O)
    (delays : ℕ → Option Duration)
    (run : ℕ → Flow (RetryState φ ι O E) (RetryOutcome O E)) : Prop where
  stopped : ∀ k (delay : ℕ → Duration), (∀ i < k, ¬ Stops condition (result i)) →
    Stops condition (result k) → (∀ i < k, delays i = some (delay i)) →
      ∃ out, run k = Flow.leave out ∧ out.result = result k ∧
        out.trace = attemptsTrace result delay k ∧ Accounts result delay k out.trace
  exhausted : ∀ n (delay : ℕ → Duration), (∀ i ≤ n, ¬ Stops condition (result i)) →
    (∀ i < n, delays i = some (delay i)) → delays n = none →
      ∃ out, run (n + 1) = Flow.leave out ∧ out.result = result n ∧
        out.trace = attemptsTrace result delay n ++ [Event.draw none] ∧
        Accounts result delay n out.trace
  endless : ∀ delay : ℕ → Duration, (∀ i, ¬ Stops condition (result i)) →
    (∀ i, delays i = some (delay i)) → ∀ n, ∃ s, run n = Flow.again s

lemma retriesExactly_retryIf {φ ι O E : Type*} (attempt : φ → Except E O × φ)
    (condition : E → Bool) (next : ι → Option Duration × ι) (factory : φ) (retries : ι) :
    RetriesExactly condition (resultAt attempt factory) (delayAt next retries)
      (retryIf attempt condition next factory retries) := by
  refine ⟨?_, ?_, ?_⟩
  · intro k delay hgo hstop hdelay
    exact ⟨_, retryIf_of_stops hgo hstop hdelay, rfl, rfl, accounts_attemptsTrace _ _ k⟩
  · intro n delay hgo hdelay hnone
    exact ⟨_, retryIf_of_exhausted hgo hdelay hnone, rfl, rfl,
      accounts_append_draw_none (accounts_attemptsTrace _ _ n)⟩
  · intro delay hgo hdelay n
    obtain ⟨err, -, hhead⟩ := retryIf_head n (fun i _ => hgo i) (fun i _ => hdelay i)
    exact ⟨_, hhead⟩

/-- **`retry_if` and `retry`, exactly**: the result, and every call, check, draw and sleep in
order. -/
theorem retryIf_exact {φ ι O E : Type*} (attempt : φ → Except E O × φ)
    (next : ι → Option Duration × ι) (factory : φ) (retries : ι) :
    (∀ condition : E → Bool,
      RetriesExactly condition (resultAt attempt factory) (delayAt next retries)
        (retryIf attempt condition next factory retries)) ∧
    RetriesExactly (fun _ => true) (resultAt attempt factory) (delayAt next retries)
      (retry attempt next factory retries) :=
  ⟨fun condition => retriesExactly_retryIf attempt condition next factory retries,
    retriesExactly_retryIf attempt (fun _ => true) next factory retries⟩

/-- `Iterator::next` of a list of delays. -/
def listNext : List Duration → Option Duration × List Duration
  | [] => (none, [])
  | d :: ds => (some d, ds)

/-- Attempts 0 and 1 fail and attempt 2 succeeds; of three delays two are slept for. -/
theorem retryIf_exact_third_attempt :
    ∃ out, retry (fun n : ℕ => (if n < 2 then Except.error n else Except.ok n, n + 1)) listNext 0
        [Duration.fromSecs 1, Duration.fromSecs 2, Duration.fromSecs 3] 2 = Flow.leave out ∧
      out.result = Except.ok 2 ∧ calls out.trace = [Except.error 0, Except.error 1, Except.ok 2] ∧
      checks out.trace = [0, 1] ∧
      sleeps out.trace = [Duration.fromSecs 1, Duration.fromSecs 2] := by
  obtain ⟨out, hrun, hresult, -, haccounts⟩ := (retryIf_exact
    (fun n : ℕ => ((if n < 2 then Except.error n else Except.ok n : Except ℕ ℕ), n + 1)) listNext 0
    [Duration.fromSecs 1, Duration.fromSecs 2, Duration.fromSecs 3]).2.stopped 2
    (fun i => Duration.fromSecs (UInt64.ofNat (i + 1)))
    (by
      intro i hi
      interval_cases i <;> simp [Stops, resultAt])
    (by simp [Stops, resultAt])
    (by
      intro i hi
      interval_cases i <;> rfl)
  exact ⟨out, hrun, hresult, haccounts.called, haccounts.checked, haccounts.slept⟩

end FutureAio.Retry
