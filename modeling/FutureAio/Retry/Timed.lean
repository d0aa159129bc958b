import FutureAio.Retry.Polled

/-!
# `retry_if` under a timeout

`retry(..).timeout(duration)` sets `retry_if` against a timer: the timer is started when `retry_if`
is first suspended, and looked at each time it is.

* `timedRetry` — the executor's loop around it.
* `Suspended`, `StartsTimer`, `Expires` — the steps of `retry_if` itself at which the timer matters.

`timeout_over_retry` — it is `retry_if` up to the first step at which it is suspended with the timer
fired, and a timeout from then on.
-/

namespace FutureAio.Retry

open OracleLoop

/-- What a step finds: the clock as `retry_if` reads it, and what the timer finds when `retry_if` is
suspended. -/
structure Look where
  now : ℕ
  wake : Wake
  deriving DecidableEq, Repr

section Timed

variable (io : AsyncIo) (lite : FuturesLite) {φ ι β O E : Type} (create : φ → β × φ)
variable (poll : β → β × Poll (Except E O))
variable (condition : E → Bool) (next : ι → Option Duration × ι) (duration : Duration)

/-- The poll of `or` in which `retry_if`, polled, comes to `answer`. -/
def timedPoll (wake : Wake)
    (answer : RetryFuture io φ ι β O E × Poll (Except TimeoutError (RetryOutcome O E × List ℕ)))
    (s : RetryFuture io φ ι β O E × Option (Sleeper io)) :
    Flow (RetryFuture io φ ι β O E × Option (Sleeper io))
      (Except TimeoutError (RetryOutcome O E) × List ℕ) :=
  match lite.orPoll (fun _ => answer) (timerBlock TimeoutError.timeoutError duration wake) s with
  | (s', Poll.pending) => Flow.again s'
  | (_, Poll.ready (Except.ok (out, created))) => Flow.leave (Except.ok out, created)
  | (s', Poll.ready (Except.error err)) => Flow.leave (Except.error err, s'.1.created)

/-- A step of `retry_if(..).timeout(duration)`: a poll of `or` is over when that of `retry_if`
is. -/
def timedStep (s : RetryFuture io φ ι β O E × Option (Sleeper io)) (look : Look) :
    Flow (RetryFuture io φ ι β O E × Option (Sleeper io))
      (Except TimeoutError (RetryOutcome O E) × List ℕ) :=
  match retryStep create poll condition next look.now s.1 with
  | Progress.goesOn s' => Flow.again (s', s.2)
  | Progress.suspends s' => timedPoll io lite duration look.wake (s', Poll.pending) s
  | Progress.returns r => timedPoll io lite duration look.wake (s.1, Poll.ready (Except.ok r)) s

/-- `retry_if(..).timeout(duration)` under an executor. -/
def timedRetry (factory : φ) (retries : ι) (looks : ℕ → Look) :
    ℕ → Flow (RetryFuture io φ ι β O E × Option (Sleeper io))
      (Except TimeoutError (RetryOutcome O E) × List ℕ) :=
  loopAt (timedStep io lite create poll condition next duration) looks
    (RetryFuture.new factory retries, none)

/-- In step `n`, `retry_if` is suspended. -/
def Suspended (factory : φ) (retries : ι) (looks : ℕ → Look) (n : ℕ) : Prop :=
  ∃ s s', polledRetry io create poll condition next factory retries (fun i => (looks i).now) n
      = Flow.again s ∧
    retryStep create poll condition next (looks n).now s = Progress.suspends s'

/-- Step `j` is the first in which it is; the timer is started in it. -/
structure StartsTimer (factory : φ) (retries : ι) (looks : ℕ → Look) (j : ℕ) : Prop where
  suspended : Suspended io create poll condition next factory retries looks j
  first : ∀ i < j, ¬ Suspended io create poll condition next factory retries looks i

/-- In step `n` it is, and the timer is found to have fired. -/
def Expires (factory : φ) (retries : ι) (looks : ℕ → Look) (n : ℕ) : Prop :=
  Suspended io create poll condition next factory retries looks n ∧
    ∃ j, StartsTimer io create poll condition next factory retries looks j ∧
      (FutureAio.sleep io (looks j).wake.starts duration).fired (looks n).wake.now = true

variable {io} in
/-- What has become of `retry_if`, as long as there is no timeout. -/
def untimed : Flow (RetryFuture io φ ι β O E × Option (Sleeper io))
    (Except TimeoutError (RetryOutcome O E) × List ℕ) →
    Option (Flow (RetryFuture io φ ι β O E) (RetryOutcome O E × List ℕ))
  | Flow.again (s, _) => some (Flow.again s)
  | Flow.leave (Except.ok out, created) => some (Flow.leave (out, created))
  | Flow.leave (Except.error _, _) => none

/-- The timer after `n` steps: not started, or started in the first step in which `retry_if` was
suspended. -/
def TimerAt (factory : φ) (retries : ι) (looks : ℕ → Look) (n : ℕ) : Option (Sleeper io) → Prop
  | none => ∀ i < n, ¬ Suspended io create poll condition next factory retries looks i
  | some sleeper => ∃ j, StartsTimer io create poll condition next factory retries looks j ∧
      sleeper.deadline = (FutureAio.sleep io (looks j).wake.starts duration).deadline

variable {io lite create poll condition next duration} {factory : φ} {retries : ι}
variable {looks : ℕ → Look} {n : ℕ} {s : RetryFuture io φ ι β O E} {timer : Option (Sleeper io)}

lemma StartsTimer.unique {i j : ℕ}
    (hi : StartsTimer io create poll condition next factory retries looks i)
    (hj : StartsTimer io create poll condition next factory retries looks j) : i = j := by
  rcases Nat.lt_trichotomy i j with hlt | heq | hgt
  · exact absurd hi.suspended (hj.first i hlt)
  · exact heq
  · exact absurd hj.suspended (hi.first j hgt)

/-- In a step in which `retry_if` is suspended the timer is there, or it is started. -/
lemma TimerAt.getD
    (h : TimerAt io create poll condition next duration factory retries looks n timer)
    (hsuspended : Suspended io create poll condition next factory retries looks n) :
    ∃ j, StartsTimer io create poll condition next factory retries looks j ∧
      (timer.getD (FutureAio.sleep io (looks n).wake.starts duration)).deadline
        = (FutureAio.sleep io (looks j).wake.starts duration).deadline := by
  cases timer with
  | none => exact ⟨n, ⟨hsuspended, h⟩, rfl⟩
  | some sleeper => exact h

/-- In any other step nothing becomes of it. -/
lemma TimerAt.succ
    (h : TimerAt io create poll condition next duration factory retries looks n timer)
    (hnot : ¬ Suspended io create poll condition next factory retries looks n) :
    TimerAt io create poll condition next duration factory retries looks (n + 1) timer := by
  cases timer with
  | none =>
      intro i hi
      rcases Nat.lt_succ_iff_lt_or_eq.mp hi with hlt | rfl
      · exact h i hlt
      · exact hnot
  | some sleeper => exact h

/-- Without a timeout so far, the two runs are in step. -/
structure InStep (io : AsyncIo) (lite : FuturesLite) (create : φ → β × φ)
    (poll : β → β × Poll (Except E O)) (condition : E → Bool) (next : ι → Option Duration × ι)
    (duration : Duration) (factory : φ) (retries : ι) (looks : ℕ → Look) (n : ℕ) : Prop where
  same : untimed (timedRetry io lite create poll condition next duration factory retries looks n)
    = some (polledRetry io create poll condition next factory retries (fun i => (looks i).now) n)
  timer : ∀ s timer,
    timedRetry io lite create poll condition next duration factory retries looks n
        = Flow.again (s, timer) →
      TimerAt io create poll condition next duration factory retries looks n timer

lemma timedRetry_succ
    (h : timedRetry io lite create poll condition next duration factory retries looks n
      = Flow.again (s, timer)) :
    timedRetry io lite create poll condition next duration factory retries looks (n + 1)
      = timedStep io lite create poll condition next duration (s, timer) (looks n) :=
  loopAt_succ_of_again h

/-- `retry_if` is suspended and the timer has fired. -/
lemma timedStep_of_fired {s' : RetryFuture io φ ι β O E} {look : Look} {started : Sleeper io}
    (hstep : retryStep create poll condition next look.now s = Progress.suspends s')
    (htimer : (timer.getD (FutureAio.sleep io look.wake.starts duration)).deadline
      = started.deadline) (hfired : started.fired look.wake.now = true) :
    timedStep io lite create poll condition next duration (s, timer) look
      = Flow.leave (Except.error TimeoutError.timeoutError, s'.created) := by
  have hor := (lite.orPoll_first (fun _ => (s', Poll.pending)) (timerBlock
    (T := RetryOutcome O E × List ℕ) TimeoutError.timeoutError duration look.wake)
    (s, timer)).pending rfl
  rw [timerBlock_of_fired _ htimer hfired] at hor
  simp only [timedStep, hstep, timedPoll, hor]

/-- `retry_if` is suspended and the timer has not fired. -/
lemma timedStep_of_not_fired {s' : RetryFuture io φ ι β O E} {look : Look} {started : Sleeper io}
    (hstep : retryStep create poll condition next look.now s = Progress.suspends s')
    (htimer : (timer.getD (FutureAio.sleep io look.wake.starts duration)).deadline
      = started.deadline) (hnot : started.fired look.wake.now = false) :
    ∃ sleeper : Sleeper io, sleeper.deadline = started.deadline ∧
      timedStep io lite create poll condition next duration (s, timer) look
        = Flow.again (s', some sleeper) := by
  have hor := (lite.orPoll_first (fun _ => (s', Poll.pending)) (timerBlock
    (T := RetryOutcome O E × List ℕ) TimeoutError.timeoutError duration look.wake)
    (s, timer)).pending rfl
  obtain ⟨sleeper, hsleeper, htimer'⟩ := timerBlock_of_not_fired (T := RetryOutcome O E × List ℕ)
    TimeoutError.timeoutError htimer hnot
  rw [htimer'] at hor
  exact ⟨sleeper, hsleeper, by simp only [timedStep, hstep, timedPoll, hor]⟩

/-- `retry_if` returns, and the timer is not asked. -/
lemma timedStep_of_returns {r : RetryOutcome O E × List ℕ} {look : Look}
    (hstep : retryStep create poll condition next look.now s = Progress.returns r) :
    timedStep io lite create poll condition next duration (s, timer) look
      = Flow.leave (Except.ok r.1, r.2) := by
  have hor := (lite.orPoll_first (fun _ => (s, Poll.ready (Except.ok r))) (timerBlock
    TimeoutError.timeoutError duration look.wake) (s, timer)).ready _ rfl
  simp only [timedStep, hstep, timedPoll]
  rw [← Prod.mk.eta (p := lite.orPoll _ _ _), hor]

lemma inStep_zero : InStep io lite create poll condition next duration factory retries looks 0 := by
  refine ⟨rfl, ?_⟩
  rintro s timer ⟨⟩
  simp [TimerAt]

/-- The run of `retry_if` that a timed run in step with it stands for. -/
lemma InStep.again (h : InStep io lite create poll condition next duration factory retries looks n)
    (hrun : timedRetry io lite create poll condition next duration factory retries looks n
      = Flow.again (s, timer)) :
    polledRetry io create poll condition next factory retries (fun i => (looks i).now) n
      = Flow.again s := by
  have hsame := h.same
  rw [hrun, untimed, Option.some.injEq] at hsame
  exact hsame.symm

/-- Both have returned. -/
lemma InStep.succ_of_leave
    (h : InStep io lite create poll condition next duration factory retries looks n)
    {r : Except TimeoutError (RetryOutcome O E) × List ℕ}
    (hrun : timedRetry io lite create poll condition next duration factory retries looks n
      = Flow.leave r) :
    InStep io lite create poll condition next duration factory retries looks (n + 1) := by
  have hsame := h.same
  rw [hrun] at hsame
  obtain ⟨result, created⟩ := r
  cases result with
  | error e => exact absurd hsame (by simp [untimed])
  | ok out =>
      have hpolled := (Option.some.inj hsame).symm
      have hleft := loopAt_leave_add hrun 1
      refine ⟨?_, ?_⟩
      · rw [timedRetry, hleft, polledRetry, loopAt_leave_add hpolled 1]
        rfl
      · intro s timer hagain
        exact absurd (hleft.symm.trans hagain) (by simp)

/-- `retry_if` is suspended, and the timer has not fired. -/
lemma InStep.succ_of_suspends
    (h : InStep io lite create poll condition next duration factory retries looks n)
    (hnot : ¬ Expires io create poll condition next duration factory retries looks n)
    (hrun : timedRetry io lite create poll condition next duration factory retries looks n
      = Flow.again (s, timer)) {s' : RetryFuture io φ ι β O E}
    (hstep : retryStep create poll condition next (looks n).now s = Progress.suspends s') :
    InStep io lite create poll condition next duration factory retries looks (n + 1) := by
  have hpolled := h.again hrun
  have hsuspended : Suspended io create poll condition next factory retries looks n :=
    ⟨s, s', hpolled, hstep⟩
  obtain ⟨j, hj, hsleeper⟩ := (h.timer s timer hrun).getD hsuspended
  have hquiet : (FutureAio.sleep io (looks j).wake.starts duration).fired
      (looks n).wake.now = false :=
    Bool.eq_false_iff.mpr fun hfired => hnot ⟨hsuspended, j, hj, hfired⟩
  obtain ⟨sleeper, hsame, hnext⟩ := timedStep_of_not_fired hstep hsleeper hquiet
  refine ⟨?_, ?_⟩
  · rw [timedRetry_succ hrun, hnext, polledRetry_succ hpolled, hstep]
    rfl
  · intro s₁ timer₁ hagain
    rw [timedRetry_succ hrun, hnext] at hagain
    cases hagain
    exact ⟨j, hj, hsame⟩

lemma InStep.succ (h : InStep io lite create poll condition next duration factory retries looks n)
    (hnot : ¬ Expires io create poll condition next duration factory retries looks n) :
    InStep io lite create poll condition next duration factory retries looks (n + 1) := by
  cases hrun : timedRetry io lite create poll condition next duration factory retries looks n with
  | leave r => exact h.succ_of_leave hrun
  | again s =>
      obtain ⟨s, timer⟩ := s
      have hpolled := h.again hrun
      have htimer := h.timer s timer hrun
      cases hstep : retryStep create poll condition next (looks n).now s with
      | goesOn s' =>
          have hnot' : ¬ Suspended io create poll condition next factory retries looks n := by
            rintro ⟨s₁, s₂, hpolled₁, hstep₁⟩
            obtain rfl := Flow.again.inj (hpolled.symm.trans hpolled₁)
            exact absurd (hstep.symm.trans hstep₁) (by simp)
          refine ⟨?_, ?_⟩
          · rw [timedRetry_succ hrun, timedStep, polledRetry_succ hpolled, hstep]
            rfl
          · intro s₁ timer₁ hagain
            rw [timedRetry_succ hrun, timedStep, hstep] at hagain
            cases hagain
            exact htimer.succ hnot'
      | returns r =>
          refine ⟨?_, ?_⟩
          · rw [timedRetry_succ hrun, timedStep_of_returns hstep, polledRetry_succ hpolled, hstep]
            rfl
          · intro s₁ timer₁ hagain
            rw [timedRetry_succ hrun, timedStep_of_returns hstep] at hagain
            exact absurd hagain (by simp)
      | suspends s' => exact h.succ_of_suspends hnot hrun hstep

variable (lite) in
lemma inStep_of_not_expires (n : ℕ) :
    (∀ m < n, ¬ Expires io create poll condition next duration factory retries looks m) →
      InStep io lite create poll condition next duration factory retries looks n := by
  induction n with
  | zero =>
      intro _
      exact inStep_zero
  | succ n ih =>
      intro hnot
      exact (ih fun m hm => hnot m (by omega)).succ (hnot n (Nat.lt_succ_self n))

/-- In step, up to a step at which the timer has fired. -/
lemma InStep.expires
    (h : InStep io lite create poll condition next duration factory retries looks n)
    (hexpires : Expires io create poll condition next duration factory retries looks n) :
    ∃ s, polledRetry io create poll condition next factory retries (fun i => (looks i).now) (n + 1)
        = Flow.again s ∧
      timedRetry io lite create poll condition next duration factory retries looks (n + 1)
        = Flow.leave (Except.error TimeoutError.timeoutError, s.created) := by
  obtain ⟨⟨s, s', hpolled, hstep⟩, j, hj, hfired⟩ := hexpires
  refine ⟨s', ?_, ?_⟩
  · rw [polledRetry_succ hpolled, hstep]
    rfl
  · have hsame := h.same
    rw [hpolled] at hsame
    cases hrun : timedRetry io lite create poll condition next duration factory retries looks n with
    | leave r =>
        obtain ⟨result, created⟩ := r
        rw [hrun] at hsame
        cases result <;> simp [untimed] at hsame
    | again st =>
        obtain ⟨s₁, timer⟩ := st
        obtain rfl := Flow.again.inj (hpolled.symm.trans (h.again hrun))
        obtain ⟨j', hj', hsleeper⟩ := (h.timer s timer hrun).getD ⟨s, s', hpolled, hstep⟩
        obtain rfl := hj.unique hj'
        rw [timedRetry_succ hrun, timedStep_of_fired hstep hsleeper hfired]

end Timed

/-- **`retry_if` under a timeout.**  Up to the first step at which it is suspended with the timer
fired, it is `retry_if`, step for step and with the same result.  From that step on it is a timeout:
no sooner than `duration` after the first poll, never once `retry_if` has returned, and no attempt
is made after it. -/
theorem timeout_over_retry (io : AsyncIo) (lite : FuturesLite) {φ ι β O E : Type}
    (create : φ → β × φ) (poll : β → β × Poll (Except E O)) (condition : E → Bool)
    (next : ι → Option Duration × ι) (duration : Duration) (factory : φ) (retries : ι)
    (looks : ℕ → Look)
    (hlooks : ∀ n, (looks 0).now ≤ (looks n).wake.starts) :
    (∀ n, (∀ m < n, ¬ Expires io create poll condition next duration factory retries looks m) →
      untimed (timedRetry io lite create poll condition next duration factory retries looks n)
        = some (polledRetry io create poll condition next factory retries
            (fun i => (looks i).now) n)) ∧
    ∀ m, Expires io create poll condition next duration factory retries looks m →
      (∀ i < m, ¬ Expires io create poll condition next duration factory retries looks i) →
      (looks 0).now + duration.toNanos ≤ (looks m).wake.now ∧
      ∃ s, polledRetry io create poll condition next factory retries (fun i => (looks i).now)
          (m + 1) = Flow.again s ∧
        ∀ n > m, timedRetry io lite create poll condition next duration factory retries looks n
          = Flow.leave (Except.error TimeoutError.timeoutError, s.created) := by
  refine ⟨fun n hnot => (inStep_of_not_expires lite n hnot).same, ?_⟩
  intro m hexpires hnot
  obtain ⟨s, hpolled, hleave⟩ := (inStep_of_not_expires lite m hnot).expires hexpires
  obtain ⟨-, j, -, hfired⟩ := hexpires
  refine ⟨?_, s, hpolled, ?_⟩
  · have hstarts := hlooks j
    have helapsed := le_of_fired_sleep hfired
    omega
  · intro n hn
    have hleft := loopAt_leave_add hleave (n - (m + 1))
    rwa [Nat.add_sub_cancel' hn] at hleft

/-- A factory whose first future takes six polls. -/
def slowFirst (n : ℕ) : (ℕ × Except ℕ ℕ) × ℕ := ((5, Except.ok n), n + 1)

/-- The clock advances by half a second from the second step on. -/
def halfSeconds (n : ℕ) : Look :=
  ⟨(n - 1) * (5 * 10 ^ 8), (n - 1) * (5 * 10 ^ 8), (n - 1) * (5 * 10 ^ 8), true⟩

/-- The timer is started in the first of three polls, and fires in the third. -/
theorem timeout_over_retry_pending :
    untimed (timedRetry punctualIo frugalLite slowFirst laterPoll (fun _ => true) listNext
        (Duration.fromSecs 1) 0 [] halfSeconds 3)
      = some (polledRetry punctualIo slowFirst laterPoll (fun _ => true) listNext 0 []
          (fun i => (halfSeconds i).now) 3) ∧
    timedRetry punctualIo frugalLite slowFirst laterPoll (fun _ => true) listNext
        (Duration.fromSecs 1) 0 [] halfSeconds 4
      = Flow.leave (Except.error TimeoutError.timeoutError, [0]) := by
  have hcalls : ¬ Suspended punctualIo slowFirst laterPoll (fun _ => true) listNext 0 []
      halfSeconds 0 := by
    rintro ⟨s, s', hpolled, hstep⟩
    cases hpolled
    cases hstep
  have hstarts : StartsTimer punctualIo slowFirst laterPoll (fun _ => true) listNext 0 []
      halfSeconds 1 := by
    refine ⟨⟨_, _, rfl, rfl⟩, ?_⟩
    intro i hi
    obtain rfl : i = 0 := by omega
    exact hcalls
  have hnone : ∀ i < 3, ¬ Expires punctualIo slowFirst laterPoll (fun _ => true) listNext
      (Duration.fromSecs 1) 0 [] halfSeconds i := by
    rintro i hi ⟨-, j, hj, hfired⟩
    obtain rfl := hstarts.unique hj
    have hearly : ∀ i < 3, (FutureAio.sleep punctualIo (halfSeconds 1).wake.starts
        (Duration.fromSecs 1)).fired (halfSeconds i).wake.now = false := by
      decide
    rw [hearly i hi] at hfired
    exact absurd hfired (by simp)
  have hboth := timeout_over_retry punctualIo frugalLite slowFirst laterPoll (fun _ => true)
    listNext (Duration.fromSecs 1) 0 [] halfSeconds (fun n => Nat.zero_le _)
  refine ⟨hboth.1 3 hnone, ?_⟩
  obtain ⟨-, s, hpolled, hleft⟩ :=
    hboth.2 3 ⟨⟨_, _, rfl, rfl⟩, 1, hstarts, by decide⟩ hnone
  cases hpolled
  exact hleft 4 (by omega)

end FutureAio.Retry
