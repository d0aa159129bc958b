import FutureAio.Retry.Budget
import FutureAio.Timeout

/-!
# `retry_if`, poll by poll

`retryIf` takes an attempt as one call.  In the code an attempt is a future, a sleep is a timer, and
the executor polls `retry_if` when it likes, with whatever the clock then reads.

* `RetryFuture` — the future that `retry_if` is, at the `.await` it is suspended at.
* `retryStep` — what it does between two looks at the clock: it goes on, it is suspended, or it
  returns.
* `polledRetry` — the executor's loop around it.

`polled_retry_iff` — the polls change nothing: the future returns what `retryIf` says, and it does
return when `retryIf` does.  `attempts_paced` — no attempt is made before its time.
-/

namespace FutureAio.Retry

open OracleLoop

/-- What a future does until it next looks at the clock. -/
inductive Progress (σ ρ : Type*) where
  | goesOn (s : σ)
  | suspends (s : σ)
  | returns (r : ρ)

/-- A suspended future is polled again. -/
def Progress.toFlow {σ ρ : Type*} : Progress σ ρ → Flow σ ρ
  | Progress.goesOn s => Flow.again s
  | Progress.suspends s => Flow.again s
  | Progress.returns r => Flow.leave r

/-- The `.await`s of `retry_if`. -/
inductive Await (io : AsyncIo) (β : Type*) where
  | unresumed
  | attempt (future : β)
  | sleep (sleeper : Sleeper io)

/-- `retry_if`, suspended: its variables, the instants at which it called the factory, and what it
did. -/
structure RetryFuture (io : AsyncIo) (φ ι β O E : Type*) where
  await : Await io β
  factory : φ
  retries : ι
  created : List ℕ
  trace : List (Event O E)

section Code

variable {io : AsyncIo} {φ ι β O E : Type*} (create : φ → β × φ) (poll : β → β × Poll (Except E O))
variable (condition : E → Bool) (next : ι → Option Duration × ι)

/-- `factory()`. -/
def RetryFuture.callFactory (now : ℕ) (s : RetryFuture io φ ι β O E) : RetryFuture io φ ι β O E :=
  { s with
    await := Await.attempt (create s.factory).1
    factory := (create s.factory).2
    created := s.created ++ [now] }

/-- After a failed attempt, at the head of the loop: the next sleep, or the last error. -/
def RetryFuture.drawNext (now : ℕ) (err : E) (s : RetryFuture io φ ι β O E) :
    Progress (RetryFuture io φ ι β O E) (RetryOutcome O E × List ℕ) :=
  match next s.retries with
  | (none, _) => Progress.returns (⟨Except.error err, s.trace ++ [Event.draw none]⟩, s.created)
  | (some delay, retries) =>
      Progress.goesOn { s with
        await := Await.sleep (FutureAio.sleep io now delay)
        retries := retries
        trace := s.trace ++ [Event.draw (some delay), Event.sleep delay] }

/-- `retry_if`, from one look at the clock to the next. -/
def retryStep (now : ℕ) (s : RetryFuture io φ ι β O E) :
    Progress (RetryFuture io φ ι β O E) (RetryOutcome O E × List ℕ) :=
  match s.await with
  | Await.unresumed => Progress.goesOn (s.callFactory create now)
  | Await.attempt future =>
      match poll future with
      | (future', Poll.pending) => Progress.suspends { s with await := Await.attempt future' }
      | (_, Poll.ready (Except.ok output)) =>
          Progress.returns
            (⟨Except.ok output, s.trace ++ [Event.call (Except.ok output)]⟩, s.created)
      | (_, Poll.ready (Except.error err)) =>
          let s' := { s with trace := s.trace ++ [Event.call (Except.error err), Event.check err] }
          if !condition err then Progress.returns (⟨Except.error err, s'.trace⟩, s.created)
          else s'.drawNext next now err
  | Await.sleep sleeper =>
      match sleeper.poll now with
      | (_, Poll.ready _) => Progress.goesOn (s.callFactory create now)
      | (sleeper', Poll.pending) => Progress.suspends { s with await := Await.sleep sleeper' }

/-- The future, before its first poll. -/
def RetryFuture.new (factory : φ) (retries : ι) : RetryFuture io φ ι β O E :=
  ⟨Await.unresumed, factory, retries, [], []⟩

variable (io) in
/-- `retry_if` under an executor; `clock i` is what look number `i` at the clock finds. -/
def polledRetry (factory : φ) (retries : ι) (clock : ℕ → ℕ) :
    ℕ → Flow (RetryFuture io φ ι β O E) (RetryOutcome O E × List ℕ) :=
  loopAt (fun s now => (retryStep create poll condition next now s).toFlow) clock
    (RetryFuture.new factory retries)

end Code

/-! ## What a step can do -/

section Steps

variable {io : AsyncIo} {φ ι β O E : Type*} {create : φ → β × φ} {poll : β → β × Poll (Except E O)}
variable {condition : E → Bool} {next : ι → Option Duration × ι}

/-- The future is about to call the factory. -/
def Await.Calls (now : ℕ) : Await io β → Prop
  | Await.unresumed => True
  | Await.attempt _ => False
  | Await.sleep sleeper => sleeper.fired now = true

/-- The six things a step can be. -/
inductive Steps (create : φ → β × φ) (poll : β → β × Poll (Except E O)) (condition : E → Bool)
    (next : ι → Option Duration × ι) (now : ℕ) (s : RetryFuture io φ ι β O E) :
    Progress (RetryFuture io φ ι β O E) (RetryOutcome O E × List ℕ) → Prop
  | calls : s.await.Calls now →
      Steps create poll condition next now s (Progress.goesOn (s.callFactory create now))
  | sleepsOn (sleeper : Sleeper io) : s.await = Await.sleep sleeper → sleeper.fired now = false →
      Steps create poll condition next now s
        (Progress.suspends { s with await := Await.sleep (sleeper.poll now).1 })
  | pends (future : β) : s.await = Await.attempt future → (poll future).2 = Poll.pending →
      Steps create poll condition next now s
        (Progress.suspends { s with await := Await.attempt (poll future).1 })
  | stops (future : β) (result : Except E O) : s.await = Await.attempt future →
      (poll future).2 = Poll.ready result → Stops condition result →
      Steps create poll condition next now s
        (Progress.returns (⟨result, s.trace ++ attemptEvents result⟩, s.created))
  | exhausts (future : β) (err : E) : s.await = Await.attempt future →
      (poll future).2 = Poll.ready (Except.error err) →
      ¬ Stops condition (Except.error err : Except E O) → (next s.retries).1 = none →
      Steps create poll condition next now s (Progress.returns
        (⟨Except.error err, s.trace ++ attemptEvents (Except.error err) ++ [Event.draw none]⟩,
          s.created))
  | draws (future : β) (err : E) (delay : Duration) : s.await = Await.attempt future →
      (poll future).2 = Poll.ready (Except.error err) →
      ¬ Stops condition (Except.error err : Except E O) → (next s.retries).1 = some delay →
      Steps create poll condition next now s (Progress.goesOn { s with
        await := Await.sleep (FutureAio.sleep io now delay)
        retries := (next s.retries).2
        trace := s.trace ++ attemptEvents (Except.error err)
          ++ [Event.draw (some delay), Event.sleep delay] })

lemma steps_drawNext {now : ℕ} {s : RetryFuture io φ ι β O E} {future : β} {err : E}
    (hawait : s.await = Await.attempt future)
    (hpoll : (poll future).2 = Poll.ready (Except.error err)) (hcondition : condition err = true) :
    Steps create poll condition next now s
      (RetryFuture.drawNext next now err
        { s with trace := s.trace ++ [Event.call (Except.error err), Event.check err] }) := by
  have hgo : ¬ Stops condition (Except.error err : Except E O) := by
    simp [Stops, hcondition]
  cases hnext : next s.retries with
  | mk drawn retries =>
      cases drawn with
      | none =>
          have hnone : (next s.retries).1 = none := by rw [hnext]
          have hexhausts : Steps create poll condition next now s _ :=
            Steps.exhausts future err hawait hpoll hgo hnone
          simpa [RetryFuture.drawNext, hnext, attemptEvents] using hexhausts
      | some delay =>
          have hsome : (next s.retries).1 = some delay := by rw [hnext]
          have hdraws : Steps create poll condition next now s _ :=
            Steps.draws future err delay hawait hpoll hgo hsome
          simpa [RetryFuture.drawNext, hnext, attemptEvents] using hdraws

section Await

variable {now : ℕ} {s : RetryFuture io φ ι β O E}

lemma retryStep_of_fired {sleeper : Sleeper io} (hawait : s.await = Await.sleep sleeper)
    (hfired : sleeper.fired now = true) :
    retryStep create poll condition next now s = Progress.goesOn (s.callFactory create now) := by
  unfold retryStep
  rw [hawait]
  simp only
  rw [Sleeper.poll_of_fired hfired]

lemma retryStep_of_not_fired {sleeper : Sleeper io} (hawait : s.await = Await.sleep sleeper)
    (hnot : sleeper.fired now = false) :
    retryStep create poll condition next now s
      = Progress.suspends { s with await := Await.sleep (sleeper.poll now).1 } := by
  unfold retryStep
  rw [hawait]
  simp only
  rw [Sleeper.poll_of_not_fired hnot]

end Await

variable (create poll condition next) in
lemma steps_retryStep (now : ℕ) (s : RetryFuture io φ ι β O E) :
    Steps create poll condition next now s (retryStep create poll condition next now s) := by
  cases hawait : s.await with
  | unresumed =>
      simpa only [retryStep, hawait] using Steps.calls (by rw [hawait]; trivial)
  | sleep sleeper =>
      cases hfired : sleeper.fired now with
      | true =>
          rw [retryStep_of_fired hawait hfired]
          exact Steps.calls (by rw [hawait]; exact hfired)
      | false =>
          rw [retryStep_of_not_fired hawait hfired]
          exact Steps.sleepsOn sleeper hawait hfired
  | attempt future =>
      simp only [retryStep, hawait]
      cases hpoll : poll future with
      | mk future' answer =>
          have hanswer : (poll future).2 = answer := by rw [hpoll]
          cases answer with
          | pending => simpa [hpoll] using Steps.pends future hawait hanswer
          | ready result =>
              cases result with
              | ok output =>
                  simpa [hpoll, attemptEvents]
                    using Steps.stops future (Except.ok output) hawait hanswer trivial
              | error err =>
                  cases hcondition : condition err with
                  | true =>
                      simpa [hpoll, hcondition, hawait]
                        using steps_drawNext hawait hanswer hcondition
                  | false =>
                      simpa [hpoll, hcondition, attemptEvents]
                        using Steps.stops future (Except.error err) hawait hanswer hcondition

/-- The step in which an attempt is found ready. -/
lemma Steps.of_ready {now : ℕ} {s : RetryFuture io φ ι β O E}
    {p : Progress (RetryFuture io φ ι β O E) (RetryOutcome O E × List ℕ)} {future : β}
    {result : Except E O} (h : Steps create poll condition next now s p)
    (hawait : s.await = Await.attempt future) (hready : (poll future).2 = Poll.ready result) :
    (∃ r, p = Progress.returns r ∧ (Stops condition result ∨ (next s.retries).1 = none)) ∨
      ∃ err delay, result = Except.error err ∧ ¬ Stops condition result ∧
        (next s.retries).1 = some delay ∧ p = Progress.goesOn { s with
          await := Await.sleep (FutureAio.sleep io now delay)
          retries := (next s.retries).2
          trace := s.trace ++ attemptEvents (Except.error err)
            ++ [Event.draw (some delay), Event.sleep delay] } := by
  cases h with
  | calls hcalls =>
      rw [hawait] at hcalls
      exact absurd hcalls id
  | sleepsOn sleeper hawait' _ => exact absurd (hawait.symm.trans hawait') (by simp)
  | pends future' hawait' hpending =>
      obtain rfl := Await.attempt.inj (hawait.symm.trans hawait')
      exact absurd (hready.symm.trans hpending) (by simp)
  | stops future' result' hawait' hready' hstop =>
      obtain rfl := Await.attempt.inj (hawait.symm.trans hawait')
      obtain rfl := Poll.ready.inj (hready.symm.trans hready')
      exact Or.inl ⟨_, rfl, Or.inl hstop⟩
  | exhausts future' err hawait' hready' _ hnone => exact Or.inl ⟨_, rfl, Or.inr hnone⟩
  | draws future' err delay hawait' hready' hgo hsome =>
      obtain rfl := Await.attempt.inj (hawait.symm.trans hawait')
      obtain rfl := Poll.ready.inj (hready.symm.trans hready')
      exact Or.inr ⟨err, delay, rfl, hgo, hsome, rfl⟩

end Steps

/-! ## Against `retryIf` -/

section Refine

variable {io : AsyncIo} {φ ι β O E : Type*}

/-- Polled until it is ready, the future yields `result`. -/
inductive Settles (poll : β → β × Poll (Except E O)) : β → Except E O → Prop
  | ready {future : β} {result : Except E O} : (poll future).2 = Poll.ready result →
      Settles poll future result
  | later {future : β} {result : Except E O} : (poll future).2 = Poll.pending →
      Settles poll (poll future).1 result → Settles poll future result

/-- `attempt` says what the futures of the factory come to. -/
structure ComesTo (create : φ → β × φ) (poll : β → β × Poll (Except E O))
    (attempt : φ → Except E O × φ) : Prop where
  factory : ∀ f, (attempt f).2 = (create f).2
  result : ∀ f result, Settles poll (create f).1 result → result = (attempt f).1

def delayOf (next : ι → Option Duration × ι) (retries : ι) (i : ℕ) : Duration :=
  (delayAt next retries i).getD (Duration.fromSecs 0)

/-- The trace before attempt `k`. -/
def precedingTrace (result : ℕ → Except E O) (delay : ℕ → Duration) : ℕ → List (Event O E)
  | 0 => []
  | k + 1 =>
      attemptsTrace result delay k ++ [Event.draw (some (delay k)), Event.sleep (delay k)]

lemma attemptsTrace_eq_preceding (result : ℕ → Except E O) (delay : ℕ → Duration) (k : ℕ) :
    attemptsTrace result delay k
      = precedingTrace result delay k ++ attemptEvents (result k) := by
  cases k with
  | zero => rfl
  | succ k => rfl

/-- Where the future is after `k` draws. -/
def AtAwait (poll : β → β × Poll (Except E O)) (attempt : φ → Except E O × φ) (factory : φ) (k : ℕ)
    (s : RetryFuture io φ ι β O E) : Prop :=
  match s.await with
  | Await.attempt future =>
      s.factory = (fun f => (attempt f).2)^[k + 1] factory ∧
        ∀ result, Settles poll future result → result = resultAt attempt factory k
  | _ => s.factory = (fun f => (attempt f).2)^[k] factory

/-- The future after `k` draws, none of whose attempts has ended it. -/
structure Tracks (poll : β → β × Poll (Except E O)) (attempt : φ → Except E O × φ)
    (condition : E → Bool) (next : ι → Option Duration × ι) (factory : φ) (retries : ι) (k : ℕ)
    (s : RetryFuture io φ ι β O E) : Prop where
  goesOn : ∀ i < k, ¬ Stops condition (resultAt attempt factory i)
  drawn : ∀ i < k, delayAt next retries i = some (delayOf next retries i)
  iterator : s.retries = (fun r => (next r).2)^[k] retries
  trace : s.trace = precedingTrace (resultAt attempt factory) (delayOf next retries) k
  await : AtAwait poll attempt factory k s

variable {create : φ → β × φ} {poll : β → β × Poll (Except E O)}
variable {attempt : φ → Except E O × φ} {condition : E → Bool} {next : ι → Option Duration × ι}
variable {factory : φ} {retries : ι} {k now : ℕ} {s : RetryFuture io φ ι β O E}

lemma tracks_new :
    Tracks poll attempt condition next factory retries 0
      (RetryFuture.new factory retries : RetryFuture io φ ι β O E) := by
  refine ⟨?_, ?_, rfl, rfl, rfl⟩
  · simp
  · simp

lemma Tracks.callFactory (hcomes : ComesTo create poll attempt)
    (h : Tracks poll attempt condition next factory retries k s) (hcalls : s.await.Calls now) :
    Tracks poll attempt condition next factory retries k (s.callFactory create now) := by
  have hfactory : s.factory = (fun f => (attempt f).2)^[k] factory := by
    have hawait := h.await
    unfold AtAwait at hawait
    cases hplace : s.await with
    | unresumed => simpa [hplace] using hawait
    | sleep sleeper => simpa [hplace] using hawait
    | attempt future =>
        rw [hplace] at hcalls
        exact absurd hcalls id
  refine ⟨h.goesOn, h.drawn, h.iterator, h.trace, ?_, ?_⟩
  · rw [Function.iterate_succ_apply', hcomes.factory, ← hfactory]
    rfl
  · intro result hsettles
    rw [hcomes.result _ _ hsettles, hfactory]
    rfl

lemma Tracks.pends (h : Tracks poll attempt condition next factory retries k s) {future : β}
    (hawait : s.await = Await.attempt future) (hpending : (poll future).2 = Poll.pending) :
    Tracks poll attempt condition next factory retries k
      ({ s with await := Await.attempt (poll future).1 } : RetryFuture io φ ι β O E) := by
  have hplace := h.await
  simp only [AtAwait, hawait] at hplace
  refine ⟨h.goesOn, h.drawn, h.iterator, h.trace, hplace.1, ?_⟩
  intro result hsettles
  exact hplace.2 result (Settles.later hpending hsettles)

lemma Tracks.sleepsOn (h : Tracks poll attempt condition next factory retries k s)
    {sleeper : Sleeper io} (hawait : s.await = Await.sleep sleeper) (sleeper' : Sleeper io) :
    Tracks poll attempt condition next factory retries k
      ({ s with await := Await.sleep sleeper' } : RetryFuture io φ ι β O E) := by
  have hplace := h.await
  simp only [AtAwait, hawait] at hplace
  exact ⟨h.goesOn, h.drawn, h.iterator, h.trace, hplace⟩

/-- The attempt that is ready is attempt `k`. -/
lemma Tracks.ready (h : Tracks poll attempt condition next factory retries k s) {future : β}
    {result : Except E O} (hawait : s.await = Await.attempt future)
    (hready : (poll future).2 = Poll.ready result) :
    result = resultAt attempt factory k ∧ s.factory = (fun f => (attempt f).2)^[k + 1] factory := by
  have hplace := h.await
  simp only [AtAwait, hawait] at hplace
  exact ⟨hplace.2 result (Settles.ready hready), hplace.1⟩

lemma Tracks.delayAt (h : Tracks poll attempt condition next factory retries k s) :
    Retry.delayAt next retries k = (next s.retries).1 := by
  rw [Retry.delayAt, h.iterator]

lemma Tracks.draws (h : Tracks poll attempt condition next factory retries k s) {future : β}
    {err : E} {delay : Duration} (hawait : s.await = Await.attempt future)
    (hready : (poll future).2 = Poll.ready (Except.error err))
    (hgo : ¬ Stops condition (Except.error err : Except E O))
    (hnext : (next s.retries).1 = some delay) :
    Tracks poll attempt condition next factory retries (k + 1) ({ s with
      await := Await.sleep (FutureAio.sleep io now delay)
      retries := (next s.retries).2
      trace := s.trace ++ attemptEvents (Except.error err)
        ++ [Event.draw (some delay), Event.sleep delay] } : RetryFuture io φ ι β O E) := by
  obtain ⟨hresult, hfactory⟩ := h.ready hawait hready
  have hsome : Retry.delayAt next retries k = some delay := by
    rw [h.delayAt, hnext]
  have hdelay : delayOf next retries k = delay := by
    rw [delayOf, hsome, Option.getD_some]
  refine ⟨?_, ?_, ?_, ?_, hfactory⟩
  · intro i hi
    rcases Nat.lt_succ_iff_lt_or_eq.mp hi with hlt | rfl
    · exact h.goesOn i hlt
    · rwa [← hresult]
  · intro i hi
    rcases Nat.lt_succ_iff_lt_or_eq.mp hi with hlt | rfl
    · exact h.drawn i hlt
    · rw [hsome, hdelay]
  · rw [Function.iterate_succ_apply', ← h.iterator]
  · rw [precedingTrace, attemptsTrace_eq_preceding, ← h.trace, hdelay, ← hresult]

/-- What the future returns after `k` draws. -/
lemma Tracks.stops (h : Tracks poll attempt condition next factory retries k s) {future : β}
    {result : Except E O} (hawait : s.await = Await.attempt future)
    (hready : (poll future).2 = Poll.ready result) (hstop : Stops condition result) :
    retryIf attempt condition next factory retries k
      = Flow.leave ⟨result, s.trace ++ attemptEvents result⟩ := by
  obtain ⟨hresult, -⟩ := h.ready hawait hready
  rw [retryIf_of_stops h.goesOn (hresult ▸ hstop) h.drawn, attemptsTrace_eq_preceding, ← h.trace,
    ← hresult]

lemma Tracks.exhausts (h : Tracks poll attempt condition next factory retries k s) {future : β}
    {result : Except E O} (hawait : s.await = Await.attempt future)
    (hready : (poll future).2 = Poll.ready result) (hgo : ¬ Stops condition result)
    (hnext : (next s.retries).1 = none) :
    retryIf attempt condition next factory retries (k + 1)
      = Flow.leave ⟨result, s.trace ++ attemptEvents result ++ [Event.draw none]⟩ := by
  obtain ⟨hresult, -⟩ := h.ready hawait hready
  have hgoes : ∀ i ≤ k, ¬ Stops condition (resultAt attempt factory i) := by
    intro i hi
    rcases Nat.lt_or_eq_of_le hi with hlt | rfl
    · exact h.goesOn i hlt
    · rwa [← hresult]
  have hnone : Retry.delayAt next retries k = none := by
    rw [h.delayAt, hnext]
  rw [retryIf_of_exhausted hgoes h.drawn hnone, attemptsTrace_eq_preceding, ← h.trace, ← hresult]

/-! ### What it returns -/

lemma polledRetry_succ {clock : ℕ → ℕ} {n : ℕ}
    (h : polledRetry io create poll condition next factory retries clock n = Flow.again s) :
    polledRetry io create poll condition next factory retries clock (n + 1)
      = (retryStep create poll condition next (clock n) s).toFlow :=
  loopAt_succ_of_again h

/-- Suspended or going on, the future tracks `retryIf`; returning, it returns what `retryIf`
does. -/
lemma polledRetry_tracks (condition : E → Bool) (next : ι → Option Duration × ι) (factory : φ)
    (retries : ι) (hcomes : ComesTo create poll attempt) (clock : ℕ → ℕ) (n : ℕ) :
    (∃ s, polledRetry io create poll condition next factory retries clock n = Flow.again s ∧
      ∃ k, Tracks poll attempt condition next factory retries k s) ∨
    ∃ r, polledRetry io create poll condition next factory retries clock n = Flow.leave r ∧
      ∃ m, retryIf attempt condition next factory retries m = Flow.leave r.1 := by
  refine loopAt_ends ⟨0, tracks_new⟩ ?_ n
  rintro s now ⟨k, h⟩
  have hstep := steps_retryStep create poll condition next now s
  generalize retryStep create poll condition next now s = p at hstep
  cases hstep with
  | calls hcalls => exact Or.inl ⟨_, rfl, k, h.callFactory hcomes hcalls⟩
  | sleepsOn sleeper hawait _ => exact Or.inl ⟨_, rfl, k, h.sleepsOn hawait _⟩
  | pends future hawait hpending => exact Or.inl ⟨_, rfl, k, h.pends hawait hpending⟩
  | stops future result hawait hready hstop =>
      exact Or.inr ⟨_, rfl, k, h.stops hawait hready hstop⟩
  | exhausts future err hawait hready hgo hnone =>
      exact Or.inr ⟨_, rfl, k + 1, h.exhausts hawait hready hgo hnone⟩
  | draws future err delay hawait hready hgo hsome =>
      exact Or.inl ⟨_, rfl, k + 1, h.draws hawait hready hgo hsome⟩

/-! ### That it returns -/

/-- A run of the executor that neither a timer nor an attempt keeps for ever. -/
structure Attended (io : AsyncIo) (create : φ → β × φ) (poll : β → β × Poll (Except E O))
    (condition : E → Bool) (next : ι → Option Duration × ι) (factory : φ) (retries : ι)
    (clock : ℕ → ℕ) : Prop where
  settles : ∀ f, ∃ result, Settles poll (create f).1 result
  fires : ∀ n s sleeper,
    polledRetry io create poll condition next factory retries clock n = Flow.again s →
      s.await = Await.sleep sleeper → ∃ m, n ≤ m ∧ sleeper.fired (clock m) = true

variable {clock : ℕ → ℕ}

lemma retryStep_of_pending {future : β} (hawait : s.await = Await.attempt future)
    (hpending : (poll future).2 = Poll.pending) :
    retryStep create poll condition next now s
      = Progress.suspends { s with await := Await.attempt (poll future).1 } := by
  have hpoll : poll future = ((poll future).1, Poll.pending) := Prod.ext rfl hpending
  unfold retryStep
  rw [hawait]
  simp only
  rw [hpoll]

/-- An attempt that comes to something is polled until it does. -/
lemma Tracks.reaches_ready {future : β} {result : Except E O}
    (hsettles : Settles poll future result) :
    ∀ {n : ℕ} {s : RetryFuture io φ ι β O E},
      polledRetry io create poll condition next factory retries clock n = Flow.again s →
      Tracks poll attempt condition next factory retries k s → s.await = Await.attempt future →
      ∃ n' s' future',
        polledRetry io create poll condition next factory retries clock n' = Flow.again s' ∧
          Tracks poll attempt condition next factory retries k s' ∧
          s'.await = Await.attempt future' ∧ (poll future').2 = Poll.ready result := by
  induction hsettles with
  | ready hready =>
      intro n s hrun h hawait
      exact ⟨n, s, _, hrun, h, hawait, hready⟩
  | later hpending _ ih =>
      intro n s hrun h hawait
      have hnext := polledRetry_succ hrun
      rw [retryStep_of_pending hawait hpending] at hnext
      exact ih hnext (h.pends hawait hpending) rfl

/-- A sleep lasts until the timer is seen to have fired. -/
lemma Tracks.reaches_fired (d : ℕ) :
    ∀ {n : ℕ} {s : RetryFuture io φ ι β O E} {sleeper : Sleeper io},
      polledRetry io create poll condition next factory retries clock n = Flow.again s →
      Tracks poll attempt condition next factory retries k s → s.await = Await.sleep sleeper →
      sleeper.fired (clock (n + d)) = true →
      ∃ n' s' sleeper',
        polledRetry io create poll condition next factory retries clock n' = Flow.again s' ∧
          Tracks poll attempt condition next factory retries k s' ∧
          s'.await = Await.sleep sleeper' ∧ sleeper'.fired (clock n') = true := by
  induction d with
  | zero =>
      intro n s sleeper hrun h hawait hfired
      exact ⟨n, s, sleeper, hrun, h, hawait, hfired⟩
  | succ d ih =>
      intro n s sleeper hrun h hawait hfired
      cases hnow : sleeper.fired (clock n) with
      | true => exact ⟨n, s, sleeper, hrun, h, hawait, hnow⟩
      | false =>
          -- polled too early, the timer still fires when it would have
          have hnext := polledRetry_succ hrun
          rw [retryStep_of_not_fired hawait hnow] at hnext
          refine ih hnext (h.sleepsOn hawait _) rfl ?_
          rwa [Sleeper.fired_congr (Sleeper.deadline_poll hnow), Nat.add_right_comm]

/-- After the sleep the next attempt is made. -/
lemma Tracks.reaches_call (hcomes : ComesTo create poll attempt)
    (hattended : Attended io create poll condition next factory retries clock) {n : ℕ}
    {sleeper : Sleeper io}
    (hrun : polledRetry io create poll condition next factory retries clock n = Flow.again s)
    (h : Tracks poll attempt condition next factory retries k s)
    (hawait : s.await = Await.sleep sleeper) :
    ∃ n' s', polledRetry io create poll condition next factory retries clock n' = Flow.again s' ∧
      Tracks poll attempt condition next factory retries k s' ∧
      ∃ f, s'.await = Await.attempt (create f).1 := by
  obtain ⟨m, hm, hfired⟩ := hattended.fires n s sleeper hrun hawait
  obtain ⟨n', s', sleeper', hrun', h', hawait', hfired'⟩ :=
    h.reaches_fired (m - n) hrun hawait (by rwa [Nat.add_sub_cancel' hm])
  have hcall := polledRetry_succ hrun'
  rw [retryStep_of_fired hawait' hfired'] at hcall
  have hcalls : s'.await.Calls (clock n') := by
    rw [hawait']
    exact hfired'
  exact ⟨n' + 1, _, hcall, h'.callFactory hcomes hcalls, _, rfl⟩

/-- The next attempt is made, if the one before went on and there is a delay. -/
lemma Tracks.reaches_next (hcomes : ComesTo create poll attempt)
    (hattended : Attended io create poll condition next factory retries clock) {n : ℕ} {future : β}
    {result : Except E O} {delay : Duration}
    (hrun : polledRetry io create poll condition next factory retries clock n = Flow.again s)
    (h : Tracks poll attempt condition next factory retries k s)
    (hawait : s.await = Await.attempt future) (hready : (poll future).2 = Poll.ready result)
    (hgo : ¬ Stops condition result) (hsome : (next s.retries).1 = some delay) :
    ∃ n' s', polledRetry io create poll condition next factory retries clock n' = Flow.again s' ∧
      Tracks poll attempt condition next factory retries (k + 1) s' ∧
      ∃ f, s'.await = Await.attempt (create f).1 := by
  have hstep := steps_retryStep create poll condition next (clock n) s
  have hnext := polledRetry_succ hrun
  rcases hstep.of_ready hawait hready with ⟨r, -, hstop | hnone⟩ | ⟨err, delay', rfl, -, hsome', hp⟩
  · exact absurd hstop hgo
  · exact absurd (hsome.symm.trans hnone) (by simp)
  · rw [hp] at hnext
    exact (h.draws hawait hready hgo hsome').reaches_call hcomes hattended hnext rfl

/-- Every attempt up to one that nothing before stops is made. -/
lemma reaches_attempt (hcomes : ComesTo create poll attempt)
    (hattended : Attended io create poll condition next factory retries clock) (k : ℕ) :
    (∀ i < k, ¬ Stops condition (resultAt attempt factory i)) →
    (∀ i < k, delayAt next retries i = some (delayOf next retries i)) →
    ∃ n s future result,
      polledRetry io create poll condition next factory retries clock n = Flow.again s ∧
        Tracks poll attempt condition next factory retries k s ∧
        s.await = Await.attempt future ∧ (poll future).2 = Poll.ready result := by
  have hready : ∀ {k n : ℕ} {s : RetryFuture io φ ι β O E},
      polledRetry io create poll condition next factory retries clock n = Flow.again s →
      Tracks poll attempt condition next factory retries k s →
      (∃ f, s.await = Await.attempt (create f).1) → ∃ n s future result,
        polledRetry io create poll condition next factory retries clock n = Flow.again s ∧
          Tracks poll attempt condition next factory retries k s ∧
          s.await = Await.attempt future ∧ (poll future).2 = Poll.ready result := by
    rintro k n s hrun h ⟨f, hawait⟩
    obtain ⟨result, hsettles⟩ := hattended.settles f
    obtain ⟨n', s', future', hreached⟩ := Tracks.reaches_ready hsettles hrun h hawait
    exact ⟨n', s', future', result, hreached⟩
  induction k with
  | zero =>
      intro _ _
      have hstart : polledRetry io create poll condition next factory retries clock 0
          = Flow.again (RetryFuture.new factory retries) := rfl
      exact hready (polledRetry_succ hstart) (tracks_new.callFactory hcomes trivial) ⟨factory, rfl⟩
  | succ k ih =>
      intro hgo hdrawn
      obtain ⟨n, s, future, result, hrun, h, hawait, hpoll⟩ :=
        ih (fun i hi => hgo i (by omega)) (fun i hi => hdrawn i (by omega))
      have hgo' : ¬ Stops condition result := by
        rw [(h.ready hawait hpoll).1]
        exact hgo k (Nat.lt_succ_self k)
      have hsome : (next s.retries).1 = some (delayOf next retries k) := by
        rw [← h.delayAt]
        exact hdrawn k (Nat.lt_succ_self k)
      obtain ⟨n', s', hrun', h', hcalled⟩ :=
        h.reaches_next hcomes hattended hrun hawait hpoll hgo' hsome
      exact hready hrun' h' hcalled

/-- A run of `retryIf` that returns has a last attempt. -/
lemma retryIf_leave_last {m : ℕ} {out : RetryOutcome O E}
    (h : retryIf attempt condition next factory retries m = Flow.leave out) :
    ∃ k, (∀ i < k, ¬ Stops condition (resultAt attempt factory i)) ∧
      (∀ i < k, delayAt next retries i = some (delayOf next retries i)) ∧
      (Stops condition (resultAt attempt factory k) ∨ delayAt next retries k = none) := by
  by_contra hnone
  push Not at hnone
  have hall : ∀ k, (∀ i < k, ¬ Stops condition (resultAt attempt factory i)) ∧
      ∀ i < k, delayAt next retries i = some (delayOf next retries i) := by
    intro k
    induction k with
    | zero => exact ⟨by simp, by simp⟩
    | succ k ih =>
        obtain ⟨hgo, hsome⟩ := hnone k ih.1 ih.2
        obtain ⟨delay, hdelay⟩ := Option.ne_none_iff_exists'.mp hsome
        refine ⟨?_, ?_⟩
        · intro i hi
          rcases Nat.lt_succ_iff_lt_or_eq.mp hi with hlt | rfl
          · exact ih.1 i hlt
          · exact hgo
        · intro i hi
          rcases Nat.lt_succ_iff_lt_or_eq.mp hi with hlt | rfl
          · exact ih.2 i hlt
          · rw [delayOf, hdelay, Option.getD_some]
  obtain ⟨err, -, hagain⟩ := retryIf_head m (fun i hi => (hall (m + 1)).1 i (by omega)) (hall m).2
  rw [h] at hagain
  exact absurd hagain (by simp)

lemma retryIf_leave_unique {m m' : ℕ} {out out' : RetryOutcome O E}
    (h : retryIf attempt condition next factory retries m = Flow.leave out)
    (h' : retryIf attempt condition next factory retries m' = Flow.leave out') : out = out' := by
  have hm := retryIf_leave_add h m'
  have hm' := retryIf_leave_add h' m
  rw [Nat.add_comm] at hm'
  exact Flow.leave.inj (hm.symm.trans hm')

end Refine

/-- **Polling changes nothing.**  Under any executor that keeps polling, whatever the clock reads,
`retry_if` returns exactly what `retryIf` makes of the results its futures come to, with the same
calls, checks, draws and sleeps. -/
theorem polled_retry_iff {io : AsyncIo} {φ ι β O E : Type*} {create : φ → β × φ}
    {poll : β → β × Poll (Except E O)} {attempt : φ → Except E O × φ} {condition : E → Bool}
    {next : ι → Option Duration × ι} {factory : φ} {retries : ι} {clock : ℕ → ℕ}
    (hcomes : ComesTo create poll attempt)
    (hattended : Attended io create poll condition next factory retries clock)
    (out : RetryOutcome O E) :
    (∃ n created, polledRetry io create poll condition next factory retries clock n
        = Flow.leave (out, created)) ↔
      ∃ m, retryIf attempt condition next factory retries m = Flow.leave out := by
  constructor
  · rintro ⟨n, created, hrun⟩
    rcases polledRetry_tracks condition next factory retries hcomes clock n with
      ⟨s, hagain, -⟩ | ⟨r, hleave, m, hm⟩
    · rw [hrun] at hagain
      exact absurd hagain (by simp)
    · rw [hrun] at hleave
      obtain rfl := Flow.leave.inj hleave
      exact ⟨m, hm⟩
  · rintro ⟨m, hm⟩
    obtain ⟨k, hgo, hdrawn, hends⟩ := retryIf_leave_last hm
    obtain ⟨n, s, future, result, hrun, h, hawait, hready⟩ :=
      reaches_attempt hcomes hattended k hgo hdrawn
    have hstep := steps_retryStep create poll condition next (clock n) s
    have hnext := polledRetry_succ hrun
    rcases hstep.of_ready hawait hready with ⟨r, hp, -⟩ | ⟨err, delay, -, hgo', hsome, -⟩
    · -- the step returns, and there is only one thing `retryIf` returns
      rw [hp] at hnext
      rcases polledRetry_tracks condition next factory retries hcomes clock (n + 1) with
        ⟨s', hagain, -⟩ | ⟨r', hleave, m', hm'⟩
      · rw [hnext] at hagain
        exact absurd hagain (by simp [Progress.toFlow])
      · obtain rfl := Flow.leave.inj (hnext.symm.trans hleave)
        refine ⟨n + 1, r.2, ?_⟩
        rw [hnext, retryIf_leave_unique hm hm']
        rfl
    · rcases hends with hstop | hnone
      · rw [← (h.ready hawait hready).1] at hstop
        exact absurd hstop hgo'
      · rw [h.delayAt, hsome] at hnone
        exact absurd hnone (by simp)

/-- A future that is pending for so many polls. -/
def laterPoll {O E : Type} : ℕ × Except E O → (ℕ × Except E O) × Poll (Except E O)
  | (0, result) => ((0, result), Poll.ready result)
  | (n + 1, result) => ((n, result), Poll.pending)

lemma settles_laterPoll {O E : Type} (result : Except E O) (n : ℕ) :
    Settles laterPoll (n, result) result ∧
      ∀ result', Settles laterPoll (n, result) result' → result' = result := by
  induction n with
  | zero =>
      refine ⟨Settles.ready rfl, ?_⟩
      rintro result' (hready | ⟨hpending, -⟩)
      · exact (Poll.ready.inj hready).symm
      · exact absurd hpending (by simp [laterPoll])
  | succ n ih =>
      refine ⟨Settles.later rfl ih.1, ?_⟩
      rintro result' (hready | ⟨-, hlater⟩)
      · exact absurd hready (by simp [laterPoll])
      · exact ih.2 result' hlater

lemma comesTo_laterPoll {φ O E : Type} (create : φ → (ℕ × Except E O) × φ) :
    ComesTo create laterPoll (fun f => ((create f).1.2, (create f).2)) :=
  ⟨fun _ => rfl, fun f result h => (settles_laterPoll (create f).1.2 (create f).1.1).2 result h⟩

/-- The timer it is asleep on. -/
def sleeperOf {io : AsyncIo} {φ ι β O E ρ : Type*} :
    Flow (RetryFuture io φ ι β O E) ρ → Option (Sleeper io)
  | Flow.again ⟨Await.sleep sleeper, _, _, _, _⟩ => some sleeper
  | _ => none

lemma sleeperOf_again {io : AsyncIo} {φ ι β O E ρ : Type*} {s : RetryFuture io φ ι β O E}
    {sleeper : Sleeper io} (h : s.await = Await.sleep sleeper) :
    sleeperOf (Flow.again s : Flow _ ρ) = some sleeper := by
  cases s with
  | mk await factory retries created trace =>
      cases h
      rfl

/-- A factory whose first future takes two polls and fails. -/
def failsOnce (n : ℕ) : (ℕ × Except ℕ ℕ) × ℕ :=
  ((1 - n, if n = 0 then Except.error n else Except.ok n), n + 1)

/-- The second attempt succeeds; the clock advances by half a second a look. -/
theorem polled_retry_iff_second_attempt :
    ∃ n created, polledRetry punctualIo failsOnce laterPoll (fun _ => true) listNext 0
        [Duration.fromSecs 1] (fun i => i * (5 * 10 ^ 8)) n
      = Flow.leave (⟨Except.ok 1, [Event.call (Except.error 0), Event.check 0,
          Event.draw (some (Duration.fromSecs 1)), Event.sleep (Duration.fromSecs 1),
          Event.call (Except.ok 1)]⟩, created) := by
  have hleft : polledRetry punctualIo failsOnce laterPoll (fun _ => true) listNext 0
      [Duration.fromSecs 1] (fun i => i * (5 * 10 ^ 8)) 6 = Flow.leave (_, _) := rfl
  have hattended : Attended punctualIo failsOnce laterPoll (fun _ => true) listNext 0
      [Duration.fromSecs 1] (fun i => i * (5 * 10 ^ 8)) := by
    refine ⟨fun n => ⟨_, (settles_laterPoll _ _).1⟩, ?_⟩
    intro n s sleeper hrun hawait
    by_cases hn : n < 6
    · -- the timer it is asleep on in steps 3 and 4 has fired by look 4
      have hfires : ∀ n < 6, (sleeperOf (polledRetry punctualIo failsOnce laterPoll
          (fun _ => true) listNext 0 [Duration.fromSecs 1] (fun i => i * (5 * 10 ^ 8)) n)).all
            (fun sleeper => n ≤ 4 && sleeper.fired (4 * (5 * 10 ^ 8))) = true := by
        decide
      have hthis := hfires n hn
      rw [hrun, sleeperOf_again hawait] at hthis
      simp only [Option.all_some, Bool.and_eq_true, decide_eq_true_eq] at hthis
      exact ⟨4, hthis⟩
    · have hleave := loopAt_leave_add hleft (n - 6)
      rw [Nat.add_sub_cancel' (Nat.le_of_not_lt hn)] at hleave
      exact absurd (hrun.symm.trans hleave) (by simp)
  exact (polled_retry_iff (comesTo_laterPoll failsOnce) hattended _).mpr ⟨1, rfl⟩

/-! ## The pace of the attempts -/

section Pace

/-- Attempt `i + 1` is begun no sooner than delay `i` after attempt `i`. -/
def Paced (created : List ℕ) (delays : List Duration) : Prop :=
  ∀ i t t' delay, created[i]? = some t → created[i + 1]? = some t' → delays[i]? = some delay →
    t + delay.toNanos ≤ t'

/-- An attempt at `t'`, once the last delay is over. -/
lemma Paced.append {created : List ℕ} {delays : List Duration} {t' : ℕ} (h : Paced created delays)
    (hlength : created.length = delays.length)
    (hlast : ∀ t delay, created.getLast? = some t → delays.getLast? = some delay →
      t + delay.toNanos ≤ t') :
    Paced (created ++ [t']) delays := by
  intro i t u delay ht hu hdelay
  have hi : i + 1 < created.length + 1 := by
    simpa using (List.getElem?_eq_some_iff.mp hu).1
  rw [List.getElem?_append_left (by omega)] at ht
  rcases Nat.lt_succ_iff_lt_or_eq.mp hi with hlt | heq
  · rw [List.getElem?_append_left hlt] at hu
    exact h i t u delay ht hu hdelay
  · rw [heq, List.getElem?_append_right (le_refl _)] at hu
    have hu' : t' = u := by simpa using hu
    rw [← hu']
    refine hlast t delay ?_ ?_
    · rw [List.getLast?_eq_getElem?, ← ht]
      congr 1
      omega
    · rw [List.getLast?_eq_getElem?, ← hdelay]
      congr 1
      omega

/-- A delay drawn after the last attempt concerns none of them yet. -/
lemma Paced.append_delay {created : List ℕ} {delays : List Duration} (delay' : Duration)
    (h : Paced created delays) (hlength : created.length = delays.length + 1) :
    Paced created (delays ++ [delay']) := by
  intro i t u delay ht hu hdelay
  have hi : i + 1 < created.length := (List.getElem?_eq_some_iff.mp hu).1
  rw [List.getElem?_append_left (by omega)] at hdelay
  exact h i t u delay ht hu hdelay

/-- So an attempt is as late as the delays before it are long. -/
lemma Paced.sum_le {created : List ℕ} {delays : List Duration} (h : Paced created delays)
    (hlength : created.length ≤ delays.length + 1) {t₀ : ℕ} (hfirst : created[0]? = some t₀)
    (i : ℕ) : ∀ t, created[i]? = some t →
      t₀ + ((delays.take i).map Duration.toNanos).sum ≤ t := by
  induction i with
  | zero =>
      intro t ht
      rw [hfirst, Option.some.injEq] at ht
      simp [ht]
  | succ i ih =>
      intro t' ht'
      have hi : i + 1 < created.length := (List.getElem?_eq_some_iff.mp ht').1
      have hdelay : i < delays.length := by omega
      obtain ⟨t, ht⟩ : ∃ t, created[i]? = some t := ⟨_, List.getElem?_eq_getElem (by omega)⟩
      have hpace := h i t t' _ ht ht' (List.getElem?_eq_getElem hdelay)
      have hsum := ih t ht
      rw [List.take_add_one, List.getElem?_eq_getElem hdelay]
      simp only [Option.toList_some, List.map_append, List.sum_append, List.map_cons, List.map_nil,
        List.sum_cons, List.sum_nil]
      omega

variable {io : AsyncIo} {φ ι β O E : Type*} {create : φ → β × φ} {poll : β → β × Poll (Except E O)}
variable {condition : E → Bool} {next : ι → Option Duration × ι} {factory : φ} {retries : ι}
variable {clock : ℕ → ℕ} {now : ℕ} {s : RetryFuture io φ ι β O E}

/-- How many delays were drawn, and how late the timer is. -/
def InPace (s : RetryFuture io φ ι β O E) : Prop :=
  match s.await with
  | Await.unresumed => s.created = [] ∧ sleeps s.trace = []
  | Await.attempt _ => s.created.length = (sleeps s.trace).length + 1
  | Await.sleep sleeper =>
      s.created.length = (sleeps s.trace).length ∧
        ∀ deadline t delay, sleeper.deadline = some deadline → s.created.getLast? = some t →
          (sleeps s.trace).getLast? = some delay → t + delay.toNanos ≤ deadline

/-- The future when the clock was last seen to read `now`. -/
structure PacedAt (now : ℕ) (s : RetryFuture io φ ι β O E) : Prop where
  paced : Paced s.created (sleeps s.trace)
  past : ∀ t ∈ s.created, t ≤ now
  await : InPace s

lemma pacedAt_new : PacedAt now (RetryFuture.new factory retries : RetryFuture io φ ι β O E) := by
  refine ⟨?_, ?_, rfl, rfl⟩
  · intro i t t' delay ht
    simp [RetryFuture.new] at ht
  · simp [RetryFuture.new]

lemma PacedAt.mono {now' : ℕ} (h : PacedAt now s) (hle : now ≤ now') : PacedAt now' s :=
  ⟨h.paced, fun t ht => (h.past t ht).trans hle, h.await⟩

/-- When the factory is called, the last delay is over. -/
lemma InPace.of_calls (h : InPace s) (hcalls : s.await.Calls now) :
    s.created.length = (sleeps s.trace).length ∧
      ∀ t delay, s.created.getLast? = some t → (sleeps s.trace).getLast? = some delay →
        t + delay.toNanos ≤ now := by
  cases hplace : s.await with
  | unresumed =>
      simp only [InPace, hplace] at h
      simp [h.1, h.2]
  | attempt future =>
      rw [hplace] at hcalls
      exact absurd hcalls id
  | sleep sleeper =>
      simp only [InPace, hplace] at h
      rw [hplace] at hcalls
      obtain ⟨deadline, hdeadline, hle⟩ := Sleeper.fired_iff.mp hcalls
      exact ⟨h.1, fun t delay ht hdelay => (h.2 deadline t delay hdeadline ht hdelay).trans hle⟩

lemma PacedAt.callFactory (h : PacedAt now s) (hcalls : s.await.Calls now) :
    PacedAt now (s.callFactory create now) := by
  obtain ⟨hlength, hlast⟩ := h.await.of_calls hcalls
  refine ⟨h.paced.append hlength hlast, ?_, ?_⟩
  · intro t ht
    rcases List.mem_append.mp ht with hold | hnew
    · exact h.past t hold
    · exact (List.mem_singleton.mp hnew).le
  · simp [InPace, RetryFuture.callFactory, hlength]

@[simp] lemma sleeps_attemptEvents (result : Except E O) :
    sleeps (attemptEvents result) = [] := by
  cases result <;> rfl

lemma PacedAt.draws (h : PacedAt now s) {future : β} (err : E) (delay : Duration)
    (retries' : ι) (hawait : s.await = Await.attempt future) :
    PacedAt now ({ s with
      await := Await.sleep (FutureAio.sleep io now delay)
      retries := retries'
      trace := s.trace ++ attemptEvents (Except.error err)
        ++ [Event.draw (some delay), Event.sleep delay] } : RetryFuture io φ ι β O E) := by
  have hlength : s.created.length = (sleeps s.trace).length + 1 := by
    have hplace := h.await
    simpa only [InPace, hawait] using hplace
  have hsleeps : sleeps (s.trace ++ attemptEvents (Except.error err)
      ++ [Event.draw (some delay), Event.sleep delay]) = sleeps s.trace ++ [delay] := by
    rw [sleeps_append, sleeps_append, sleeps_attemptEvents, List.append_nil]
    rfl
  refine ⟨?_, h.past, ?_⟩
  · simp only [hsleeps]
    exact h.paced.append_delay delay hlength
  · simp only [InPace, hsleeps]
    refine ⟨by simp [hlength], ?_⟩
    intro deadline t delay' hdeadline ht hdelay'
    have hpast := h.past t (List.mem_of_getLast? ht)
    have hsame : delay = delay' := by simpa using hdelay'
    have hdue := io.le_deadline now delay deadline hdeadline
    rw [← hsame]
    omega

lemma PacedAt.sleepsOn (h : PacedAt now s) {sleeper : Sleeper io}
    (hawait : s.await = Await.sleep sleeper) (hnot : sleeper.fired now = false) :
    PacedAt now
      ({ s with await := Await.sleep (sleeper.poll now).1 } : RetryFuture io φ ι β O E) := by
  have hplace := h.await
  simp only [InPace, hawait] at hplace
  refine ⟨h.paced, h.past, hplace.1, ?_⟩
  rw [Sleeper.deadline_poll hnot]
  exact hplace.2

/-- A look at the clock: the pace is kept, and what is returned has kept it. -/
lemma PacedAt.step (h : PacedAt now s) :
    (∃ s', (retryStep create poll condition next now s).toFlow = Flow.again s' ∧
      PacedAt now s') ∨
    ∃ r, (retryStep create poll condition next now s).toFlow = Flow.leave r ∧
      Paced r.2 (sleeps r.1.trace) ∧ r.2.length = (sleeps r.1.trace).length + 1 := by
  have hstep := steps_retryStep create poll condition next now s
  have hmade : ∀ future, s.await = Await.attempt future →
      s.created.length = (sleeps s.trace).length + 1 := by
    intro future hawait
    have hplace := h.await
    simpa only [InPace, hawait] using hplace
  generalize retryStep create poll condition next now s = p at hstep
  cases hstep with
  | calls hcalls => exact Or.inl ⟨_, rfl, h.callFactory hcalls⟩
  | sleepsOn sleeper hawait hnot => exact Or.inl ⟨_, rfl, h.sleepsOn hawait hnot⟩
  | pends future hawait _ => exact Or.inl ⟨_, rfl, h.paced, h.past, hmade future hawait⟩
  | stops future result hawait _ _ =>
      refine Or.inr ⟨_, rfl, ?_⟩
      simpa using ⟨h.paced, hmade future hawait⟩
  | exhausts future err hawait _ _ _ =>
      have hsleeps : sleeps (s.trace ++ attemptEvents (Except.error err)
          ++ [(Event.draw none : Event O E)]) = sleeps s.trace := by
        rw [sleeps_append, sleeps_append, sleeps_attemptEvents, List.append_nil]
        simp [sleeps]
      refine Or.inr ⟨_, rfl, ?_⟩
      simp only [hsleeps]
      exact ⟨h.paced, hmade future hawait⟩
  | draws future err delay hawait _ _ _ => exact Or.inl ⟨_, rfl, h.draws err delay _ hawait⟩

variable (io create poll condition next factory retries) in
lemma polledRetry_paced (hclock : Monotone clock) (n : ℕ) :
    (∃ s, polledRetry io create poll condition next factory retries clock n = Flow.again s ∧
      PacedAt (clock n) s) ∨
    ∃ r, polledRetry io create poll condition next factory retries clock n = Flow.leave r ∧
      Paced r.2 (sleeps r.1.trace) ∧ r.2.length = (sleeps r.1.trace).length + 1 := by
  induction n with
  | zero => exact Or.inl ⟨_, rfl, pacedAt_new⟩
  | succ n ih =>
      rcases ih with ⟨s, hrun, h⟩ | ⟨r, hrun, h⟩
      · rw [polledRetry_succ hrun]
        exact h.step.imp_left fun ⟨s', hs', h'⟩ => ⟨s', hs', h'.mono (hclock (Nat.le_succ n))⟩
      · exact Or.inr ⟨r, loopAt_leave_add hrun 1, h⟩

lemma InPace.length_le (h : InPace s) : s.created.length ≤ (sleeps s.trace).length + 1 := by
  unfold InPace at h
  split at h
  · simp [h.1]
  · exact h.le
  · omega

end Pace

/-- Attempt `i + 1` comes at least delay `i` after attempt `i`, so attempt `i` at least the delays
before it after the first; and there is at most one attempt more than there are delays. -/
structure OnTime (created : List ℕ) (delays : List Duration) : Prop where
  paced : Paced created delays
  elapsed : ∀ i t₀ t, created[0]? = some t₀ → created[i]? = some t →
    t₀ + ((delays.take i).map Duration.toNanos).sum ≤ t
  attempts : created.length ≤ delays.length + 1

lemma Paced.onTime {created : List ℕ} {delays : List Duration} (h : Paced created delays)
    (hlength : created.length ≤ delays.length + 1) : OnTime created delays :=
  ⟨h, fun i _ t hfirst ht => h.sum_le hlength hfirst i t ht, hlength⟩

/-- **No attempt is early**, whenever the executor polls and whatever the factory, the condition and
the delays are: not while the run goes on, and not in what it did when it returns. -/
theorem attempts_paced (io : AsyncIo) {φ ι β O E : Type*} (create : φ → β × φ)
    (poll : β → β × Poll (Except E O)) (condition : E → Bool) (next : ι → Option Duration × ι)
    (factory : φ) (retries : ι) {clock : ℕ → ℕ} (hclock : Monotone clock) (n : ℕ) :
    (∀ s, polledRetry io create poll condition next factory retries clock n = Flow.again s →
      OnTime s.created (sleeps s.trace)) ∧
    ∀ out created, polledRetry io create poll condition next factory retries clock n
        = Flow.leave (out, created) →
      OnTime created (sleeps out.trace) ∧ created.length = (sleeps out.trace).length + 1 := by
  rcases polledRetry_paced io create poll condition next factory retries hclock n with
    ⟨s, hrun, h⟩ | ⟨r, hrun, hpaced, hlength⟩
  · rw [hrun]
    refine ⟨?_, by simp⟩
    rintro s' ⟨⟩
    exact h.paced.onTime h.await.length_le
  · rw [hrun]
    refine ⟨by simp, ?_⟩
    rintro out created ⟨⟩
    exact ⟨hpaced.onTime hlength.le, hlength⟩

/-- The second attempt of the run above is begun a second after the first. -/
theorem attempts_paced_second_attempt :
    polledRetry punctualIo failsOnce laterPoll (fun _ => true) listNext 0 [Duration.fromSecs 1]
        (fun i => i * (5 * 10 ^ 8)) 6
      = Flow.leave (⟨Except.ok 1, [Event.call (Except.error 0), Event.check 0,
          Event.draw (some (Duration.fromSecs 1)), Event.sleep (Duration.fromSecs 1),
          Event.call (Except.ok 1)]⟩, [0, 2 * 10 ^ 9]) ∧
    OnTime [0, 2 * 10 ^ 9] [Duration.fromSecs 1] :=
  have hclock : Monotone fun i : ℕ => i * (5 * 10 ^ 8) := fun _ _ h => Nat.mul_le_mul_right _ h
  ⟨rfl, ((attempts_paced punctualIo failsOnce laterPoll (fun _ => true) listNext 0
    [Duration.fromSecs 1] hclock 6).2 _ _ rfl).1⟩

end FutureAio.Retry
