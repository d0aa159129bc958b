import FutureAio.Retry.Delay
import Mathlib.Algebra.Order.BigOperators.Group.List

/-!
# Retrying with a strategy

`retry(strategy.take(n), factory)` is how the strategies are used: they never end by themselves, and
`Iterator::take` makes `n` retries of them.

* `Strategy`, `Strategy.next` — the three iterators of `retry::delay` as one.
* `takeNext` — `Iterator::take`.
* `Backoff` — how a strategy is made: its first delay, and a cap or none.

`retry_within_budget` gives the outcome of any such run in terms of the factory's results and the
strategy's series: how many attempts, which result, which sleeps, and how long they are together.
-/

namespace FutureAio.Retry

open OracleLoop

/-- One of the iterators of `retry::delay`. -/
inductive Strategy where
  | fixed (it : FixedDelay)
  | fibonacci (it : FibonacciBackoff)
  | exponential (it : ExponentialBackoff)
  deriving DecidableEq, Repr

def Strategy.next : Strategy → Option Duration × Strategy
  | Strategy.fixed it => (it.iteratorNext.1, Strategy.fixed it.iteratorNext.2)
  | Strategy.fibonacci it => (it.iteratorNext.1, Strategy.fibonacci it.iteratorNext.2)
  | Strategy.exponential it => (it.iteratorNext.1, Strategy.exponential it.iteratorNext.2)

/-- `Iterator::next` of `Iterator::take`. -/
def takeNext {ι : Type*} (next : ι → Option Duration × ι) :
    ℕ × ι → Option Duration × (ℕ × ι)
  | (0, it) => (none, (0, it))
  | (n + 1, it) => ((next it).1, (n, (next it).2))

/-- A strategy, from its constructor and a call of `max_delay` or none. -/
inductive Backoff where
  | fixed (delay : Duration)
  | fibonacci (initialDelay : Duration) (maxDelay : Option Duration)
  | exponential (millis : UInt64) (maxDelay : Option Duration)
  deriving DecidableEq, Repr

def Backoff.iterator : Backoff → Strategy
  | Backoff.fixed delay => Strategy.fixed (FixedDelay.new delay)
  | Backoff.fibonacci initialDelay none => Strategy.fibonacci (FibonacciBackoff.new initialDelay)
  | Backoff.fibonacci initialDelay (some maxDelay) =>
      Strategy.fibonacci ((FibonacciBackoff.new initialDelay).withMaxDelay maxDelay)
  | Backoff.exponential millis none => Strategy.exponential (ExponentialBackoff.fromMillis millis)
  | Backoff.exponential millis (some maxDelay) =>
      Strategy.exponential ((ExponentialBackoff.fromMillis millis).withMaxDelay maxDelay)

/-- Delay number `i`, in nanoseconds. -/
def Backoff.nanos : Backoff → ℕ → ℕ
  | Backoff.fixed delay, _ => delay.toNanos
  | Backoff.fibonacci initialDelay none, i => fibonacciSeries initialDelay i
  | Backoff.fibonacci initialDelay (some maxDelay), i =>
      min (fibonacciSeries initialDelay i) maxDelay.toNanos
  | Backoff.exponential millis none, i => exponentialSeries millis i
  | Backoff.exponential millis (some maxDelay), i =>
      min (exponentialSeries millis i) maxDelay.toNanos

/-- The longest delay there can be; of a strategy without a cap, the longest there is. -/
def Backoff.longest : Backoff → ℕ
  | Backoff.fixed delay => delay.toNanos
  | Backoff.fibonacci _ maxDelay => (maxDelay.getD Duration.MAX).toNanos
  | Backoff.exponential _ maxDelay => (maxDelay.getD Duration.MAX).toNanos

/-! ## The draws -/

/-- The draws from an iterator that is another one in disguise. -/
lemma delayAt_congr {ι κ : Type*} {next : ι → Option Duration × ι} {next' : κ → Option Duration × κ}
    {f : ι → κ} (h : ∀ it, next' (f it) = ((next it).1, f (next it).2)) (it : ι) (i : ℕ) :
    delayAt next' (f it) i = delayAt next it i := by
  have hiter : (fun r => (next' r).2)^[i] (f it) = f ((fun r => (next r).2)^[i] it) := by
    induction i with
    | zero => rfl
    | succ i ih => rw [Function.iterate_succ_apply', Function.iterate_succ_apply', ih, h]
  rw [delayAt, delayAt, hiter, h]

lemma delayAt_backoff (b : Backoff) (i : ℕ) :
    (delayAt Strategy.next b.iterator i).map Duration.toNanos = some (b.nanos i) := by
  cases b with
  | fixed delay =>
      rw [Backoff.iterator, delayAt_congr (f := Strategy.fixed) fun _ => rfl, delayAt_fixedDelay]
      rfl
  | fibonacci initialDelay maxDelay =>
      cases maxDelay with
      | none =>
          rw [Backoff.iterator, delayAt_congr (f := Strategy.fibonacci) fun _ => rfl]
          exact (delayAt_fibonacciBackoff initialDelay i).1
      | some m =>
          rw [Backoff.iterator, delayAt_congr (f := Strategy.fibonacci) fun _ => rfl]
          exact (delayAt_fibonacciBackoff initialDelay i).2 m
  | exponential millis maxDelay =>
      cases maxDelay with
      | none =>
          rw [Backoff.iterator, delayAt_congr (f := Strategy.exponential) fun _ => rfl]
          exact (delayAt_exponentialBackoff millis i).1
      | some m =>
          rw [Backoff.iterator, delayAt_congr (f := Strategy.exponential) fun _ => rfl]
          exact (delayAt_exponentialBackoff millis i).2 m

lemma Backoff.nanos_le (b : Backoff) (i : ℕ) : b.nanos i ≤ b.longest := by
  cases b with
  | fixed delay => exact Nat.le_refl _
  | fibonacci initialDelay maxDelay =>
      cases maxDelay with
      | none => exact Nat.min_le_right _ _
      | some m => exact Nat.min_le_right _ _
  | exponential millis maxDelay =>
      cases maxDelay with
      | none =>
          have hle := Nat.min_le_right (millis.toNat ^ (i + 1)) (2 ^ 64 - 1)
          simp only [Backoff.nanos, Backoff.longest, exponentialSeries, Option.getD_none,
            Duration.toNanos_max]
          omega
      | some m => exact Nat.min_le_right _ _

/-- `take(n)` lets the first `n` draws through. -/
lemma delayAt_take {ι : Type*} (next : ι → Option Duration × ι) (i : ℕ) : ∀ (n : ℕ) (it : ι),
    delayAt (takeNext next) (n, it) i = if i < n then delayAt next it i else none := by
  induction i with
  | zero =>
      intro n it
      cases n <;> simp [delayAt, takeNext]
  | succ i ih =>
      intro n it
      have hshift : delayAt (takeNext next) (n, it) (i + 1)
          = delayAt (takeNext next) (takeNext next (n, it)).2 i := by
        simp only [delayAt, Function.iterate_succ_apply]
      rw [hshift]
      cases n with
      | zero =>
          rw [takeNext, ih]
          simp
      | succ n =>
          rw [takeNext, ih]
          simp [delayAt, Function.iterate_succ_apply]

/-! ## A whole run -/

section Run

variable {φ O E : Type*} {attempt : φ → Except E O × φ} {condition : E → Bool} {factory : φ}

lemma retryIf_leave_add {ι : Type*} {next : ι → Option Duration × ι} {retries : ι} {n : ℕ}
    {out : RetryOutcome O E}
    (h : retryIf attempt condition next factory retries n = Flow.leave out) (k : ℕ) :
    retryIf attempt condition next factory retries (n + k) = Flow.leave out := by
  unfold retryIf at h ⊢
  split at h
  · exact h
  · exact loopAt_leave_add h k

/-- Attempt `k` of a run with `n` retries is its last. -/
structure LastAttempt (condition : E → Bool) (result : ℕ → Except E O) (n k : ℕ) : Prop where
  le : k ≤ n
  goesOn : ∀ i < k, ¬ Stops condition (result i)
  ends : k < n → Stops condition (result k)

/-- The run ends with the first attempt that stops it, or with the last there is a retry for. -/
lemma exists_lastAttempt (condition : E → Bool) (result : ℕ → Except E O) (n : ℕ) :
    ∃ k, LastAttempt condition result n k := by
  induction n with
  | zero => exact ⟨0, le_refl 0, by simp, by simp⟩
  | succ n ih =>
      rcases ih with ⟨k, hle, hgo, hends⟩
      by_cases hstop : Stops condition (result k)
      · exact ⟨k, by omega, hgo, fun _ => hstop⟩
      · have hk : k = n := by
          by_contra hne
          exact hstop (hends (by omega))
        subst hk
        refine ⟨k + 1, le_refl _, ?_, by simp⟩
        intro i hi
        rcases Nat.lt_succ_iff_lt_or_eq.mp hi with hlt | rfl
        · exact hgo i hlt
        · exact hstop

/-- What was done up to attempt `k`, the last: stopped by it, nothing more; else one draw, in
vain. -/
structure TraceOf (condition : E → Bool) (result : ℕ → Except E O) (delay : ℕ → Duration) (k : ℕ)
    (trace : List (Event O E)) : Prop where
  stopped : Stops condition (result k) → trace = attemptsTrace result delay k
  exhausted : ¬ Stops condition (result k) →
    trace = attemptsTrace result delay k ++ [Event.draw none]

lemma TraceOf.accounts {result : ℕ → Except E O} {delay : ℕ → Duration} {k : ℕ}
    {trace : List (Event O E)} (h : TraceOf condition result delay k trace) :
    Accounts result delay k trace := by
  by_cases hstop : Stops condition (result k)
  · rw [h.stopped hstop]
    exact accounts_attemptsTrace result delay k
  · rw [h.exhausted hstop]
    exact accounts_append_draw_none (accounts_attemptsTrace result delay k)

lemma retryIf_lastAttempt {ι : Type*} {next : ι → Option Duration × ι} {it : ι} {n k : ℕ}
    {delay : ℕ → Duration} (hdelay : ∀ i, delayAt next it i = some (delay i))
    (hlast : LastAttempt condition (resultAt attempt factory) n k) :
    ∃ out, retryIf attempt condition (takeNext next) factory (n, it) (n + 1) = Flow.leave out ∧
      out.result = resultAt attempt factory k ∧
      TraceOf condition (resultAt attempt factory) delay k out.trace := by
  have hle := hlast.le
  have hdraws : ∀ i < k, delayAt (takeNext next) (n, it) i = some (delay i) := by
    intro i hi
    rw [delayAt_take, if_pos (by omega), hdelay]
  by_cases hstop : Stops condition (resultAt attempt factory k)
  · have hrun := retryIf_leave_add (retryIf_of_stops hlast.goesOn hstop hdraws) (n + 1 - k)
    rw [show k + (n + 1 - k) = n + 1 by omega] at hrun
    exact ⟨_, hrun, rfl, fun _ => rfl, fun hgo => absurd hstop hgo⟩
  · -- not stopped by attempt `k`, the run is out of retries
    have hk : k = n := by
      by_contra hne
      exact hstop (hlast.ends (by omega))
    subst hk
    have hgo : ∀ i ≤ k, ¬ Stops condition (resultAt attempt factory i) := by
      intro i hi
      rcases Nat.lt_or_eq_of_le hi with hlt | rfl
      · exact hlast.goesOn i hlt
      · exact hstop
    have hnone : delayAt (takeNext next) (k, it) k = none := by
      rw [delayAt_take, if_neg (Nat.lt_irrefl k)]
    exact ⟨_, retryIf_of_exhausted hgo hdraws hnone, rfl, fun h => absurd h hstop, fun _ => rfl⟩

end Run

/-- **A strategy with `n` retries.**  Whatever the factory does, the run returns the result of the
first attempt that stops it, or else that of attempt `n`; it made the attempts up to there and no
more, and it slept before each but the first for the next delay of the strategy's series, which is
never more than the longest.  The trace says in which order. -/
theorem retry_within_budget {φ O E : Type*} (attempt : φ → Except E O × φ) (condition : E → Bool)
    (factory : φ) (b : Backoff) (n : ℕ) :
    ∃ k delay out, LastAttempt condition (resultAt attempt factory) n k ∧
      (∀ i, (delay i).toNanos = b.nanos i) ∧
      retryIf attempt condition (takeNext Strategy.next) factory (n, b.iterator) (n + 1)
        = Flow.leave out ∧
      out.result = resultAt attempt factory k ∧
      TraceOf condition (resultAt attempt factory) delay k out.trace ∧
      calls out.trace = (List.range (k + 1)).map (resultAt attempt factory) ∧
      (sleeps out.trace).map Duration.toNanos = (List.range k).map b.nanos ∧
      ((sleeps out.trace).map Duration.toNanos).sum ≤ k * b.longest := by
  obtain ⟨k, hlast⟩ := exists_lastAttempt condition (resultAt attempt factory) n
  -- the series, as durations
  have hseries : ∀ i, ∃ d, delayAt Strategy.next b.iterator i = some d ∧ d.toNanos = b.nanos i := by
    intro i
    simpa using delayAt_backoff b i
  choose delay hdelay hnanos using hseries
  obtain ⟨out, hrun, hresult, htrace⟩ := retryIf_lastAttempt hdelay hlast
  have haccounts := htrace.accounts
  have hslept : (sleeps out.trace).map Duration.toNanos = (List.range k).map b.nanos := by
    rw [haccounts.slept, List.map_map]
    exact List.map_congr_left fun i _ => hnanos i
  refine ⟨k, delay, out, hlast, hnanos, hrun, hresult, htrace, haccounts.called, hslept, ?_⟩
  rw [hslept]
  calc ((List.range k).map b.nanos).sum
      ≤ ((List.range k).map b.nanos).length • b.longest :=
        List.sum_le_card_nsmul _ _ (by
          intro d hd
          obtain ⟨i, -, rfl⟩ := List.mem_map.mp hd
          exact b.nanos_le i)
    _ = k * b.longest := by simp

end FutureAio.Retry
