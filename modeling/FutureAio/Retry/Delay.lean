import Mathlib.Data.Nat.Fib.Basic
import FutureAio.Lib.Capped
import FutureAio.Lib.Word
import FutureAio.Retry

/-!
# The retry strategies of `retry::delay`

`FixedDelay` repeats itself.  `FibonacciBackoff` and `ExponentialBackoff` grow: each keeps a
window of its series, gives the cap instead of an element above it without moving, and puts the
largest value there is in the place of one it cannot represent.

Durations are compared through `toNanos`, which is injective; the two series are over the naturals,
cut off at the largest value (`fibonacciSeries`, `exponentialSeries`), and the iterators are shown
to walk along them (`Capped.Simulates`).  What makes the cut-off harmless is that it can be taken
after every step of the recurrence or once at the end (`min_add_min`, `min_mul_min`).

`fibonacci_backoff_values` and `exponential_backoff_values` are about any use of the iterators; the
`delayAt` theorems about the one that `retry_if` makes of them.
-/

namespace FutureAio.Retry

open RustInt Capped

/-! ## Durations -/

namespace Duration

/-- `Duration::MAX`. -/
def MAX : Duration := ⟨18446744073709551615, 999999999, by decide⟩

/-- `Duration::from_millis`. -/
def fromMillis (millis : UInt64) : Duration :=
  ⟨millis / 1000, (millis % 1000).toNat * 10 ^ 6, by
    have : (millis % 1000).toNat < 1000 := by
      rw [UInt64.toNat_mod]
      exact Nat.mod_lt _ (by decide)
    omega⟩

/-- The derived order of `Duration`: by seconds, then by nanoseconds. -/
instance : LT Duration := ⟨fun a b => a.secs < b.secs ∨ (a.secs = b.secs ∧ a.nanos < b.nanos)⟩

instance (a b : Duration) : Decidable (a < b) :=
  inferInstanceAs (Decidable (a.secs < b.secs ∨ (a.secs = b.secs ∧ a.nanos < b.nanos)))

/-- `Duration::checked_add`. -/
def checkedAdd (a b : Duration) : Option Duration :=
  (checkedAddU64 a.secs b.secs).bind fun secs =>
    if h : a.nanos + b.nanos < 10 ^ 9 then some ⟨secs, a.nanos + b.nanos, h⟩
    else
      (checkedAddU64 secs 1).map fun secs' =>
        ⟨secs', a.nanos + b.nanos - 10 ^ 9, by
          have ha := a.nanos_lt
          have hb := b.nanos_lt
          omega⟩

def toNanos (d : Duration) : ℕ := d.secs.toNat * 10 ^ 9 + d.nanos

lemma lt_iff_toNanos_lt {a b : Duration} : a < b ↔ a.toNanos < b.toNanos := by
  have ha := a.nanos_lt
  have hb := b.nanos_lt
  show a.secs < b.secs ∨ (a.secs = b.secs ∧ a.nanos < b.nanos) ↔ _
  rw [UInt64.lt_iff_toNat_lt, ← UInt64.toNat_inj, toNanos, toNanos]
  omega

lemma toNanos_max : MAX.toNanos = 2 ^ 64 * 10 ^ 9 - 1 := rfl

lemma toNanos_le_max (d : Duration) : d.toNanos ≤ MAX.toNanos := by
  have hsecs := d.secs.toNat_lt
  have hnanos := d.nanos_lt
  rw [toNanos_max, toNanos]
  omega

lemma toNanos_fromMillis (millis : UInt64) :
    (fromMillis millis).toNanos = millis.toNat * 10 ^ 6 := by
  simp only [toNanos, fromMillis, UInt64.toNat_div, UInt64.toNat_mod]
  show millis.toNat / 1000 * 10 ^ 9 + millis.toNat % 1000 * 10 ^ 6 = _
  omega

/-- `checked_add` is the sum when that is a duration, and fails else. -/
lemma checkedAdd_cases (a b : Duration) :
    (∃ c, checkedAdd a b = some c ∧ c.toNanos = a.toNanos + b.toNanos) ∨
      (checkedAdd a b = none ∧ MAX.toNanos < a.toNanos + b.toNanos) := by
  have ha := a.nanos_lt
  have hb := b.nanos_lt
  rw [toNanos_max, checkedAdd]
  rcases checkedAddU64_cases a.secs b.secs with ⟨secs, hsecs, hsum⟩ | ⟨hnone, hover⟩
  · rw [hsecs, Option.bind_some]
    split_ifs with hcarry
    · refine Or.inl ⟨_, rfl, ?_⟩
      simp only [toNanos]
      omega
    · rcases checkedAddU64_cases secs 1 with ⟨secs', hsecs', hone⟩ | ⟨hnone, hover⟩
      · refine Or.inl ⟨_, by rw [hsecs', Option.map_some], ?_⟩
        have hone' : secs'.toNat = secs.toNat + 1 := hone
        simp only [toNanos]
        omega
      · refine Or.inr ⟨by rw [hnone, Option.map_none], ?_⟩
        have hover' : 2 ^ 64 ≤ secs.toNat + 1 := hover
        simp only [toNanos]
        omega
  · refine Or.inr ⟨by rw [hnone, Option.bind_none], ?_⟩
    simp only [toNanos]
    omega

end Duration

/-! ## The strategies -/

/-- `delay::FixedDelay`. -/
structure FixedDelay where
  delay : Duration
  deriving DecidableEq, Repr

namespace FixedDelay

/-- `FixedDelay::new`. -/
def new (delay : Duration) : FixedDelay := ⟨delay⟩

/-- `FixedDelay::from_millis`. -/
def fromMillis (millis : UInt64) : FixedDelay := new (Duration.fromMillis millis)

/-- `FixedDelay::from_secs`. -/
def fromSecs (secs : UInt64) : FixedDelay := new (Duration.fromSecs secs)

/-- `Iterator::next` for `FixedDelay`. -/
def iteratorNext (it : FixedDelay) : Option Duration × FixedDelay := (some it.delay, it)

end FixedDelay

/-- The part of `next` that the two growing strategies share: a `duration` above the cap gives the
cap and leaves the iterator as it is. -/
def nextCapped {ι : Type*} (maxDelay : Option Duration) (duration : Duration) (it advanced : ι) :
    Option Duration × ι :=
  match maxDelay with
  | some maxDelay => if maxDelay < duration then (some maxDelay, it) else (some duration, advanced)
  | none => (some duration, advanced)

/-- `delay::FibonacciBackoff`. -/
structure FibonacciBackoff where
  current : Duration
  next : Duration
  maxDelay : Option Duration
  deriving DecidableEq, Repr

namespace FibonacciBackoff

/-- `FibonacciBackoff::new`. -/
def new (initialDelay : Duration) : FibonacciBackoff := ⟨initialDelay, initialDelay, none⟩

/-- `FibonacciBackoff::from_millis`. -/
def fromMillis (millis : UInt64) : FibonacciBackoff := new (Duration.fromMillis millis)

/-- `FibonacciBackoff::from_secs`. -/
def fromSecs (secs : UInt64) : FibonacciBackoff := new (Duration.fromSecs secs)

/-- `FibonacciBackoff::max_delay`. -/
def withMaxDelay (it : FibonacciBackoff) (maxDelay : Duration) : FibonacciBackoff :=
  { it with maxDelay := some maxDelay }

/-- What `next` does when it does not stop at the cap. -/
def advance (it : FibonacciBackoff) : FibonacciBackoff :=
  match it.current.checkedAdd it.next with
  | some nextNext => { it with current := it.next, next := nextNext }
  | none => { it with current := it.next, next := Duration.MAX }

/-- `Iterator::next` for `FibonacciBackoff`. -/
def iteratorNext (it : FibonacciBackoff) : Option Duration × FibonacciBackoff :=
  nextCapped it.maxDelay it.current it it.advance

end FibonacciBackoff

/-- `delay::ExponentialBackoff`. -/
structure ExponentialBackoff where
  baseMillis : UInt64
  currentMillis : UInt64
  maxDelay : Option Duration
  deriving DecidableEq, Repr

namespace ExponentialBackoff

/-- `ExponentialBackoff::from_millis`. -/
def fromMillis (millis : UInt64) : ExponentialBackoff := ⟨millis, millis, none⟩

/-- `ExponentialBackoff::max_delay`. -/
def withMaxDelay (it : ExponentialBackoff) (maxDelay : Duration) : ExponentialBackoff :=
  { it with maxDelay := some maxDelay }

/-- What `next` does when it does not stop at the cap. -/
def advance (it : ExponentialBackoff) : ExponentialBackoff :=
  match checkedMulU64 it.currentMillis it.baseMillis with
  | some next => { it with currentMillis := next }
  | none => { it with currentMillis := 18446744073709551615 }

/-- `Iterator::next` for `ExponentialBackoff`. -/
def iteratorNext (it : ExponentialBackoff) : Option Duration × ExponentialBackoff :=
  nextCapped it.maxDelay (Duration.fromMillis it.currentMillis) it it.advance

end ExponentialBackoff

/-! ## Cutting off

Both recurrences may be cut off at every step or once at the end.
-/

lemma min_add_min (a b m : ℕ) : min (min a m + min b m) m = min (a + b) m := by
  omega

lemma min_mul_min (a b m : ℕ) : min (min a m * b) m = min (a * b) m := by
  rcases Nat.le_total a m with h | h
  · rw [Nat.min_eq_left h]
  · rw [Nat.min_eq_right h]
    rcases Nat.eq_zero_or_pos b with rfl | hb
    · simp
    · have hm : m ≤ m * b := Nat.le_mul_of_pos_right m hb
      have ha : m ≤ a * b := le_trans h (Nat.le_mul_of_pos_right a hb)
      rw [Nat.min_eq_right hm, Nat.min_eq_right ha]

/-- Element `k` of the Fibonacci strategy from the delay `d`, in nanoseconds. -/
def fibonacciSeries (d : Duration) (k : ℕ) : ℕ :=
  min (Nat.fib (k + 1) * d.toNanos) Duration.MAX.toNanos

/-- Element `k` of the exponential strategy to the base `b`, in nanoseconds. -/
def exponentialSeries (b : UInt64) (k : ℕ) : ℕ := min (b.toNat ^ (k + 1)) (2 ^ 64 - 1) * 10 ^ 6

lemma fibonacciSeries_succ_succ (d : Duration) (k : ℕ) :
    fibonacciSeries d (k + 2)
      = min (fibonacciSeries d k + fibonacciSeries d (k + 1)) Duration.MAX.toNanos := by
  rw [fibonacciSeries, fibonacciSeries, fibonacciSeries, min_add_min, ← Nat.add_mul,
    Nat.fib_add_two]

lemma fibonacciSeries_mono (d : Duration) : Monotone (fibonacciSeries d) := by
  intro i j hij
  refine min_le_min_right _ (Nat.mul_le_mul_right _ (Nat.fib_mono ?_))
  omega

lemma exponentialSeries_mono (b : UInt64) : Monotone (exponentialSeries b) := by
  refine monotone_nat_of_le_succ fun k => ?_
  refine Nat.mul_le_mul_right _ (min_le_min_right _ ?_)
  rcases Nat.eq_zero_or_pos b.toNat with hzero | hpos
  · simp [hzero]
  · exact Nat.pow_le_pow_right hpos (by omega)

/-! ## The iterators walk along their series -/

/-- The cap as the series sees it. -/
def capNanos (cap : Option Duration) : Option ℕ := cap.map Duration.toNanos

section NextCapped

variable {ι : Type*} {maxDelay : Option Duration} {duration : Duration} (it advanced : ι)

lemma nextCapped_of_not_above (h : ¬ Above (capNanos maxDelay) duration.toNanos) :
    nextCapped maxDelay duration it advanced = (some duration, advanced) := by
  cases maxDelay with
  | none => rfl
  | some m => exact if_neg fun hlt => h (Duration.lt_iff_toNanos_lt.mp hlt)

lemma nextCapped_of_above {m : ℕ} (hcap : capNanos maxDelay = some m) (h : m < duration.toNanos) :
    ∃ cap, cap.toNanos = m ∧ nextCapped maxDelay duration it advanced = (some cap, it) := by
  obtain ⟨cap, rfl, rfl⟩ := Option.map_eq_some_iff.mp hcap
  exact ⟨cap, rfl, if_pos (Duration.lt_iff_toNanos_lt.mpr h)⟩

/-- An iterator whose `next` is of that shape walks along a series, if it gives the element it
stands at and advances to the one after it. -/
lemma simulates_of_nextCapped {series : ℕ → ℕ} {maxDelay : ι → Option Duration}
    {duration : ι → Duration} {advance : ι → ι} {setCap : ι → Duration → ι}
    {R : ι → ℕ → Option ℕ → Prop}
    (hcap : ∀ it k cap, R it k cap → capNanos (maxDelay it) = cap)
    (hduration : ∀ it k cap, R it k cap → (duration it).toNanos = series k)
    (hadvance : ∀ it k cap, R it k cap → R (advance it) (k + 1) cap)
    (hrecap : ∀ it k cap m, R it k cap → R (setCap it m) k (some m.toNanos)) :
    Simulates series Duration.toNanos
      (fun it => nextCapped (maxDelay it) (duration it) it (advance it)) setCap R where
  advance := by
    intro it k cap h habove
    rw [← hcap it k cap h, ← hduration it k cap h] at habove
    rw [nextCapped_of_not_above it (advance it) habove]
    exact ⟨by rw [Option.map_some, hduration it k cap h], hadvance it k cap h⟩
  hold := by
    intro it k m h habove
    have habove' : m < (duration it).toNanos := by
      rw [hduration it k _ h]
      exact habove
    obtain ⟨cap, hval, hnext⟩ := nextCapped_of_above it (advance it) (hcap it k _ h) habove'
    rw [hnext]
    exact ⟨by rw [Option.map_some, hval], h⟩
  recap := hrecap

end NextCapped

namespace FibonacciBackoff

/-- Where the iterator stands: its window is the elements `k` and `k + 1` of the series. -/
structure StandsAt (d : Duration) (it : FibonacciBackoff) (k : ℕ) (cap : Option ℕ) : Prop where
  current : it.current.toNanos = fibonacciSeries d k
  next : it.next.toNanos = fibonacciSeries d (k + 1)
  cap : capNanos it.maxDelay = cap

lemma standsAt_new (d : Duration) : StandsAt d (new d) 0 none := by
  have hmax := d.toNanos_le_max
  refine ⟨?_, ?_, rfl⟩ <;> simp [new, fibonacciSeries, hmax]

lemma advance_maxDelay (it : FibonacciBackoff) : it.advance.maxDelay = it.maxDelay := by
  rw [advance]
  split <;> rfl

lemma advance_current (it : FibonacciBackoff) : it.advance.current = it.next := by
  rw [advance]
  split <;> rfl

/-- The new element of the window is the sum, or the largest duration in its place. -/
lemma toNanos_advance_next (it : FibonacciBackoff) :
    it.advance.next.toNanos
      = min (it.current.toNanos + it.next.toNanos) Duration.MAX.toNanos := by
  rw [advance]
  rcases Duration.checkedAdd_cases it.current it.next with ⟨c, hc, hsum⟩ | ⟨hnone, hover⟩
  · have hle := c.toNanos_le_max
    rw [hc, ← hsum, Nat.min_eq_left hle]
  · rw [hnone, Nat.min_eq_right (le_of_lt hover)]

lemma StandsAt.advance {d : Duration} {it : FibonacciBackoff} {k : ℕ} {cap : Option ℕ}
    (h : StandsAt d it k cap) : StandsAt d it.advance (k + 1) cap := by
  refine ⟨?_, ?_, ?_⟩
  · rw [advance_current, h.next]
  · rw [toNanos_advance_next, h.current, h.next, ← fibonacciSeries_succ_succ]
  · rw [advance_maxDelay, h.cap]

lemma simulates (d : Duration) : Simulates (fibonacciSeries d) Duration.toNanos iteratorNext
    withMaxDelay (StandsAt d) :=
  simulates_of_nextCapped (fun _ _ _ h => h.cap) (fun _ _ _ h => h.current)
    (fun _ _ _ h => h.advance) (fun _ _ _ _ h => ⟨h.current, h.next, rfl⟩)

end FibonacciBackoff

namespace ExponentialBackoff

/-- Where the iterator stands: at the power `k + 1` of its base. -/
structure StandsAt (b : UInt64) (it : ExponentialBackoff) (k : ℕ) (cap : Option ℕ) : Prop where
  base : it.baseMillis = b
  current : it.currentMillis.toNat = min (b.toNat ^ (k + 1)) (2 ^ 64 - 1)
  cap : capNanos it.maxDelay = cap

lemma standsAt_fromMillis (b : UInt64) : StandsAt b (fromMillis b) 0 none := by
  have hlt := b.toNat_lt
  refine ⟨rfl, ?_, rfl⟩
  simp only [fromMillis, Nat.zero_add, Nat.pow_one]
  omega

lemma advance_baseMillis (it : ExponentialBackoff) : it.advance.baseMillis = it.baseMillis := by
  rw [advance]
  split <;> rfl

lemma advance_maxDelay (it : ExponentialBackoff) : it.advance.maxDelay = it.maxDelay := by
  rw [advance]
  split <;> rfl

/-- The new power is the product, or the largest `u64` in its place. -/
lemma toNat_advance_currentMillis (it : ExponentialBackoff) :
    it.advance.currentMillis.toNat
      = min (it.currentMillis.toNat * it.baseMillis.toNat) (2 ^ 64 - 1) := by
  rw [advance]
  rcases checkedMulU64_cases it.currentMillis it.baseMillis with ⟨c, hc, hprod⟩ | ⟨hnone, hover⟩
  · have hlt := c.toNat_lt
    rw [hc, ← hprod, Nat.min_eq_left (by omega)]
  · rw [hnone, Nat.min_eq_right (by omega)]
    rfl

lemma StandsAt.advance {b : UInt64} {it : ExponentialBackoff} {k : ℕ} {cap : Option ℕ}
    (h : StandsAt b it k cap) : StandsAt b it.advance (k + 1) cap := by
  refine ⟨?_, ?_, ?_⟩
  · rw [advance_baseMillis, h.base]
  · rw [toNat_advance_currentMillis, h.current, h.base, min_mul_min, ← Nat.pow_succ]
  · rw [advance_maxDelay, h.cap]

lemma StandsAt.toNanos {b : UInt64} {it : ExponentialBackoff} {k : ℕ} {cap : Option ℕ}
    (h : StandsAt b it k cap) :
    (Duration.fromMillis it.currentMillis).toNanos = exponentialSeries b k := by
  rw [Duration.toNanos_fromMillis, h.current, exponentialSeries]

lemma simulates (b : UInt64) : Simulates (exponentialSeries b) Duration.toNanos iteratorNext
    withMaxDelay (StandsAt b) :=
  simulates_of_nextCapped (fun _ _ _ h => h.cap) (fun _ _ _ h => h.toNanos)
    (fun _ _ _ h => h.advance) (fun _ _ _ _ h => ⟨h.base, h.current, rfl⟩)

end ExponentialBackoff

/-! ## The values given -/

/-- **`FibonacciBackoff` gives the Fibonacci multiples of its delay**, saturated and capped: under
any sequence of draws and changes of the cap, and in closed form under one cap and under none. -/
theorem fibonacci_backoff_values (d : Duration) :
    (∀ reqs, (responses FibonacciBackoff.iteratorNext FibonacciBackoff.withMaxDelay
        (FibonacciBackoff.new d) reqs).map (Option.map Duration.toNanos)
      = (expected (fibonacciSeries d) Duration.toNanos 0 none reqs).map some) ∧
    (∀ m n, (responses FibonacciBackoff.iteratorNext FibonacciBackoff.withMaxDelay
        ((FibonacciBackoff.new d).withMaxDelay m) (List.replicate n Request.next)).map
          (Option.map Duration.toNanos)
      = (List.range n).map fun i => some (min (Nat.fib (i + 1) * d.toNanos) m.toNanos)) ∧
    ∀ n, (responses FibonacciBackoff.iteratorNext FibonacciBackoff.withMaxDelay
        (FibonacciBackoff.new d) (List.replicate n Request.next)).map (Option.map Duration.toNanos)
      = (List.range n).map fun i =>
          some (min (Nat.fib (i + 1) * d.toNanos) Duration.MAX.toNanos) := by
  have hsim := FibonacciBackoff.simulates d
  have hnew := FibonacciBackoff.standsAt_new d
  refine ⟨?_, ?_, ?_⟩
  · intro reqs
    exact responses_eq_expected hsim reqs _ 0 none hnew
  · intro m n
    have hcap := hsim.recap _ 0 none m hnew
    have hmax := m.toNanos_le_max
    rw [responses_replicate hsim (fibonacciSeries_mono d) hcap]
    refine List.map_congr_left fun i _ => congrArg some ?_
    rw [capped, fibonacciSeries, min_assoc, Nat.min_eq_right hmax]
  · intro n
    exact responses_replicate hsim (fibonacciSeries_mono d) hnew n

/-- **`ExponentialBackoff` gives the powers of its base** in milliseconds, saturated and capped. -/
theorem exponential_backoff_values (b : UInt64) :
    (∀ reqs, (responses ExponentialBackoff.iteratorNext ExponentialBackoff.withMaxDelay
        (ExponentialBackoff.fromMillis b) reqs).map (Option.map Duration.toNanos)
      = (expected (exponentialSeries b) Duration.toNanos 0 none reqs).map some) ∧
    ∀ m n, (responses ExponentialBackoff.iteratorNext ExponentialBackoff.withMaxDelay
        ((ExponentialBackoff.fromMillis b).withMaxDelay m) (List.replicate n Request.next)).map
          (Option.map Duration.toNanos)
      = (List.range n).map fun i =>
          some (min (min (b.toNat ^ (i + 1)) (2 ^ 64 - 1) * 10 ^ 6) m.toNanos) := by
  have hsim := ExponentialBackoff.simulates b
  have hnew := ExponentialBackoff.standsAt_fromMillis b
  refine ⟨?_, ?_⟩
  · intro reqs
    exact responses_eq_expected hsim reqs _ 0 none hnew
  · intro m n
    exact responses_replicate hsim (exponentialSeries_mono b) (hsim.recap _ 0 none m hnew) n

/-! ## As the delays of `retry_if`

`retry_if` draws from its iterator without ever changing the cap; what it draws is `delayAt`.
-/

section Draws

variable {ι : Type*} {next : ι → Option Duration × ι} {setCap : ι → Duration → ι}

lemma responses_eq_delayAt (n : ℕ) : ∀ it : ι,
    responses next setCap it (List.replicate n Request.next)
      = (List.range n).map (delayAt next it) := by
  induction n with
  | zero =>
      intro it
      rfl
  | succ n ih =>
      intro it
      rw [List.replicate_succ, responses, ih, List.range_succ_eq_map, List.map_cons, List.map_map]
      rfl

/-- The draws from a strategy that walks along a growing series under one cap. -/
lemma delayAt_of_simulates {series : ℕ → ℕ} {R : ι → ℕ → Option ℕ → Prop}
    (hsim : Simulates series Duration.toNanos next setCap R) (hmono : Monotone series) {it : ι}
    {cap : Option ℕ} (hR : R it 0 cap) (i : ℕ) :
    (delayAt next it i).map Duration.toNanos = some (capped cap (series i)) := by
  have hall := responses_replicate hsim hmono hR (i + 1)
  rw [responses_eq_delayAt, List.map_map] at hall
  exact List.map_inj_left.mp hall i (List.mem_range.mpr (Nat.lt_succ_self i))

end Draws

theorem delayAt_fixedDelay (d : Duration) (i : ℕ) :
    delayAt FixedDelay.iteratorNext (FixedDelay.new d) i = some d := by
  have hfixed : (fun it : FixedDelay => (FixedDelay.iteratorNext it).2) = id := rfl
  rw [delayAt, hfixed, Function.iterate_id]
  rfl

/-- Delay number `i` of a Fibonacci strategy, with the cap set from the start or not at all. -/
theorem delayAt_fibonacciBackoff (d : Duration) (i : ℕ) :
    (delayAt FibonacciBackoff.iteratorNext (FibonacciBackoff.new d) i).map Duration.toNanos
      = some (fibonacciSeries d i) ∧
    ∀ m, (delayAt FibonacciBackoff.iteratorNext ((FibonacciBackoff.new d).withMaxDelay m) i).map
      Duration.toNanos = some (min (fibonacciSeries d i) m.toNanos) := by
  have hsim := FibonacciBackoff.simulates d
  have hnew := FibonacciBackoff.standsAt_new d
  refine ⟨delayAt_of_simulates hsim (fibonacciSeries_mono d) hnew i, ?_⟩
  intro m
  exact delayAt_of_simulates hsim (fibonacciSeries_mono d) (hsim.recap _ 0 none m hnew) i

/-- Delay number `i` of an exponential strategy. -/
theorem delayAt_exponentialBackoff (b : UInt64) (i : ℕ) :
    (delayAt ExponentialBackoff.iteratorNext (ExponentialBackoff.fromMillis b) i).map
      Duration.toNanos = some (exponentialSeries b i) ∧
    ∀ m, (delayAt ExponentialBackoff.iteratorNext
        ((ExponentialBackoff.fromMillis b).withMaxDelay m) i).map Duration.toNanos
      = some (min (exponentialSeries b i) m.toNanos) := by
  have hsim := ExponentialBackoff.simulates b
  have hnew := ExponentialBackoff.standsAt_fromMillis b
  refine ⟨delayAt_of_simulates hsim (exponentialSeries_mono b) hnew i, ?_⟩
  intro m
  exact delayAt_of_simulates hsim (exponentialSeries_mono b) (hsim.recap _ 0 none m hnew) i

end FutureAio.Retry
