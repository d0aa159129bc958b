import FutureAio.Basic
import FutureAio.Lib.Loop
import FutureAio.Retry.Delay

/-!
# The two timeouts

`future::timeout` and `RetryExt::timeout` both set a future against a timer, and are meant to do the
same.  They use two combinators of `futures_lite`: `or` polls the future first, always; `race`
tosses a coin at every poll.  The difference can only be seen at a poll at which both sides are
ready.

* `FuturesLite`, `AsyncIo` — the combinators and the timer, which are other crates': any that do
  what is documented of them.
* `Sleeper`, `timerBlock` — the timer, and the block that starts it when it is first polled.
* `futureTimeout`, `retryTimeout` — the two functions, poll by poll, over what each poll finds: the
  clock and the coin (`Wake`).

`timeouts_agree_iff` — the two agree and lose no result, except when the future becomes ready at the
very poll at which the timer is first seen to have fired and the coin polls the timer first.
-/

namespace FutureAio

open OracleLoop Retry

/-! ## `futures_lite` -/

section Combinators

variable {σ τ α : Type}

/-- A poll of two futures, the first one first: if it is ready that is the answer, and otherwise the
second is polled too and answers. -/
structure PollsFirst (poll₁ : σ → σ × Poll α) (poll₂ : τ → τ × Poll α) (s : σ × τ)
    (answer : (σ × τ) × Poll α) : Prop where
  ready : ∀ a, (poll₁ s.1).2 = Poll.ready a → answer.2 = Poll.ready a
  pending : (poll₁ s.1).2 = Poll.pending →
    answer = (((poll₁ s.1).1, (poll₂ s.2).1), (poll₂ s.2).2)

/-- The second one first. -/
structure PollsSecond (poll₁ : σ → σ × Poll α) (poll₂ : τ → τ × Poll α) (s : σ × τ)
    (answer : (σ × τ) × Poll α) : Prop where
  ready : ∀ a, (poll₂ s.2).2 = Poll.ready a → answer.2 = Poll.ready a
  pending : (poll₂ s.2).2 = Poll.pending →
    answer = (((poll₁ s.1).1, (poll₂ s.2).1), (poll₁ s.1).2)

/-- In the order the coin says. -/
def PollsInOrder (first : Bool) (poll₁ : σ → σ × Poll α) (poll₂ : τ → τ × Poll α) (s : σ × τ)
    (answer : (σ × τ) × Poll α) : Prop :=
  if first then PollsFirst poll₁ poll₂ s answer else PollsSecond poll₁ poll₂ s answer

end Combinators

/-- The two combinators of `futures_lite`, one poll of each.  `or` prefers its first future; `race`
prefers neither, and asks a coin at every poll. -/
structure FuturesLite where
  orPoll {σ τ α : Type} (poll₁ : σ → σ × Poll α) (poll₂ : τ → τ × Poll α) (s : σ × τ) :
    (σ × τ) × Poll α
  racePoll {σ τ α : Type} (first : Bool) (poll₁ : σ → σ × Poll α) (poll₂ : τ → τ × Poll α)
    (s : σ × τ) : (σ × τ) × Poll α
  orPoll_first : ∀ {σ τ α : Type} (poll₁ : σ → σ × Poll α) (poll₂ : τ → τ × Poll α) (s : σ × τ),
    PollsFirst poll₁ poll₂ s (orPoll poll₁ poll₂ s)
  racePoll_inOrder : ∀ {σ τ α : Type} (first : Bool) (poll₁ : σ → σ × Poll α)
    (poll₂ : τ → τ × Poll α) (s : σ × τ),
    PollsInOrder first poll₁ poll₂ s (racePoll first poll₁ poll₂ s)

/-! ## The timer -/

/-- `async_io::Timer`.  The clock counts nanoseconds.  `deadline` is the instant at which a timer
fires, if it ever does; a timer is never early, and a poll that finds it pending leaves its instant
alone. -/
structure AsyncIo where
  Timer : Type
  after (now : ℕ) (duration : Duration) : Timer
  poll (now : ℕ) (timer : Timer) : Timer × Poll ℕ
  deadline : Timer → Option ℕ
  le_deadline : ∀ now duration instant, deadline (after now duration) = some instant →
    now + duration.toNanos ≤ instant
  isReady_poll : ∀ now timer, (poll now timer).2.isReady = (deadline timer).any (· ≤ now)
  deadline_poll : ∀ now timer, (poll now timer).2.isReady = false →
    deadline (poll now timer).1 = deadline timer

/-- `timer::Sleeper`. -/
structure Sleeper (io : AsyncIo) where
  timer : io.Timer

/-- `timer::sleep`, called when the clock reads `now`. -/
def sleep (io : AsyncIo) (now : ℕ) (duration : Duration) : Sleeper io := ⟨io.after now duration⟩

section Sleeper

variable {io : AsyncIo}

/-- `Sleeper::poll`, when the clock reads `now`. -/
def Sleeper.poll (s : Sleeper io) (now : ℕ) : Sleeper io × Poll Unit :=
  (⟨(io.poll now s.timer).1⟩,
    if (io.poll now s.timer).2.isReady then Poll.ready () else Poll.pending)

def Sleeper.deadline (s : Sleeper io) : Option ℕ := io.deadline s.timer

/-- A poll when the clock reads `now` finds it ready. -/
def Sleeper.fired (s : Sleeper io) (now : ℕ) : Bool := s.deadline.any (· ≤ now)

lemma Sleeper.fired_iff {s : Sleeper io} {now : ℕ} :
    s.fired now = true ↔ ∃ deadline, s.deadline = some deadline ∧ deadline ≤ now := by
  unfold Sleeper.fired
  cases s.deadline with
  | none => simp
  | some deadline => simp

lemma Sleeper.poll_of_fired {s : Sleeper io} {now : ℕ} (h : s.fired now = true) :
    s.poll now = ((s.poll now).1, Poll.ready ()) :=
  Prod.ext rfl (if_pos ((io.isReady_poll now s.timer).trans h))

lemma Sleeper.poll_of_not_fired {s : Sleeper io} {now : ℕ} (h : s.fired now = false) :
    s.poll now = ((s.poll now).1, Poll.pending) :=
  Prod.ext rfl (if_neg (by rw [io.isReady_poll]; exact Bool.eq_false_iff.mp h))

lemma Sleeper.deadline_poll {s : Sleeper io} {now : ℕ} (h : s.fired now = false) :
    (s.poll now).1.deadline = s.deadline := by
  refine io.deadline_poll now s.timer ?_
  rw [io.isReady_poll]
  exact h

lemma Sleeper.fired_congr {s s' : Sleeper io} (h : s.deadline = s'.deadline) (now : ℕ) :
    s.fired now = s'.fired now := by
  rw [Sleeper.fired, h, Sleeper.fired]

/-- A timer is never early. -/
lemma le_of_fired_sleep {starts now : ℕ} {duration : Duration}
    (h : (sleep io starts duration).fired now = true) : starts + duration.toNanos ≤ now := by
  obtain ⟨deadline, hdeadline, hle⟩ := Sleeper.fired_iff.mp h
  exact (io.le_deadline starts duration deadline hdeadline).trans hle

end Sleeper

/-! ## The two sides -/

/-- The future: pending for so many polls, and then ready. -/
def futurePoll {ε T : Type} (value : T) : ℕ → ℕ × Poll (Except ε T)
  | 0 => (0, Poll.ready (Except.ok value))
  | k + 1 => (k, Poll.pending)

/-- What a poll finds: the clock if the timer is started in it, the clock when the timer is looked
at, and the coin of `race`. -/
structure Wake where
  starts : ℕ
  now : ℕ
  first : Bool
  deriving DecidableEq, Repr

section Block

variable {io : AsyncIo} {ε T : Type}

/-- `async move { let _ = sleep(duration).await; Err(..) }`. -/
def timerBlock (err : ε) (duration : Duration) (wake : Wake) (timer : Option (Sleeper io)) :
    Option (Sleeper io) × Poll (Except ε T) :=
  match (timer.getD (sleep io wake.starts duration)).poll wake.now with
  | (sleeper, Poll.pending) => (some sleeper, Poll.pending)
  | (sleeper, Poll.ready _) => (some sleeper, Poll.ready (Except.error err))

variable (err : ε) {duration : Duration} {wake : Wake} {timer : Option (Sleeper io)}
variable {started : Sleeper io}

lemma timerBlock_of_fired
    (htimer : (timer.getD (sleep io wake.starts duration)).deadline = started.deadline)
    (hfired : started.fired wake.now = true) :
    (timerBlock err duration wake timer : _ × Poll (Except ε T)).2
      = Poll.ready (Except.error err) := by
  rw [← Sleeper.fired_congr htimer] at hfired
  rw [timerBlock, Sleeper.poll_of_fired hfired]

/-- The timer is kept, and it is still to fire at the same instant. -/
lemma timerBlock_of_not_fired
    (htimer : (timer.getD (sleep io wake.starts duration)).deadline = started.deadline)
    (hnot : started.fired wake.now = false) :
    ∃ sleeper : Sleeper io, sleeper.deadline = started.deadline ∧
      (timerBlock err duration wake timer : _ × Poll (Except ε T))
        = (some sleeper, Poll.pending) := by
  rw [← Sleeper.fired_congr htimer] at hnot
  refine ⟨_, (Sleeper.deadline_poll hnot).trans htimer, ?_⟩
  rw [timerBlock, Sleeper.poll_of_not_fired hnot]

end Block

/-! ## The two functions -/

section Timeouts

variable (io : AsyncIo) (lite : FuturesLite) {ε T : Type}

/-- The answer of a poll, as a pass of the executor's loop. -/
def toFlow {σ α : Type} : σ × Poll α → Flow σ α
  | (s, Poll.pending) => Flow.again s
  | (_, Poll.ready a) => Flow.leave a

/-- One poll of a future raced against a timer. -/
def raceWake (err : ε) (duration : Duration) (value : T) (s : ℕ × Option (Sleeper io))
    (wake : Wake) : Flow (ℕ × Option (Sleeper io)) (Except ε T) :=
  toFlow (lite.racePoll wake.first (futurePoll value) (timerBlock err duration wake) s)

/-- One poll of a future, or else a timer. -/
def orWake (err : ε) (duration : Duration) (value : T) (s : ℕ × Option (Sleeper io))
    (wake : Wake) : Flow (ℕ × Option (Sleeper io)) (Except ε T) :=
  toFlow (lite.orPoll (futurePoll value) (timerBlock err duration wake) s)

/-- `retry::TimeoutError`. -/
inductive TimeoutError where
  | timeoutError
  deriving DecidableEq, Repr

/-- The text of the error of `future::timeout`; `debug` is how a duration prints. -/
def timedOut (debug : Duration → String) (duration : Duration) : String :=
  "Future timed out after " ++ debug duration

/-- `future::timeout`, after `n` polls. -/
def futureTimeout (debug : Duration → String) (duration : Duration) (value : T) (pendings : ℕ)
    (wakes : ℕ → Wake) : ℕ → Flow (ℕ × Option (Sleeper io)) (Except String T) :=
  loopAt (raceWake io lite (timedOut debug duration) duration value) wakes (pendings, none)

/-- `RetryExt::timeout`, after `n` polls. -/
def retryTimeout (duration : Duration) (value : T) (pendings : ℕ) (wakes : ℕ → Wake) :
    ℕ → Flow (ℕ × Option (Sleeper io)) (Except TimeoutError T) :=
  loopAt (orWake io lite TimeoutError.timeoutError duration value) wakes (pendings, none)

end Timeouts

/-! ## What is expected of them -/

section Expected

variable (io : AsyncIo) (lite : FuturesLite)

/-- The timer has fired at poll `n`; it was started at the first poll. -/
def Fired (duration : Duration) (wakes : ℕ → Wake) (n : ℕ) : Prop :=
  (sleep io (wakes 0).starts duration).fired (wakes n).now = true

/-- Poll `n` finds something ready. -/
def FindsReady (duration : Duration) (pendings : ℕ) (wakes : ℕ → Wake) (n : ℕ) : Prop :=
  pendings ≤ n ∨ Fired io duration wakes n

def CompletesAt {σ ρ : Type} (polls : ℕ → Flow σ ρ) (n : ℕ) (r : ρ) : Prop :=
  (∃ s, polls n = Flow.again s) ∧ polls (n + 1) = Flow.leave r

/-- The verdict so far: none yet, a value, or the timeout. -/
def verdict {σ ε T : Type} : Flow σ (Except ε T) → Option (Option T)
  | Flow.again _ => none
  | Flow.leave (Except.ok v) => some (some v)
  | Flow.leave (Except.error _) => some none

/-- Neither discards a result that is there, neither times out without need, and they agree. -/
structure TimeoutsAgree {T : Type} (debug : Duration → String) (duration : Duration) (value : T)
    (pendings : ℕ) (wakes : ℕ → Wake) : Prop where
  futureKeeps : ∀ n r, CompletesAt (futureTimeout io lite debug duration value pendings wakes) n r →
    pendings ≤ n → r = Except.ok value
  retryKeeps : ∀ n r, CompletesAt (retryTimeout io lite duration value pendings wakes) n r →
    pendings ≤ n → r = Except.ok value
  futureExpires : ∀ n e,
    CompletesAt (futureTimeout io lite debug duration value pendings wakes) n (Except.error e) →
    Fired io duration wakes n ∧ n < pendings
  retryExpires : ∀ n e,
    CompletesAt (retryTimeout io lite duration value pendings wakes) n (Except.error e) →
    Fired io duration wakes n ∧ n < pendings
  same : ∀ n, verdict (futureTimeout io lite debug duration value pendings wakes n)
    = verdict (retryTimeout io lite duration value pendings wakes n)

/-- The future becomes ready at the poll that first finds the timer fired, and the coin polls the
timer first. -/
def LostTie (duration : Duration) (pendings : ℕ) (wakes : ℕ → Wake) : Prop :=
  ∃ n, (∀ m < n, ¬ FindsReady io duration pendings wakes m) ∧ pendings ≤ n ∧
    Fired io duration wakes n ∧ (wakes n).first = false

end Expected

/-! ## One poll -/

section Polls

variable {io : AsyncIo} {ε T : Type} {duration : Duration} {pendings : ℕ} {wakes : ℕ → Wake}
variable {n : ℕ} {s : ℕ × Option (Sleeper io)} (err : ε) (value : T)

instance : Decidable (Fired io duration wakes n) := inferInstanceAs (Decidable (_ = true))

/-- Before poll `n`: the polls the future stays pending for, and the timer, which if it has not been
started yet is started now. -/
structure AtPoll (duration : Duration) (pendings : ℕ) (wakes : ℕ → Wake) (n : ℕ)
    (s : ℕ × Option (Sleeper io)) : Prop where
  left : s.1 = pendings - n
  timer : (s.2.getD (sleep io (wakes n).starts duration)).deadline
    = (sleep io (wakes 0).starts duration).deadline

lemma atPoll_start :
    AtPoll duration pendings wakes 0 ((pendings, none) : ℕ × Option (Sleeper io)) :=
  ⟨rfl, rfl⟩

lemma AtPoll.futurePoll_of_lt (h : AtPoll duration pendings wakes n s) (hlt : n < pendings) :
    futurePoll value s.1 = (pendings - (n + 1), (Poll.pending : Poll (Except ε T))) := by
  have hleft : s.1 = pendings - (n + 1) + 1 := by
    rw [h.left]
    omega
  rw [hleft, futurePoll]

lemma AtPoll.futurePoll_of_le (h : AtPoll duration pendings wakes n s) (hle : pendings ≤ n) :
    (futurePoll value s.1 : _ × Poll (Except ε T)).2 = Poll.ready (Except.ok value) := by
  have hleft : s.1 = 0 := by
    rw [h.left]
    omega
  rw [hleft, futurePoll]

/-- What a poll that finds something ready returns, when the coin says `first`. -/
def settled (io : AsyncIo) (duration : Duration) (pendings : ℕ) (wakes : ℕ → Wake) (err : ε)
    (value : T) (first : Bool) (n : ℕ) : Except ε T :=
  if pendings ≤ n ∧ (first = true ∨ ¬ Fired io duration wakes n) then Except.ok value
  else Except.error err

variable {first : Bool} {answer : (ℕ × Option (Sleeper io)) × Poll (Except ε T)}

/-- Nothing is ready: both sides have been polled, whatever the coin. -/
lemma AtPoll.race_go (h : AtPoll duration pendings wakes n s)
    (hnot : ¬ FindsReady io duration pendings wakes n)
    (hanswer : PollsInOrder first (futurePoll value) (timerBlock err duration (wakes n)) s answer) :
    ∃ s', toFlow answer = Flow.again s' ∧ AtPoll duration pendings wakes (n + 1) s' := by
  obtain ⟨hlt, hfired⟩ := not_or.mp hnot
  have hfuture := h.futurePoll_of_lt (ε := ε) value (Nat.lt_of_not_le hlt)
  obtain ⟨sleeper, hsleeper, htimer⟩ :=
    timerBlock_of_not_fired (T := T) err h.timer (Bool.eq_false_iff.mpr hfired)
  have hboth : answer = ((pendings - (n + 1), some sleeper), Poll.pending) := by
    cases first with
    | true => rw [PollsFirst.pending hanswer (by rw [hfuture]), hfuture, htimer]
    | false => rw [PollsSecond.pending hanswer (by rw [htimer]), hfuture, htimer]
  rw [hboth]
  exact ⟨(pendings - (n + 1), some sleeper), rfl, rfl, hsleeper⟩

/-- Something is ready: it is returned, and when both are the coin decides. -/
lemma AtPoll.race_end (h : AtPoll duration pendings wakes n s)
    (hready : FindsReady io duration pendings wakes n)
    (hanswer : PollsInOrder first (futurePoll value) (timerBlock err duration (wakes n)) s answer) :
    toFlow answer = Flow.leave (settled io duration pendings wakes err value first n) := by
  have hleave : answer.2 = Poll.ready (settled io duration pendings wakes err value first n) := by
    by_cases hle : pendings ≤ n
    · have hfuture := h.futurePoll_of_le (ε := ε) value hle
      cases first with
      | true => simpa [settled, hle] using PollsFirst.ready hanswer _ hfuture
      | false =>
          by_cases hfired : Fired io duration wakes n
          · have htimer := timerBlock_of_fired (T := T) err h.timer hfired
            simpa [settled, hle, hfired] using PollsSecond.ready hanswer _ htimer
          · obtain ⟨sleeper, -, htimer⟩ := timerBlock_of_not_fired (T := T) err h.timer
              (Bool.eq_false_iff.mpr hfired)
            rw [PollsSecond.pending hanswer (by rw [htimer])]
            simpa [settled, hle, hfired] using hfuture
    · have hfired := hready.resolve_left hle
      have htimer := timerBlock_of_fired (T := T) err h.timer hfired
      have hfuture := h.futurePoll_of_lt (ε := ε) value (Nat.lt_of_not_le hle)
      cases first with
      | true =>
          rw [PollsFirst.pending hanswer (by rw [hfuture])]
          simpa [settled, hle] using htimer
      | false => simpa [settled, hle] using PollsSecond.ready hanswer _ htimer
  obtain ⟨s', answer⟩ := answer
  subst hleave
  rfl

end Polls

/-! ## Whole runs -/

/-- Nothing was ready before poll `n`. -/
def Quiet (io : AsyncIo) (duration : Duration) (pendings : ℕ) (wakes : ℕ → Wake) (n : ℕ) : Prop :=
  ∀ m < n, ¬ FindsReady io duration pendings wakes m

/-- The polls end in the first one that finds something ready; `first` are the coins. -/
def SettlesFirst {σ ε T : Type} (io : AsyncIo) (duration : Duration) (pendings : ℕ)
    (wakes : ℕ → Wake) (err : ε) (value : T) (first : ℕ → Bool)
    (polls : ℕ → Flow σ (Except ε T)) : Prop :=
  ∀ n, (Quiet io duration pendings wakes n ∧ ∃ s, polls n = Flow.again s) ∨
    ∃ m < n, Quiet io duration pendings wakes m ∧ FindsReady io duration pendings wakes m ∧
      polls n = Flow.leave (settled io duration pendings wakes err value (first m) m)

section Runs

variable (io : AsyncIo) (lite : FuturesLite) {T : Type} (duration : Duration) (pendings : ℕ)
variable (wakes : ℕ → Wake)

/-- Whichever the combinator, as long as it is a race with some coin. -/
lemma settlesFirst_loopAt {ε : Type} (err : ε) (value : T) (first : Wake → Bool)
    {body : ℕ × Option (Sleeper io) → Wake → Flow (ℕ × Option (Sleeper io)) (Except ε T)}
    (hbody : ∀ s wake, ∃ answer, body s wake = toFlow answer ∧
      PollsInOrder (first wake) (futurePoll value) (timerBlock err duration wake) s answer) :
    SettlesFirst io duration pendings wakes err value (fun n => first (wakes n))
      (loopAt body wakes (pendings, none)) := by
  have hend : ∀ n s, AtPoll duration pendings wakes n s → FindsReady io duration pendings wakes n →
      body s (wakes n)
        = Flow.leave (settled io duration pendings wakes err value (first (wakes n)) n) := by
    intro n s h hready
    obtain ⟨answer, hanswer, horder⟩ := hbody s (wakes n)
    rw [hanswer]
    exact h.race_end err value hready horder
  intro n
  refine (loopAt_first atPoll_start ?_ hend n).imp_left fun ⟨hquiet, s, hs, _⟩ => ⟨hquiet, s, hs⟩
  intro n s h hnot
  obtain ⟨answer, hanswer, horder⟩ := hbody s (wakes n)
  rw [hanswer]
  exact h.race_go err value hnot horder

lemma settlesFirst_futureTimeout (debug : Duration → String) (value : T) :
    SettlesFirst io duration pendings wakes (timedOut debug duration) value
      (fun n => (wakes n).first) (futureTimeout io lite debug duration value pendings wakes) :=
  settlesFirst_loopAt io duration pendings wakes _ value Wake.first fun _ _ =>
    ⟨_, rfl, lite.racePoll_inOrder _ _ _ _⟩

/-- `or` is `race` with a coin that always says the first. -/
lemma settlesFirst_retryTimeout (value : T) :
    SettlesFirst io duration pendings wakes TimeoutError.timeoutError value (fun _ => true)
      (retryTimeout io lite duration value pendings wakes) :=
  settlesFirst_loopAt io duration pendings wakes _ value (fun _ => true) fun _ _ =>
    ⟨_, rfl, lite.orPoll_first _ _ _⟩

variable {io} {duration} {pendings} {wakes}

/-- There is at most one first poll that finds something ready. -/
lemma first_unique {m n : ℕ} (hm : Quiet io duration pendings wakes m)
    (hm' : FindsReady io duration pendings wakes m) (hn : Quiet io duration pendings wakes n)
    (hn' : FindsReady io duration pendings wakes n) : m = n := by
  rcases Nat.lt_trichotomy m n with hlt | heq | hgt
  · exact absurd hm' (hn m hlt)
  · exact heq
  · exact absurd hn' (hm n hgt)

section Settles

variable {σ ε : Type} {err : ε} {value : T} {first : ℕ → Bool} {polls : ℕ → Flow σ (Except ε T)}

lemma SettlesFirst.completesAt
    (h : SettlesFirst io duration pendings wakes err value first polls) {n : ℕ} {r : Except ε T}
    (hcompletes : CompletesAt polls n r) :
    Quiet io duration pendings wakes n ∧ FindsReady io duration pendings wakes n ∧
      r = settled io duration pendings wakes err value (first n) n := by
  obtain ⟨⟨s, hagain⟩, hleave⟩ := hcompletes
  have hquiet : Quiet io duration pendings wakes n := by
    rcases h n with ⟨hquiet, -⟩ | ⟨m, -, -, -, hleave'⟩
    · exact hquiet
    · rw [hagain] at hleave'
      exact absurd hleave' (by simp)
  rcases h (n + 1) with ⟨-, s', hagain'⟩ | ⟨m, hm, hquiet', hready, hleave'⟩
  · rw [hleave] at hagain'
    exact absurd hagain' (by simp)
  · have hmn : m = n := by
      rcases Nat.lt_succ_iff_lt_or_eq.mp hm with hlt | heq
      · exact absurd hready (hquiet m hlt)
      · exact heq
    subst hmn
    exact ⟨hquiet, hready, Flow.leave.inj (hleave.symm.trans hleave')⟩

lemma SettlesFirst.completes
    (h : SettlesFirst io duration pendings wakes err value first polls) {n : ℕ}
    (hquiet : Quiet io duration pendings wakes n)
    (hready : FindsReady io duration pendings wakes n) :
    CompletesAt polls n (settled io duration pendings wakes err value (first n) n) := by
  refine ⟨?_, ?_⟩
  · rcases h n with ⟨-, hagain⟩ | ⟨m, hm, -, hready', -⟩
    · exact hagain
    · exact absurd hready' (hquiet m hm)
  · rcases h (n + 1) with ⟨hquiet', -⟩ | ⟨m, -, hquiet', hready', hleave⟩
    · exact absurd hready (hquiet' n (Nat.lt_succ_self n))
    · rw [hleave, first_unique hquiet' hready' hquiet hready]

/-- A result that is there is kept, unless the coin polls the timer first. -/
lemma SettlesFirst.keeps (h : SettlesFirst io duration pendings wakes err value first polls)
    (hcoin : ∀ n, Quiet io duration pendings wakes n → pendings ≤ n → Fired io duration wakes n →
      first n = true) {n : ℕ} {r : Except ε T} (hcompletes : CompletesAt polls n r)
    (hle : pendings ≤ n) : r = Except.ok value := by
  obtain ⟨hquiet, -, rfl⟩ := h.completesAt hcompletes
  refine if_pos ⟨hle, ?_⟩
  by_cases hfired : Fired io duration wakes n
  · exact Or.inl (hcoin n hquiet hle hfired)
  · exact Or.inr hfired

lemma SettlesFirst.expires (h : SettlesFirst io duration pendings wakes err value first polls)
    (hcoin : ∀ n, Quiet io duration pendings wakes n → pendings ≤ n → Fired io duration wakes n →
      first n = true) {n : ℕ} {e : ε} (hcompletes : CompletesAt polls n (Except.error e)) :
    Fired io duration wakes n ∧ n < pendings := by
  obtain ⟨-, hready, -⟩ := h.completesAt hcompletes
  have hlt : ¬ pendings ≤ n := by
    intro hle
    exact absurd (h.keeps hcoin hcompletes hle) (by simp)
  exact ⟨hready.resolve_left hlt, Nat.lt_of_not_le hlt⟩

end Settles

/-- Two settlements with the same result but for the error have the same verdict. -/
lemma verdict_settled {σ σ' ε ε' : Type} (err : ε) (err' : ε') (value : T) {first first' : Bool}
    {n : ℕ} (hsame : pendings ≤ n → Fired io duration wakes n → first = first') :
    verdict (Flow.leave (settled io duration pendings wakes err value first n) : Flow σ _)
      = verdict
        (Flow.leave (settled io duration pendings wakes err' value first' n) : Flow σ' _) := by
  unfold settled
  by_cases hle : pendings ≤ n
  · by_cases hfired : Fired io duration wakes n
    · rw [hsame hle hfired]
      cases first' <;> simp [hle, hfired, verdict]
    · simp [hle, hfired, verdict]
  · simp [hle, verdict]

end Runs

/-- **Exactly when the two timeouts agree and lose nothing.** -/
theorem timeouts_agree_iff (io : AsyncIo) (lite : FuturesLite) {T : Type}
    (debug : Duration → String) (duration : Duration) (value : T) (pendings : ℕ)
    (wakes : ℕ → Wake) :
    TimeoutsAgree io lite debug duration value pendings wakes ↔
      ¬ LostTie io duration pendings wakes := by
  have hfuture := settlesFirst_futureTimeout io lite duration pendings wakes debug value
  have hretry := settlesFirst_retryTimeout io lite duration pendings wakes value
  constructor
  · rintro hagree ⟨n, hquiet, hle, hfired, hcoin⟩
    have hcompletes := hfuture.completes hquiet (Or.inl hle)
    have hkeeps := hagree.futureKeeps n _ hcompletes hle
    simp [settled, hcoin, hfired] at hkeeps
  · intro hnotie
    have hcoin : ∀ n, Quiet io duration pendings wakes n → pendings ≤ n →
        Fired io duration wakes n → (wakes n).first = true := by
      intro n hquiet hle hfired
      by_contra hfalse
      exact hnotie ⟨n, hquiet, hle, hfired, by simpa using hfalse⟩
    refine ⟨?_, ?_, ?_, ?_, ?_⟩
    · intro n r hcompletes hle
      exact hfuture.keeps hcoin hcompletes hle
    · intro n r hcompletes hle
      exact hretry.keeps (fun _ _ _ _ => rfl) hcompletes hle
    · intro n e hcompletes
      exact hfuture.expires hcoin hcompletes
    · intro n e hcompletes
      exact hretry.expires (fun _ _ _ _ => rfl) hcompletes
    · intro n
      rcases hfuture n with ⟨hquiet, s, hs⟩ | ⟨m, hm, hquiet, hready, hs⟩
      · rcases hretry n with ⟨-, s', hs'⟩ | ⟨m, hm, -, hready, -⟩
        · rw [hs, hs']
          rfl
        · exact absurd hready (hquiet m hm)
      · rcases hretry n with ⟨hquiet', -⟩ | ⟨m', -, hquiet', hready', hs'⟩
        · exact absurd hready (hquiet' m hm)
        · obtain rfl := first_unique hquiet hready hquiet' hready'
          rw [hs, hs']
          exact verdict_settled _ _ value fun hle hfired => hcoin m hquiet hle hfired

/-! ## Combinators and timers as documented -/

section Documented

variable {σ τ α : Type}

/-- The first future, or else the second. -/
def firstElse (poll₁ : σ → σ × Poll α) (poll₂ : τ → τ × Poll α) (s : σ × τ) : (σ × τ) × Poll α :=
  match poll₁ s.1 with
  | (s₁, Poll.ready a) => ((s₁, s.2), Poll.ready a)
  | (s₁, Poll.pending) => ((s₁, (poll₂ s.2).1), (poll₂ s.2).2)

/-- The second future, or else the first. -/
def secondElse (poll₁ : σ → σ × Poll α) (poll₂ : τ → τ × Poll α) (s : σ × τ) : (σ × τ) × Poll α :=
  match poll₂ s.2 with
  | (s₂, Poll.ready a) => ((s.1, s₂), Poll.ready a)
  | (s₂, Poll.pending) => (((poll₁ s.1).1, s₂), (poll₁ s.1).2)

lemma pollsFirst_firstElse (poll₁ : σ → σ × Poll α) (poll₂ : τ → τ × Poll α) (s : σ × τ) :
    PollsFirst poll₁ poll₂ s (firstElse poll₁ poll₂ s) := by
  unfold firstElse
  constructor
  · intro a ha
    rw [← Prod.mk.eta (p := poll₁ s.1), ha]
  · intro hpending
    rw [← Prod.mk.eta (p := poll₁ s.1), hpending]

lemma pollsSecond_secondElse (poll₁ : σ → σ × Poll α) (poll₂ : τ → τ × Poll α) (s : σ × τ) :
    PollsSecond poll₁ poll₂ s (secondElse poll₁ poll₂ s) := by
  unfold secondElse
  constructor
  · intro a ha
    rw [← Prod.mk.eta (p := poll₂ s.2), ha]
  · intro hpending
    rw [← Prod.mk.eta (p := poll₂ s.2), hpending]

end Documented

/-- Combinators that poll no more than they need. -/
def frugalLite : FuturesLite where
  orPoll := firstElse
  racePoll first := if first then firstElse else secondElse
  orPoll_first := pollsFirst_firstElse
  racePoll_inOrder first poll₁ poll₂ s := by
    cases first with
    | true => exact pollsFirst_firstElse poll₁ poll₂ s
    | false => exact pollsSecond_secondElse poll₁ poll₂ s

/-- Timers that fire at the first instant they may; an `Instant` counts seconds in an `i64`, and a
timer whose instant cannot be represented never fires. -/
def punctualIo : AsyncIo where
  Timer := Option ℕ
  after now duration :=
    if now + duration.toNanos < 2 ^ 63 * 10 ^ 9 then some (now + duration.toNanos) else none
  poll now timer := (timer, if timer.any (· ≤ now) then Poll.ready now else Poll.pending)
  deadline timer := timer
  le_deadline now duration instant h := by
    split at h
    · exact (Option.some.inj h).le
    · exact absurd h (by simp)
  isReady_poll now timer := by
    cases htimer : timer.any (· ≤ now) <;> simp [Poll.isReady]
  deadline_poll _ _ _ := rfl

/-- A delayed poll: the timer has fired and the future is ready, and the coin polls the timer
first.  One function returns the value, the other drops it. -/
theorem tie_lost :
    futureTimeout punctualIo frugalLite (fun _ => "1s") (Duration.fromSecs 1) 7 1
        (fun n => if n = 0 then ⟨0, 0, true⟩ else ⟨0, 2 * 10 ^ 9, false⟩) 2
      = Flow.leave (Except.error "Future timed out after 1s") ∧
    retryTimeout punctualIo frugalLite (Duration.fromSecs 1) 7 1
        (fun n => if n = 0 then ⟨0, 0, true⟩ else ⟨0, 2 * 10 ^ 9, false⟩) 2
      = Flow.leave (Except.ok 7) ∧
    ¬ TimeoutsAgree punctualIo frugalLite (fun _ => "1s") (Duration.fromSecs 1) 7 1
        (fun n => if n = 0 then ⟨0, 0, true⟩ else ⟨0, 2 * 10 ^ 9, false⟩) := by
  refine ⟨rfl, rfl, ?_⟩
  intro hagree
  have hsame := hagree.same 2
  exact absurd hsame (by decide)

end FutureAio
