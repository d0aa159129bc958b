import FutureAio.Lib.Runs

/-!
# `DoomsdayTimer`: a watchdog shared by clones

The timer's clones share a deadline behind an async mutex and a `defused` flag.  `main_loop` runs
in a task of its own; `reset` and `defuse` are called from anywhere.  Every `lock().await` takes
the lock for one read or one write, so the interleavings of interest are those of

* `main_loop`: load `defused`; read the clock; lock and read the deadline; compare; sleep — one
  value of `LoopPc` each;
* `reset`: compute `Instant::now() + duration`; lock and store it;
* `defuse`: store the flag.

A run is a list of such actions, with the clock moving between any two of them.

Both promises of the timer are about races, and both have a losing schedule.  `reset` computes
its deadline before it waits for the lock, so an old reset can overwrite a newer one; `main_loop`
looks at `defused` once per round, before it waits for the lock, so a defuse can come too late
for the round that is under way.  The two main theorems say exactly which schedules those are.
-/

namespace FutureAio.Doomsday

open Runs

/-- The fields no action changes, with the instant `spawn` read. -/
structure Config where
  duration : ℕ
  aggressiveMode : Bool
  spawnedAt : ℕ
  deriving DecidableEq, Repr

/-- Where `main_loop` stands; the arguments are its local variables. -/
inductive LoopPc where
  | loadDefused
  | readNow
  | readDeadline (now : ℕ)
  | compare (now timeToExplode : ℕ)
  | sleeping (wakeAt : ℕ)
  | exploded (now : ℕ)
  | returned
  deriving DecidableEq, Repr

/-- The shared state.  `inFlight` holds, for every `reset` between its two steps, the instant it
computed; `exited` is set once `std::process::exit` has been called.

`stored` and `seen` are a record kept for the statements below: the instants of the resets whose
store has happened, newest first, and what that list was when `main_loop` last read the
deadline. -/
structure State where
  now : ℕ
  timeToExplode : ℕ
  defused : Bool
  pc : LoopPc
  inFlight : List ℕ
  exited : Bool
  stored : List ℕ
  seen : List ℕ
  deriving DecidableEq, Repr

inductive Action where
  | tick (elapsed : ℕ)
  | mainLoop
  | resetCompute
  | resetStore (computedAt : ℕ)
  | defuse
  | explode
  deriving DecidableEq, Repr

/-- `DoomsdayTimer::spawn`. -/
def spawn (cfg : Config) : State where
  now := cfg.spawnedAt
  timeToExplode := cfg.spawnedAt + cfg.duration
  defused := false
  pc := LoopPc.loadDefused
  inFlight := []
  exited := false
  stored := []
  seen := []

/-- One step of `DoomsdayTimer::main_loop`.  `explode_inner` exits the process or panics, which
ends the loop's task. -/
def mainLoopStep (cfg : Config) (s : State) : Option State :=
  match s.pc with
  | LoopPc.loadDefused =>
      some { s with pc := if s.defused then LoopPc.returned else LoopPc.readNow }
  | LoopPc.readNow => some { s with pc := LoopPc.readDeadline s.now }
  | LoopPc.readDeadline now =>
      some { s with pc := LoopPc.compare now s.timeToExplode, seen := s.stored }
  | LoopPc.compare now timeToExplode =>
      if now > timeToExplode then
        some { s with pc := LoopPc.exploded now, exited := cfg.aggressiveMode }
      else some { s with pc := LoopPc.sleeping (s.now + (timeToExplode - now)) }
  | LoopPc.sleeping wakeAt =>
      if wakeAt ≤ s.now then some { s with pc := LoopPc.loadDefused } else none
  | LoopPc.exploded _ => none
  | LoopPc.returned => none

/-- One step of the whole system.  A reset can only store what it has computed, and nothing
happens any more in a process that has exited. -/
def step (cfg : Config) (s : State) (a : Action) : Option State :=
  if s.exited then none
  else
    match a with
    | Action.tick elapsed => some { s with now := s.now + elapsed }
    | Action.mainLoop => mainLoopStep cfg s
    | Action.resetCompute => some { s with inFlight := s.now :: s.inFlight }
    | Action.resetStore computedAt =>
        if computedAt ∈ s.inFlight then
          some { s with
            timeToExplode := computedAt + cfg.duration
            inFlight := s.inFlight.erase computedAt
            stored := computedAt :: s.stored }
        else none
    | Action.defuse => some { s with defused := true }
    | Action.explode => some { s with exited := cfg.aggressiveMode }

/-! ## What a step can do -/

lemma step_cases {cfg : Config} {s s' : State} {a : Action} (h : step cfg s a = some s') :
    s.exited = false ∧
    ((∃ dt, a = Action.tick dt ∧ s' = { s with now := s.now + dt }) ∨
      (a = Action.mainLoop ∧ mainLoopStep cfg s = some s') ∨
      (a = Action.resetCompute ∧ s' = { s with inFlight := s.now :: s.inFlight }) ∨
      (∃ t, a = Action.resetStore t ∧ t ∈ s.inFlight ∧
        s' = { s with
          timeToExplode := t + cfg.duration
          inFlight := s.inFlight.erase t
          stored := t :: s.stored }) ∨
      (a = Action.defuse ∧ s' = { s with defused := true }) ∨
      (a = Action.explode ∧ s' = { s with exited := cfg.aggressiveMode })) := by
  unfold step at h
  split_ifs at h with hexit
  refine ⟨by simpa using hexit, ?_⟩
  cases a with
  | tick dt => exact Or.inl ⟨dt, rfl, (Option.some.inj h).symm⟩
  | mainLoop => exact Or.inr (Or.inl ⟨rfl, h⟩)
  | resetCompute => exact Or.inr (Or.inr (Or.inl ⟨rfl, (Option.some.inj h).symm⟩))
  | resetStore t =>
      simp only at h
      split_ifs at h with hmem
      exact Or.inr (Or.inr (Or.inr (Or.inl ⟨t, rfl, hmem, (Option.some.inj h).symm⟩)))
  | defuse => exact Or.inr (Or.inr (Or.inr (Or.inr (Or.inl ⟨rfl, (Option.some.inj h).symm⟩))))
  | explode => exact Or.inr (Or.inr (Or.inr (Or.inr (Or.inr ⟨rfl, (Option.some.inj h).symm⟩))))

/-- A reset in flight can store. -/
lemma step_resetStore {cfg : Config} {s : State} {t : ℕ} (hlive : s.exited = false)
    (ht : t ∈ s.inFlight) :
    step cfg s (Action.resetStore t) = some { s with
      timeToExplode := t + cfg.duration
      inFlight := s.inFlight.erase t
      stored := t :: s.stored } := by
  simp [step, hlive, ht]

lemma mainLoopStep_cases {cfg : Config} {s s' : State} (h : mainLoopStep cfg s = some s') :
    (s.pc = LoopPc.loadDefused ∧ s.defused = true ∧ s' = { s with pc := LoopPc.returned }) ∨
    (s.pc = LoopPc.loadDefused ∧ s.defused = false ∧ s' = { s with pc := LoopPc.readNow }) ∨
    (s.pc = LoopPc.readNow ∧ s' = { s with pc := LoopPc.readDeadline s.now }) ∨
    (∃ now, s.pc = LoopPc.readDeadline now ∧
      s' = { s with pc := LoopPc.compare now s.timeToExplode, seen := s.stored }) ∨
    (∃ now tte, s.pc = LoopPc.compare now tte ∧ tte < now ∧
      s' = { s with pc := LoopPc.exploded now, exited := cfg.aggressiveMode }) ∨
    (∃ now tte, s.pc = LoopPc.compare now tte ∧ now ≤ tte ∧
      s' = { s with pc := LoopPc.sleeping (s.now + (tte - now)) }) ∨
    (∃ wakeAt, s.pc = LoopPc.sleeping wakeAt ∧ wakeAt ≤ s.now ∧
      s' = { s with pc := LoopPc.loadDefused }) := by
  unfold mainLoopStep at h
  cases hpc : s.pc with
  | loadDefused =>
      simp only [hpc, Option.some.injEq] at h
      cases hd : s.defused with
      | true => exact Or.inl ⟨rfl, rfl, by simp [← h, hd]⟩
      | false => exact Or.inr (Or.inl ⟨rfl, rfl, by simp [← h, hd]⟩)
  | readNow =>
      simp only [hpc, Option.some.injEq] at h
      exact Or.inr (Or.inr (Or.inl ⟨rfl, h.symm⟩))
  | readDeadline now =>
      simp only [hpc, Option.some.injEq] at h
      exact Or.inr (Or.inr (Or.inr (Or.inl ⟨now, rfl, h.symm⟩)))
  | compare now tte =>
      simp only [hpc] at h
      split_ifs at h with hlate
      · exact Or.inr (Or.inr (Or.inr (Or.inr (Or.inl
          ⟨now, tte, rfl, hlate, (Option.some.inj h).symm⟩))))
      · exact Or.inr (Or.inr (Or.inr (Or.inr (Or.inr (Or.inl
          ⟨now, tte, rfl, by omega, (Option.some.inj h).symm⟩)))))
  | sleeping wakeAt =>
      simp only [hpc] at h
      split_ifs at h with hwake
      exact Or.inr (Or.inr (Or.inr (Or.inr (Or.inr (Or.inr
        ⟨wakeAt, rfl, hwake, (Option.some.inj h).symm⟩)))))
  | exploded now =>
      simp only [hpc] at h
      exact absurd h (by simp)
  | returned =>
      simp only [hpc] at h
      exact absurd h (by simp)

/-! ## Resets that store in the order they computed

The condition is on a single step and the state it is taken in: a reset may store only if no
reset that read a later clock has stored before it.
-/

def StoresInOrder (s : State) : Action → Prop
  | Action.resetStore computedAt =>
      s.exited = false → computedAt ∈ s.inFlight → ∀ t ∈ s.stored, t ≤ computedAt
  | _ => True

def NeverBackwards (cfg : Config) (s : State) (a : Action) : Prop :=
  ∀ s', step cfg s a = some s' → s.timeToExplode ≤ s'.timeToExplode

/-- What runs with ordered stores keep: the deadline is the latest one any completed reset asked
for, and so is the one `main_loop` compares with. -/
structure OrderInv (cfg : Config) (s : State) : Prop where
  clock : cfg.spawnedAt ≤ s.now
  inFlight : ∀ t ∈ s.inFlight, cfg.spawnedAt ≤ t
  spawned : cfg.spawnedAt + cfg.duration ≤ s.timeToExplode
  stored : ∀ t ∈ s.stored, t + cfg.duration ≤ s.timeToExplode
  latest : (s.stored = [] ∧ s.timeToExplode = cfg.spawnedAt + cfg.duration) ∨
    ∃ t ∈ s.stored, s.timeToExplode = t + cfg.duration
  read : ∀ now tte, s.pc = LoopPc.compare now tte →
    cfg.spawnedAt + cfg.duration ≤ tte ∧ ∀ t ∈ s.seen, t + cfg.duration ≤ tte
  exploded : ∀ now, s.pc = LoopPc.exploded now →
    cfg.spawnedAt + cfg.duration < now ∧ ∀ t ∈ s.seen, t + cfg.duration < now

lemma orderInv_spawn (cfg : Config) : OrderInv cfg (spawn cfg) := by
  refine ⟨?_, ?_, ?_, ?_, ?_, ?_, ?_⟩ <;> simp [spawn]

lemma orderInv_mainLoop {cfg : Config} {s s' : State} (inv : OrderInv cfg s)
    (h : mainLoopStep cfg s = some s') : OrderInv cfg s' := by
  obtain ⟨hclock, hfl, hspawn, hstored, hlatest, hread, -⟩ := inv
  rcases mainLoopStep_cases h with ⟨hpc, -, rfl⟩ | ⟨hpc, -, rfl⟩ | ⟨hpc, rfl⟩ | ⟨now, hpc, rfl⟩ |
    ⟨now, tte, hpc, hlate, rfl⟩ | ⟨now, tte, hpc, -, rfl⟩ | ⟨wakeAt, hpc, -, rfl⟩
  · exact ⟨hclock, hfl, hspawn, hstored, hlatest, by simp, by simp⟩
  · exact ⟨hclock, hfl, hspawn, hstored, hlatest, by simp, by simp⟩
  · exact ⟨hclock, hfl, hspawn, hstored, hlatest, by simp, by simp⟩
  · refine ⟨hclock, hfl, hspawn, hstored, hlatest, ?_, by simp⟩
    intro now' tte hcmp
    simp only [LoopPc.compare.injEq] at hcmp
    rw [← hcmp.2]
    exact ⟨hspawn, hstored⟩
  · refine ⟨hclock, hfl, hspawn, hstored, hlatest, by simp, ?_⟩
    intro now' hexp
    simp only [LoopPc.exploded.injEq] at hexp
    obtain ⟨hs, hseen⟩ := hread now tte hpc
    rw [← hexp]
    refine ⟨by omega, ?_⟩
    intro t ht
    have := hseen t ht
    omega
  · exact ⟨hclock, hfl, hspawn, hstored, hlatest, by simp, by simp⟩
  · exact ⟨hclock, hfl, hspawn, hstored, hlatest, by simp, by simp⟩

lemma orderInv_step {cfg : Config} {s s' : State} {a : Action} (inv : OrderInv cfg s)
    (horder : StoresInOrder s a) (h : step cfg s a = some s') : OrderInv cfg s' := by
  obtain ⟨hlive, hcases⟩ := step_cases h
  rcases hcases with ⟨dt, rfl, rfl⟩ | ⟨rfl, hloop⟩ | ⟨rfl, rfl⟩ | ⟨t, rfl, ht, rfl⟩ |
    ⟨rfl, rfl⟩ | ⟨rfl, rfl⟩
  · have hclock := inv.clock
    exact { inv with clock := by show cfg.spawnedAt ≤ s.now + dt; omega }
  · exact orderInv_mainLoop inv hloop
  · refine { inv with inFlight := ?_ }
    intro t ht
    rcases List.mem_cons.mp ht with rfl | ht
    · exact inv.clock
    · exact inv.inFlight t ht
  · -- the store: ordered, so the new deadline is the largest so far
    have hstart := inv.inFlight t ht
    refine { inv with inFlight := ?_, spawned := ?_, stored := ?_, latest := ?_ }
    · intro t' ht'
      exact inv.inFlight t' (List.mem_of_mem_erase ht')
    · show cfg.spawnedAt + cfg.duration ≤ t + cfg.duration
      omega
    · intro t' ht'
      show t' + cfg.duration ≤ t + cfg.duration
      rcases List.mem_cons.mp ht' with rfl | ht'
      · exact Nat.le_refl _
      · have := horder hlive ht t' ht'
        omega
    · exact Or.inr ⟨t, List.mem_cons_self, rfl⟩
  · exact { inv with }
  · exact { inv with }

/-- In such a state, "stores in order" and "does not move the deadline backwards" are the same
condition on the next action. -/
lemma storesInOrder_iff {cfg : Config} (s : State) (a : Action) (inv : OrderInv cfg s) :
    StoresInOrder s a ↔ NeverBackwards cfg s a := by
  constructor
  · intro horder s' h
    obtain ⟨hlive, hcases⟩ := step_cases h
    rcases hcases with ⟨dt, rfl, rfl⟩ | ⟨rfl, hloop⟩ | ⟨rfl, rfl⟩ | ⟨t, rfl, ht, rfl⟩ |
      ⟨rfl, rfl⟩ | ⟨rfl, rfl⟩
    · exact Nat.le_refl _
    · rcases mainLoopStep_cases hloop with ⟨-, -, rfl⟩ | ⟨-, -, rfl⟩ | ⟨-, rfl⟩ | ⟨now, -, rfl⟩ |
        ⟨now, tte, -, -, rfl⟩ | ⟨now, tte, -, -, rfl⟩ | ⟨wakeAt, -, -, rfl⟩ <;> exact Nat.le_refl _
    · exact Nat.le_refl _
    · show s.timeToExplode ≤ t + cfg.duration
      rcases inv.latest with ⟨-, htte⟩ | ⟨t', ht', htte⟩
      · have := inv.inFlight t ht
        omega
      · have := horder hlive ht t' ht'
        omega
    · exact Nat.le_refl _
    · exact Nat.le_refl _
  · intro hnever
    cases a with
    | resetStore t =>
        intro hlive ht t' ht'
        have hle : s.timeToExplode ≤ t + cfg.duration := hnever _ (step_resetStore hlive ht)
        have hstored := inv.stored t' ht'
        omega
    | tick dt => trivial
    | mainLoop => trivial
    | resetCompute => trivial
    | defuse => trivial
    | explode => trivial

/-- **A completed reset buys the full duration, in every run whose resets store in the order they
computed.**  If `main_loop` reached `explode_inner` having read the clock at `now`, every reset
stored before it read the deadline had computed its instant more than `duration` before `now`,
and so had `spawn`.  The condition is also necessary for its reformulation: it is the same as
never moving the deadline backwards. -/
theorem reset_buys_full_duration (cfg : Config) (as : List Action) (s : State)
    (hrun : run (step cfg) (spawn cfg) as = some s) :
    (Along (step cfg) StoresInOrder (spawn cfg) as ↔
      Along (step cfg) (NeverBackwards cfg) (spawn cfg) as) ∧
    (Along (step cfg) StoresInOrder (spawn cfg) as →
      ∀ now, s.pc = LoopPc.exploded now →
        cfg.spawnedAt + cfg.duration < now ∧ ∀ t ∈ s.seen, t + cfg.duration < now) := by
  have hkeep : ∀ s a s', OrderInv cfg s → StoresInOrder s a → step cfg s a = some s' →
      OrderInv cfg s' := fun s a s' inv horder h => orderInv_step inv horder h
  refine ⟨along_congr storesInOrder_iff hkeep as (orderInv_spawn cfg), ?_⟩
  intro halong now hexp
  have inv := run_invariant_along hkeep as (orderInv_spawn cfg) halong hrun
  exact inv.exploded now hexp

/-- One reset at `3`, and an explosion `11` later. -/
def ordinaryRun : List Action :=
  [Action.tick 3, Action.resetCompute, Action.resetStore 3, Action.tick 11,
    Action.mainLoop, Action.mainLoop, Action.mainLoop, Action.mainLoop]

theorem reset_buys_full_duration_once :
    run (step ⟨10, false, 0⟩) (spawn ⟨10, false, 0⟩) ordinaryRun
      = some ⟨14, 13, false, LoopPc.exploded 14, [], false, [3], [3]⟩ ∧
    0 + 10 < 14 ∧ ∀ t ∈ [3], t + 10 < 14 :=
  ⟨rfl, (reset_buys_full_duration ⟨10, false, 0⟩ ordinaryRun
    ⟨14, 13, false, LoopPc.exploded 14, [], false, [3], [3]⟩ rfl).2
    (by simp [ordinaryRun, Along, StoresInOrder, step, spawn]) 14 rfl⟩

/-- Two resets in flight at once: the second computes at `5` and stores, the first computed at
`0` and stores after it.  The loop wakes, reads the clock at `12` and explodes, `3` short of what
the second reset had bought. -/
theorem reset_overtaken :
    ∃ s, run (step ⟨10, false, 0⟩) (spawn ⟨10, false, 0⟩)
        [Action.mainLoop, Action.mainLoop, Action.mainLoop, Action.mainLoop,
          Action.resetCompute, Action.tick 5, Action.resetCompute, Action.resetStore 5,
          Action.resetStore 0, Action.tick 7,
          Action.mainLoop, Action.mainLoop, Action.mainLoop, Action.mainLoop, Action.mainLoop]
        = some s ∧
      s.pc = LoopPc.exploded 12 ∧ 5 ∈ s.seen ∧ ¬ 5 + 10 < 12 :=
  ⟨_, rfl, rfl, by decide, by decide⟩

/-! ## Defusing

`main_loop` commits to a round when it loads `false`; until it has compared, a defuse is not seen
any more.  Whether the round ends in an explosion then depends on the clock value it has read or
will read.
-/

/-- The states in which a defuse is in time. -/
def SafeToDefuse (cfg : Config) (s : State) : Prop :=
  match s.pc with
  | LoopPc.readNow => False
  | LoopPc.readDeadline now =>
      now ≤ s.timeToExplode ∧ ∀ t ∈ s.inFlight, now ≤ t + cfg.duration
  | LoopPc.compare now timeToExplode => now ≤ timeToExplode
  | _ => True

/-- With the loop where it was, only a deadline still to be read can make a state unsafe. -/
lemma safeToDefuse_of_readDeadline {cfg : Config} {s s' : State} (hpc : s'.pc = s.pc)
    (hsafe : SafeToDefuse cfg s)
    (hread : ∀ now, s.pc = LoopPc.readDeadline now →
      now ≤ s'.timeToExplode ∧ ∀ t ∈ s'.inFlight, now ≤ t + cfg.duration) :
    SafeToDefuse cfg s' := by
  unfold SafeToDefuse at hsafe ⊢
  rw [hpc]
  cases h : s.pc with
  | readDeadline now => exact hread now h
  | readNow => simp only [h] at hsafe
  | compare now tte => simpa only [h] using hsafe
  | loadDefused => trivial
  | sleeping wakeAt => trivial
  | exploded now => trivial
  | returned => trivial

/-- `main_loop` does not reach `explode_inner` on any continuation from `s`. -/
def NeverExplodes (cfg : Config) (s : State) : Prop :=
  ∀ as u now, run (step cfg) s as = some u → u.pc = LoopPc.exploded now →
    s.pc = LoopPc.exploded now

/-- A clock value held by `main_loop` is not ahead of the clock. -/
def ReadNotAhead (s : State) : Prop := ∀ now, s.pc = LoopPc.readDeadline now → now ≤ s.now

lemma readNotAhead_step {cfg : Config} (s : State) (a : Action) (s' : State)
    (hread : ReadNotAhead s) (h : step cfg s a = some s') : ReadNotAhead s' := by
  obtain ⟨-, hcases⟩ := step_cases h
  rcases hcases with ⟨dt, rfl, rfl⟩ | ⟨rfl, hloop⟩ | ⟨rfl, rfl⟩ | ⟨t, rfl, ht, rfl⟩ |
    ⟨rfl, rfl⟩ | ⟨rfl, rfl⟩
  · intro now hpc
    have hle := hread now hpc
    show now ≤ s.now + dt
    omega
  · rcases mainLoopStep_cases hloop with ⟨-, -, rfl⟩ | ⟨-, -, rfl⟩ | ⟨-, rfl⟩ | ⟨now, -, rfl⟩ |
      ⟨now, tte, -, -, rfl⟩ | ⟨now, tte, -, -, rfl⟩ | ⟨wakeAt, -, -, rfl⟩ <;>
      simp [ReadNotAhead]
  · exact hread
  · exact hread
  · exact hread
  · exact hread

/-- What a timely defuse leaves behind, and every later step keeps. -/
structure DefusedInv (cfg : Config) (s₀ s : State) : Prop where
  defused : s.defused = true
  safe : SafeToDefuse cfg s
  read : ReadNotAhead s
  exploded : ∀ now, s.pc = LoopPc.exploded now → s₀.pc = LoopPc.exploded now

lemma defusedInv_step {cfg : Config} {s₀ : State} (s : State) (a : Action) (s' : State)
    (inv : DefusedInv cfg s₀ s) (h : step cfg s a = some s') : DefusedInv cfg s₀ s' := by
  have hread' := readNotAhead_step s a s' inv.read h
  obtain ⟨hdef, hsafe, hread, hexp⟩ := inv
  obtain ⟨-, hcases⟩ := step_cases h
  rcases hcases with ⟨dt, rfl, rfl⟩ | ⟨rfl, hloop⟩ | ⟨rfl, rfl⟩ | ⟨t, rfl, ht, rfl⟩ |
    ⟨rfl, rfl⟩ | ⟨rfl, rfl⟩
  · exact ⟨hdef, hsafe, hread', hexp⟩
  · rcases mainLoopStep_cases hloop with ⟨hpc, -, rfl⟩ | ⟨hpc, hfalse, rfl⟩ | ⟨hpc, rfl⟩ |
      ⟨now, hpc, rfl⟩ | ⟨now, tte, hpc, hlate, rfl⟩ | ⟨now, tte, hpc, -, rfl⟩ |
      ⟨wakeAt, hpc, -, rfl⟩
    · exact ⟨hdef, trivial, hread', by simp⟩
    · rw [hdef] at hfalse
      exact absurd hfalse (by simp)
    · simp only [SafeToDefuse, hpc] at hsafe
    · simp only [SafeToDefuse, hpc] at hsafe
      exact ⟨hdef, hsafe.1, hread', by simp⟩
    · simp only [SafeToDefuse, hpc] at hsafe
      omega
    · exact ⟨hdef, trivial, hread', by simp⟩
    · exact ⟨hdef, trivial, hread', by simp⟩
  · refine ⟨hdef, ?_, hread', hexp⟩
    -- a reset computed from now on cannot ask for a deadline before the clock value read
    refine safeToDefuse_of_readDeadline (s := s) rfl hsafe ?_
    intro now hpc
    have hnow := hread now hpc
    simp only [SafeToDefuse, hpc] at hsafe
    refine ⟨hsafe.1, ?_⟩
    intro t ht
    rcases List.mem_cons.mp ht with rfl | ht
    · omega
    · exact hsafe.2 t ht
  · refine ⟨hdef, safeToDefuse_of_readDeadline (s := s) rfl hsafe ?_, hread', hexp⟩
    intro now hpc
    simp only [SafeToDefuse, hpc] at hsafe
    exact ⟨hsafe.2 t ht, fun t' ht' => hsafe.2 t' (List.mem_of_mem_erase ht')⟩
  · exact ⟨rfl, hsafe, hread', hexp⟩
  · exact ⟨hdef, hsafe, hread', hexp⟩

/-! ### A late defuse loses to some continuation -/

/-- Some continuation from `s` reaches `explode_inner`. -/
def Doomed (cfg : Config) (s : State) : Prop :=
  ∃ as u now, run (step cfg) s as = some u ∧ u.pc = LoopPc.exploded now

lemma doomed_of_step {cfg : Config} {s t : State} {a : Action} (h : step cfg s a = some t)
    (ht : Doomed cfg t) : Doomed cfg s := by
  obtain ⟨as, u, now, hrun, hpc⟩ := ht
  exact ⟨a :: as, u, now, by rw [run_cons_of_step as h, hrun], hpc⟩

lemma doomed_compare {cfg : Config} {s : State} {now tte : ℕ} (hlive : s.exited = false)
    (hpc : s.pc = LoopPc.compare now tte) (hlate : tte < now) : Doomed cfg s := by
  have hstep : step cfg s Action.mainLoop
      = some { s with pc := LoopPc.exploded now, exited := cfg.aggressiveMode } := by
    simp [step, mainLoopStep, hlive, hpc, hlate]
  exact doomed_of_step hstep ⟨[], _, now, rfl, rfl⟩

lemma doomed_readDeadline {cfg : Config} {s : State} {now : ℕ} (hlive : s.exited = false)
    (hpc : s.pc = LoopPc.readDeadline now) (hlate : s.timeToExplode < now) : Doomed cfg s := by
  have hstep : step cfg s Action.mainLoop
      = some { s with pc := LoopPc.compare now s.timeToExplode, seen := s.stored } := by
    simp [step, mainLoopStep, hlive, hpc]
  exact doomed_of_step hstep (doomed_compare hlive rfl hlate)

lemma doomed_of_inFlight {cfg : Config} {s : State} {now t : ℕ} (hlive : s.exited = false)
    (hpc : s.pc = LoopPc.readDeadline now) (ht : t ∈ s.inFlight)
    (hlate : t + cfg.duration < now) : Doomed cfg s :=
  doomed_of_step (step_resetStore hlive ht) (doomed_readDeadline hlive hpc hlate)

lemma doomed_readNow {cfg : Config} {s : State} (hlive : s.exited = false)
    (hpc : s.pc = LoopPc.readNow) : Doomed cfg s := by
  -- let the clock run past the deadline before the loop reads it
  have htick : step cfg s (Action.tick (s.timeToExplode + 1))
      = some { s with now := s.now + (s.timeToExplode + 1) } := by
    simp [step, hlive]
  have hstep : step cfg { s with now := s.now + (s.timeToExplode + 1) } Action.mainLoop
      = some { s with
          now := s.now + (s.timeToExplode + 1)
          pc := LoopPc.readDeadline (s.now + (s.timeToExplode + 1)) } := by
    simp [step, mainLoopStep, hlive, hpc]
  refine doomed_of_step htick (doomed_of_step hstep (doomed_readDeadline hlive rfl ?_))
  show s.timeToExplode < s.now + (s.timeToExplode + 1)
  omega

lemma doomed_of_exposed {cfg : Config} {s : State} (hlive : s.exited = false)
    (hexposed : ¬ SafeToDefuse cfg s) : Doomed cfg s ∧ ∀ now, s.pc ≠ LoopPc.exploded now := by
  cases hpc : s.pc with
  | readNow => exact ⟨doomed_readNow hlive hpc, by simp⟩
  | readDeadline now =>
      refine ⟨?_, by simp⟩
      simp only [SafeToDefuse, hpc] at hexposed
      by_cases htte : now ≤ s.timeToExplode
      · obtain ⟨t, ht⟩ := not_forall.mp fun h => hexposed ⟨htte, h⟩
        obtain ⟨hmem, hlate⟩ := Classical.not_imp.mp ht
        exact doomed_of_inFlight hlive hpc hmem (by omega)
      · exact doomed_readDeadline hlive hpc (by omega)
  | compare now tte =>
      simp only [SafeToDefuse, hpc] at hexposed
      exact ⟨doomed_compare hlive hpc (by omega), by simp⟩
  | loadDefused => exact absurd (by simp only [SafeToDefuse, hpc]) hexposed
  | sleeping wakeAt => exact absurd (by simp only [SafeToDefuse, hpc]) hexposed
  | exploded now => exact absurd (by simp only [SafeToDefuse, hpc]) hexposed
  | returned => exact absurd (by simp only [SafeToDefuse, hpc]) hexposed

/-- **Exactly when a defuse is final.**  After any run, a `defuse` taken in the state `s` keeps
`main_loop` from `explode_inner` on every continuation if and only if `s` is safe: the loop is
not between its load of `false` and its comparison, or the comparison can no longer come out
against it. -/
theorem defuse_final_iff (cfg : Config) (as : List Action) (s s' : State)
    (hrun : run (step cfg) (spawn cfg) as = some s)
    (hdefuse : step cfg s Action.defuse = some s') :
    NeverExplodes cfg s' ↔ SafeToDefuse cfg s := by
  have hread : ReadNotAhead s :=
    run_invariant readNotAhead_step as (by simp [ReadNotAhead, spawn]) hrun
  have hlive : s.exited = false := (step_cases hdefuse).1
  obtain rfl : s' = { s with defused := true } := by
    simpa [step, hlive] using hdefuse.symm
  constructor
  · intro hnever
    by_contra hexposed
    have hexposed' : ¬ SafeToDefuse cfg { s with defused := true } := hexposed
    obtain ⟨⟨bs, u, now, hbs, hpc⟩, hnot⟩ :=
      doomed_of_exposed (s := { s with defused := true }) hlive hexposed'
    exact hnot now (hnever bs u now hbs hpc)
  · intro hsafe bs u now hbs hpc
    have inv : DefusedInv cfg { s with defused := true } { s with defused := true } :=
      ⟨rfl, hsafe, hread, fun _ h => h⟩
    exact (run_invariant defusedInv_step bs inv hbs).exploded now hpc

/-- A defuse while the loop sleeps is in time. -/
theorem defuse_final_sleeping :
    SafeToDefuse ⟨10, false, 0⟩
      ⟨0, 10, false, LoopPc.sleeping 10, [], false, [], []⟩ ∧
    NeverExplodes ⟨10, false, 0⟩ ⟨0, 10, true, LoopPc.sleeping 10, [], false, [], []⟩ :=
  ⟨trivial, (defuse_final_iff ⟨10, false, 0⟩
    [Action.mainLoop, Action.mainLoop, Action.mainLoop, Action.mainLoop]
    ⟨0, 10, false, LoopPc.sleeping 10, [], false, [], []⟩
    ⟨0, 10, true, LoopPc.sleeping 10, [], false, [], []⟩ rfl rfl).mpr trivial⟩

/-- The loop loads `false`, the timer is defused, and the same round explodes. -/
theorem defuse_too_late :
    ∃ s u, run (step ⟨10, false, 0⟩) (spawn ⟨10, false, 0⟩)
        [Action.tick 11, Action.mainLoop, Action.defuse] = some s ∧ s.defused = true ∧
      s.pc = LoopPc.readNow ∧
      run (step ⟨10, false, 0⟩) s [Action.mainLoop, Action.mainLoop, Action.mainLoop] = some u ∧
      u.pc = LoopPc.exploded 11 :=
  ⟨_, _, rfl, rfl, rfl, rfl, rfl⟩

end FutureAio.Doomsday
