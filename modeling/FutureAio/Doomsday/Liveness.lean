import FutureAio.Doomsday

/-!
# What the doomsday timer must do

The races of `Doomsday` are about what must not happen.  This module is about what must: an
overdue timer explodes, a defused one ends its loop, and a loop sleeps through its deadline by no
more than it is held up.

A run may starve the loop for as long as it likes, so the first two are counted in steps of the
loop: `overdueRank` and `defusedRank` say how many are left, every `Action.mainLoop` brings the
rank down by one, and as long as it is not zero the loop either can make a step or is in a sleep
that has not run out yet.

The sleep is measured from the moment of the comparison, but for a length computed from the clock
value read before it.  The clock moving in between, while the loop waits for the lock, is the one
way in which it can sleep past the deadline it has read, and it does so by that much at most.
-/

namespace FutureAio.Doomsday

open Runs

/-- The loop's task has neither returned nor exploded. -/
def Running : LoopPc → Prop
  | LoopPc.returned => False
  | LoopPc.exploded _ => False
  | _ => True

/-- The loop sleeps, and its sleep has not run out. -/
def Asleep (s : State) : Prop := ∃ wakeAt, s.pc = LoopPc.sleeping wakeAt ∧ s.now < wakeAt

/-- A loop that has not ended and is not asleep can make its next step. -/
lemma mainLoop_or_asleep {cfg : Config} {s : State} (hlive : s.exited = false)
    (hrunning : Running s.pc) : (∃ s', step cfg s Action.mainLoop = some s') ∨ Asleep s := by
  cases hpc : s.pc with
  | loadDefused => simp [step, mainLoopStep, hlive, hpc]
  | readNow => simp [step, mainLoopStep, hlive, hpc]
  | readDeadline now => simp [step, mainLoopStep, hlive, hpc]
  | compare now tte =>
      left
      by_cases hlate : tte < now <;> simp [step, mainLoopStep, hlive, hpc, hlate]
  | sleeping wakeAt =>
      by_cases hwake : wakeAt ≤ s.now
      · simp [step, mainLoopStep, hlive, hpc, hwake]
      · exact Or.inr ⟨wakeAt, hpc, by omega⟩
  | exploded now => simp [hpc, Running] at hrunning
  | returned => simp [hpc, Running] at hrunning

/-! ## An overdue timer explodes -/

/-- The actions that leave deadline, flag and process as they are. -/
def LeavesAlone : Action → Prop
  | Action.tick _ => True
  | Action.mainLoop => True
  | Action.resetCompute => True
  | _ => False

/-- Steps until the explosion.  A round that has read an old clock value comes out in favour of
the timer once more, sleeps, and needs a second round. -/
def overdueRank (s : State) : ℕ :=
  match s.pc with
  | LoopPc.exploded _ => 0
  | LoopPc.returned => 0
  | LoopPc.readNow => 3
  | LoopPc.loadDefused => 4
  | LoopPc.sleeping _ => 5
  | LoopPc.compare now timeToExplode => if timeToExplode < now then 1 else 6
  | LoopPc.readDeadline now => if s.timeToExplode < now then 2 else 7

structure OverdueInv (cfg : Config) (s : State) : Prop where
  defused : s.defused = false
  due : s.timeToExplode < s.now
  running : Running s.pc ∧ s.exited = false ∨
    (∃ now, s.pc = LoopPc.exploded now) ∧ s.exited = cfg.aggressiveMode

lemma overdue_mainLoop {cfg : Config} {s s' : State} (inv : OverdueInv cfg s)
    (hlive : s.exited = false) (h : mainLoopStep cfg s = some s') :
    OverdueInv cfg s' ∧ overdueRank s' + 1 ≤ overdueRank s := by
  obtain ⟨hdef, hdue, -⟩ := inv
  rcases mainLoopStep_cases h with ⟨hpc, htrue, rfl⟩ | ⟨hpc, -, rfl⟩ | ⟨hpc, rfl⟩ |
    ⟨now, hpc, rfl⟩ | ⟨now, tte, hpc, hlate, rfl⟩ | ⟨now, tte, hpc, hearly, rfl⟩ |
    ⟨wakeAt, hpc, -, rfl⟩
  · rw [hdef] at htrue
    exact absurd htrue (by simp)
  · exact ⟨⟨hdef, hdue, Or.inl ⟨trivial, hlive⟩⟩, by simp [overdueRank, hpc]⟩
  · exact ⟨⟨hdef, hdue, Or.inl ⟨trivial, hlive⟩⟩, by simp [overdueRank, hpc, hdue]⟩
  · refine ⟨⟨hdef, hdue, Or.inl ⟨trivial, hlive⟩⟩, ?_⟩
    simp only [overdueRank, hpc]
    split_ifs <;> simp
  · exact ⟨⟨hdef, hdue, Or.inr ⟨⟨now, rfl⟩, rfl⟩⟩, by simp [overdueRank, hpc, hlate]⟩
  · have hnot : ¬ tte < now := by omega
    exact ⟨⟨hdef, hdue, Or.inl ⟨trivial, hlive⟩⟩, by simp [overdueRank, hpc, hnot]⟩
  · exact ⟨⟨hdef, hdue, Or.inl ⟨trivial, hlive⟩⟩, by simp [overdueRank, hpc]⟩

lemma overdue_step {cfg : Config} (s : State) (a : Action) (s' : State) (inv : OverdueInv cfg s)
    (halone : LeavesAlone a) (h : step cfg s a = some s') :
    OverdueInv cfg s' ∧ overdueRank s' + [a].count Action.mainLoop ≤ overdueRank s := by
  obtain ⟨hlive, hcases⟩ := step_cases h
  rcases hcases with ⟨dt, rfl, rfl⟩ | ⟨rfl, hloop⟩ | ⟨rfl, rfl⟩ | ⟨t, rfl, -, -⟩ |
    ⟨rfl, -⟩ | ⟨rfl, -⟩
  · refine ⟨⟨inv.defused, ?_, inv.running⟩, by simp [overdueRank]⟩
    have hdue := inv.due
    show s.timeToExplode < s.now + dt
    omega
  · simpa using overdue_mainLoop inv hlive hloop
  · exact ⟨⟨inv.defused, inv.due, inv.running⟩, by simp [overdueRank]⟩
  · exact absurd halone id
  · exact absurd halone id
  · exact absurd halone id

lemma overdueRank_le (s : State) : overdueRank s ≤ 7 := by
  unfold overdueRank
  split <;> first | omega | split_ifs <;> omega

lemma overdueRank_pos {s : State} (hrunning : Running s.pc) : 0 < overdueRank s := by
  unfold overdueRank
  cases hpc : s.pc with
  | exploded now => simp [hpc, Running] at hrunning
  | returned => simp [hpc, Running] at hrunning
  | compare now tte => simp only; split_ifs <;> omega
  | readDeadline now => simp only; split_ifs <;> omega
  | readNow => simp
  | loadDefused => simp
  | sleeping wakeAt => simp

/-- **An overdue timer explodes.**  From any state in which the clock has passed the deadline, and
whatever the other tasks do short of storing a new deadline, defusing, or exploding the timer
themselves: the loop makes at most six more steps before the one that explodes, and until then
nothing but a sleep that has not run out can keep it from its next step. -/
theorem overdue_timer_explodes (cfg : Config) (s : State) (hlive : s.exited = false)
    (hrunning : Running s.pc) (hdefused : s.defused = false) (hdue : s.timeToExplode < s.now)
    (bs : List Action) (u : State) (hrun : run (step cfg) s bs = some u)
    (halone : ∀ b ∈ bs, LeavesAlone b) :
    ((∃ now, u.pc = LoopPc.exploded now) ∧ u.exited = cfg.aggressiveMode) ∨
      (bs.count Action.mainLoop ≤ 6 ∧
        ((∃ u', step cfg u Action.mainLoop = some u') ∨ Asleep u)) := by
  have inv : OverdueInv cfg s := ⟨hdefused, hdue, Or.inl ⟨hrunning, hlive⟩⟩
  obtain ⟨inv', hrank⟩ := run_rank overdue_step bs inv halone hrun
  rcases inv'.running with ⟨hstill, hlive'⟩ | hexploded
  · have hle := overdueRank_le s
    have hpos := overdueRank_pos hstill
    exact Or.inr ⟨by omega, mainLoop_or_asleep hlive' hstill⟩
  · exact Or.inl hexploded

/-- A loop caught with an old clock value: it sleeps once more, and the next round explodes. -/
theorem overdue_timer_explodes_stale :
    ∃ u, run (step ⟨10, true, 0⟩) ⟨11, 10, false, LoopPc.compare 4 10, [], false, [], []⟩
        [Action.mainLoop, Action.tick 6, Action.mainLoop, Action.mainLoop, Action.mainLoop,
          Action.mainLoop, Action.mainLoop] = some u ∧
      u.pc = LoopPc.exploded 17 ∧ u.exited = true := by
  have hends := overdue_timer_explodes ⟨10, true, 0⟩
    ⟨11, 10, false, LoopPc.compare 4 10, [], false, [], []⟩ rfl trivial rfl (by simp)
    [Action.mainLoop, Action.tick 6, Action.mainLoop, Action.mainLoop, Action.mainLoop,
      Action.mainLoop, Action.mainLoop] _ rfl (by simp [LeavesAlone])
  rcases hends with ⟨-, hexited⟩ | ⟨-, ⟨u', hstep⟩ | ⟨wakeAt, hpc, -⟩⟩
  · exact ⟨_, rfl, rfl, hexited⟩
  · exact absurd hstep (by simp [step])
  · cases hpc

/-! ## A defused timer ends its loop -/

/-- Steps until the loop has seen the flag, or has exploded in the round it was in. -/
def defusedRank : LoopPc → ℕ
  | LoopPc.exploded _ => 0
  | LoopPc.returned => 0
  | LoopPc.loadDefused => 1
  | LoopPc.sleeping _ => 2
  | LoopPc.compare _ _ => 3
  | LoopPc.readDeadline _ => 4
  | LoopPc.readNow => 5

lemma defusedRank_mainLoop {cfg : Config} {s s' : State} (hdefused : s.defused = true)
    (h : mainLoopStep cfg s = some s') :
    s'.defused = true ∧ defusedRank s'.pc + 1 ≤ defusedRank s.pc := by
  rcases mainLoopStep_cases h with ⟨hpc, -, rfl⟩ | ⟨hpc, hfalse, rfl⟩ | ⟨hpc, rfl⟩ |
    ⟨now, hpc, rfl⟩ | ⟨now, tte, hpc, -, rfl⟩ | ⟨now, tte, hpc, -, rfl⟩ | ⟨wakeAt, hpc, -, rfl⟩
  · simp [hdefused, hpc, defusedRank]
  · rw [hdefused] at hfalse
    exact absurd hfalse (by simp)
  · simp [hdefused, hpc, defusedRank]
  · simp [hdefused, hpc, defusedRank]
  · simp [hdefused, hpc, defusedRank]
  · simp [hdefused, hpc, defusedRank]
  · simp [hdefused, hpc, defusedRank]

lemma defusedRank_step {cfg : Config} (s : State) (a : Action) (s' : State)
    (hdefused : s.defused = true) (h : step cfg s a = some s') :
    s'.defused = true ∧
      defusedRank s'.pc + [a].count Action.mainLoop ≤ defusedRank s.pc := by
  obtain ⟨-, hcases⟩ := step_cases h
  rcases hcases with ⟨dt, rfl, rfl⟩ | ⟨rfl, hloop⟩ | ⟨rfl, rfl⟩ | ⟨t, rfl, -, rfl⟩ |
    ⟨rfl, rfl⟩ | ⟨rfl, rfl⟩
  · exact ⟨hdefused, by simp⟩
  · simpa using defusedRank_mainLoop hdefused hloop
  · exact ⟨hdefused, by simp⟩
  · exact ⟨hdefused, by simp⟩
  · exact ⟨rfl, by simp⟩
  · exact ⟨hdefused, by simp⟩

lemma defusedRank_le (pc : LoopPc) : defusedRank pc ≤ 5 := by
  cases pc <;> simp [defusedRank]

lemma defusedRank_pos {pc : LoopPc} (hrunning : Running pc) : 0 < defusedRank pc := by
  cases pc with
  | exploded now => exact absurd hrunning id
  | returned => exact absurd hrunning id
  | loadDefused => simp [defusedRank]
  | readNow => simp [defusedRank]
  | readDeadline now => simp [defusedRank]
  | compare now tte => simp [defusedRank]
  | sleeping wakeAt => simp [defusedRank]

/-- **A defused timer ends its loop.**  After a `defuse` in any reachable state, whatever follows:
as long as the process lives, the loop has ended or has made at most four steps since, and nothing
but a sleep that has not run out keeps it from its next one; and if the defuse was in time and the
loop had not exploded before it, the loop ends by returning. -/
theorem defused_timer_ends (cfg : Config) (as : List Action) (s s' : State)
    (hrun : run (step cfg) (spawn cfg) as = some s)
    (hdefuse : step cfg s Action.defuse = some s') (bs : List Action) (u : State)
    (hbs : run (step cfg) s' bs = some u) (hlive : u.exited = false) :
    (Running u.pc → bs.count Action.mainLoop ≤ 4 ∧
      ((∃ u', step cfg u Action.mainLoop = some u') ∨ Asleep u)) ∧
    (SafeToDefuse cfg s → Running s.pc → Running u.pc ∨ u.pc = LoopPc.returned) := by
  have hread : ReadNotAhead s :=
    run_invariant readNotAhead_step as (by simp [ReadNotAhead, spawn]) hrun
  have hlive₀ : s.exited = false := (step_cases hdefuse).1
  obtain rfl : s' = { s with defused := true } := by
    simpa [step, hlive₀] using hdefuse.symm
  constructor
  · intro hrunning
    obtain ⟨-, hrank⟩ := run_rank (I := fun s => s.defused = true) (Q := fun _ => True)
      (fun s a s' hd _ h => defusedRank_step s a s' hd h) bs rfl (fun _ _ => trivial) hbs
    have hle : defusedRank ({ s with defused := true } : State).pc ≤ 5 := defusedRank_le s.pc
    have hpos := defusedRank_pos hrunning
    exact ⟨by omega, mainLoop_or_asleep hlive hrunning⟩
  · intro hsafe hrunning
    have inv : DefusedInv cfg { s with defused := true } { s with defused := true } :=
      ⟨rfl, hsafe, hread, fun _ h => h⟩
    have hexploded := (run_invariant defusedInv_step bs inv hbs).exploded
    cases hpc : u.pc with
    | exploded now =>
        have hpc₀ : s.pc = LoopPc.exploded now := hexploded now hpc
        rw [hpc₀] at hrunning
        exact absurd hrunning id
    | returned => exact Or.inr rfl
    | loadDefused => exact Or.inl trivial
    | readNow => exact Or.inl trivial
    | readDeadline now => exact Or.inl trivial
    | compare now tte => exact Or.inl trivial
    | sleeping wakeAt => exact Or.inl trivial

/-- Defused in its sleep, the loop wakes and returns. -/
theorem defused_timer_ends_sleeping :
    ∃ u, run (step ⟨10, false, 0⟩) ⟨0, 10, true, LoopPc.sleeping 10, [], false, [], []⟩
        [Action.tick 10, Action.mainLoop, Action.mainLoop] = some u ∧
      u.pc = LoopPc.returned := by
  have hends := (defused_timer_ends ⟨10, false, 0⟩
    [Action.mainLoop, Action.mainLoop, Action.mainLoop, Action.mainLoop]
    ⟨0, 10, false, LoopPc.sleeping 10, [], false, [], []⟩
    ⟨0, 10, true, LoopPc.sleeping 10, [], false, [], []⟩ rfl rfl
    [Action.tick 10, Action.mainLoop, Action.mainLoop] _ rfl rfl).2 trivial trivial
  rcases hends with hrunning | hreturned
  · exact absurd hrunning id
  · exact ⟨_, rfl, hreturned⟩

/-! ## Sleeping no longer than the deadline -/

/-- The clock moves by no more than `delay` between the loop's reading of it and the comparison. -/
def Prompt (delay : ℕ) (s : State) : Action → Prop
  | Action.tick elapsed =>
      match s.pc with
      | LoopPc.readDeadline now => s.now + elapsed ≤ now + delay
      | LoopPc.compare now _ => s.now + elapsed ≤ now + delay
      | _ => True
  | _ => True

/-- What prompt rounds keep, beside `OrderInv`. -/
structure PunctualInv (delay : ℕ) (s : State) : Prop where
  readDeadline : ∀ now, s.pc = LoopPc.readDeadline now → s.now ≤ now + delay
  compare : ∀ now tte, s.pc = LoopPc.compare now tte →
    s.now ≤ now + delay ∧ tte ≤ s.timeToExplode
  sleeping : ∀ wakeAt, s.pc = LoopPc.sleeping wakeAt → wakeAt ≤ s.timeToExplode + delay

lemma punctualInv_mainLoop {cfg : Config} {delay : ℕ} {s s' : State} (inv : PunctualInv delay s)
    (h : mainLoopStep cfg s = some s') : PunctualInv delay s' := by
  rcases mainLoopStep_cases h with ⟨hpc, -, rfl⟩ | ⟨hpc, -, rfl⟩ | ⟨hpc, rfl⟩ | ⟨now, hpc, rfl⟩ |
    ⟨now, tte, hpc, -, rfl⟩ | ⟨now, tte, hpc, hearly, rfl⟩ | ⟨wakeAt, hpc, -, rfl⟩
  · exact ⟨by simp, by simp, by simp⟩
  · exact ⟨by simp, by simp, by simp⟩
  · refine ⟨?_, by simp, by simp⟩
    intro now hread
    simp only [LoopPc.readDeadline.injEq] at hread
    show s.now ≤ now + delay
    omega
  · refine ⟨by simp, ?_, by simp⟩
    rintro now' tte' hcmp
    simp only [LoopPc.compare.injEq] at hcmp
    have hnow := inv.readDeadline now hpc
    exact ⟨hcmp.1 ▸ hnow, hcmp.2 ▸ Nat.le_refl _⟩
  · exact ⟨by simp, by simp, by simp⟩
  · refine ⟨by simp, by simp, ?_⟩
    intro wakeAt hsleep
    simp only [LoopPc.sleeping.injEq] at hsleep
    obtain ⟨hnow, htte⟩ := inv.compare now tte hpc
    show wakeAt ≤ s.timeToExplode + delay
    omega
  · exact ⟨by simp, by simp, by simp⟩

lemma punctualInv_step {cfg : Config} {delay : ℕ} {s s' : State} {a : Action}
    (inv : PunctualInv delay s) (hprompt : Prompt delay s a) (hforward : NeverBackwards cfg s a)
    (h : step cfg s a = some s') : PunctualInv delay s' := by
  have hle := hforward s' h
  obtain ⟨-, hcases⟩ := step_cases h
  rcases hcases with ⟨dt, rfl, rfl⟩ | ⟨rfl, hloop⟩ | ⟨rfl, rfl⟩ | ⟨t, rfl, -, rfl⟩ |
    ⟨rfl, rfl⟩ | ⟨rfl, rfl⟩
  · refine ⟨?_, ?_, inv.sleeping⟩
    · intro now hpc
      simpa [Prompt, show s.pc = _ from hpc] using hprompt
    · intro now tte hpc
      exact ⟨by simpa [Prompt, show s.pc = _ from hpc] using hprompt,
        (inv.compare now tte hpc).2⟩
  · exact punctualInv_mainLoop inv hloop
  · exact ⟨inv.readDeadline, inv.compare, inv.sleeping⟩
  · refine ⟨inv.readDeadline, ?_, ?_⟩
    · intro now tte hpc
      exact ⟨(inv.compare now tte hpc).1, Nat.le_trans (inv.compare now tte hpc).2 hle⟩
    · intro wakeAt hpc
      exact Nat.le_trans (inv.sleeping wakeAt hpc) (Nat.add_le_add_right hle delay)
  · exact ⟨inv.readDeadline, inv.compare, inv.sleeping⟩
  · exact ⟨inv.readDeadline, inv.compare, inv.sleeping⟩

/-- **A prompt loop does not sleep through its deadline.**  In every run in which resets store in
order and the clock moves by at most `delay` while the loop waits for the lock, the loop is never
asleep for more than `delay` past the deadline; so once the clock has passed it by more than that,
the loop's next step is possible. -/
theorem never_sleeps_through (cfg : Config) (delay : ℕ) (as : List Action) (s : State)
    (hrun : run (step cfg) (spawn cfg) as = some s)
    (halong : Along (step cfg) (fun s a => Prompt delay s a ∧ StoresInOrder s a) (spawn cfg) as) :
    (∀ wakeAt, s.pc = LoopPc.sleeping wakeAt → wakeAt ≤ s.timeToExplode + delay) ∧
    (s.timeToExplode + delay < s.now → s.exited = false → Running s.pc →
      ∃ s', step cfg s Action.mainLoop = some s') := by
  have hkept : OrderInv cfg s ∧ PunctualInv delay s := by
    refine run_invariant_along (I := fun s => OrderInv cfg s ∧ PunctualInv delay s) ?_ as
      ⟨orderInv_spawn cfg, by simp [spawn], by simp [spawn], by simp [spawn]⟩ halong hrun
    rintro s a s' ⟨hinv, hpunctual⟩ ⟨hprompt, horder⟩ h
    exact ⟨orderInv_step hinv horder h,
      punctualInv_step hpunctual hprompt ((storesInOrder_iff s a hinv).mp horder) h⟩
  refine ⟨hkept.2.sleeping, ?_⟩
  intro hdue hlive hrunning
  have hnext : (∃ s', step cfg s Action.mainLoop = some s') ∨ Asleep s :=
    mainLoop_or_asleep hlive hrunning
  rcases hnext with hstep | ⟨wakeAt, hpc, hwake⟩
  · exact hstep
  · have hle := hkept.2.sleeping wakeAt hpc
    omega

/-- The clock moves by two while the loop waits for the lock; then a reset while it sleeps, and the
clock past the new deadline. -/
theorem never_sleeps_through_reset :
    ∃ s s', run (step ⟨10, false, 0⟩) (spawn ⟨10, false, 0⟩)
        [Action.mainLoop, Action.mainLoop, Action.tick 2, Action.mainLoop, Action.mainLoop,
          Action.tick 5, Action.resetCompute, Action.resetStore 7, Action.tick 13] = some s ∧
      s.pc = LoopPc.sleeping 12 ∧ s.timeToExplode = 17 ∧ 12 ≤ 17 + 2 ∧
      step ⟨10, false, 0⟩ s Action.mainLoop = some s' ∧ s'.pc = LoopPc.loadDefused := by
  obtain ⟨hsleeping, hnext⟩ := never_sleeps_through ⟨10, false, 0⟩ 2
    [Action.mainLoop, Action.mainLoop, Action.tick 2, Action.mainLoop, Action.mainLoop,
      Action.tick 5, Action.resetCompute, Action.resetStore 7, Action.tick 13]
    ⟨20, 17, false, LoopPc.sleeping 12, [], false, [7], []⟩ rfl
    (by simp [Along, Prompt, StoresInOrder, step, mainLoopStep, spawn])
  obtain ⟨s', hstep⟩ := hnext (by decide) rfl trivial
  refine ⟨_, s', rfl, rfl, rfl, hsleeping 12 rfl, hstep, ?_⟩
  cases hstep
  rfl

end FutureAio.Doomsday
