import Mathlib.Data.Set.Finite.Basic
import Mathlib.Tactic.Common
import Mathlib.Data.Nat.Notation
import Mathlib.Data.Set.Finite.Lattice

/-!
# Loops answered by an environment

A `loop { .. }` whose body asks something it does not control (a system call, a timer, a user
function) is a function of two things: the state at the loop head and the answer it got in this
pass.  `loopAt body env s₀ n` is the loop after `n` passes when pass `i` is answered by `env i`;
it is either back at its head (`Flow.again`) or has returned (`Flow.leave`), and once it has
returned it stays returned.

Six rules carry everything that is proved about such a loop:

* `loopAt_invariant` — what holds on entry and is kept by a pass holds at every loop head;
* `loopAt_leave_cases` — a loop that returned did so from some loop head;
* `loopAt_ends` — when every pass from a head that satisfies `I` keeps `I` or returns with `P`,
  the loop is at such a head or has returned with `P`;
* `loopAt_first` — when the pass numbers tell which passes return, and with what, the loop returns
  in the first of them;
* `loopAt_terminates` — if passes that make no progress are finite in number and every other
  pass that goes round again lowers a measure, the loop returns;
* `loopAt_exists_env` — an environment that always has a fitting answer can be chosen to give it in
  every pass.
-/

namespace OracleLoop

/-- What one pass through the body does. -/
inductive Flow (σ ρ : Type*) where
  | again (s : σ)
  | leave (r : ρ)
  deriving DecidableEq, Repr

variable {σ ι ρ : Type*}

/-- The loop after `n` passes, pass `i` being answered by `env i`. -/
def loopAt (body : σ → ι → Flow σ ρ) (env : ℕ → ι) (s₀ : σ) : ℕ → Flow σ ρ
  | 0 => Flow.again s₀
  | n + 1 =>
      match loopAt body env s₀ n with
      | Flow.again s => body s (env n)
      | Flow.leave r => Flow.leave r

section Rules

variable {body : σ → ι → Flow σ ρ} {env : ℕ → ι} {s₀ : σ}

lemma loopAt_succ_of_again {n : ℕ} {s : σ} (h : loopAt body env s₀ n = Flow.again s) :
    loopAt body env s₀ (n + 1) = body s (env n) := by
  rw [loopAt, h]

/-- A loop head after the first was reached from the head before it. -/
lemma loopAt_again_succ {n : ℕ} {s' : σ} (h : loopAt body env s₀ (n + 1) = Flow.again s') :
    ∃ s, loopAt body env s₀ n = Flow.again s ∧ body s (env n) = Flow.again s' := by
  cases hn : loopAt body env s₀ n with
  | again s => exact ⟨s, rfl, by rw [← loopAt_succ_of_again hn, h]⟩
  | leave r => rw [loopAt, hn] at h; exact absurd h (by simp)

/-- What a loop has returned stays. -/
lemma loopAt_leave_add {n : ℕ} {r : ρ} (h : loopAt body env s₀ n = Flow.leave r) (k : ℕ) :
    loopAt body env s₀ (n + k) = Flow.leave r := by
  induction k with
  | zero => exact h
  | succ k ih => rw [← Nat.add_assoc, loopAt, ih]

/-- **The invariant rule.**  `I n s` may speak about the pass number, so a ghost history of the
environment's answers can be part of it. -/
theorem loopAt_invariant (I : ℕ → σ → Prop) (h₀ : I 0 s₀)
    (hstep : ∀ n s s', loopAt body env s₀ n = Flow.again s → I n s →
      body s (env n) = Flow.again s' → I (n + 1) s') :
    ∀ n s, loopAt body env s₀ n = Flow.again s → I n s := by
  intro n
  induction n with
  | zero =>
      intro s hs
      rw [loopAt, Flow.again.injEq] at hs
      rwa [← hs]
  | succ n ih =>
      intro s' hs'
      obtain ⟨s, hs, hbody⟩ := loopAt_again_succ hs'
      exact hstep n s s' hs (ih s hs) hbody

/-- A loop that has returned did so in some pass, from that pass's loop head. -/
theorem loopAt_leave_cases {n : ℕ} {r : ρ} (h : loopAt body env s₀ n = Flow.leave r) :
    ∃ m s, m < n ∧ loopAt body env s₀ m = Flow.again s ∧ body s (env m) = Flow.leave r := by
  induction n with
  | zero => exact absurd h (by simp [loopAt])
  | succ n ih =>
      cases hn : loopAt body env s₀ n with
      | again s => exact ⟨n, s, by omega, hn, by rw [← loopAt_succ_of_again hn, h]⟩
      | leave r' =>
          have hr : r' = r := by
            rw [loopAt, hn] at h
            exact Flow.leave.inj h
          obtain ⟨m, s, hm, hs, hbody⟩ := ih (by rw [hn, hr])
          exact ⟨m, s, by omega, hs, hbody⟩

/-- The invariant rule with a postcondition, for a pass analysed as a whole. -/
theorem loopAt_ends {I : σ → Prop} {P : ρ → Prop} (h₀ : I s₀)
    (hpass : ∀ s i, I s →
      (∃ s', body s i = Flow.again s' ∧ I s') ∨ ∃ r, body s i = Flow.leave r ∧ P r) (n : ℕ) :
    (∃ s, loopAt body env s₀ n = Flow.again s ∧ I s) ∨
      ∃ r, loopAt body env s₀ n = Flow.leave r ∧ P r := by
  induction n with
  | zero => exact Or.inl ⟨s₀, rfl, h₀⟩
  | succ n ih =>
      rcases ih with ⟨s, hs, hI⟩ | ⟨r, hr, hP⟩
      · rw [loopAt_succ_of_again hs]
        exact hpass s (env n) hI
      · exact Or.inr ⟨r, by rw [loopAt, hr], hP⟩

/-- A loop that ends in the first pass `n` with `Ends n`, where it returns `result n`. -/
theorem loopAt_first {I : ℕ → σ → Prop} {Ends : ℕ → Prop} {result : ℕ → ρ} (h₀ : I 0 s₀)
    (hgo : ∀ n s, I n s → ¬ Ends n → ∃ s', body s (env n) = Flow.again s' ∧ I (n + 1) s')
    (hend : ∀ n s, I n s → Ends n → body s (env n) = Flow.leave (result n)) (n : ℕ) :
    ((∀ m < n, ¬ Ends m) ∧ ∃ s, loopAt body env s₀ n = Flow.again s ∧ I n s) ∨
      ∃ m < n, (∀ k < m, ¬ Ends k) ∧ Ends m ∧
        loopAt body env s₀ n = Flow.leave (result m) := by
  induction n with
  | zero => exact Or.inl ⟨fun m hm => absurd hm (Nat.not_lt_zero m), s₀, rfl, h₀⟩
  | succ n ih =>
      rcases ih with ⟨hquiet, s, hs, hI⟩ | ⟨m, hm, hquiet, hends, hloop⟩
      · rw [loopAt_succ_of_again hs]
        by_cases hn : Ends n
        · exact Or.inr ⟨n, Nat.lt_succ_self n, hquiet, hn, hend n s hI hn⟩
        · refine Or.inl ⟨fun m hm => ?_, hgo n s hI hn⟩
          rcases Nat.lt_succ_iff_lt_or_eq.mp hm with hlt | rfl
          · exact hquiet m hlt
          · exact hn
      · exact Or.inr ⟨m, Nat.lt_succ_of_lt hm, hquiet, hends, by rw [loopAt, hloop]⟩

/-- **Termination.**  `stall n` marks the passes that need not make progress; there are finitely
many of them, and every other pass that goes round again lowers `μ`. -/
theorem loopAt_terminates (μ : σ → ℕ) (stall : ℕ → Prop) (hfin : {n | stall n}.Finite)
    (hstep : ∀ n s s', loopAt body env s₀ n = Flow.again s → body s (env n) = Flow.again s' →
      ¬ stall n → μ s' < μ s) :
    ∃ n r, loopAt body env s₀ n = Flow.leave r := by
  obtain ⟨b, hb⟩ := hfin.bddAbove
  -- from pass `b + 1` on no pass stalls
  have hlive : ∀ n, b < n → ¬ stall n := fun n hn hs => by
    have := hb hs
    omega
  cases hN : loopAt body env s₀ (b + 1) with
  | leave r => exact ⟨b + 1, r, hN⟩
  | again sN =>
      -- the measure at the head after `k` further passes has dropped by at least `k`
      have hdrop : ∀ k s, loopAt body env s₀ (b + 1 + k) = Flow.again s → μ s + k ≤ μ sN := by
        intro k
        induction k with
        | zero =>
            intro s hs
            rw [Nat.add_zero, hN, Flow.again.injEq] at hs
            simp [hs]
        | succ k ih =>
            intro s' hs'
            obtain ⟨s, hs, hbody⟩ := loopAt_again_succ (n := b + 1 + k) hs'
            have hlt := hstep _ s s' hs hbody (hlive _ (by omega))
            have := ih s hs
            omega
      cases hK : loopAt body env s₀ (b + 1 + (μ sN + 1)) with
      | leave r => exact ⟨_, r, hK⟩
      | again s =>
          have := hdrop _ s hK
          omega

/-- Where every loop head has an answer with `P`, some environment gives such answers throughout. -/
theorem loopAt_exists_env (body : σ → ι → Flow σ ρ) {P : σ → ι → Prop} (hP : ∀ s, ∃ i, P s i)
    (s₀ : σ) :
    ∃ env : ℕ → ι, ∀ n s, loopAt body env s₀ n = Flow.again s → P s (env n) := by
  choose answer hanswer using hP
  let pass : Flow σ ρ → Flow σ ρ
    | Flow.again s => body s (answer s)
    | Flow.leave r => Flow.leave r
  let env : ℕ → ι := fun n =>
    match pass^[n] (Flow.again s₀) with
    | Flow.again s => answer s
    | Flow.leave _ => answer s₀
  have hloop : ∀ n, loopAt body env s₀ n = pass^[n] (Flow.again s₀) := by
    intro n
    induction n with
    | zero => rfl
    | succ n ih =>
        rw [Function.iterate_succ_apply', loopAt, ih]
        cases hn : pass^[n] (Flow.again s₀) with
        | again s => simp only [env, hn, pass]
        | leave r => rfl
  refine ⟨env, fun n s hs => ?_⟩
  rw [hloop] at hs
  simp only [env, hs]
  exact hanswer s

end Rules

end OracleLoop
