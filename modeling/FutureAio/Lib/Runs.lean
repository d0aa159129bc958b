import Mathlib.Tactic.Common
import Mathlib.Data.Nat.Notation

/-!
# Runs of a step function

A system that takes one action at a time is a partial function `step : σ → α → Option σ`; `none`
says that the action is not possible in that state.  A run is a list of actions, and an
interleaving of several parties is nothing more than a list whose entries belong to different
ones.

* `run step s as` — the state after the actions `as`, if all of them were possible.
* `Along step P s as` — every action of the run is taken in a state that satisfies `P`.

`run_invariant` is the induction over a run; `run_invariant_along` is the same for runs whose
steps meet a condition, `run_completes` adds that such a run is never stuck, and `along_congr` lets
one condition stand for another when the two agree in every state the run keeps to.  `run_rank`
bounds how often an action can be taken that brings a rank down, and `run_copy` says how far a copy
of a part of the state can lag behind it.
-/

namespace Runs

variable {σ α : Type*} {step : σ → α → Option σ}

def run (step : σ → α → Option σ) : σ → List α → Option σ
  | s, [] => some s
  | s, a :: as => (step s a).bind fun s' => run step s' as

def Along (step : σ → α → Option σ) (P : σ → α → Prop) : σ → List α → Prop
  | _, [] => True
  | s, a :: as => P s a ∧ ∀ s', step s a = some s' → Along step P s' as

lemma run_cons_some {s u : σ} {a : α} {as : List α} (h : run step s (a :: as) = some u) :
    ∃ t, step s a = some t ∧ run step t as = some u := by
  simpa [run, Option.bind_eq_some_iff] using h

lemma run_cons_of_step {s t : σ} {a : α} (as : List α) (h : step s a = some t) :
    run step s (a :: as) = run step t as := by
  simp [run, h]

/-- What every step keeps holds at the end of every run. -/
theorem run_invariant {I : σ → Prop} (hstep : ∀ s a s', I s → step s a = some s' → I s') :
    ∀ (as : List α) {s u : σ}, I s → run step s as = some u → I u := by
  intro as
  induction as with
  | nil =>
      intro s u hs h
      rw [run, Option.some.injEq] at h
      rwa [← h]
  | cons a as ih =>
      intro s u hs h
      obtain ⟨t, hst, hrun⟩ := run_cons_some h
      exact ih (hstep s a t hs hst) hrun

/-- The same for runs whose steps all meet a condition. -/
theorem run_invariant_along {I : σ → Prop} {P : σ → α → Prop}
    (hstep : ∀ s a s', I s → P s a → step s a = some s' → I s') :
    ∀ (as : List α) {s u : σ}, I s → Along step P s as → run step s as = some u → I u := by
  intro as
  induction as with
  | nil =>
      intro s u hs _ h
      rw [run, Option.some.injEq] at h
      rwa [← h]
  | cons a as ih =>
      intro s u hs halong h
      obtain ⟨t, hst, hrun⟩ := run_cons_some h
      exact ih (hstep s a t hs halong.1 hst) (halong.2 t hst) hrun

/-- A condition on the actions alone. -/
lemma along_of_forall_mem {P : α → Prop} : ∀ (as : List α) {s : σ}, (∀ a ∈ as, P a) →
    Along step (fun _ a => P a) s as := by
  intro as
  induction as with
  | nil =>
      intro _ _
      trivial
  | cons a as ih =>
      intro s h
      exact ⟨h a List.mem_cons_self, fun _ _ => ih fun b hb => h b (List.mem_cons_of_mem a hb)⟩

/-- A run whose steps meet a condition under which every step is possible and keeps `I` gets to its
end. -/
theorem run_completes {I : σ → Prop} {P : σ → α → Prop}
    (hstep : ∀ s a, I s → P s a → ∃ s', step s a = some s' ∧ I s') :
    ∀ (as : List α) {s : σ}, I s → Along step P s as → ∃ u, run step s as = some u ∧ I u := by
  intro as
  induction as with
  | nil =>
      intro s hs _
      exact ⟨s, rfl, hs⟩
  | cons a as ih =>
      rintro s hs ⟨hp, hrest⟩
      obtain ⟨t, hst, ht⟩ := hstep s a hs hp
      obtain ⟨u, hrun, hu⟩ := ih ht (hrest t hst)
      exact ⟨u, by rw [run_cons_of_step as hst, hrun], hu⟩

/-- Two conditions that agree on `I` agree along every run that keeps `I`. -/
theorem along_congr {I : σ → Prop} {P Q : σ → α → Prop}
    (hiff : ∀ s a, I s → (P s a ↔ Q s a))
    (hstep : ∀ s a s', I s → P s a → step s a = some s' → I s') :
    ∀ (as : List α) {s : σ}, I s → (Along step P s as ↔ Along step Q s as) := by
  intro as
  induction as with
  | nil =>
      intro s _
      exact Iff.rfl
  | cons a as ih =>
      intro s hs
      constructor
      · rintro ⟨hp, hrest⟩
        refine ⟨(hiff s a hs).mp hp, ?_⟩
        intro s' hst
        exact (ih (hstep s a s' hs hp hst)).mp (hrest s' hst)
      · rintro ⟨hq, hrest⟩
        have hp := (hiff s a hs).mpr hq
        refine ⟨hp, ?_⟩
        intro s' hst
        exact (ih (hstep s a s' hs hp hst)).mpr (hrest s' hst)

/-- Where the action `c` brings the rank down by one and no other action of the run brings it up,
the rank bounds how often `c` is taken. -/
theorem run_rank [DecidableEq α] {I : σ → Prop} {Q : α → Prop} {rank : σ → ℕ} {c : α}
    (hstep : ∀ s a s', I s → Q a → step s a = some s' →
      I s' ∧ rank s' + [a].count c ≤ rank s) :
    ∀ (as : List α) {s u : σ}, I s → (∀ a ∈ as, Q a) → run step s as = some u →
      I u ∧ rank u + as.count c ≤ rank s := by
  intro as
  induction as with
  | nil =>
      intro s u hs _ h
      rw [run, Option.some.injEq] at h
      rw [← h]
      exact ⟨hs, by simp⟩
  | cons a as ih =>
      intro s u hs hQ h
      obtain ⟨t, hst, hrun⟩ := run_cons_some h
      obtain ⟨ht, hrank⟩ := hstep s a t hs (hQ a List.mem_cons_self) hst
      obtain ⟨hu, hrest⟩ := ih ht (fun b hb => hQ b (List.mem_cons_of_mem a hb)) hrun
      have hcount : (a :: as).count c = [a].count c + as.count c := by
        rw [← List.count_append, List.singleton_append]
      exact ⟨hu, by omega⟩

/-- **A copy that lags behind.**  Where each step either leaves both the copy and what has been
`seen` as they are, or makes the copy up to date, the copy is at the end what the original was at
some moment of the run, and nothing has been seen since. -/
theorem run_copy {β γ : Type*} {I : σ → Prop} (copy original : σ → β) (seen : σ → γ)
    (hstep : ∀ s a s', I s → step s a = some s' →
      I s' ∧ ((copy s' = copy s ∧ seen s' = seen s) ∨ copy s' = original s')) :
    ∀ (as : List α) {s u : σ}, I s → run step s as = some u →
      (copy u = copy s ∧ seen u = seen s) ∨
      ∃ before after v, as = before ++ after ∧ run step s before = some v ∧
        copy u = original v ∧ seen u = seen v := by
  intro as
  induction as with
  | nil =>
      intro s u _ h
      rw [run, Option.some.injEq] at h
      exact Or.inl ⟨by rw [h], by rw [h]⟩
  | cons a as ih =>
      intro s u hs h
      obtain ⟨t, hst, hrun⟩ := run_cons_some h
      obtain ⟨ht, hcopy⟩ := hstep s a t hs hst
      rcases ih ht hrun with ⟨hsame, hseen⟩ | ⟨before, after, v, rfl, hv, horiginal, hseen⟩
      · rcases hcopy with ⟨hkept, hquiet⟩ | hfresh
        · exact Or.inl ⟨hsame.trans hkept, hseen.trans hquiet⟩
        · exact Or.inr ⟨[a], as, t, rfl, by rw [run_cons_of_step [] hst, run],
            hsame.trans hfresh, hseen⟩
      · exact Or.inr ⟨a :: before, after, v, rfl, by rw [run_cons_of_step before hst, hv],
          horiginal, hseen⟩

section Fallible

variable {ε β γ : Type}

/-- A computation that succeeds did so in both of its halves. -/
lemma bind_ok {x : Except ε β} {f : β → Except ε γ} {c : γ} (h : x >>= f = Except.ok c) :
    ∃ b, x = Except.ok b ∧ f b = Except.ok c := by
  cases x with
  | error e => exact absurd h (by simp [bind, Except.bind])
  | ok b => exact ⟨b, rfl, h⟩

/-- When `f` can only succeed with what `g` computes, so can a whole pass with `f` only succeed with
that of `g`. -/
theorem foldlM_ok {f : β → γ → Except ε β} {g : β → γ → β}
    (hf : ∀ b c b', f b c = Except.ok b' → b' = g b c) :
    ∀ (cs : List γ) {b b' : β}, cs.foldlM f b = Except.ok b' → b' = cs.foldl g b := by
  intro cs
  induction cs with
  | nil =>
      intro b b' h
      exact (Except.ok.inj h).symm
  | cons c cs ih =>
      intro b b' h
      obtain ⟨b₁, h₁, h⟩ := bind_ok h
      rw [ih h, hf b c b₁ h₁, List.foldl_cons]

end Fallible

end Runs
