import Mathlib.Data.List.Forall2
import FutureAio.Lib.Runs

/-!
# Machines that answer, and simulations between them

A machine that answers each of its actions is a partial function `next : σ → α → Option (β × σ)`;
`none` says, as for `Runs.run`, that the action is not possible in that state.

* `play next s as` — all the answers of a run, in order, with the state at its end.
* `Simulates R L next next'` — from states related by `R` and under actions related by `L`, the
  two machines are stuck together or give the same answer and stay related.

`Simulates.play` is the induction over a run: two machines of which one simulates the other cannot
be told apart by their answers, whatever the actions are.
-/

namespace Runs

variable {σ τ α γ β : Type*}

def play (next : σ → α → Option (β × σ)) : σ → List α → Option (List β × σ)
  | s, [] => some ([], s)
  | s, a :: as =>
      (next s a).bind fun p => (play next p.2 as).map fun q => (p.1 :: q.1, q.2)

/-- The same answer, and states related by `R`. -/
def Agrees (R : σ → τ → Prop) (p : β × σ) (q : β × τ) : Prop := p.1 = q.1 ∧ R p.2 q.2

def Simulates (R : σ → τ → Prop) (L : α → γ → Prop) (next : σ → α → Option (β × σ))
    (next' : τ → γ → Option (β × τ)) : Prop :=
  ∀ s t a c, R s t → L a c → Option.Rel (Agrees R) (next s a) (next' t c)

lemma rel_bind {R : σ → τ → Prop} {T : α → γ → Prop} {x : Option σ} {y : Option τ}
    {f : σ → Option α} {g : τ → Option γ} (h : Option.Rel R x y)
    (hfg : ∀ s t, R s t → Option.Rel T (f s) (g t)) : Option.Rel T (x.bind f) (y.bind g) := by
  cases h with
  | none => exact Option.Rel.none
  | some hst => exact hfg _ _ hst

lemma rel_map {R : σ → τ → Prop} {T : α → γ → Prop} {x : Option σ} {y : Option τ}
    {f : σ → α} {g : τ → γ} (h : Option.Rel R x y) (hfg : ∀ s t, R s t → T (f s) (g t)) :
    Option.Rel T (x.map f) (y.map g) := by
  cases h with
  | none => exact Option.Rel.none
  | some hst => exact Option.Rel.some (hfg _ _ hst)

lemma eq_of_rel_eq {x y : Option σ} (h : Option.Rel Eq x y) : x = y := by
  cases h with
  | none => rfl
  | some hst => rw [hst]

/-- **A simulation lifts to runs.** -/
theorem Simulates.play {R : σ → τ → Prop} {L : α → γ → Prop} {next : σ → α → Option (β × σ)}
    {next' : τ → γ → Option (β × τ)} (hsim : Simulates R L next next') {as : List α}
    {cs : List γ} (hlabels : List.Forall₂ L as cs) :
    ∀ {s : σ} {t : τ}, R s t →
      Option.Rel (Agrees R) (Runs.play next s as) (Runs.play next' t cs) := by
  induction hlabels with
  | nil =>
      intro s t h
      exact Option.Rel.some ⟨rfl, h⟩
  | @cons a c as cs hac _ ih =>
      intro s t h
      refine rel_bind (hsim s t a c h hac) ?_
      rintro p q ⟨hanswer, hstates⟩
      refine rel_map (ih hstates) ?_
      rintro bs ds ⟨hanswers, hend⟩
      exact ⟨by rw [hanswer, hanswers], hend⟩

/-- In particular the answers are the same. -/
lemma Simulates.answers {R : σ → τ → Prop} {L : α → γ → Prop} {next : σ → α → Option (β × σ)}
    {next' : τ → γ → Option (β × τ)} (hsim : Simulates R L next next') {as : List α}
    {cs : List γ} (hlabels : List.Forall₂ L as cs) {s : σ} {t : τ} (h : R s t) :
    (Runs.play next s as).map Prod.fst = (Runs.play next' t cs).map Prod.fst :=
  eq_of_rel_eq (rel_map (hsim.play hlabels h) fun _ _ hpq => hpq.1)

/-- Without their answers, the runs of `next` are those of its steps. -/
lemma run_eq_play {step : σ → α → Option σ} {next : σ → α → Option (β × σ)}
    (hstep : ∀ s a, step s a = (next s a).map Prod.snd) (as : List α) :
    ∀ s, run step s as = (play next s as).map Prod.snd := by
  induction as with
  | nil =>
      intro s
      rfl
  | cons a as ih =>
      intro s
      simp only [run, play, hstep]
      cases next s a with
      | none => rfl
      | some p => simp [ih p.2, Function.comp_def]

end Runs
