import Mathlib.Order.Lattice
import Mathlib.Order.Monotone.Basic
import Mathlib.Data.Nat.Notation
import Mathlib.Data.List.Range
import Mathlib.Tactic.Common

/-!
# A series read through a cap that can be changed

A generator walks along a series and never gives more than its cap.  An element above the cap is
held back: the cap is given in its place and the generator stays where it is, so that a cap
raised later lets the walk go on from there.

* `Request` — ask for an element, or put a new cap in force.
* `expected` — what a sequence of requests should be answered with; the index it carries counts
  the elements that were not held back.
* `Simulates` — what a generator has to satisfy, one field for each case of a request.

`responses_eq_expected` lifts the one-request conditions to every sequence of requests.  Under one
fixed cap nothing of the holding back can be seen (`responses_replicate`).
-/

namespace Capped

variable {α β ι : Type*} [LinearOrder α]

inductive Request (β : Type*) where
  | next
  | cap (m : β)
  deriving DecidableEq, Repr

/-- `x` is above the cap; without a cap nothing is. -/
def Above : Option α → α → Prop
  | none, _ => False
  | some m, x => m < x

instance (cap : Option α) (x : α) : Decidable (Above cap x) :=
  match cap with
  | none => inferInstanceAs (Decidable False)
  | some m => inferInstanceAs (Decidable (m < x))

/-- The smaller of the element and the cap. -/
def capped : Option α → α → α
  | none, x => x
  | some m, x => min x m

lemma capped_of_not_above {cap : Option α} {x : α} (h : ¬ Above cap x) : capped cap x = x := by
  cases cap with
  | none => rfl
  | some m => exact min_eq_left (not_lt.mp h)

lemma capped_of_above {m x : α} (h : Above (some m) x) : capped (some m) x = m :=
  min_eq_right (le_of_lt h)

/-- The answers to a sequence of requests, from index `k` and with the given cap in force. -/
def expected (series : ℕ → α) (value : β → α) : ℕ → Option α → List (Request β) → List α
  | _, _, [] => []
  | k, cap, Request.next :: reqs =>
      capped cap (series k) ::
        expected series value (if Above cap (series k) then k else k + 1) cap reqs
  | k, _, Request.cap m :: reqs => expected series value k (some (value m)) reqs

/-- The answers a generator gives. -/
def responses (next : ι → Option β × ι) (setCap : ι → β → ι) : ι → List (Request β) →
    List (Option β)
  | _, [] => []
  | it, Request.next :: reqs => (next it).1 :: responses next setCap (next it).2 reqs
  | it, Request.cap m :: reqs => responses next setCap (setCap it m) reqs

/-- `R it k cap`: the generator `it` stands at index `k` under the cap `cap`.  One request is
answered as it should be, and leaves the generator where it should stand. -/
structure Simulates (series : ℕ → α) (value : β → α) (next : ι → Option β × ι)
    (setCap : ι → β → ι) (R : ι → ℕ → Option α → Prop) : Prop where
  advance : ∀ it k cap, R it k cap → ¬ Above cap (series k) →
    (next it).1.map value = some (series k) ∧ R (next it).2 (k + 1) cap
  hold : ∀ it k m, R it k (some m) → Above (some m) (series k) →
    (next it).1.map value = some m ∧ R (next it).2 k (some m)
  recap : ∀ it k cap m, R it k cap → R (setCap it m) k (some (value m))

/-- **Every sequence of requests is answered as expected.** -/
theorem responses_eq_expected {series : ℕ → α} {value : β → α} {next : ι → Option β × ι}
    {setCap : ι → β → ι} {R : ι → ℕ → Option α → Prop}
    (hsim : Simulates series value next setCap R) (reqs : List (Request β)) :
    ∀ it k cap, R it k cap → (responses next setCap it reqs).map (Option.map value)
      = (expected series value k cap reqs).map some := by
  induction reqs with
  | nil =>
      intro it k cap _
      rfl
  | cons req reqs ih =>
      intro it k cap hR
      cases req with
      | cap m => exact ih _ k _ (hsim.recap it k cap m hR)
      | next =>
          simp only [responses, expected, List.map_cons]
          by_cases habove : Above cap (series k)
          · cases cap with
            | none => exact absurd habove id
            | some m =>
                obtain ⟨hval, hR'⟩ := hsim.hold it k m hR habove
                rw [hval, capped_of_above habove, if_pos habove, ih _ k _ hR']
          · obtain ⟨hval, hR'⟩ := hsim.advance it k cap hR habove
            rw [hval, capped_of_not_above habove, if_neg habove, ih _ (k + 1) _ hR']

/-- Once the series is above the cap it stays there. -/
lemma capped_eq_of_above {series : ℕ → α} (hmono : Monotone series) {cap : Option α} {k j : ℕ}
    (habove : Above cap (series k)) (hj : k ≤ j) :
    capped cap (series j) = capped cap (series k) := by
  cases cap with
  | none => exact absurd habove id
  | some m =>
      have hj' : Above (some m) (series j) := lt_of_lt_of_le habove (hmono hj)
      rw [capped_of_above habove, capped_of_above hj']

/-- **Under one cap, the answers are the elements of the series, capped one by one.** -/
theorem expected_replicate {series : ℕ → α} (hmono : Monotone series) (value : β → α)
    (cap : Option α) (n : ℕ) : ∀ k, expected series value k cap (List.replicate n Request.next)
      = (List.range n).map fun i => capped cap (series (k + i)) := by
  induction n with
  | zero =>
      intro k
      rfl
  | succ n ih =>
      intro k
      rw [List.replicate_succ, expected, ih, List.range_succ_eq_map, List.map_cons, List.map_map,
        Nat.add_zero]
      refine congrArg (_ :: ·) (List.map_congr_left fun i _ => ?_)
      by_cases habove : Above cap (series k)
      · rw [if_pos habove, capped_eq_of_above hmono habove (Nat.le_add_right k i)]
        exact (capped_eq_of_above hmono habove (by omega)).symm
      · rw [if_neg habove]
        simp only [Function.comp_apply]
        congr 2
        omega

/-- What a generator gives under one cap. -/
theorem responses_replicate {series : ℕ → α} {value : β → α} {next : ι → Option β × ι}
    {setCap : ι → β → ι} {R : ι → ℕ → Option α → Prop}
    (hsim : Simulates series value next setCap R) (hmono : Monotone series) {it : ι}
    {cap : Option α} (hR : R it 0 cap) (n : ℕ) :
    (responses next setCap it (List.replicate n Request.next)).map (Option.map value)
      = (List.range n).map fun i => some (capped cap (series i)) := by
  rw [responses_eq_expected hsim _ _ 0 _ hR, expected_replicate hmono, List.map_map]
  refine List.map_congr_left fun i _ => ?_
  simp

end Capped
