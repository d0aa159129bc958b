import Mathlib.Data.List.Basic
import Mathlib.Data.List.Infix
import Mathlib.Tactic.Common
import Mathlib.Data.Nat.Notation

/-!
# Windows into a sequence, and writes over one

A file, a mapped region and a received byte stream are all lists here, and the questions asked
of them are positional: which elements lie at `[p, p + k)`, what a write over that range leaves
behind, what growing or cutting the sequence does to the elements that stay.

* `window l p k` — the elements at positions `[p, p + k)`, fewer if `l` ends before.
* `overwrite l p bs` — `l` with `bs` written over it from position `p`.
* `resize l n z` — `l` cut or padded with `z` to length `n`.

* `lastWrite ws j` — what the last of a list of writes that covers position `j` put there.

A window is stable when the sequence is extended at its end (`window_of_isPrefix`), and two
adjacent windows are one (`window_add`); those two facts carry every transfer argument.  For
writes in place the fact is positional: after any list of them each position holds its last
write, or what it held before (`getElem?_overwriteAll`).
-/

namespace Window

variable {α : Type*}

/-- The elements at positions `[p, p + k)`. -/
def window (l : List α) (p k : ℕ) : List α := (l.drop p).take k

/-- `l` with `bs` written over the positions `[p, p + bs.length)`. -/
def overwrite (l : List α) (p : ℕ) (bs : List α) : List α :=
  l.take p ++ (bs ++ l.drop (p + bs.length))

/-- `l` cut to its first `n` elements, or padded with `z` up to `n`. -/
def resize (l : List α) (n : ℕ) (z : α) : List α :=
  l.take n ++ List.replicate (n - l.length) z

def overwriteAll (l : List α) (ws : List (ℕ × List α)) : List α :=
  ws.foldl (fun l w => overwrite l w.1 w.2) l

/-- What the write `w` puts at position `j`, if it covers it. -/
def covering (w : ℕ × List α) (j : ℕ) : Option α := if w.1 ≤ j then w.2[j - w.1]? else none

/-- What the last write that covers `j` puts there. -/
def lastWrite : List (ℕ × List α) → ℕ → Option α
  | [], _ => none
  | w :: ws, j => (lastWrite ws j).or (covering w j)

/-! ## Windows -/

@[simp] lemma window_zero (l : List α) (p : ℕ) : window l p 0 = [] := by simp [window]

lemma length_window (l : List α) (p k : ℕ) : (window l p k).length = min k (l.length - p) := by
  simp [window]

/-- A window that fits has the length asked for. -/
lemma length_window_of_le {l : List α} {p k : ℕ} (h : p + k ≤ l.length) :
    (window l p k).length = k := by
  rw [length_window]
  omega

/-- A window that reaches beyond the end is the one that stops there. -/
lemma window_length_window (l : List α) (p k : ℕ) :
    window l p (window l p k).length = window l p k := by
  rw [length_window, window, window, ← List.length_drop, ← List.take_eq_take_min]

/-- Two adjacent windows are one. -/
lemma window_add (l : List α) (p a b : ℕ) :
    window l p (a + b) = window l p a ++ window l (p + a) b := by
  simp only [window, List.take_add, List.drop_drop]

/-- A window that starts where another one ends continues it; an empty one may start anywhere. -/
lemma window_append_window (l : List α) {p q a b : ℕ} (h : b ≠ 0 → q = p + a) :
    window l p a ++ window l q b = window l p (a + b) := by
  rw [window_add]
  by_cases hb : b = 0
  · simp [hb]
  · rw [h hb]

/-- A shorter window from the same start is a prefix of a longer one. -/
lemma window_isPrefix (l : List α) (p : ℕ) {a b : ℕ} (h : a ≤ b) :
    window l p a <+: window l p b := by
  obtain ⟨c, rfl⟩ := Nat.exists_eq_add_of_le h
  rw [window_add]
  exact List.prefix_append _ _

/-- Appending at the end of the sequence moves no window that already fits. -/
lemma window_of_isPrefix {l l' : List α} (hl : l <+: l') {p k : ℕ} (h : p + k ≤ l.length) :
    window l' p k = window l p k := by
  obtain ⟨t, rfl⟩ := hl
  rw [window, window, List.drop_append_of_le_length (by omega), List.take_append_of_le_length]
  rw [List.length_drop]
  omega

/-! ## Growing and writing -/

lemma length_resize (l : List α) (n : ℕ) (z : α) : (resize l n z).length = n := by
  simp only [resize, List.length_append, List.length_take, List.length_replicate]
  omega

@[simp] lemma resize_length (l : List α) (z : α) : resize l l.length z = l := by
  simp [resize]

/-- A write at the end is an append. -/
@[simp] lemma overwrite_length (l bs : List α) : overwrite l l.length bs = l ++ bs := by
  simp [overwrite]

lemma getElem?_resize (l : List α) (n : ℕ) (z : α) {j : ℕ} (hj : j < n) :
    (resize l n z)[j]? = some (l[j]?.getD z) := by
  rw [resize, List.getElem?_append, List.length_take]
  split_ifs with h
  · rw [List.getElem?_take_of_lt hj, List.getElem?_eq_getElem (by omega), Option.getD_some]
  · rw [List.getElem?_replicate, if_pos (by omega), List.getElem?_eq_none (by omega),
      Option.getD_none]

lemma length_overwrite_of_le {l bs : List α} {p : ℕ} (h : p + bs.length ≤ l.length) :
    (overwrite l p bs).length = l.length := by
  simp only [overwrite, List.length_append, List.length_take, List.length_drop]
  omega

/-- A write changes exactly the positions it covers. -/
lemma getElem?_overwrite {l bs : List α} {p : ℕ} (h : p + bs.length ≤ l.length) (j : ℕ) :
    (overwrite l p bs)[j]? = (covering (p, bs) j).or l[j]? := by
  have htake : (l.take p).length = p := by
    rw [List.length_take]
    omega
  rw [overwrite, covering]
  rcases Nat.lt_or_ge j p with hlt | hge
  · rw [List.getElem?_append_left (by omega), List.getElem?_take_of_lt hlt, if_neg (by simpa),
      Option.none_or]
  · rw [List.getElem?_append_right (by omega), htake, if_pos hge]
    rcases Nat.lt_or_ge (j - p) bs.length with hin | hout
    · rw [List.getElem?_append_left hin, List.getElem?_eq_getElem hin, Option.some_or]
    · rw [List.getElem?_append_right hout, List.getElem?_eq_none hout, Option.none_or,
        List.getElem?_drop]
      congr 1
      omega

/-- **After a list of writes, each position holds its last write**, or what it held before. -/
theorem getElem?_overwriteAll (ws : List (ℕ × List α)) : ∀ {l : List α},
    (∀ w ∈ ws, w.1 + w.2.length ≤ l.length) →
      (overwriteAll l ws).length = l.length ∧
        ∀ j, (overwriteAll l ws)[j]? = (lastWrite ws j).or l[j]? := by
  induction ws with
  | nil =>
      intro l _
      exact ⟨rfl, fun j => rfl⟩
  | cons w ws ih =>
      intro l h
      have hw := h w (by simp)
      have hlen := length_overwrite_of_le hw
      obtain ⟨ihlen, ihget⟩ := ih (l := overwrite l w.1 w.2) fun w' hw' => by
        rw [hlen]
        exact h w' (List.mem_cons_of_mem w hw')
      refine ⟨ihlen.trans hlen, fun j => ?_⟩
      show (overwriteAll (overwrite l w.1 w.2) ws)[j]? = _
      rw [ihget j, getElem?_overwrite hw, lastWrite, Option.or_assoc]

/-- Writes to disjoint ranges commute. -/
lemma overwrite_comm {l bs cs : List α} {p q : ℕ} (hp : p + bs.length ≤ l.length)
    (hq : q + cs.length ≤ l.length) (hdisj : p + bs.length ≤ q ∨ q + cs.length ≤ p) :
    overwrite (overwrite l p bs) q cs = overwrite (overwrite l q cs) p bs := by
  have hp' := length_overwrite_of_le hp
  have hq' := length_overwrite_of_le hq
  refine List.ext_getElem? fun j => ?_
  rw [getElem?_overwrite (by omega), getElem?_overwrite hp, getElem?_overwrite (by omega),
    getElem?_overwrite hq, ← Option.or_assoc, ← Option.or_assoc]
  congr 1
  -- at most one of the two covers `j`
  simp only [covering]
  split_ifs with hj hj'
  · rcases hdisj with h | h
    · rw [List.getElem?_eq_none (show bs.length ≤ j - p by omega), Option.or_none, Option.none_or]
    · rw [List.getElem?_eq_none (show cs.length ≤ j - q by omega), Option.or_none, Option.none_or]
  · rw [Option.or_none, Option.none_or]
  · rw [Option.or_none, Option.none_or]
  · rfl

end Window
