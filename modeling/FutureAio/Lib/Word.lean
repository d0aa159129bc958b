import Mathlib.Algebra.Ring.Nat
import Mathlib.Tactic.Common
import Mathlib.Data.Nat.Notation
import Mathlib.Data.Int.Notation

/-!
# `u64` arithmetic in the two build modes

`a + b` on `u64` is not one function.  A build with overflow checks panics when the sum leaves
the range; a build without them keeps the low 64 bits.  A statement about code that adds two
lengths is therefore a statement about both builds, and the usual way to prove one is to show
that the operation stays in range, after which the two agree.

* `Build` — which of the two builds runs.
* `addU64`, `subU64` — the operation in a given build; `none` is the panic.
* `checkedAddU64`, `checkedMulU64` — the operations that answer `None` out of range.
* `asI64` — the cast `x as i64`, which keeps the bits and reads them as two's complement.

In range the result is the exact one in every build (`addU64_of_lt`, `subU64_of_le`); out of
range the two builds part: the one with checks panics (`addU64_debug`), the other loses `2 ^ 64`
(`addU64_release`, `toNat_add_of_ge`).
-/

namespace RustInt

/-- Which overflow semantics a build was compiled with. -/
inductive Build where
  | debug
  | release
  deriving DecidableEq, Repr

/-- What an operation that left the range yields: the panic, or the wrapped value. -/
def overflowed : Build → UInt64 → Option UInt64
  | Build.debug, _ => none
  | Build.release, wrapped => some wrapped

/-- `a + b` on `u64`. -/
def addU64 (build : Build) (a b : UInt64) : Option UInt64 :=
  if a.toNat + b.toNat < 2 ^ 64 then some (a + b) else overflowed build (a + b)

/-- `a - b` on `u64`. -/
def subU64 (build : Build) (a b : UInt64) : Option UInt64 :=
  if b ≤ a then some (a - b) else overflowed build (a - b)

/-- `x as i64`: the same 64 bits, read as two's complement. -/
def asI64 (x : UInt64) : ℤ := x.toBitVec.toInt

/-- `u64::checked_add`. -/
def checkedAddU64 (a b : UInt64) : Option UInt64 :=
  if a.toNat + b.toNat < 2 ^ 64 then some (a + b) else none

/-- `u64::checked_mul`. -/
def checkedMulU64 (a b : UInt64) : Option UInt64 :=
  if a.toNat * b.toNat < 2 ^ 64 then some (a * b) else none

/-! ## In range -/

lemma toNat_add_of_lt {a b : UInt64} (h : a.toNat + b.toNat < 2 ^ 64) :
    (a + b).toNat = a.toNat + b.toNat := by
  rw [UInt64.toNat_add]
  exact Nat.mod_eq_of_lt h

/-- An addition that stays in range is exact, whatever the build. -/
lemma addU64_of_lt (build : Build) {a b : UInt64} (h : a.toNat + b.toNat < 2 ^ 64) :
    addU64 build a b = some (a + b) := by
  rw [addU64, if_pos h]

/-- A subtraction that stays in range is exact, whatever the build. -/
lemma subU64_of_le (build : Build) {a b : UInt64} (h : b ≤ a) :
    subU64 build a b = some (a - b) := by
  rw [subU64, if_pos h]

/-- Below the sign bit the cast to `i64` keeps the value. -/
lemma asI64_of_lt {x : UInt64} (h : x.toNat < 2 ^ 63) : asI64 x = x.toNat := by
  have hbits : x.toBitVec.toNat = x.toNat := rfl
  rw [asI64, BitVec.toInt_eq_toNat_cond, hbits, if_pos (by omega)]

/-- From the sign bit on the cast to `i64` is negative. -/
lemma asI64_of_ge {x : UInt64} (h : 2 ^ 63 ≤ x.toNat) : asI64 x < 0 := by
  have hbits : x.toBitVec.toNat = x.toNat := rfl
  have hlt := x.toNat_lt
  rw [asI64, BitVec.toInt_eq_toNat_cond, hbits, if_neg (by omega)]
  omega

/-! ## Checked operations -/

lemma checkedAddU64_cases (a b : UInt64) :
    (∃ c, checkedAddU64 a b = some c ∧ c.toNat = a.toNat + b.toNat) ∨
      (checkedAddU64 a b = none ∧ 2 ^ 64 ≤ a.toNat + b.toNat) := by
  rw [checkedAddU64]
  split_ifs with h
  · exact Or.inl ⟨a + b, rfl, toNat_add_of_lt h⟩
  · exact Or.inr ⟨rfl, by omega⟩

lemma checkedMulU64_cases (a b : UInt64) :
    (∃ c, checkedMulU64 a b = some c ∧ c.toNat = a.toNat * b.toNat) ∨
      (checkedMulU64 a b = none ∧ 2 ^ 64 ≤ a.toNat * b.toNat) := by
  rw [checkedMulU64]
  split_ifs with h
  · refine Or.inl ⟨a * b, rfl, ?_⟩
    rw [UInt64.toNat_mul]
    exact Nat.mod_eq_of_lt h
  · exact Or.inr ⟨rfl, by omega⟩

/-! ## Out of range -/

lemma toNat_add_of_ge {a b : UInt64} (h : 2 ^ 64 ≤ a.toNat + b.toNat) :
    (a + b).toNat = a.toNat + b.toNat - 2 ^ 64 := by
  have ha := a.toNat_lt
  have hb := b.toNat_lt
  rw [UInt64.toNat_add, Nat.mod_eq_sub_mod h, Nat.mod_eq_of_lt (by omega)]

lemma addU64_debug {a b : UInt64} (h : 2 ^ 64 ≤ a.toNat + b.toNat) :
    addU64 Build.debug a b = none := by
  rw [addU64, if_neg (by omega), overflowed]

lemma addU64_release (a b : UInt64) : addU64 Build.release a b = some (a + b) := by
  rw [addU64, overflowed, ite_self]

/-- What an addition yields is the true sum, or that less `2 ^ 64`. -/
lemma toNat_of_addU64 {build : Build} {a b c : UInt64} (h : addU64 build a b = some c) :
    c.toNat = a.toNat + b.toNat ∨ c.toNat + 2 ^ 64 = a.toNat + b.toNat := by
  rcases Nat.lt_or_ge (a.toNat + b.toNat) (2 ^ 64) with hlt | hge
  · rw [addU64_of_lt build hlt, Option.some.injEq] at h
    exact Or.inl (by rw [← h, toNat_add_of_lt hlt])
  · cases build with
    | debug =>
        rw [addU64_debug hge] at h
        exact absurd h (by simp)
    | release =>
        rw [addU64_release, Option.some.injEq] at h
        have hsum := toNat_add_of_ge hge
        rw [h] at hsum
        omega

end RustInt
