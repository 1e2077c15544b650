/-
  Orbyt.Lib.Rounding — rounding to the nearest integer, and to a number of places

  `halfUp` is ROUND_HALF_UP of decimal arithmetic: a half goes away from zero, so a number and
  its negation round alike.  `halfEven` is the other common mode: a half goes to the even
  neighbour.

  `Fixed n` is a number with exactly `n` decimal places, an integer in units of `10 ^ -n`.

  Main results:
    * `halfUp_mono`, `abs_sub_halfUp_le` — rounding keeps the order and is off by half a unit;
    * `halfUp_add_le`                    — a whole step more rounds to a whole step more;
    * `Fixed.ofRat_val`                  — what has `n` places already is not changed.
-/
import Mathlib.Algebra.Order.Round
import Mathlib.Algebra.Order.Floor.Ring
import Mathlib.Data.Rat.Floor
import Mathlib.Tactic.Linarith
import Mathlib.Tactic.Positivity
import Mathlib.Tactic.FieldSimp
import Mathlib.Tactic.Ring

namespace Rounding

variable {K : Type} [Field K] [LinearOrder K] [FloorRing K]

/-! ## §1. To the nearest integer. -/

/-- Halves go away from zero. -/
def halfUp (x : K) : ℤ := if 0 ≤ x then round x else -round (-x)

/-- Halves go to the even neighbour. -/
def halfEven (x : K) : ℤ :=
  let low := ⌊x⌋
  if 2 * (x - low) < 1 ∨ (2 * (x - low) = 1 ∧ low % 2 = 0) then low else low + 1

variable {x y : K} {k n : ℤ}

theorem halfUp_of_nonneg (h : 0 ≤ x) : halfUp x = round x := if_pos h

theorem halfUp_of_neg (h : x < 0) : halfUp x = -round (-x) := if_neg (not_le.mpr h)

variable [IsStrictOrderedRing K]

@[simp] theorem halfUp_intCast (n : ℤ) : halfUp (n : K) = n := by
  unfold halfUp
  split
  · exact round_intCast n
  · rw [← Int.cast_neg, round_intCast, neg_neg]

@[simp] theorem halfUp_zero : halfUp (0 : K) = 0 := by
  rw [← Int.cast_zero, halfUp_intCast]

theorem le_halfUp (hx : 0 ≤ x) : k ≤ halfUp x ↔ 2 * (k : K) - 1 ≤ 2 * x := by
  rw [halfUp_of_nonneg hx, round_eq, Int.le_floor]
  constructor
  · intro h
    linarith
  · intro h
    linarith

theorem halfUp_lt (hx : 0 ≤ x) : halfUp x < k ↔ 2 * x < 2 * (k : K) - 1 := by
  rw [← not_le, le_halfUp hx, not_le]

theorem halfUp_nonneg (hx : 0 ≤ x) : 0 ≤ halfUp x := by
  rw [le_halfUp hx]
  push_cast
  linarith

theorem halfUp_nonpos (hx : x ≤ 0) : halfUp x ≤ 0 := by
  rcases hx.lt_or_eq with hneg | rfl
  · rw [halfUp_of_neg hneg, ← halfUp_of_nonneg (by linarith)]
    have := halfUp_nonneg (x := -x) (by linarith)
    omega
  · rw [halfUp_zero]

theorem halfUp_mono (h : x ≤ y) : halfUp x ≤ halfUp y := by
  rcases le_or_gt 0 x with hx | hx
  · rw [le_halfUp (hx.trans h)]
    have := (le_halfUp hx).mp le_rfl
    linarith
  · rcases le_or_gt 0 y with hy | hy
    · exact (halfUp_nonpos hx.le).trans (halfUp_nonneg hy)
    · -- below zero the order turns round twice
      rw [halfUp_of_neg hx, halfUp_of_neg hy, neg_le_neg_iff,
        ← halfUp_of_nonneg (x := -y) (by linarith), ← halfUp_of_nonneg (x := -x) (by linarith),
        le_halfUp (by linarith)]
      have := (le_halfUp (x := -y) (by linarith)).mp le_rfl
      linarith

/-- Half a unit away at most. -/
theorem abs_sub_halfUp_le (x : K) : 2 * |x - halfUp x| ≤ 1 := by
  have habs : ∀ z : K, 2 * |z - round z| ≤ 1 := fun z => by
    have := abs_sub_round z
    linarith
  rcases le_or_gt 0 x with hx | hx
  · rw [halfUp_of_nonneg hx]
    exact habs x
  · rw [halfUp_of_neg hx]
    have := habs (-x)
    rwa [show -x - (round (-x) : K) = -(x - ((-round (-x) : ℤ) : K)) by push_cast; ring,
      abs_neg] at this

/-- Whole steps are not rounded. -/
theorem halfUp_add (hx : 0 ≤ x) (hk : 0 ≤ k) : halfUp (x + k) = halfUp x + k := by
  have hk' : (0 : K) ≤ k := by exact_mod_cast hk
  rw [halfUp_of_nonneg hx, halfUp_of_nonneg (by linarith), round_add_intCast]

/-- A step of at most `k` rounds to a step of at most `k`. -/
theorem halfUp_add_le (hx : 0 ≤ x) (hk : 0 ≤ k) (h : y ≤ x + k) : halfUp y ≤ halfUp x + k :=
  (halfUp_mono h).trans (halfUp_add hx hk).le

/-- What rounds to more than nothing is more than nothing. -/
theorem pos_of_halfUp_pos (h : 0 < halfUp x) : 0 < x := by
  by_contra hx
  have := halfUp_nonpos (not_lt.mp hx)
  omega

/-! ## §2. Numbers with a fixed number of places. -/

/-- A number with `places` decimal places, in units of `10 ^ -places`. -/
structure Fixed (places : ℕ) where
  units : ℤ
  deriving DecidableEq, Repr

namespace Fixed

variable {p : ℕ} {a b : Fixed p} {q r : ℚ}

def val (a : Fixed p) : ℚ := a.units / 10 ^ p

/-- Rounded half up to `p` places. -/
def ofRat (q : ℚ) : Fixed p := ⟨halfUp (q * 10 ^ p)⟩

theorem ten_pow_pos (p : ℕ) : (0 : ℚ) < 10 ^ p := by positivity

theorem val_mul (a : Fixed p) : a.val * 10 ^ p = a.units := by
  unfold val
  field_simp

theorem val_inj : a.val = b.val ↔ a = b := by
  constructor
  · intro h
    have := congrArg (· * (10 : ℚ) ^ p) h
    simp only [val_mul, Int.cast_inj] at this
    cases a
    cases b
    exact congrArg Fixed.mk this
  · exact congrArg val

/-- What has `p` places already is not changed. -/
@[simp] theorem ofRat_val (a : Fixed p) : ofRat a.val = a := by
  unfold ofRat
  rw [val_mul, halfUp_intCast]

theorem val_le_val : a.val ≤ b.val ↔ a.units ≤ b.units := by
  unfold val
  rw [div_le_div_iff_of_pos_right (ten_pow_pos p), Int.cast_le]

theorem val_lt_val : a.val < b.val ↔ a.units < b.units := by
  rw [← not_le, val_le_val, not_le]

theorem val_pos : 0 < a.val ↔ 0 < a.units := by
  unfold val
  rw [div_pos_iff_of_pos_right (ten_pow_pos p), Int.cast_pos]

theorem val_nonneg : 0 ≤ a.val ↔ 0 ≤ a.units := by
  unfold val
  rw [le_div_iff₀ (ten_pow_pos p), zero_mul, Int.cast_nonneg_iff]

theorem ofRat_mono (h : q ≤ r) : (ofRat q : Fixed p).val ≤ (ofRat r : Fixed p).val :=
  val_le_val.mpr (halfUp_mono (mul_le_mul_of_nonneg_right h (ten_pow_pos p).le))

/-- Off by half a unit at most. -/
theorem abs_sub_ofRat_le (q : ℚ) : 2 * |q - (ofRat q : Fixed p).val| ≤ 1 / 10 ^ p := by
  have h := abs_sub_halfUp_le (q * 10 ^ p)
  have hscale : q * 10 ^ p - (halfUp (q * 10 ^ p) : ℚ) =
      (q - (ofRat q : Fixed p).val) * 10 ^ p := by
    rw [sub_mul, val_mul]
    rfl
  rw [hscale, abs_mul, abs_of_pos (ten_pow_pos p), ← mul_assoc] at h
  rwa [le_div_iff₀ (ten_pow_pos p)]

theorem ofRat_nonneg (h : 0 ≤ q) : 0 ≤ (ofRat q : Fixed p).val :=
  val_nonneg.mpr (halfUp_nonneg (mul_nonneg h (ten_pow_pos p).le))

/-- What has `p` places has more of them too. -/
theorem ofRat_val_of_le {p' : ℕ} (h : p ≤ p') (a : Fixed p) :
    (ofRat a.val : Fixed p').val = a.val := by
  have hunits : a.val * 10 ^ p' = ((a.units * 10 ^ (p' - p) : ℤ) : ℚ) := by
    obtain ⟨n, rfl⟩ := Nat.exists_eq_add_of_le h
    rw [pow_add, ← mul_assoc, val_mul, Nat.add_sub_cancel_left]
    push_cast
    rfl
  unfold ofRat
  rw [hunits, halfUp_intCast]
  show ((a.units * 10 ^ (p' - p) : ℤ) : ℚ) / 10 ^ p' = a.val
  rw [← hunits, mul_div_assoc, div_self (ten_pow_pos p').ne', mul_one]

theorem le_ofRat (h : a.val ≤ q) : a.val ≤ (ofRat q : Fixed p).val := by
  simpa using ofRat_mono (p := p) h

theorem pos_of_ofRat_pos (h : 0 < (ofRat q : Fixed p).val) : 0 < q :=
  pos_of_mul_pos_left (pos_of_halfUp_pos (val_pos.mp h)) (ten_pow_pos p).le

/-- Differences of numbers with `p` places have `p` places. -/
theorem ofRat_sub (a b : Fixed p) : (ofRat (a.val - b.val) : Fixed p).val = a.val - b.val := by
  have h : a.val - b.val = (⟨a.units - b.units⟩ : Fixed p).val := by
    unfold val
    push_cast
    ring
  rw [h, ofRat_val]

/-- A step from `a` to `b` between two arguments is the most that their roundings differ by. -/
theorem ofRat_step (hq : 0 ≤ q) (hab : a.val ≤ b.val) (h : r - q ≤ b.val - a.val) :
    (ofRat r : Fixed p).val - (ofRat q : Fixed p).val ≤ b.val - a.val := by
  have hk : 0 ≤ b.units - a.units := by
    have := val_le_val.mp hab
    omega
  have hstep : r * 10 ^ p ≤ q * 10 ^ p + ((b.units - a.units : ℤ) : ℚ) := by
    have := mul_le_mul_of_nonneg_right h (ten_pow_pos p).le
    rw [sub_mul, sub_mul, val_mul, val_mul] at this
    push_cast
    linarith
  have hround := halfUp_add_le (mul_nonneg hq (ten_pow_pos p).le) hk hstep
  unfold val ofRat
  rw [← sub_div, ← sub_div, div_le_div_iff_of_pos_right (ten_pow_pos p)]
  have : halfUp (r * 10 ^ p) - halfUp (q * 10 ^ p) ≤ b.units - a.units := by omega
  exact_mod_cast this

end Fixed

end Rounding
