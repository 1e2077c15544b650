/-
  Orbyt.Lib.DecimalContext — decimal arithmetic under a context

  A finite decimal stands for a rational number.  A context says to how many significant
  digits the result of an operation is rounded (ROUND_HALF_EVEN), and how many digits a
  quantised number may have; CPython's own is `standard`, `exact` rounds nothing.

    * `none` of `div` is a DivisionByZero;
    * `none` of `quantize` is an InvalidOperation: more digits than the precision;
    * `none` of `equals` is an InvalidOperation too: a signalling NaN.

  Main results:
    * `quantize_eq_some` — a quantised number is the half-up rounding, and fits;
    * `quantize_val`     — quantising again changes nothing;
    * `ofText_str`       — a quantised number is read back as it was printed.
-/
import Mathlib.Data.Int.Log
import Orbyt.Lib.PyDecimal
import Orbyt.Lib.Rounding

namespace PyText

open Rounding

/-! ## §1. Values. -/

/-- The number that a finite decimal stands for. -/
def Decimal.toRat : Decimal → Option ℚ
  | .finite negative coefficient exponent =>
      some ((if negative then -(coefficient : ℚ) else coefficient) * 10 ^ exponent)
  | _ => none

/-- `d == q` -/
def Decimal.equals (d : Decimal) (q : ℚ) : Option Bool :=
  match d with
  | .nan _ signalling => if signalling then none else some false
  | d => some (d.toRat == some q)

/-! ## §2. Contexts. -/

structure Context where
  /-- The significant digits of a result; all of them if there is no limit. -/
  prec : Option Nat
  deriving DecidableEq, Repr

namespace Context

/-- Nothing is rounded away. -/
def exact : Context := ⟨none⟩

/-- `getcontext()` -/
def standard : Context := ⟨some 28⟩

variable {C : Context} {q r : ℚ} {p : ℕ} {a : Fixed p}

/-- The result of an operation. -/
def round (C : Context) (q : ℚ) : ℚ :=
  match C.prec with
  | none => q
  | some prec =>
      let exponent := Int.log 10 |q| + 1 - prec
      halfEven (q / 10 ^ exponent) * 10 ^ exponent

def add (C : Context) (q r : ℚ) : ℚ := C.round (q + r)
def sub (C : Context) (q r : ℚ) : ℚ := C.round (q - r)
def mul (C : Context) (q r : ℚ) : ℚ := C.round (q * r)
def div (C : Context) (q r : ℚ) : Option ℚ := if r = 0 then none else some (C.round (q / r))

/-- No more digits than the precision. -/
def Fits (C : Context) (a : Fixed p) : Prop :=
  ∀ prec, C.prec = some prec → a.units.natAbs < 10 ^ prec

instance : Decidable (C.Fits a) :=
  match h : C.prec with
  | none => isTrue fun prec hp => by rw [h] at hp; cases hp
  | some prec => decidable_of_iff (a.units.natAbs < 10 ^ prec)
      ⟨fun hlt prec' hp => by rw [h] at hp; cases hp; exact hlt, fun hall => hall prec h⟩

/-- `q.quantize(Decimal(10) ** -p, rounding=ROUND_HALF_UP)` -/
def quantize (C : Context) (p : ℕ) (q : ℚ) : Option (Fixed p) :=
  if C.Fits (Fixed.ofRat q : Fixed p) then some (Fixed.ofRat q) else none

example : standard.div 1 3 = some (3333333333333333333333333333 / 10 ^ 28) := by decide +kernel
example : standard.quantize 6 (1.0000005) = some ⟨1000001⟩ := by decide +kernel

/-! ## §3. Exact arithmetic. -/

@[simp] theorem exact_round : exact.round q = q := rfl
@[simp] theorem exact_add : exact.add q r = q + r := rfl
@[simp] theorem exact_sub : exact.sub q r = q - r := rfl
@[simp] theorem exact_mul : exact.mul q r = q * r := rfl

theorem exact_fits (a : Fixed p) : exact.Fits a := fun _ h => by cases h

@[simp] theorem exact_quantize : exact.quantize p q = some (Fixed.ofRat q) := if_pos (exact_fits _)

/-! ## §4. Rounded results. -/

theorem floor_le_halfEven (q : ℚ) : ⌊q⌋ ≤ halfEven q := by
  unfold halfEven
  dsimp only
  split
  · exact le_refl _
  · omega

theorem halfEven_nonpos (hq : q ≤ 0) : halfEven q ≤ 0 := by
  rcases hq.lt_or_eq with hneg | rfl
  · have hfloor : ⌊q⌋ < 0 := Int.floor_lt.mpr (by exact_mod_cast hneg)
    unfold halfEven
    dsimp only
    split <;> omega
  · simp [halfEven]

/-- A result has the sign of what is rounded. -/
theorem round_nonpos (hq : q ≤ 0) : C.round q ≤ 0 := by
  unfold round
  split
  · exact hq
  next prec _ =>
    have hscale : (0 : ℚ) < 10 ^ (Int.log 10 |q| + 1 - prec) := zpow_pos (by norm_num) _
    have hhalf := halfEven_nonpos (div_nonpos_of_nonpos_of_nonneg hq hscale.le)
    exact mul_nonpos_of_nonpos_of_nonneg (by exact_mod_cast hhalf) hscale.le

theorem round_nonneg (hq : 0 ≤ q) : 0 ≤ C.round q := by
  unfold round
  split
  · exact hq
  next prec _ =>
    have hscale : (0 : ℚ) < 10 ^ (Int.log 10 |q| + 1 - prec) := zpow_pos (by norm_num) _
    have hfloor : 0 ≤ ⌊q / 10 ^ (Int.log 10 |q| + 1 - prec)⌋ := Int.floor_nonneg.mpr (by positivity)
    have hhalf := hfloor.trans (floor_le_halfEven _)
    exact mul_nonneg (by exact_mod_cast hhalf) hscale.le

/-- Rounding to so many digits takes no tenth away. -/
theorem le_standard_round (hq : 0 ≤ q) : 9 / 10 * q ≤ standard.round q := by
  rcases hq.eq_or_lt with rfl | hpos
  · unfold round standard
    simp [halfEven]
  · have hscale : (0 : ℚ) < 10 ^ (Int.log 10 |q| + 1 - 28) := zpow_pos (by norm_num) _
    obtain ⟨y, hy⟩ : ∃ y, y = q / 10 ^ (Int.log 10 |q| + 1 - 28) := ⟨_, rfl⟩
    have hq' : q = y * 10 ^ (Int.log 10 |q| + 1 - 28) := by
      rw [hy]
      field_simp
    -- 28 digits are in front of the point
    have hten : 10 ≤ y := by
      rw [hy, le_div_iff₀ hscale]
      have hlog : ((10 : ℕ) : ℚ) ^ Int.log 10 |q| ≤ |q| :=
        Int.zpow_log_le_self (by decide) (abs_pos.mpr hpos.ne')
      rw [abs_of_pos hpos] at hlog ⊢
      calc (10 : ℚ) * 10 ^ (Int.log 10 q + 1 - 28) = 10 ^ (Int.log 10 q + 1 - 28 + 1) := by
            rw [zpow_add_one₀ (by norm_num), mul_comm]
        _ ≤ 10 ^ Int.log 10 q := zpow_le_zpow_right₀ (by norm_num) (by omega)
        _ ≤ q := by exact_mod_cast hlog
    have hround : y - 1 ≤ halfEven y := by
      have hfloor : (⌊y⌋ : ℚ) ≤ halfEven y := by exact_mod_cast floor_le_halfEven y
      have := Int.lt_floor_add_one y
      linarith
    have hresult : standard.round q = halfEven y * 10 ^ (Int.log 10 |q| + 1 - 28) := by
      rw [hy]
      rfl
    calc 9 / 10 * q = 9 / 10 * y * 10 ^ (Int.log 10 |q| + 1 - 28) := by
          rw [mul_assoc, ← hq']
      _ ≤ halfEven y * 10 ^ (Int.log 10 |q| + 1 - 28) :=
          mul_le_mul_of_nonneg_right (by linarith) hscale.le
      _ = standard.round q := hresult.symm

/-! ## §5. Quantised numbers. -/

theorem quantize_eq_some : C.quantize p q = some a ↔ C.Fits a ∧ a = Fixed.ofRat q := by
  unfold quantize
  split
  next h =>
    constructor
    · intro ha
      obtain rfl := Option.some.inj ha
      exact ⟨h, rfl⟩
    · rintro ⟨-, rfl⟩
      rfl
  next h =>
    constructor
    · intro ha
      cases ha
    · rintro ⟨hfits, rfl⟩
      exact absurd hfits h

/-- What has been quantised is quantised to itself. -/
theorem quantize_val (h : C.Fits a) : C.quantize p a.val = some a :=
  quantize_eq_some.mpr ⟨h, (Fixed.ofRat_val a).symm⟩

end Context

/-! ## §6. Printed numbers. -/

/-- A number with `p` places, as a decimal of that exponent. -/
def ofFixed {p : ℕ} (a : Fixed p) : Decimal :=
  .finite (decide (a.units < 0)) a.units.natAbs (-(p : ℤ))

/-- `str(a)` -/
def str {p : ℕ} (a : Fixed p) : Text := (ofFixed a).str

variable {p : ℕ} {a b : Fixed p}

@[simp] theorem toRat_ofFixed (a : Fixed p) : (ofFixed a).toRat = some a.val := by
  show some ((if decide (a.units < 0) = true then -((a.units.natAbs : ℕ) : ℚ)
    else (a.units.natAbs : ℕ)) * 10 ^ (-(p : ℤ))) = some (a.units / 10 ^ p : ℚ)
  rw [zpow_neg, zpow_natCast, div_eq_mul_inv]
  congr 2
  by_cases h : a.units < 0
  · rw [if_pos (decide_eq_true h), Nat.cast_natAbs, abs_of_neg h]
    push_cast
    ring
  · rw [if_neg (by simpa using h), Nat.cast_natAbs, abs_of_nonneg (not_lt.mp h)]

@[simp] theorem equals_val (a : Fixed p) (q : ℚ) :
    (ofFixed a).equals q = some (decide (a.val = q)) := by
  show some ((ofFixed a).toRat == some q) = _
  rw [toRat_ofFixed]
  simp [beq_eq_decide]

/-- Only the number itself compares equal. -/
theorem Decimal.equals_eq_true {d : Decimal} {q : ℚ} :
    d.equals q = some true ↔ d.toRat = some q := by
  cases d with
  | nan negative signalling => cases signalling <;> simp [Decimal.equals, Decimal.toRat]
  | _ => simp [Decimal.equals]

@[simp] theorem isNaN_ofFixed (a : Fixed p) : (ofFixed a).isNaN = false := rfl

/-- The order of a printed number against zero. -/
theorem compareZero_ofFixed (a : Fixed p) : (ofFixed a).compareZero
    = some (if a.units = 0 then .eq else if a.units < 0 then .lt else .gt) := by
  unfold ofFixed Decimal.compareZero
  simp only [Int.natAbs_eq_zero, decide_eq_true_eq]

/-- **A QUANTISED NUMBER IS READ BACK** as it was printed, by a form that drops commas and
blanks. -/
theorem ofText_str (hp : 0 < p) (hp6 : p ≤ 6) (ha : Context.standard.Fits a) :
    ofText (str a) = some (ofFixed a) := by
  have hlen : (Nat.toDigits 10 a.units.natAbs).length ≤ 28 :=
    (Nat.length_toDigits_le_iff (by decide) (by decide)).mpr (ha 28 rfl)
  exact ofText_strFinite hp hp6 (hlen.trans (by decide))

theorem strip_str (hp : 0 < p) (hp6 : p ≤ 6) (a : Fixed p) : strip (str a) = str a :=
  strip_of_not_space fun c hc => (strFinite_numeric hp hp6 c hc).1

theorem remove_str (hp : 0 < p) (hp6 : p ≤ 6) (a : Fixed p) : remove ',' (str a) = str a :=
  remove_of_not_mem fun c hc => (strFinite_numeric hp hp6 c hc).2.2.2.2

end PyText
