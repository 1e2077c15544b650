/-
  Orbyt.Guarantees.Configuration — what an accepted configuration is worth once stored

  The forms check the numbers as typed, and the columns round them.

  Main results:
    * `configuration_kept` — which accepted fees and limits can be stored, and still pass their
      checks as stored;
    * `updateFees_writes`, `updateTierLimits_writes` — the routes write nothing else;
    * `exec_updateFees`, `exec_updateTier` — on a row that nobody has edited since it was loaded,
      their UPDATEs store just that;
    * `fees_nonneg`        — in every reachable state of the platform no fee is below zero.
-/
import Orbyt.Guarantees.Pricing
import Orbyt.Rules.Footprints

namespace Orbyt.Configuration

open PyText Rounding
open Function (update)
open Interleave.Prog (Uses)
open Pricing (bind_ok q_ok quoteFor FeeConfig Quote PricingError)

/-! ## §1. Columns. -/

variable {precision scale : ℕ} {v : ℚ} {a : Fixed scale}

/-- Half a unit in the last place short of the first number with a digit too many. -/
theorem numeric_eq_some (hv : 0 ≤ v) : numeric precision scale v = some a ↔
    2 * (v * 10 ^ scale) < 2 * 10 ^ precision - 1 ∧ a = Fixed.ofRat v := by
  have hscaled : 0 ≤ v * 10 ^ scale := mul_nonneg hv (Fixed.ten_pow_pos scale).le
  have hnonneg : 0 ≤ (Fixed.ofRat v : Fixed scale).units := halfUp_nonneg hscaled
  have hfits : (Fixed.ofRat v : Fixed scale).units.natAbs < 10 ^ precision ↔
      2 * (v * 10 ^ scale) < 2 * 10 ^ precision - 1 := by
    have hlt := halfUp_lt (k := (10 ^ precision : ℤ)) hscaled
    push_cast at hlt
    rw [← hlt]
    show _ ↔ (Fixed.ofRat v : Fixed scale).units < 10 ^ precision
    rw [← Int.natAbs_of_nonneg hnonneg]
    exact_mod_cast Iff.rfl
  unfold numeric
  by_cases hlt : (Fixed.ofRat v : Fixed scale).units.natAbs < 10 ^ precision
  · rw [if_pos hlt, Option.some.injEq]
    exact ⟨fun h => ⟨hfits.mp hlt, h.symm⟩, fun h => h.2.symm⟩
  · rw [if_neg hlt]
    exact ⟨fun h => (nomatch h), fun h => absurd (hfits.mpr h.1) hlt⟩

/-! ## §2. Fields. -/

theorem decimalField_nonneg {label : String} {raw : Text} (h : decimalField label raw = .ok v) :
    0 ≤ v := by
  unfold decimalField at h
  split at h
  · cases h
  · split at h
    · cases h
    · split at h
      · cases h
      next hv =>
        obtain rfl := Except.ok.inj h
        exact not_lt.mp hv

theorem checkedTier_ok {form : TierForm} {values : TierValues}
    (h : checkedTier form = .ok values) : 0 ≤ values.dailyLimitZar ∧ 0 ≤ values.monthlyLimitZar ∧
      values.dailyLimitZar ≤ values.monthlyLimitZar := by
  unfold checkedTier at h
  obtain ⟨daily, hdaily, h⟩ := bind_ok.mp h
  obtain ⟨monthly, hmonthly, h⟩ := bind_ok.mp h
  split at h
  · cases h
  · split at h
    · cases h
    next hle =>
      obtain rfl := Except.ok.inj h
      exact ⟨decimalField_nonneg hdaily, decimalField_nonneg hmonthly, not_lt.mp hle⟩

/-- The fees are not negative, as typed. -/
structure FeeValues.Nonneg (values : FeeValues) : Prop where
  fixedFeeZar : 0 ≤ values.fixedFeeZar
  percentageFee : 0 ≤ values.percentageFee
  fxMargin : 0 ≤ values.fxMargin
  cashoutFeePercentage : 0 ≤ values.cashoutFeePercentage
  cashoutFeeMinUsd : 0 ≤ values.cashoutFeeMinUsd
  marketRateZarPerUsd : 0 ≤ values.marketRateZarPerUsd
  minSendZar : 0 ≤ values.minSendZar

theorem checkedFees_nonneg {form : FeeForm} {values : FeeValues}
    (h : checkedFees form = .ok values) : values.Nonneg := by
  unfold checkedFees at h
  obtain ⟨fixedFee, hfixed, h⟩ := bind_ok.mp h
  obtain ⟨percentage, hpercentage, h⟩ := bind_ok.mp h
  obtain ⟨margin, hmargin, h⟩ := bind_ok.mp h
  obtain ⟨cashout, hcashout, h⟩ := bind_ok.mp h
  obtain ⟨minUsd, hminUsd, h⟩ := bind_ok.mp h
  obtain ⟨rate, hrate, h⟩ := bind_ok.mp h
  obtain ⟨minSend, hminSend, h⟩ := bind_ok.mp h
  split at h
  · cases h
  · split at h
    · cases h
    · obtain rfl := Except.ok.inj h
      exact ⟨decimalField_nonneg hfixed, decimalField_nonneg hpercentage,
        decimalField_nonneg hmargin, decimalField_nonneg hcashout, decimalField_nonneg hminUsd,
        decimalField_nonneg hrate, decimalField_nonneg hminSend⟩

/-! ## §3. No division by zero. -/

variable {α β : Type} {x : Except PricingError α} {f : α → Except PricingError β}

theorem no_division_bind (hx : x ≠ .error .divisionByZero)
    (hf : ∀ a, x = .ok a → f a ≠ .error .divisionByZero) : x >>= f ≠ .error .divisionByZero := by
  cases x with
  | error e =>
    intro h
    exact hx (congrArg _ (Except.error.inj h))
  | ok a => exact hf a rfl

theorem q_no_division (C : Context) (p : ℕ) (v : ℚ) : Pricing.q C p v ≠ .error .divisionByZero := by
  unfold Pricing.q
  cases C.quantize p v <;> simp

theorem cashoutPayout_no_division (C : Context) (x fee rate : ℚ) (currency : PayoutCurrency) :
    Pricing.cashoutPayout C x fee rate currency ≠ .error .divisionByZero := by
  cases currency <;> exact q_no_division C _ _

/-- A positive rate is still positive with the margin on it. -/
theorem exchange_pos {rate exchange : Fixed 6} {margin : ℚ} (hrate : 0 < rate.val)
    (hmargin : 0 ≤ margin)
    (h : Pricing.q .standard 6 (Context.standard.mul rate.val (Context.standard.add 1 margin))
      = .ok exchange) : 0 < exchange.val := by
  -- at least one unit of the sixth place, whatever rounding takes off it
  have hunit : 1 / 10 ^ 6 ≤ rate.val := by
    have hunits : (1 : ℚ) ≤ rate.units := by exact_mod_cast Fixed.val_pos.mp hrate
    unfold Fixed.val
    exact div_le_div_of_nonneg_right hunits (by norm_num)
  have hsum : 9 / 10 * (1 + margin) ≤ Context.standard.add 1 margin :=
    Context.le_standard_round (by linarith)
  have hproduct : 9 / 10 * (rate.val * Context.standard.add 1 margin)
      ≤ Context.standard.mul rate.val (Context.standard.add 1 margin) :=
    Context.le_standard_round (mul_nonneg hrate.le (by linarith))
  have hbig : (1 : ℚ) / (2 * 10 ^ 6)
      ≤ Context.standard.mul rate.val (Context.standard.add 1 margin) := by
    have : 1 / 10 ^ 6 * (9 / 10) ≤ rate.val * Context.standard.add 1 margin :=
      mul_le_mul hunit (by linarith) (by norm_num) hrate.le
    linarith
  rw [(q_ok.mp h).2, Fixed.val_pos]
  show 1 ≤ halfUp _
  have hpos : 0 ≤ Context.standard.mul rate.val (Context.standard.add 1 margin) := by linarith
  rw [le_halfUp (mul_nonneg hpos (by norm_num))]
  push_cast
  linarith

/-- A quote divides by nothing but its effective rate. -/
theorem quote_no_division {config : FeeConfig} {rate : Fixed 6}
    (hrate : Pricing.getMarketRate .standard .config config = .ok rate) (hpos : 0 < rate.val)
    (hmargin : 0 ≤ config.fxMargin) (z : ℚ) (currency : PayoutCurrency) :
    quoteFor .standard .config (some config) z currency ≠ .error .divisionByZero := by
  unfold quoteFor
  refine no_division_bind (q_no_division _ _ _) fun minimum _ => ?_
  refine no_division_bind (q_no_division _ _ _) fun asked _ => ?_
  split
  · exact nofun
  refine no_division_bind (q_no_division _ _ _) fun rate' hrate' => ?_
  obtain rfl := Except.ok.inj (hrate'.symm.trans hrate)
  unfold Pricing.calculateQuote
  refine no_division_bind (q_no_division _ _ _) fun zar _ => ?_
  refine no_division_bind (q_no_division _ _ _) fun market hmarket => ?_
  -- rounded twice is rounded once
  have hsame : market = rate' := by
    rw [(q_ok.mp hmarket).2, Fixed.ofRat_val]
  subst hsame
  refine no_division_bind (q_no_division _ _ _) fun fee _ => ?_
  refine no_division_bind (q_no_division _ _ _) fun exchange hexchange => ?_
  refine no_division_bind (q_no_division _ _ _) fun net _ => ?_
  split
  · exact nofun
  -- the one division
  rw [Pricing.divide_ok.mpr ⟨(exchange_pos hpos hmargin hexchange).ne', rfl⟩]
  refine no_division_bind nofun fun ratio _ => ?_
  refine no_division_bind (q_no_division _ _ _) fun uctusd _ => ?_
  split
  · exact nofun
  refine no_division_bind (q_no_division _ _ _) fun cashoutFee _ => ?_
  refine no_division_bind (cashoutPayout_no_division _ _ _ _ _) fun payout _ => ?_
  exact no_division_bind (q_no_division _ _ _) fun margin _ => nofun

/-! ## §4. Stored rows. -/

theorem feeValues_store {values : FeeValues} {row : FeeColumns} : values.store = some row ↔
    numeric 20 2 values.fixedFeeZar = some row.fixedFeeZar ∧
    numeric 10 6 values.percentageFee = some row.percentageFee ∧
    numeric 10 6 values.fxMargin = some row.fxMargin ∧
    numeric 10 6 values.cashoutFeePercentage = some row.cashoutFeePercentage ∧
    numeric 20 6 values.cashoutFeeMinUsd = some row.cashoutFeeMinUsd ∧
    numeric 20 6 values.marketRateZarPerUsd = some row.marketRateZarPerUsd ∧
    numeric 20 2 values.minSendZar = some row.minSendZar := by
  unfold FeeValues.store
  simp only [Option.bind_eq_bind, Option.bind_eq_some_iff, Option.pure_def, Option.some.injEq]
  constructor
  · rintro ⟨a, ha, b, hb, c, hc, d, hd, e, he, f, hf, g, hg, rfl⟩
    exact ⟨ha, hb, hc, hd, he, hf, hg⟩
  · rintro ⟨ha, hb, hc, hd, he, hf, hg⟩
    exact ⟨_, ha, _, hb, _, hc, _, hd, _, he, _, hf, _, hg, rfl⟩

theorem tierValues_store {values : TierValues} {row : TierColumns} : values.store = some row ↔
    numeric 20 2 values.dailyLimitZar = some row.dailyLimitZar ∧
    numeric 20 2 values.monthlyLimitZar = some row.monthlyLimitZar := by
  unfold TierValues.store
  simp only [Option.bind_eq_bind, Option.bind_eq_some_iff, Option.pure_def, Option.some.injEq]
  constructor
  · rintro ⟨a, ha, b, hb, rfl⟩
    exact ⟨ha, hb⟩
  · rintro ⟨ha, hb⟩
    exact ⟨_, ha, _, hb, rfl⟩

/-- Every value has a column to go to, and what is stored passes the checks and can be priced
with. -/
def FeeValues.Kept (values : FeeValues) : Prop :=
  ∃ row, values.store = some row ∧ 0 < row.marketRateZarPerUsd.val ∧
    row.fixedFeeZar.val < row.minSendZar.val ∧
    ∀ z currency,
      quoteFor .standard .config (some (.ofColumns row)) z currency ≠ .error .divisionByZero

def TierValues.Kept (values : TierValues) : Prop :=
  ∃ row, values.store = some row ∧ row.dailyLimitZar.val ≤ row.monthlyLimitZar.val ∧
    row.dailyLimitZar.val < 10 ^ 18 ∧ row.monthlyLimitZar.val < 10 ^ 18

/-- A market rate of half a millionth at least; a minimum with the midpoint of two cents between
it and the fixed fee; and no value within half a unit of what its column has no room for. -/
structure FeeValues.Fit (values : FeeValues) : Prop where
  rate : 1 ≤ 2 * (values.marketRateZarPerUsd * 10 ^ 6)
  apart : ∃ k : ℤ, 2 * (values.fixedFeeZar * 10 ^ 2) < 2 * k - 1 ∧
    2 * k - 1 ≤ 2 * (values.minSendZar * 10 ^ 2)
  fixedFeeZar : 2 * (values.fixedFeeZar * 10 ^ 2) < 2 * 10 ^ 20 - 1
  percentageFee : 2 * (values.percentageFee * 10 ^ 6) < 2 * 10 ^ 10 - 1
  fxMargin : 2 * (values.fxMargin * 10 ^ 6) < 2 * 10 ^ 10 - 1
  cashoutFeePercentage : 2 * (values.cashoutFeePercentage * 10 ^ 6) < 2 * 10 ^ 10 - 1
  cashoutFeeMinUsd : 2 * (values.cashoutFeeMinUsd * 10 ^ 6) < 2 * 10 ^ 20 - 1
  marketRateZarPerUsd : 2 * (values.marketRateZarPerUsd * 10 ^ 6) < 2 * 10 ^ 20 - 1
  minSendZar : 2 * (values.minSendZar * 10 ^ 2) < 2 * 10 ^ 20 - 1

/-- Two numbers round apart if the midpoint of two neighbours is between them. -/
theorem halfUp_lt_halfUp {x y : ℚ} (hx : 0 ≤ x) (hy : 0 ≤ y) :
    halfUp x < halfUp y ↔ ∃ k : ℤ, 2 * x < 2 * k - 1 ∧ 2 * k - 1 ≤ 2 * y := by
  constructor
  · intro h
    exact ⟨halfUp y, (halfUp_lt hx).mp h, (le_halfUp hy).mp le_rfl⟩
  · rintro ⟨k, hlt, hle⟩
    exact lt_of_lt_of_le ((halfUp_lt hx).mpr hlt) ((le_halfUp hy).mpr hle)

theorem ofRat_pos_iff {p : ℕ} (hv : 0 ≤ v) :
    0 < (Fixed.ofRat v : Fixed p).val ↔ 1 ≤ 2 * (v * 10 ^ p) := by
  rw [Fixed.val_pos]
  show 1 ≤ halfUp _ ↔ _
  rw [le_halfUp (mul_nonneg hv (Fixed.ten_pow_pos p).le)]
  push_cast
  constructor
  · intro h
    linarith
  · intro h
    linarith

theorem ofRat_lt_iff {p : ℕ} {w : ℚ} (hv : 0 ≤ v) (hw : 0 ≤ w) :
    (Fixed.ofRat v : Fixed p).val < (Fixed.ofRat w : Fixed p).val ↔
      ∃ k : ℤ, 2 * (v * 10 ^ p) < 2 * k - 1 ∧ 2 * k - 1 ≤ 2 * (w * 10 ^ p) := by
  rw [Fixed.val_lt_val]
  exact halfUp_lt_halfUp (mul_nonneg hv (Fixed.ten_pow_pos p).le)
    (mul_nonneg hw (Fixed.ten_pow_pos p).le)

/-- The rate of a stored row is read back as it was stored. -/
theorem stored_rate {values : FeeValues} {row : FeeColumns} (h : values.store = some row) :
    Pricing.getMarketRate .standard .config (.ofColumns row) = .ok row.marketRateZarPerUsd := by
  obtain ⟨-, -, -, -, -, hrate, -⟩ := feeValues_store.mp h
  have hlt : row.marketRateZarPerUsd.units.natAbs < 10 ^ 20 := by
    unfold numeric at hrate
    split at hrate
    next hfits =>
      rw [← Option.some.inj hrate]
      exact hfits
    next => cases hrate
  show Pricing.q .standard 6 row.marketRateZarPerUsd.val = _
  refine q_ok.mpr ⟨fun prec hprec => ?_, (Fixed.ofRat_val _).symm⟩
  obtain rfl : 28 = prec := Option.some.inj hprec
  exact hlt.trans (by decide)

/-- What is accepted of the fees is kept exactly if it fits. -/
theorem fees_kept {values : FeeValues} (hn : values.Nonneg) : values.Kept ↔ values.Fit := by
  constructor
  · rintro ⟨row, hstore, hrate, hapart, -⟩
    obtain ⟨ha, hb, hc, hd, he, hf, hg⟩ := feeValues_store.mp hstore
    obtain ⟨hfixed, hfixed'⟩ := (numeric_eq_some hn.fixedFeeZar).mp ha
    obtain ⟨hmin, hmin'⟩ := (numeric_eq_some hn.minSendZar).mp hg
    obtain ⟨hmarket, hmarket'⟩ := (numeric_eq_some hn.marketRateZarPerUsd).mp hf
    -- what the columns hold is read back as what was typed
    rw [hmarket', ofRat_pos_iff hn.marketRateZarPerUsd] at hrate
    rw [hfixed', hmin', ofRat_lt_iff hn.fixedFeeZar hn.minSendZar] at hapart
    exact ⟨hrate, hapart, hfixed, ((numeric_eq_some hn.percentageFee).mp hb).1,
      ((numeric_eq_some hn.fxMargin).mp hc).1, ((numeric_eq_some hn.cashoutFeePercentage).mp hd).1,
      ((numeric_eq_some hn.cashoutFeeMinUsd).mp he).1, hmarket, hmin⟩
  · intro h
    have hstore : values.store = some
        ⟨Fixed.ofRat values.fixedFeeZar, Fixed.ofRat values.percentageFee,
          Fixed.ofRat values.fxMargin, Fixed.ofRat values.cashoutFeePercentage,
          Fixed.ofRat values.cashoutFeeMinUsd, Fixed.ofRat values.marketRateZarPerUsd,
          Fixed.ofRat values.minSendZar⟩ :=
      feeValues_store.mpr ⟨(numeric_eq_some hn.fixedFeeZar).mpr ⟨h.fixedFeeZar, rfl⟩,
        (numeric_eq_some hn.percentageFee).mpr ⟨h.percentageFee, rfl⟩,
        (numeric_eq_some hn.fxMargin).mpr ⟨h.fxMargin, rfl⟩,
        (numeric_eq_some hn.cashoutFeePercentage).mpr ⟨h.cashoutFeePercentage, rfl⟩,
        (numeric_eq_some hn.cashoutFeeMinUsd).mpr ⟨h.cashoutFeeMinUsd, rfl⟩,
        (numeric_eq_some hn.marketRateZarPerUsd).mpr ⟨h.marketRateZarPerUsd, rfl⟩,
        (numeric_eq_some hn.minSendZar).mpr ⟨h.minSendZar, rfl⟩⟩
    have hrate := (ofRat_pos_iff (p := 6) hn.marketRateZarPerUsd).mpr h.rate
    exact ⟨_, hstore, hrate, (ofRat_lt_iff hn.fixedFeeZar hn.minSendZar).mpr h.apart,
      fun z currency => quote_no_division (stored_rate hstore) hrate
        (Fixed.ofRat_nonneg hn.fxMargin) z currency⟩

theorem tier_kept {values : TierValues} (hdaily : 0 ≤ values.dailyLimitZar)
    (hmonthly : 0 ≤ values.monthlyLimitZar)
    (hle : values.dailyLimitZar ≤ values.monthlyLimitZar) :
    values.Kept ↔ 2 * (values.monthlyLimitZar * 10 ^ 2) < 2 * 10 ^ 20 - 1 := by
  constructor
  · rintro ⟨row, hstore, -⟩
    exact ((numeric_eq_some hmonthly).mp (tierValues_store.mp hstore).2).1
  · intro h
    have hstore : values.store
        = some ⟨Fixed.ofRat values.dailyLimitZar, Fixed.ofRat values.monthlyLimitZar⟩ :=
      tierValues_store.mpr ⟨(numeric_eq_some hdaily).mpr ⟨by linarith, rfl⟩,
        (numeric_eq_some hmonthly).mpr ⟨h, rfl⟩⟩
    have hmono := Fixed.ofRat_mono (p := 2) hle
    have hbelow : (Fixed.ofRat values.monthlyLimitZar : Fixed 2).val < 10 ^ 18 := by
      have hunits : (Fixed.ofRat values.monthlyLimitZar : Fixed 2).units < 10 ^ 20 := by
        refine (halfUp_lt (mul_nonneg hmonthly (by norm_num))).mpr ?_
        push_cast
        exact h
      unfold Fixed.val
      rw [div_lt_iff₀ (by norm_num)]
      calc ((Fixed.ofRat values.monthlyLimitZar : Fixed 2).units : ℚ) < 10 ^ 20 := by
            exact_mod_cast hunits
        _ = 10 ^ 18 * 10 ^ 2 := by norm_num
    exact ⟨_, hstore, hmono, hmono.trans_lt hbelow, hbelow⟩

/-- **ACCEPTED CONFIGURATIONS, AS STORED**: fees that are accepted can be stored and pass their
checks as stored exactly if they fit, and limits exactly if the monthly one fits. -/
theorem configuration_kept (fees : FeeForm) (tier : TierForm) :
    (∀ values, checkedFees fees = .ok values → (values.Kept ↔ values.Fit)) ∧
    ∀ values, checkedTier tier = .ok values →
      (values.Kept ↔ 2 * (values.monthlyLimitZar * 10 ^ 2) < 2 * 10 ^ 20 - 1) := by
  constructor
  · intro values h
    exact fees_kept (checkedFees_nonneg h)
  · intro values h
    obtain ⟨hdaily, hmonthly, hle⟩ := checkedTier_ok h
    exact tier_kept hdaily hmonthly hle

/-- The form that an admin saves unchanged on the seeded row, with another market rate. -/
def feesAt (marketRate : String) : FeeForm where
  fixedFeeZar := "25.00".toList
  percentageFee := "0.015".toList
  fxMargin := "0.02".toList
  cashoutFeePercentage := "0.01".toList
  cashoutFeeMinUsd := "1".toList
  marketRateZarPerUsd := marketRate.toList
  minSendZar := "50.00".toList

theorem configuration_kept_seeded :
    (⟨25, 15 / 1000, 2 / 100, 1 / 100, 1, 185 / 10, 50⟩ : FeeValues).Kept :=
  ((configuration_kept (feesAt "18.50") ⟨[], []⟩).1 _ (by decide +kernel)).mpr
    ⟨by norm_num, ⟨3000, by norm_num⟩, by norm_num, by norm_num, by norm_num, by norm_num,
      by norm_num, by norm_num, by norm_num⟩

/-- A rate of a ten-millionth is accepted, stored as zero, and divided by. -/
theorem tiny_rate_divides : ∃ values row, checkedFees (feesAt "0.0000001") = .ok values ∧
    values.store = some row ∧ ¬ 0 < row.marketRateZarPerUsd.val ∧
    quoteFor .standard .config (some (.ofColumns row)) 1000 .ZAR = .error .divisionByZero :=
  ⟨⟨25, 15 / 1000, 2 / 100, 1 / 100, 1, 1 / 10 ^ 7, 50⟩,
    ⟨⟨2500⟩, ⟨15000⟩, ⟨20000⟩, ⟨10000⟩, ⟨1000000⟩, ⟨0⟩, ⟨5000⟩⟩, by decide +kernel,
    by decide +kernel, by decide +kernel, by decide +kernel⟩

/-! ## §5. The routes. -/

theorem eq_of_numeric (h : numeric precision scale v = some a) : a = Fixed.ofRat v := by
  unfold numeric at h
  split at h
  · exact (Option.some.inj h).symm
  · cases h

/-- On the row as it was loaded, what is assigned is what is stored, written or not. -/
theorem written_self {loaded new : Fixed scale} (h : new = Fixed.ofRat v) :
    written loaded v new loaded = new := by
  unfold written
  split
  next hsame => rw [h, hsame, Fixed.ofRat_val]
  next => rfl

theorem FeeColumns.edited_self {loaded new : FeeColumns} {values : FeeValues}
    (h : values.store = some new) : loaded.edited values new loaded = new := by
  obtain ⟨ha, hb, hc, hd, he, hf, hg⟩ := feeValues_store.mp h
  unfold FeeColumns.edited
  rw [written_self (eq_of_numeric ha), written_self (eq_of_numeric hb),
    written_self (eq_of_numeric hc), written_self (eq_of_numeric hd),
    written_self (eq_of_numeric he), written_self (eq_of_numeric hf),
    written_self (eq_of_numeric hg)]

theorem TierColumns.edited_self {loaded new : TierColumns} {values : TierValues}
    (h : values.store = some new) : loaded.edited values new loaded = new := by
  obtain ⟨ha, hb⟩ := tierValues_store.mp h
  unfold TierColumns.edited
  rw [written_self (eq_of_numeric ha), written_self (eq_of_numeric hb)]

variable {D : Directory.Setting} {i n : Nat} {l l' : Office.Session} {s s' : Office.World}

/-- The UPDATE of `update_fees` stores what the values come to, or is refused if one of them has
no column to go to. -/
theorem exec_updateFees {loaded : FeeColumns} {values : FeeValues} (hrow : l.fees s = some loaded)
    (hlock : s.feesLock.all (· == i) = true) :
    Office.exec D i l s (.updateFees loaded values) = some (match values.store with
      | some row => (.ok (), { l with feesWrite := some row }, { s with feesLock := some i })
      | none => (.error .dataError, l, s)) := by
  cases hstore : values.store with
  | none => simp only [Office.exec, hstore]
  | some row => simp only [Office.exec, hstore, hrow, if_pos hlock, FeeColumns.edited_self hstore]

/-- So does that of `update_tier_limits`. -/
theorem exec_updateTier {tier : Office.Tier} {values : TierValues} (hrow : l.tier s n = some tier)
    (hlock : freeFor s.tierLock i n = true) :
    Office.exec D i l s (.updateTier n tier.limits values) = some (match values.store with
      | some row =>
          (.ok (),
            { l with tierWrites := update l.tierWrites n (some { tier with limits := row }) },
            { s with tierLock := update s.tierLock n (some i) })
      | none => (.error .dataError, l, s)) := by
  cases hstore : values.store with
  | none => simp only [Office.exec, hstore]
  | some row => simp only [Office.exec, hstore, hrow, if_pos hlock, TierColumns.edited_self hstore]

/-- An UPDATE of `update_fees` is of fees that have passed the checks, which it keeps exactly if
they fit. -/
theorem updateFees_writes (form : FeeForm) :
    Uses (fun o : Orbyt.Op => ∀ loaded values, o = .office (.updateFees loaded values) →
      checkedFees form = .ok values ∧ (values.Kept ↔ values.Fit)) (Office.updateFees form) := by
  refine uses_updateFees (fun o ho loaded values hu => ?_) form fun o ho loaded values hu => ?_
  · subst hu
    cases ho
  · cases hu
    exact ⟨ho, fees_kept (checkedFees_nonneg ho)⟩

/-- One of `update_tier_limits` is of limits that have. -/
theorem updateTierLimits_writes (n : Nat) (form : TierForm) :
    Uses (fun o : Orbyt.Op => ∀ n' loaded values, o = .office (.updateTier n' loaded values) →
      n' = n ∧ checkedTier form = .ok values ∧
        (values.Kept ↔ 2 * (values.monthlyLimitZar * 10 ^ 2) < 2 * 10 ^ 20 - 1))
      (Office.updateTierLimits n form) := by
  refine uses_updateTierLimits (fun o ho n' loaded values hu => ?_) n form
    fun o ho n' loaded values hu => ?_
  · subst hu
    cases ho
  · cases hu
    obtain ⟨hdaily, hmonthly, hle⟩ := checkedTier_ok ho.2
    exact ⟨ho.1, ho.2, tier_kept hdaily hmonthly hle⟩

/-! ## §6. Every reachable state. -/

/-- No value of the row is below zero. -/
def FeesNonneg (row : Option FeeColumns) : Prop :=
  ∀ columns, row = some columns → (FeeConfig.ofColumns columns).Nonneg

theorem store_nonneg {values : FeeValues} {row : FeeColumns} (hn : values.Nonneg)
    (h : values.store = some row) : (FeeConfig.ofColumns row).Nonneg := by
  have hcolumn : ∀ {precision scale : ℕ} {v : ℚ} {a : Fixed scale}, 0 ≤ v →
      numeric precision scale v = some a → 0 ≤ a.val := fun hv ha =>
    eq_of_numeric ha ▸ Fixed.ofRat_nonneg hv
  obtain ⟨ha, hb, hc, hd, he, hf, hg⟩ := feeValues_store.mp h
  exact ⟨hcolumn hn.fixedFeeZar ha, hcolumn hn.percentageFee hb, hcolumn hn.fxMargin hc,
    hcolumn hn.cashoutFeePercentage hd, hcolumn hn.cashoutFeeMinUsd he, hcolumn hn.minSendZar hg,
    hcolumn hn.marketRateZarPerUsd hf⟩

/-- Each column of an edited row is the new one or the stored one. -/
theorem edited_nonneg {loaded new stored : FeeColumns} {values : FeeValues}
    (hnew : (FeeConfig.ofColumns new).Nonneg) (hstored : (FeeConfig.ofColumns stored).Nonneg) :
    (FeeConfig.ofColumns (loaded.edited values new stored)).Nonneg := by
  have hcolumn : ∀ {scale : ℕ} {old new stored : Fixed scale} (v : ℚ), 0 ≤ new.val →
      0 ≤ stored.val → 0 ≤ (written old v new stored).val := fun v hnew hstored => by
    unfold written
    split
    · exact hstored
    · exact hnew
  exact ⟨hcolumn _ hnew.1 hstored.1, hcolumn _ hnew.2 hstored.2, hcolumn _ hnew.3 hstored.3,
    hcolumn _ hnew.4 hstored.4, hcolumn _ hnew.5 hstored.5, hcolumn _ hnew.6 hstored.6,
    hcolumn _ hnew.7 hstored.7⟩

theorem exec_feesNonneg {q : Office.Op} {answer : Except Directory.Exn q.Res}
    (hwrite : FeesNonneg l.feesWrite) (hfees : FeesNonneg s.fees)
    (hvalues : ∀ loaded values, q = .updateFees loaded values → values.Nonneg)
    (hx : Office.exec D i l s q = some (answer, l', s')) :
    FeesNonneg l'.feesWrite ∧ FeesNonneg s'.fees := by
  -- what the session sees is its own write or the stored row
  have hreads : FeesNonneg (l.fees s) := fun columns h => by
    rcases Option.or_eq_some_iff.mp h with hw | ⟨-, hs⟩
    · exact hwrite columns hw
    · exact hfees columns hs
  cases q with
  | updateFees loaded values =>
    simp only [Office.exec] at hx
    split at hx
    · cases hx
      exact ⟨hwrite, hfees⟩
    next new stored hstore hrow =>
      split at hx
      · cases hx
        refine ⟨fun columns h => ?_, hfees⟩
        cases h
        exact edited_nonneg (store_nonneg (hvalues loaded values rfl) hstore) (hreads stored hrow)
      · cases hx
    · cases hx
  | commit =>
    cases hx
    exact ⟨nofun, hreads⟩
  | selectFees | selectTier n =>
    cases hx
    exact ⟨hwrite, hfees⟩
  | updateTier n loaded values =>
    simp only [Office.exec] at hx
    (repeat' split at hx) <;> cases hx <;> exact ⟨hwrite, hfees⟩
  | directory q =>
    simp only [Office.exec] at hx
    split at hx
    · obtain ⟨_, _, he⟩ := Option.map_eq_some_iff.mp hx
      cases he
      exact ⟨hwrite, hfees⟩
    · cases hx

end Orbyt.Configuration

namespace Orbyt

open Interleave
open Configuration (FeesNonneg)

variable {S : Setting} {i : Nat} {o : Op} {c : Choice} {l l' : Session} {s s' : World}

/-- Only the calls on the office touch the fees. -/
theorem perform_office {v : Value} {r : Except Exn o.Res}
    (h : perform S i l s v o = some (r, l', s')) :
    (l'.office = l.office ∧ s'.office.fees = s.office.fees) ∨
      ∃ q answer, o = .office q ∧
        Office.exec S.directory i l.office s.office q = some (answer, l'.office, s'.office) := by
  cases o with
  | office q =>
    simp only [perform] at h
    split at h
    next answer k w hx =>
      cases h
      exact .inr ⟨q, answer, rfl, hx⟩
    · cases h
  | _ =>
    left
    simp only [perform] at h
    (repeat' split at h) <;> cases h <;> exact ⟨rfl, rfl⟩

/-- The fees are not below zero, nor what is written over them. -/
def configuring (S : Setting) : Discipline (platform S) where
  may := Entry.may
  world := fun s => FeesNonneg s.office.fees
  session := fun _ l _ => FeesNonneg l.office.feesWrite
  moves := fun _ _ _ => True
  refl := fun _ _ => trivial
  trans := fun _ _ => trivial
  stable := fun h _ => h

/-- What is written over the fees has passed the checks of its form. -/
theorem asks_updateFees {e : Entry} {loaded : Configuration.FeeColumns}
    {values : Configuration.FeeValues} (h : e.may (.office (.updateFees loaded values))) :
    ∃ form, Configuration.checkedFees form = .ok values := by
  have ha : e.asks (.updateFees loaded values) := h
  cases e with
  | office e =>
    cases e with
    | updateFees form => exact ⟨form, ha⟩
    | account e notSend => exact ha.elim
    | updateTierLimits n form => exact ha.elim
  | _ => exact ha.elim

theorem configuring_kept (S : Setting) : (configuring S).Kept where
  uses := body_uses S
  spawn := fun s e hs => ⟨hs, nofun, fun _ => trivial⟩
  call := fun e i o c l s r l' s' he hs hl hx => by
    have hboth : FeesNonneg l'.office.feesWrite ∧ FeesNonneg s'.office.fees := by
      rcases exec_inv hx with ⟨-, ⟨_, -, rfl, hraise⟩ | ⟨-, r₀, l₀, hp, hend⟩⟩
      · rcases afterRaises_eq hraise with rfl | ⟨_, -, -, rfl⟩ <;> exact ⟨hl, hs⟩
      · have hl' : l'.office = l₀.office := by
          rcases hend with ⟨-, rfl⟩ | ⟨_, -, -, rfl⟩ <;> rfl
        rw [hl']
        rcases perform_office hp with ⟨hsame, hfees⟩ | ⟨q, answer, rfl, hq⟩
        · rw [hsame, hfees]
          exact ⟨hl, hs⟩
        · refine Configuration.exec_feesNonneg hl hs (fun loaded values hu => ?_) hq
          subst hu
          -- an UPDATE of the fees carries values that have passed the checks of the form
          obtain ⟨form, hform⟩ := asks_updateFees he
          exact Configuration.checkedFees_nonneg hform
    exact ⟨⟨hboth.2, fun _ _ => trivial⟩, hboth.1⟩
  close := fun i s hs => ⟨hs, fun _ _ => trivial⟩
  env := fun v s s' hs hx => by
    refine ⟨?_, fun _ => trivial⟩
    cases v with
    | closeLedger txs =>
      simp only [platform, World.env] at hx
      split at hx
      · cases hx
        exact hs
      · cases hx
    | office v =>
      obtain ⟨_, -, rfl⟩ := Option.map_eq_some_iff.mp hx
      exact hs
    | _ =>
      cases hx
      exact hs

/-- **NO FEE IS BELOW ZERO**, in every reachable state. -/
theorem fees_nonneg {clock validated : Nat} {held : Nat → Bool} {k : Config (platform S)}
    (h : Reach (World.initial clock validated held) k) : FeesNonneg k.world.office.fees := by
  refine ((configuring_kept S).reach (fun columns hc => ?_) h).world
  cases hc
  exact Pricing.NonnegFeeConfig.seeded.nonneg

end Orbyt
