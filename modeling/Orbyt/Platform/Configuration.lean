/-
  Orbyt.Platform.Configuration — the admin's fees and limits

  What the two forms of `routers/admin.py` that edit the configuration make of their texts, and
  what the columns make of that.  The checks are made on the numbers as typed; a column rounds
  what it is given to its own scale, half away from zero, and has no room for more digits than
  its precision.
-/
import Orbyt.Lib.DecimalContext

namespace Orbyt.Configuration

open PyText Rounding

/-! ## §1. Columns. -/

/-- `Numeric(precision, scale)`; `none` is a numeric field overflow. -/
def numeric (precision scale : ℕ) (value : ℚ) : Option (Fixed scale) :=
  if (Fixed.ofRat value : Fixed scale).units.natAbs < 10 ^ precision then some (Fixed.ofRat value)
  else none

/-- A column after the UPDATE of a row whose object was loaded with `loaded` and has been assigned
`value`, which comes to `new`. -/
def written {scale : ℕ} (loaded : Fixed scale) (value : ℚ) (new stored : Fixed scale) :
    Fixed scale :=
  if value = loaded.val then stored else new

/-- The columns of `limit_tiers`. -/
structure TierColumns where
  dailyLimitZar : Fixed 2
  monthlyLimitZar : Fixed 2
  deriving Repr, DecidableEq

/-- The columns of `fee_config` that the form edits. -/
structure FeeColumns where
  fixedFeeZar : Fixed 2
  percentageFee : Fixed 6
  fxMargin : Fixed 6
  cashoutFeePercentage : Fixed 6
  cashoutFeeMinUsd : Fixed 6
  marketRateZarPerUsd : Fixed 6
  minSendZar : Fixed 2
  deriving Repr, DecidableEq

/-! ## §2. Fields. -/

/-- `_decimal_field`: junk and negatives are refused. -/
def decimalField (label : String) (raw : Text) : Except String ℚ := do
  match ofText (strip raw) with
  | none => throw (label ++ " must be a number.")
  | some value =>
      match value.toRat with
      | none => throw (label ++ " must be a number.")
      | some value =>
          if value < 0 then throw (label ++ " cannot be negative.") else return value

/-! ## §3. Limits. -/

structure TierForm where
  dailyLimitZar : Text
  monthlyLimitZar : Text
  deriving Repr, DecidableEq

structure TierValues where
  dailyLimitZar : ℚ
  monthlyLimitZar : ℚ
  deriving Repr, DecidableEq

/-- The checks of `update_tier_limits`; an error is what follows "Invalid value: ". -/
def checkedTier (form : TierForm) : Except String TierValues := do
  let daily ← decimalField "Daily limit" form.dailyLimitZar
  let monthly ← decimalField "Monthly limit" form.monthlyLimitZar
  -- as typed, before the column rounds it
  if (10 : ℚ) ^ 18 ≤ max daily monthly then
    throw "Limits must be less than R1,000,000,000,000,000,000."
  else if monthly < daily then
    throw "Daily limit cannot be greater than the monthly limit."
  else return ⟨daily, monthly⟩

/-- What `update_tier` commits. -/
def TierValues.store (values : TierValues) : Option TierColumns := do
  let dailyLimitZar ← numeric 20 2 values.dailyLimitZar
  let monthlyLimitZar ← numeric 20 2 values.monthlyLimitZar
  return ⟨dailyLimitZar, monthlyLimitZar⟩

/-- The numbers of a row. -/
def TierColumns.values (row : TierColumns) : TierValues where
  dailyLimitZar := row.dailyLimitZar.val
  monthlyLimitZar := row.monthlyLimitZar.val

/-- An UPDATE of what has been assigned since the row was `loaded`: `new` is what `values` come
to in their columns, and a number that has not changed is not in the UPDATE. -/
def TierColumns.edited (loaded : TierColumns) (values : TierValues) (new stored : TierColumns) :
    TierColumns where
  dailyLimitZar := written loaded.dailyLimitZar values.dailyLimitZar new.dailyLimitZar
    stored.dailyLimitZar
  monthlyLimitZar := written loaded.monthlyLimitZar values.monthlyLimitZar new.monthlyLimitZar
    stored.monthlyLimitZar

/-! ## §4. Fees. -/

structure FeeForm where
  fixedFeeZar : Text
  percentageFee : Text
  fxMargin : Text
  cashoutFeePercentage : Text
  cashoutFeeMinUsd : Text
  marketRateZarPerUsd : Text
  minSendZar : Text
  deriving Repr, DecidableEq

structure FeeValues where
  fixedFeeZar : ℚ
  percentageFee : ℚ
  fxMargin : ℚ
  cashoutFeePercentage : ℚ
  cashoutFeeMinUsd : ℚ
  marketRateZarPerUsd : ℚ
  minSendZar : ℚ
  deriving Repr, DecidableEq

/-- The checks of `update_fees`; an error is what follows "Invalid value: ". -/
def checkedFees (form : FeeForm) : Except String FeeValues := do
  let fixedFeeZar ← decimalField "Fixed fee" form.fixedFeeZar
  let percentageFee ← decimalField "Percentage fee" form.percentageFee
  let fxMargin ← decimalField "FX margin" form.fxMargin
  let cashoutFeePercentage ← decimalField "Cash-out fee" form.cashoutFeePercentage
  let cashoutFeeMinUsd ← decimalField "Minimum cash-out fee" form.cashoutFeeMinUsd
  let marketRateZarPerUsd ← decimalField "Mock market rate" form.marketRateZarPerUsd
  let minSendZar ← decimalField "Minimum send amount" form.minSendZar
  -- as typed: a rate above zero may still round to zero in its column
  if marketRateZarPerUsd ≤ 0 then
    throw "Mock market rate must be greater than zero."
  else if minSendZar ≤ fixedFeeZar then
    throw "Minimum send amount must be greater than the fixed fee."
  else
    return ⟨fixedFeeZar, percentageFee, fxMargin, cashoutFeePercentage, cashoutFeeMinUsd,
      marketRateZarPerUsd, minSendZar⟩

/-- What `update_fee_config` commits. -/
def FeeValues.store (values : FeeValues) : Option FeeColumns := do
  let fixedFeeZar ← numeric 20 2 values.fixedFeeZar
  let percentageFee ← numeric 10 6 values.percentageFee
  let fxMargin ← numeric 10 6 values.fxMargin
  let cashoutFeePercentage ← numeric 10 6 values.cashoutFeePercentage
  let cashoutFeeMinUsd ← numeric 20 6 values.cashoutFeeMinUsd
  let marketRateZarPerUsd ← numeric 20 6 values.marketRateZarPerUsd
  let minSendZar ← numeric 20 2 values.minSendZar
  return ⟨fixedFeeZar, percentageFee, fxMargin, cashoutFeePercentage, cashoutFeeMinUsd,
    marketRateZarPerUsd, minSendZar⟩

/-- The numbers of a row. -/
def FeeColumns.values (row : FeeColumns) : FeeValues where
  fixedFeeZar := row.fixedFeeZar.val
  percentageFee := row.percentageFee.val
  fxMargin := row.fxMargin.val
  cashoutFeePercentage := row.cashoutFeePercentage.val
  cashoutFeeMinUsd := row.cashoutFeeMinUsd.val
  marketRateZarPerUsd := row.marketRateZarPerUsd.val
  minSendZar := row.minSendZar.val

/-- As for a tier. -/
def FeeColumns.edited (loaded : FeeColumns) (values : FeeValues) (new stored : FeeColumns) :
    FeeColumns where
  fixedFeeZar := written loaded.fixedFeeZar values.fixedFeeZar new.fixedFeeZar stored.fixedFeeZar
  percentageFee := written loaded.percentageFee values.percentageFee new.percentageFee
    stored.percentageFee
  fxMargin := written loaded.fxMargin values.fxMargin new.fxMargin stored.fxMargin
  cashoutFeePercentage := written loaded.cashoutFeePercentage values.cashoutFeePercentage
    new.cashoutFeePercentage stored.cashoutFeePercentage
  cashoutFeeMinUsd := written loaded.cashoutFeeMinUsd values.cashoutFeeMinUsd new.cashoutFeeMinUsd
    stored.cashoutFeeMinUsd
  marketRateZarPerUsd := written loaded.marketRateZarPerUsd values.marketRateZarPerUsd
    new.marketRateZarPerUsd stored.marketRateZarPerUsd
  minSendZar := written loaded.minSendZar values.minSendZar new.minSendZar stored.minSendZar

/-! ## §5. The rows that the migrations insert. -/

def FeeColumns.seeded : FeeColumns :=
  ⟨⟨2500⟩, ⟨15000⟩, ⟨20000⟩, ⟨10000⟩, ⟨1000000⟩, ⟨18500000⟩, ⟨5000⟩⟩

def TierColumns.unverified : TierColumns := ⟨⟨0⟩, ⟨0⟩⟩
def TierColumns.standard : TierColumns := ⟨⟨1000000⟩, ⟨5000000⟩⟩

end Orbyt.Configuration
