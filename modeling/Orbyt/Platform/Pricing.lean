/-
  Orbyt.Platform.Pricing — the quote engine and the terms of a cash-out

  `fx_service.py`, with the amounts, the terms and the price check of `cashout_service.py` and
  the amounts of `xrpl_service.py`.  All money is decimal: a number is its value, and a
  quantised number an integer in units of its last place (ZAR 2 dp, UCTUSD and rates 6 dp).
  Operations round as their context does, and every `_q` rounds half up.

  The fee configuration is the active row.  No form can make a value of it negative.
-/
import Orbyt.Lib.DecimalContext
import Orbyt.Platform.CashinService

namespace Orbyt.Pricing

open Configuration (FeeColumns)
open PyText Rounding

/-! ## §1. Errors and rows. -/

inductive PricingError where
  /-- No active fee_config row, or no such rate source. -/
  | fxConfig (text : String)
  | amountTooSmall (text : String)
  | cashOut (text : String)
  | invalidAmount (text : String)
  | invalidOperation
  | divisionByZero
  deriving DecidableEq, Repr

/-- A row of `fee_config`. -/
structure FeeConfig where
  fixedFeeZar : ℚ
  percentageFee : ℚ
  fxMargin : ℚ
  cashoutFeePercentage : ℚ
  cashoutFeeMinUsd : ℚ
  minSendZar : ℚ
  marketRateZarPerUsd : ℚ
  deriving DecidableEq

/-- The row as its columns hold it. -/
def FeeConfig.ofColumns (columns : FeeColumns) : FeeConfig where
  fixedFeeZar := columns.fixedFeeZar.val
  percentageFee := columns.percentageFee.val
  fxMargin := columns.fxMargin.val
  cashoutFeePercentage := columns.cashoutFeePercentage.val
  cashoutFeeMinUsd := columns.cashoutFeeMinUsd.val
  minSendZar := columns.minSendZar.val
  marketRateZarPerUsd := columns.marketRateZarPerUsd.val

/-- None of its values is negative. -/
structure FeeConfig.Nonneg (config : FeeConfig) : Prop where
  fixedFeeZar : 0 ≤ config.fixedFeeZar
  percentageFee : 0 ≤ config.percentageFee
  fxMargin : 0 ≤ config.fxMargin
  cashoutFeePercentage : 0 ≤ config.cashoutFeePercentage
  cashoutFeeMinUsd : 0 ≤ config.cashoutFeeMinUsd
  minSendZar : 0 ≤ config.minSendZar
  marketRateZarPerUsd : 0 ≤ config.marketRateZarPerUsd

/-- A row none of whose values is negative. -/
structure NonnegFeeConfig extends FeeConfig where
  nonneg : toFeeConfig.Nonneg

instance : Coe NonnegFeeConfig FeeConfig := ⟨NonnegFeeConfig.toFeeConfig⟩

/-- `settings.fx_rate_source`, with the rate that it pins. -/
inductive RateSource where
  | config
  | static (rate : ℚ)
  | unsupported (source : String)
  deriving DecidableEq

/-- The seven display figures plus the inputs behind them; the payout has the places of its
currency. -/
def places : PayoutCurrency → ℕ
  | .USD => 6
  | .ZAR => 2

structure Quote where
  zarAmount : Fixed 2
  transactionFee : Fixed 2
  netZarConverted : Fixed 2
  marketRate : Fixed 6
  fxMargin : Fixed 6
  exchangeRate : Fixed 6
  uctusdAmount : Fixed 6
  cashoutFeeEstimate : Fixed 6
  payoutCurrency : PayoutCurrency
  payoutEstimate : Fixed (places payoutCurrency)
  deriving DecidableEq

/-- What the recipient is shown before submitting, and what gets persisted. -/
structure CashOutPricing where
  uctusdAmount : Fixed 6
  targetCurrency : PayoutCurrency
  marketRate : Fixed 6
  cashoutFeePercentage : ℚ
  cashoutFeeMinUsd : ℚ
  cashoutFeeUsd : Fixed 6
  netPayout : Fixed (places targetCurrency)
  deriving DecidableEq

/-! ## §2. Steps. -/

/-- `_q` -/
def q (C : Context) (p : ℕ) (value : ℚ) : Except PricingError (Fixed p) :=
  match C.quantize p value with
  | some a => .ok a
  | none => .error .invalidOperation

/-- `str` of `_q` of the value, which is `a`: what is negative keeps its sign as a zero. -/
def shown {p : ℕ} (value : ℚ) (a : Fixed p) : String :=
  if value < 0 ∧ a.units = 0 then "-" ++ String.ofList (str a) else String.ofList (str a)

def divide (C : Context) (a b : ℚ) : Except PricingError ℚ :=
  match C.div a b with
  | some c => .ok c
  | none => .error .divisionByZero

/-- `get_market_rate`, of the row it is given. -/
def getMarketRate (C : Context) (source : RateSource) (config : FeeConfig) :
    Except PricingError (Fixed 6) :=
  match source with
  | .config => q C 6 config.marketRateZarPerUsd
  | .static rate => q C 6 rate
  | .unsupported name => throw (.fxConfig ("Unsupported FX rate source: '" ++ name ++ "'"))

/-- `cashout_fee_usd`: a share of the amount, with its configured floor. -/
def cashoutFeeUsd (C : Context) (uctusdAmount percentage minUsd : ℚ) :
    Except PricingError (Fixed 6) :=
  q C 6 (max (C.mul percentage uctusdAmount) minUsd)

/-- `cashout_payout`: the fee is taken in USD, then the rest is converted. -/
def cashoutPayout (C : Context) (uctusdAmount feeUsd marketRate : ℚ) (currency : PayoutCurrency) :
    Except PricingError (Fixed (places currency)) :=
  let netUctusd := C.sub uctusdAmount feeUsd
  match currency with
  | .USD => q C 6 netUctusd
  | .ZAR => q C 2 (C.mul netUctusd marketRate)

/-! ## §3. Quotes. -/

/-- `calculate_quote` -/
def calculateQuote (C : Context) (zarSend marketRate fixedFeeZar percentageFee fxMargin
    cashoutFeePercentage cashoutFeeMinUsd : ℚ) (payoutCurrency : PayoutCurrency) :
    Except PricingError Quote := do
  let zar ← q C 2 zarSend
  let marketRate ← q C 6 marketRate
  let transactionFee ← q C 2 (C.add fixedFeeZar (C.mul percentageFee zar.val))
  let effectiveRate ← q C 6 (C.mul marketRate.val (C.add 1 fxMargin))
  -- after the rate and before the refusal, so that a rate too large for `_q` raises first
  let netZar ← q C 2 (C.sub zar.val transactionFee.val)
  if netZar.val ≤ 0 then
    throw (.amountTooSmall ("A fee of R"
      ++ shown (C.add fixedFeeZar (C.mul percentageFee zar.val)) transactionFee
      ++ " leaves nothing to convert from R" ++ shown zarSend zar ++ ". Send a larger amount."))
  else
    let uctusdAmount ← q C 6 (← divide C netZar.val effectiveRate.val)
    if uctusdAmount.val ≤ 0 then
      throw (.amountTooSmall ("R" ++ shown zarSend zar
        ++ " converts to less than the smallest amount that can be "
        ++ "sent. Send a larger amount."))
    else
      let cashoutFeeEstimate ←
        cashoutFeeUsd C uctusdAmount.val cashoutFeePercentage cashoutFeeMinUsd
      let payoutEstimate ←
        cashoutPayout C uctusdAmount.val cashoutFeeEstimate.val marketRate.val payoutCurrency
      -- stored as it was used, but rounded only here
      let margin ← q C 6 fxMargin
      return {
        zarAmount := zar
        transactionFee := transactionFee
        netZarConverted := netZar
        marketRate := marketRate
        fxMargin := margin
        exchangeRate := effectiveRate
        uctusdAmount := uctusdAmount
        cashoutFeeEstimate := cashoutFeeEstimate
        payoutCurrency := payoutCurrency
        payoutEstimate := payoutEstimate }

/-- `quote_for`, with the active row if there is one. -/
def quoteFor (C : Context) (source : RateSource) (config : Option FeeConfig) (zarSend : ℚ)
    (payoutCurrency : PayoutCurrency) : Except PricingError Quote := do
  match config with
  | none => throw (.fxConfig "No active fee_config row, so the platform cannot issue quotes.")
  | some config =>
      let minimum ← q C 2 config.minSendZar
      let asked ← q C 2 zarSend
      -- the minimum is asked of the rounded amount, before the rate is read
      if asked.val < minimum.val then
        throw (.amountTooSmall ("The smallest amount you can send is R"
          ++ shown config.minSendZar minimum ++ "."))
      else
        let marketRate ← getMarketRate C source config
        calculateQuote C zarSend marketRate.val config.fixedFeeZar config.percentageFee
          config.fxMargin config.cashoutFeePercentage config.cashoutFeeMinUsd payoutCurrency

/-! ## §4. Cash-outs. -/

/-- `parse_amount`: every rejection is a CashOutError. -/
def parseAmount (C : Context) (raw : Text) : Except PricingError (Fixed 6) := do
  match ofText (remove ',' (strip raw)) with
  | none => throw (.cashOut "Enter a valid UCTUSD amount.")
  | some amount =>
      -- `is_finite` comes first, so that a NaN is never compared
      match amount.toRat with
      | none => throw (.cashOut "Enter a cash-out amount greater than zero.")
      | some value =>
          if value ≤ 0 then throw (.cashOut "Enter a cash-out amount greater than zero.")
          else
            -- more digits than the context has: the InvalidOperation is caught
            match C.quantize 6 value with
            | none => throw (.cashOut "That cash-out amount is too large.")
            | some amount =>
                if amount.val ≤ 0 then
                  throw (.cashOut "The smallest amount you can cash out is 0.000001 UCTUSD.")
                else return amount

/-- `price_cashout`, with the active row if there is one. -/
def priceCashout (C : Context) (source : RateSource) (config : Option FeeConfig)
    (amount : Fixed 6) (currency : PayoutCurrency) : Except PricingError CashOutPricing := do
  match config with
  | none => throw (.cashOut "Cash-out is unavailable right now. Please try again later.")
  | some config =>
      let marketRate ← getMarketRate C source config
      let feeUsd ← cashoutFeeUsd C amount.val config.cashoutFeePercentage config.cashoutFeeMinUsd
      let payout ← cashoutPayout C amount.val feeUsd.val marketRate.val currency
      if payout.val ≤ 0 then
        -- a fee of minus zero is printed with its sign
        let sign :=
          if max (C.mul config.cashoutFeePercentage amount.val) config.cashoutFeeMinUsd < 0 ∧
              feeUsd.units = 0 then "-"
          else ""
        throw (.cashOut ("That amount is too small: the cash-out fee of $" ++ sign
          ++ formatFixed 6 feeUsd.units ++ " would leave nothing to pay out. "
          ++ "Try a larger amount."))
      else
        return {
          uctusdAmount := amount
          targetCurrency := currency
          marketRate := marketRate
          cashoutFeePercentage := config.cashoutFeePercentage
          cashoutFeeMinUsd := config.cashoutFeeMinUsd
          cashoutFeeUsd := feeUsd
          netPayout := payout }

/-! ## §5. Amounts on the ledger. -/

/-- `uctusd`: what the issued amount is worth.  A NaN passes through the quantising, and the
comparison behind it raises. -/
def uctusd (C : Context) (value : Decimal) : Except PricingError (Fixed 6) :=
  match value with
  | .nan _ false => throw .invalidOperation
  | value =>
      match value.toRat.bind (C.quantize 6) with
      | none => throw (.invalidAmount ("Not a usable UCTUSD amount: " ++ String.ofList value.repr))
      | some value =>
          if value.val ≤ 0 then throw (.invalidAmount "UCTUSD amount must be positive.")
          else return value

/-! ## §6. The seeded row. -/

def FeeConfig.seeded : FeeConfig := ofColumns .seeded

def NonnegFeeConfig.seeded : NonnegFeeConfig where
  toFeeConfig := .seeded
  nonneg := by constructor <;> decide +kernel

/-- The worked example of `calculate_quote`. -/
example : (quoteFor .standard .config (some .seeded) 1000 .ZAR).toOption.map
    (fun quote => (quote.transactionFee, quote.exchangeRate, quote.uctusdAmount))
      = some (⟨4000⟩, ⟨18870000⟩, ⟨50874404⟩) := by decide +kernel

end Orbyt.Pricing
