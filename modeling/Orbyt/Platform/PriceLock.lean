/-
  Orbyt.Platform.PriceLock — the figures a page shows, and takes back

  The hidden fields of `send_pay.html` and `cashout_review.html`, the forms of
  `routers/cashout.py`, and both `_pricing_matches` on the decimals that were posted.  What
  follows a match is in `CashinService` and `CashoutService`, whose figures are whole units.
-/
import Orbyt.Platform.CashoutService
import Orbyt.Platform.Pricing
import Orbyt.Platform.TransactionRoutes

namespace Orbyt.PriceLock

open PyText Rounding

/-! ## §1. Figures. -/

/-- `a == x and b == y and ..`, up to the first that differs; a signalling NaN raises. -/
def allEqual : List (ℚ × Decimal) → Option Bool
  | [] => some true
  | (figure, posted) :: rest =>
      match posted.equals figure with
      | some true => allEqual rest
      | answer => answer

/-- The units of a number that has no more than `p` places. -/
def units (p : ℕ) (d : Decimal) : Option Int :=
  d.toRat.bind (fun value =>
    if (Fixed.ofRat value : Fixed p).val = value then some (Fixed.ofRat value : Fixed p).units
    else none)

namespace Send

/-! ## §2. Sends. -/

/-- What a quote stores. -/
def row (quote : Pricing.Quote) : Quote where
  zarAmount := quote.zarAmount.units.toNat
  transactionFee := quote.transactionFee.units
  netZarConverted := quote.netZarConverted.units
  marketRate := quote.marketRate.units
  exchangeRate := quote.exchangeRate.units
  fxMargin := quote.fxMargin.units
  uctusdAmount := quote.uctusdAmount.units.toNat

/-- The form of `send_pay.html`. -/
def payForm (quote : Pricing.Quote) (beneficiaryId : Text) : Transactions.RemittanceForm where
  beneficiaryId := beneficiaryId
  zarAmount := str quote.zarAmount
  exchangeRate := str quote.exchangeRate
  transactionFee := str quote.transactionFee
  uctusdAmount := str quote.uctusdAmount

/-- `cashin_service._pricing_matches` -/
def pricingMatches (quote : Pricing.Quote) (accepted : Transactions.AcceptedQuote) : Option Bool :=
  allEqual [(quote.exchangeRate.val, accepted.exchangeRate),
    (quote.transactionFee.val, accepted.transactionFee),
    (quote.uctusdAmount.val, accepted.uctusdAmount)]

/-- Posted figures in units, where they are whole ones. -/
def figures (accepted : Transactions.AcceptedQuote) : Option AcceptedQuote := do
  let exchangeRate ← units 6 accepted.exchangeRate
  let transactionFee ← units 2 accepted.transactionFee
  let uctusdAmount ← units 6 accepted.uctusdAmount
  if uctusdAmount < 0 then none
  else some ⟨exchangeRate, transactionFee, uctusdAmount.toNat⟩

end Send

namespace CashOut

/-! ## §3. Cash-outs. -/

structure User where
  isAdmin : Bool
  canReceive : Bool
  deriving Repr, DecidableEq

inductive Url where
  | login | adminCashout | dashboard | cashout
  deriving Repr, DecidableEq

/-- A redirect with its flash message and category, the form with an error, or the values the
page goes on with. -/
inductive Answer (α : Type) where
  | redirect (url : Url) (flash : Option (String × String))
  | form (error : String)
  | goesOn (a : α)
  deriving DecidableEq

/-- `_require_recipient` -/
def requireRecipient {α : Type} : Option User → Option (Answer α)
  | none => some (.redirect .login none)
  | some user =>
      if user.isAdmin then some (.redirect .adminCashout none)
      else if user.canReceive then none
      else some (.redirect .dashboard none)

/-- `str.upper`, of what may become a letter of a currency's name. -/
def upper (c : Char) : Char := if c = 'ſ' then 'S' else c.toUpper

/-- `PayoutCurrency.value` -/
def value : PayoutCurrency → Text
  | .USD => ['U', 'S', 'D']
  | .ZAR => ['Z', 'A', 'R']

/-- `parse_currency` -/
def parseCurrency (raw : Text) : Except Pricing.PricingError PayoutCurrency :=
  let name := (strip raw).map upper
  if name = value .USD then .ok .USD
  else if name = value .ZAR then .ok .ZAR
  else throw (.cashOut "Cash-out is available in USD or ZAR only.")

/-- What `cashout_preview` reads of its form. -/
def readAmount (C : Context) (uctusdAmount targetCurrency : Text) :
    Except Pricing.PricingError (Fixed 6 × PayoutCurrency) := do
  let amount ← Pricing.parseAmount C uctusdAmount
  let currency ← parseCurrency targetCurrency
  return (amount, currency)

/-- `POST /cashout/preview`, up to what is available and what it is priced at. -/
def preview (C : Context) (user : Option User) (uctusdAmount targetCurrency : Text) :
    Except Pricing.PricingError (Answer (Fixed 6 × PayoutCurrency)) :=
  match requireRecipient user with
  | some redirect => .ok redirect
  | none =>
      match readAmount C uctusdAmount targetCurrency with
      | .ok asked => .ok (.goesOn asked)
      | .error (.cashOut text) => .ok (.form text)
      | .error e => .error e

structure Form where
  uctusdAmount : Text
  targetCurrency : Text
  marketRate : Text
  cashoutFeeUsd : Text
  netPayout : Text
  deriving Repr, DecidableEq

/-- The form of `cashout_review.html`. -/
def reviewForm (pricing : Pricing.CashOutPricing) : Form where
  uctusdAmount := str pricing.uctusdAmount
  targetCurrency := value pricing.targetCurrency
  marketRate := str pricing.marketRate
  cashoutFeeUsd := str pricing.cashoutFeeUsd
  netPayout := str pricing.netPayout

/-- The figures that are compared. -/
structure Accepted where
  marketRate : Decimal
  cashoutFeeUsd : Decimal
  netPayout : Decimal
  deriving Repr, DecidableEq

/-- `Decimal(raw)` -/
def decimal (raw : Text) : Except Pricing.PricingError Decimal :=
  match ofText raw with
  | some d => .ok d
  | none => throw .invalidOperation

/-- What `cashout_create` reads of its form. -/
def readForm (C : Context) (form : Form) :
    Except Pricing.PricingError (Fixed 6 × PayoutCurrency × Accepted) := do
  let amount ← Pricing.parseAmount C form.uctusdAmount
  let currency ← parseCurrency form.targetCurrency
  -- no check of sign or size: whatever `Decimal` reads is compared
  let marketRate ← decimal form.marketRate
  let cashoutFeeUsd ← decimal form.cashoutFeeUsd
  let netPayout ← decimal form.netPayout
  return (amount, currency, ⟨marketRate, cashoutFeeUsd, netPayout⟩)

/-- `POST /cashout`, up to `create_request`; a FXConfigError is not caught. -/
def create (C : Context) (user : Option User) (form : Form) :
    Except Pricing.PricingError (Answer (Fixed 6 × PayoutCurrency × Accepted)) :=
  match requireRecipient user with
  | some redirect => .ok redirect
  | none =>
      match readForm C form with
      | .ok asked => .ok (.goesOn asked)
      | .error (.cashOut text) => .ok (.redirect .cashout (some (text, "danger")))
      | .error (.fxConfig text) => .error (.fxConfig text)
      | .error _ =>
          .ok (.redirect .cashout (some ("Those cash-out details were not valid.", "danger")))

/-- `cashout_service._pricing_matches` -/
def pricingMatches (pricing : Pricing.CashOutPricing) (accepted : Accepted) : Option Bool :=
  allEqual [(pricing.marketRate.val, accepted.marketRate),
    (pricing.cashoutFeeUsd.val, accepted.cashoutFeeUsd),
    (pricing.netPayout.val, accepted.netPayout)]

/-- What a cash-out stores. -/
def row (pricing : Pricing.CashOutPricing) : CashOutPricing where
  uctusdAmount := pricing.uctusdAmount.units.toNat
  targetCurrency := pricing.targetCurrency
  marketRate := pricing.marketRate.units
  cashoutFeePercentage := (Fixed.ofRat pricing.cashoutFeePercentage : Fixed 6).units
  cashoutFeeMinUsd := (Fixed.ofRat pricing.cashoutFeeMinUsd : Fixed 6).units
  cashoutFeeUsd := pricing.cashoutFeeUsd.units
  netPayout := (Fixed.ofRat pricing.netPayout.val : Fixed 6).units

/-- Posted figures in units, where they are whole ones; percentage and floor are not part of
the comparison. -/
def figures (amount : Fixed 6) (currency : PayoutCurrency) (accepted : Accepted) :
    Option CashOutPricing := do
  let marketRate ← units 6 accepted.marketRate
  let cashoutFeeUsd ← units 6 accepted.cashoutFeeUsd
  let netPayout ← units 6 accepted.netPayout
  return ⟨amount.units.toNat, currency, marketRate, 0, 0, cashoutFeeUsd, netPayout⟩

end CashOut

end Orbyt.PriceLock
