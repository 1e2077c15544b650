/-
  Orbyt.Platform.TransactionRoutes — the money fields of the send pages

  `routers/transactions.py` from the form to where the send is priced: who may send, and the
  texts of the amount and of the price lock.  What follows (beneficiary, quote, limit, the
  booking) starts from the values read here; it is where a page `goesOn`.
-/
import Orbyt.Lib.PyDecimal
import Orbyt.Platform.World

namespace Orbyt.Transactions

open PyText

/-! ## §1. Reading a field. -/

/-- What a comparison with a NaN raises. -/
def invalidOperation : Exn := .other "InvalidOperation" "[<class 'decimal.InvalidOperation'>]"

/-- `_parse_decimal` -/
def parseDecimal (raw : Text) : Option Decimal := ofText (strip (remove ',' raw))

/-- The order of `d` against zero. -/
def compared (d : Decimal) : Except Exn Ordering :=
  match d.compareZero with
  | some order => .ok order
  | none => .error invalidOperation

/-- `_parse_amount`: the comparison is outside the `try`. -/
def parseAmount (raw : Text) : Except Exn (Option Decimal) := do
  match parseDecimal raw with
  | none => return none
  | some amount =>
      -- outside the `try`: a NaN raises here
      let order ← compared amount
      return if order = .gt then some amount else none

/-- The figures of the price lock. -/
structure AcceptedQuote where
  exchangeRate : Decimal
  transactionFee : Decimal
  uctusdAmount : Decimal
  deriving Repr, DecidableEq

/-- `_accepted_quote`: the fee is compared only where rate and fee have been read. -/
def acceptedQuote (exchangeRate transactionFee uctusdAmount : Text) :
    Except Exn (Option AcceptedQuote) := do
  let rate ← parseAmount exchangeRate
  let uctusd ← parseAmount uctusdAmount
  match rate, parseDecimal transactionFee with
  | some rate, some fee =>
      let order ← compared fee
      if order = .lt then return none
      else return uctusd.map (fun uctusd => ⟨rate, fee, uctusd⟩)
  | _, _ => return none

/-! ## §2. The pages. -/

/-- The user of the session, as far as the pages look at it. -/
structure User where
  isAdmin : Bool
  canSend : Bool
  kycApproved : Bool
  deriving Repr, DecidableEq

inductive Url where
  | login | admin | dashboard | send
  /-- `/send?beneficiary_id=..&zar_amount=..` -/
  | sendWith (beneficiaryId zarAmount : Text)
  deriving Repr, DecidableEq

/-- A redirect with its flash message and category, or the values the page goes on with. -/
inductive Answer (α : Type) where
  | redirect (url : Url) (flash : Option (String × String))
  | goesOn (a : α)
  deriving Repr, DecidableEq

variable {α : Type}

/-- `_sender_redirect` -/
def senderRedirect : Option User → Option (Answer α)
  | none => some (.redirect .login none)
  | some user =>
      if user.isAdmin then some (.redirect .admin none)
      else if user.canSend && user.kycApproved then none
      else some (.redirect .dashboard
        (some ("Your KYC must be approved before you can send money.", "warning")))

/-- `_back_to_send`, with what went wrong. -/
def backToSend (beneficiaryId zarAmount : Text) (error : String) : Answer α :=
  .redirect (.sendWith beneficiaryId zarAmount) (some (error, "danger"))

/-- `_quote_context`, up to its quote: an error, or the amount to price. -/
def quoteContext (zarAmount : Text) : Except Exn (String ⊕ Decimal) := do
  match ← parseAmount zarAmount with
  | none => return .inl "Enter an amount greater than zero."
  | some amount => return .inr amount

/-- A page that shows a quote, or says why it cannot. -/
def quotePage (user : Option User) (beneficiaryId zarAmount : Text) :
    Except Exn (Answer Decimal) := do
  match senderRedirect user with
  | some redirect => return redirect
  | none =>
      match ← quoteContext zarAmount with
      | .inl error => return backToSend beneficiaryId zarAmount error
      | .inr amount => return .goesOn amount

/-- `GET /send/review` -/
def sendReview := quotePage

/-- `GET /send/pay` -/
def sendPay := quotePage

structure RemittanceForm where
  beneficiaryId : Text
  zarAmount : Text
  exchangeRate : Text
  transactionFee : Text
  uctusdAmount : Text
  deriving Repr, DecidableEq

/-- `POST /remittances`; `uuid` is what `uuid.UUID` makes of a text, if it is one. -/
def createRemittance (uuid : Text → Option Nat) (user : Option User) (form : RemittanceForm) :
    Except Exn (Answer (Decimal × Nat × AcceptedQuote)) := do
  match senderRedirect user with
  | some redirect => return redirect
  | none =>
      let amount ← parseAmount form.zarAmount
      match amount, uuid form.beneficiaryId with
      | some amount, some beneficiary =>
          -- read only once amount and beneficiary are good
          let accepted ← acceptedQuote form.exchangeRate form.transactionFee form.uctusdAmount
          match accepted with
          | none =>
              return backToSend form.beneficiaryId form.zarAmount
                "We could not confirm the price you were quoted. Please review a fresh quote."
          | some accepted => return .goesOn (amount, beneficiary, accepted)
      | _, _ =>
          return .redirect .send
            (some ("Your send details were incomplete. Please start again.", "danger"))

end Orbyt.Transactions
