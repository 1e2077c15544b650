/-
  Orbyt.Platform.Rows — the stored rows

  The tables behind a remittance and a cash-out, column for column as far as an
  operation of the platform reads or writes them.  Times are microseconds.  ZAR
  amounts are whole cents and UCTUSD amounts whole millionths, the scales of
  their columns; rates and fees are integers at six decimals.

  A row is named by a number, which stands for its `id`; the programs go by that name where
  the source goes by `id` or by the equally unique `idempotency_key`.  A wallet is named by
  its owner, since `wallets.user_id` is unique.
-/
import Mathlib.Logic.Basic

namespace Orbyt

/-! ## §1. Statuses. -/

/-- Sender-side funding state. -/
inductive CashInStatus where
  | pending | received | failed
  deriving Repr, DecidableEq

/-- On-ledger settlement state, driven by the worker. -/
inductive SettlementStatus where
  | notQueued | queued | processing | completed | failed
  deriving Repr, DecidableEq

/-- Forward-only cash-out flow; a worker claims with `burnStartedAt`, not a status. -/
inductive CashOutStatus where
  | requested | approved | completed | failed
  deriving Repr, DecidableEq

inductive PayoutCurrency where
  | USD | ZAR
  deriving Repr, DecidableEq

/-- A transaction result of the ledger: `tesSUCCESS`, or the name of another code. -/
inductive TxCode where
  | tesSUCCESS
  | other (name : String)
  deriving Repr, DecidableEq

def TxCode.name : TxCode → String
  | .tesSUCCESS => "tesSUCCESS"
  | .other name => name

/-! ## §2. Transactions. -/

/-- An attempt retired by an admin retry: the hash and its ledger range together. -/
structure Attempt where
  txHash : Nat
  lastLedgerSequence : Option Nat
  submittedLedgerIndex : Option Nat
  attempts : Nat
  failureReason : Option String
  retiredAt : Nat
  deriving Repr, DecidableEq

/-- The figures a send is priced with, snapshotted onto its row. -/
structure Quote where
  zarAmount : Nat
  transactionFee : Int
  netZarConverted : Int
  marketRate : Int
  exchangeRate : Int
  fxMargin : Int
  uctusdAmount : Nat
  deriving Repr, DecidableEq

/-- A remittance: ZAR in from the sender, UCTUSD out to the recipient. -/
structure Txn where
  senderId : Nat
  beneficiaryId : Nat
  recipientUserId : Option Nat
  quote : Quote
  idempotencyKey : Nat
  cashinStatus : CashInStatus
  settlementStatus : SettlementStatus
  cardLast4 : Option String
  cashinUpdatedAt : Option Nat
  cashinReviewedBy : Option Nat
  cashinFailureReason : Option String
  xrplTxHash : Option Nat
  settlementLastLedgerSequence : Option Nat
  settlementSubmittedLedgerIndex : Option Nat
  settlementAttempts : Nat
  settlementPreviousAttempts : List Attempt
  xrplErrorReason : Option String
  settledAt : Option Nat
  amlFlagged : Bool
  createdAt : Nat
  updatedAt : Nat

def Txn.zarAmount (x : Txn) : Nat := x.quote.zarAmount
def Txn.uctusdAmount (x : Txn) : Nat := x.quote.uctusdAmount

/-! ## §3. Cash-outs and wallets. -/

/-- What the recipient is shown before submitting, and what gets persisted. -/
structure CashOutPricing where
  uctusdAmount : Nat
  targetCurrency : PayoutCurrency
  marketRate : Int
  cashoutFeePercentage : Int
  cashoutFeeMinUsd : Int
  cashoutFeeUsd : Int
  netPayout : Int
  deriving Repr, DecidableEq

/-- A recipient converting UCTUSD to fiat. -/
structure CashOutRequest where
  recipientUserId : Nat
  walletId : Nat
  pricing : CashOutPricing
  idempotencyKey : Nat
  status : CashOutStatus
  approvedBy : Option Nat
  approvedAt : Option Nat
  completedAt : Option Nat
  failureReason : Option String
  xrplBurnTxHash : Option Nat
  burnLastLedgerSequence : Option Nat
  burnSubmittedLedgerIndex : Option Nat
  burnStartedAt : Option Nat
  burnAttempts : Nat
  fiatPayoutReference : Option String
  fiatPaidAt : Option Nat
  createdAt : Nat
  updatedAt : Nat

def CashOutRequest.uctusdAmount (q : CashOutRequest) : Nat := q.pricing.uctusdAmount

/-- A Fernet token: the seed of an account, whose address follows from it, under the
platform's key. -/
structure SealedSeed where
  account : Nat
  deriving Repr, DecidableEq

/-- `encrypt_seed` -/
def encryptSeed (account : Nat) : SealedSeed := ⟨account⟩

/-- A recipient's platform-managed XRPL account; `balanceUctusd` is the platform's
cache of what the ledger holds. -/
structure Wallet where
  xrplAddress : Nat
  encryptedPrivateKey : SealedSeed
  trustSetComplete : Bool
  balanceUctusd : Int
  deriving Repr, DecidableEq

/-- Daily and monthly limits of a KYC tier, in cents. -/
structure LimitTier where
  dailyLimitZar : Nat
  monthlyLimitZar : Nat
  deriving Repr, DecidableEq

/-! ## §4. Row locks. -/

/-- The lock on `k` is free, or held by the program `i` itself. -/
def freeFor (lock : Nat → Option Nat) (i k : Nat) : Bool := (lock k).all (· == i)

def release (lock : Nat → Option Nat) (i : Nat) : Nat → Option Nat :=
  fun k => (lock k).filter (· != i)

end Orbyt
