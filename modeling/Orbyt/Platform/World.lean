/-
  Orbyt.Platform.World — the shared world, the sessions and the calls

  `World` is what all requests and jobs share: the committed tables with their
  row locks, the broker, the Redis lock, the clock and the ledger.  `Session` is
  what one of them owns: its open database transaction and its ORM objects.

  The database is PostgreSQL at READ COMMITTED behind SQLAlchemy with
  `expire_on_commit=False`:
    * a statement sees the committed rows and its own session's writes;
    * an UPDATE that matches, an ORM flush and a SELECT .. FOR UPDATE take the row
      lock, waiting while another session holds it, and keep it to the commit;
    * a wallet object already loaded in a session keeps its loaded values when it
      is selected again, also FOR UPDATE, unless it is re-populated;
    * after a statement has raised, every further statement of the session raises.

  Users, beneficiaries, fees and tiers are the `office` part, with calls of its own.  What a send
  or a cash-out reads of them is answered arbitrarily, so that it may be out of date by any edit;
  likewise the row lock a send takes on its sender is not the one a profile edit takes.

  The last block of `World` are history variables: no program reads them.
-/
import Orbyt.Lib.Program
import Orbyt.Lib.ValidatedLedger
import Orbyt.Platform.Office

namespace Orbyt

open Interleave
open ValidatedLedger

/-! ## §1. Exceptions. -/

/-- The exceptions the programs tell apart. -/
inductive Exn where
  | db (cls text : String)
  | broker (cls text : String)
  /-- An `XRPLException`; `reliable` marks `XRPLReliableSubmissionException`. -/
  | xrpl (reliable : Bool) (text : String)
  | other (cls text : String)
  | invalidAmount (text : String)
  | transient (text : String)
  | remittance (text : String)
  | cashOut (text : String)
  | pricingChanged (text : String)
  deriving Repr, DecidableEq

/-- `type(exc).__name__` -/
def Exn.typeName : Exn → String
  | .db cls _ => cls
  | .broker cls _ => cls
  | .xrpl true _ => "XRPLReliableSubmissionException"
  | .xrpl false _ => "XRPLException"
  | .other cls _ => cls
  | .invalidAmount _ => "InvalidAmountError"
  | .transient _ => "TransientSettlementError"
  | .remittance _ => "RemittanceError"
  | .cashOut _ => "CashOutError"
  | .pricingChanged _ => "PricingChanged"

/-- `str(exc)` -/
def Exn.text : Exn → String
  | .db _ text => text
  | .broker _ text => text
  | .xrpl _ text => text
  | .other _ text => text
  | .invalidAmount text => text
  | .transient text => text
  | .remittance text => text
  | .cashOut text => text
  | .pricingChanged text => text

/-! ## §2. What is signed, published and moved. -/

/-- What a signature is for; a TrustSet is signed on the way to paying `t`. -/
inductive Purpose where
  | payment (t : Nat)
  | burn (r : Nat)
  | trustSet (t u : Nat)
  deriving Repr, DecidableEq

/-- An account that signs: the treasury's, or that of a wallet row, named by its owner and its
address. -/
inductive Account where
  | treasury
  | wallet (u address : Nat)
  deriving Repr, DecidableEq

/-- Where a payment goes: what the issuer is paid is destroyed. -/
inductive Destination where
  | issuer
  | address (a : Nat)
  deriving Repr, DecidableEq

/-- The transaction that is signed. -/
inductive XRPLTransaction where
  | payment (account : Account) (destination : Destination) (amount : Nat)
  | trustSet (account : Account)
  deriving Repr, DecidableEq

def XRPLTransaction.account : XRPLTransaction → Account
  | .payment account _ _ | .trustSet account => account

/-- A signed transaction.  Its hash is its position among all signatures ever
made, so distinct signatures have distinct hashes. -/
structure Blob where
  purpose : Purpose
  signer : Nat
  lastLedgerSequence : Option Nat
  /-- The ledger index validated when it was signed. -/
  signedIndex : Nat
  signedAt : Nat
  tx : XRPLTransaction
  deriving Repr, DecidableEq

/-- The only ledgers the blob may appear in. -/
def Blob.window (b : Blob) : Window := ⟨b.signedIndex, b.lastLedgerSequence⟩

/-- A message of the `settlement` queue. -/
inductive Message where
  | settle (t : Nat)
  | burn (r : Nat)
  deriving Repr, DecidableEq

/-- A statement that changes a wallet's balance, named by the row it is for. -/
inductive Move where
  | credit (t : Nat)
  | debit (r : Nat)
  | restore (r : Nat)
  deriving Repr, DecidableEq

/-! ## §3. The world. -/

structure World where
  clock : Nat
  nextTid : Nat
  nextId : Nat
  ledger : Ledger TxCode
  blobs : List Blob
  /-- Handed to `submit_and_wait`. -/
  handed : Nat → Bool
  /-- Answered with a `tem` code: no ledger can take it. -/
  malformed : Nat → Bool
  txns : Nat → Option Txn
  reqs : Nat → Option CashOutRequest
  wallets : Nat → Option Wallet
  office : Office.World
  txnLock : Nat → Option Nat
  reqLock : Nat → Option Nat
  walletLock : Nat → Option Nat
  userLock : Nat → Option Nat
  queue : List Message
  /-- The Redis treasury lock: its holder and when it expires. -/
  treasury : Option (Nat × Nat)
  /-- The program whose claim the row is under, and when it claimed. -/
  txnOwner : Nat → Option (Nat × Nat)
  reqOwner : Nat → Option Nat
  /-- Committed balance statements, newest first. -/
  moves : List Move
  /-- The committed statuses a row has gone through, newest first. -/
  settlementLog : Nat → List SettlementStatus
  cashinLog : Nat → List CashInStatus
  statusLog : Nat → List CashOutStatus

/-- A database as the migrations leave it, at some time and ledger index. -/
def World.initial (clock validated : Nat) (held : Nat → Bool) : World where
  clock := clock
  nextTid := 0
  nextId := 0
  ledger := ⟨validated, fun _ => none, held⟩
  blobs := []
  handed := fun _ => false
  malformed := fun _ => false
  txns := fun _ => none
  reqs := fun _ => none
  wallets := fun _ => none
  office := Office.World.initial
  txnLock := fun _ => none
  reqLock := fun _ => none
  walletLock := fun _ => none
  userLock := fun _ => none
  queue := []
  treasury := none
  txnOwner := fun _ => none
  reqOwner := fun _ => none
  moves := []
  settlementLog := fun _ => []
  cashinLog := fun _ => []
  statusLog := fun _ => []

/-! ## §4. Entry points. -/

/-- The figures the sender was shown and is agreeing to pay. -/
structure AcceptedQuote where
  exchangeRate : Int
  transactionFee : Int
  uctusdAmount : Nat
  deriving Repr, DecidableEq

/-- A send form as the route hands it on: the sender's row as loaded at the start
of the request, and what the form asks for. -/
structure SendForm where
  senderId : Nat
  canSend : Bool
  kycApproved : Bool
  beneficiaryId : Nat
  zarAmount : Nat
  accepted : AcceptedQuote
  deriving Repr, DecidableEq

structure CashOutForm where
  recipientId : Nat
  amount : Nat
  currency : PayoutCurrency
  accepted : Option CashOutPricing
  deriving Repr, DecidableEq

/-- Everything that runs with a session of its own: the queue's jobs, the admin
and user requests, and the periodic sweeps. -/
inductive Entry where
  | settle (t : Nat)
  | burn (r : Nat)
  | createRemittance (form : SendForm)
  | cashinReceived (t : Nat) (reviewer : Option Nat)
  | cashinFailed (t : Nat) (reviewer : Option Nat) (reason : String)
  | expireStaleCashins
  | settlementRetry (t : Nat)
  | amlFlag (t : Nat) (flagged : Bool)
  | createRequest (form : CashOutForm)
  | approve (r : Nat) (admin : Nat)
  | reject (r : Nat) (admin : Nat) (reason : String)
  | reconcile (r : Nat)
  | sweepUnpublished
  | office (e : Office.Entry)
  deriving Repr, DecidableEq

/-- The request on accounts that an entry point is, if it is one. -/
def Entry.directory : Entry → Option Directory.Entry
  | .office (.account e _) => some e
  | _ => none

/-! ## §5. Sessions. -/

structure Session where
  entry : Entry
  /-- The wallet objects in the identity map, by owner. -/
  walletCopy : Nat → Option Wallet
  /-- The rows written in the open transaction. -/
  txnWrites : Nat → Option Txn
  reqWrites : Nat → Option CashOutRequest
  walletWrites : Nat → Option Wallet
  office : Office.Session
  /-- The balance statements of the open transaction, newest first. -/
  moves : List Move
  /-- The status changes of the open transaction, newest first. -/
  settlementLog : Nat → List SettlementStatus
  cashinLog : Nat → List CashInStatus
  statusLog : Nat → List CashOutStatus
  /-- A statement has raised and nothing has rolled the session back. -/
  failed : Bool
  /-- The worker's `nonlocal signed_hash`. -/
  signedHash : Option Nat
  claimedAt : Option Nat
  /-- The ledger as first consulted, where one consultation sees one ledger. -/
  view : Option (Ledger TxCode)

def Session.start (e : Entry) : Session where
  entry := e
  walletCopy := fun _ => none
  txnWrites := fun _ => none
  reqWrites := fun _ => none
  walletWrites := fun _ => none
  office := Office.Session.start e.directory
  moves := []
  settlementLog := fun _ => []
  cashinLog := fun _ => []
  statusLog := fun _ => []
  failed := false
  signedHash := none
  claimedAt := none
  view := none

/-! ## §6. The calls. -/

inductive Op where
  /-- `datetime.now()` read apart from the statement it is used in; inside a
  statement's values it is the instant of the statement. -/
  | now
  | setSignedHash (h : Nat)
  | getSignedHash
  -- statements
  | selectTxn (t : Nat)
  | updateTxn (t : Nat) (cond : Txn → Bool) (values : Nat → Txn → Txn)
  | updateTxns (cond : Txn → Bool) (values : Nat → Txn → Txn)
  /-- INSERT under a fresh `uuid4()`, which is the answer and names the row. -/
  | insertTxn (row : Nat → Nat → Txn)
  /-- `get_limit_tier` -/
  | limitTier (u : Nat)
  | sumZarSince (sender : Nat) (since : Nat)
  | lockUser (u : Nat)
  | getUser (u : Nat)
  | selectReq (r : Nat)
  | updateReq (r : Nat) (cond : CashOutRequest → Bool)
      (values : Nat → CashOutRequest → CashOutRequest)
  | insertReq (row : Nat → Nat → CashOutRequest)
  | selectReqs (cond : CashOutRequest → Bool)
  | sumRequested (recipient : Nat)
  | selectWallet (u : Nat)
  | loadWallet (u : Nat)
  | lockWallet (u : Nat)
  | setBalance (u : Nat) (balance : Int) (move : Move)
  | setTrustLine (u : Nat)
  | insertWallet (u : Nat) (w : Wallet)
  | refresh
  | commit
  /-- A call on users, beneficiaries, fees and tiers; a refusal is part of the answer. -/
  | office (o : Office.Op)
  -- what is read of the office, and of a form: any answer is possible at any time
  | findBeneficiary (b : Nat)
  | quoteFor (zar : Nat)
  | priceCashout (amount : Nat) (currency : PayoutCurrency)
  | validateCard
  -- broker and lock
  | enqueue (m : Message)
  | enqueueIn (seconds : Nat) (m : Message)
  | acquireTreasury
  | releaseTreasury
  -- ledger
  | loadSigner
  | faucet
  | latestValidated
  | autofillAndSign (purpose : Purpose) (tx : XRPLTransaction)
  /-- `submit_and_wait` is handed the blob: its content and with it its hash. -/
  | handOver (purpose : Purpose) (h : Nat)
  | outcome (h : Nat)
  | lookup (h : Nat)
  | completeRange (low high : Nat)

/-- What a signed blob tells the caller. -/
structure SignedTx where
  txHash : Nat
  lastLedgerSequence : Option Nat
  submittedLedgerIndex : Option Nat
  deriving Repr, DecidableEq

/-- What the beneficiary row and the accounts behind it say about the recipient. -/
structure Payee where
  recipientUserId : Option Nat
  payoutCurrency : PayoutCurrency
  fullName : String
  deriving Repr, DecidableEq

@[reducible] def Op.Res : Op → Type
  | .now | .faucet | .latestValidated | .sumZarSince _ _ | .sumRequested _ | .insertTxn _
  | .insertReq _ => Nat
  | .getSignedHash => Option Nat
  | .selectTxn _ => Option Txn
  | .updateTxn _ _ _ | .updateReq _ _ _ | .getUser _ | .completeRange _ _ => Bool
  | .selectReq _ => Option CashOutRequest
  | .selectReqs _ => List Nat
  | .office o => Except Directory.Exn o.Res
  | .selectWallet _ | .loadWallet _ | .lockWallet _ => Option Wallet
  | .limitTier _ => Option LimitTier
  | .findBeneficiary _ => Option Payee
  | .quoteFor _ => Quote
  | .priceCashout _ _ => CashOutPricing
  | .validateCard => String × Bool
  | .autofillAndSign _ _ => SignedTx
  | .outcome _ => TxCode
  | .lookup _ => Option TxCode
  | .setSignedHash _ | .updateTxns _ _ | .lockUser _ | .setBalance _ _ _ | .setTrustLine _
  | .insertWallet _ _ | .refresh | .commit | .enqueue _ | .enqueueIn _ _ | .acquireTreasury
  | .releaseTreasury | .loadSigner | .handOver _ _ => Unit

/-- A statement of the session's database connection. -/
def Op.isStatement : Op → Bool
  | .now | .setSignedHash _ | .getSignedHash | .enqueue _ | .enqueueIn _ _ | .acquireTreasury
  | .releaseTreasury | .loadSigner | .faucet | .latestValidated | .autofillAndSign _ _
  | .handOver _ _ | .outcome _ | .lookup _ | .completeRange _ _ | .validateCard => false
  | .office o => o.isStatement
  | _ => true

/-! ## §7. Programs over these calls. -/

abbrev calls : Sig := ⟨Op, Op.Res⟩

/-- What a coroutine of the platform is here. -/
abbrev Program (α : Type) := Prog calls Exn α

abbrev call (o : Op) : Program o.Res := Prog.call (S := calls) o

/-- A request or job runs for its effect. -/
def discard {α : Type} (p : Program α) : Program Unit := do
  let _ ← p
  return ()

end Orbyt
