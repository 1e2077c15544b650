/-
  Orbyt.Platform.SettlementWorker — settle one transaction on XRPL

  `settlement_worker.py`: claim the message's row, make sure of the recipient's
  wallet, pay from the treasury under the Redis lock with the hash stored before
  submission, then complete, fail or hand the row back to the queue.
-/
import Orbyt.Platform.XrplService

namespace Orbyt.SettlementWorker

open Interleave
open XrplService

def maxAttempts : Nat := 3
def retryDelays : List Nat := [10, 30, 60]

/-- What `process_settlement` returns. -/
inductive Outcome where
  | skipped | completed | failed | requeued
  deriving Repr, DecidableEq

/-- `str.strip(": ")` -/
def strip (text : String) : String :=
  let blank := fun c => c == ':' || c == ' '
  String.ofList (((text.toList.dropWhile blank).reverse.dropWhile blank).reverse)

/-- `f"{a}: {b}"` -/
def colon (a b : String) : String := a ++ ": " ++ b

/-! ## §1. The transitions of a row. -/

/-- `_reload`: `scalar_one()` raises when the row is not there. -/
def reload (t : Nat) : Program Txn := do
  match ← call (.selectTxn t) with
  | some txn => return txn
  | none => throw (.db "NoResultFound" "No row was found when one was required")

def claimable (x : Txn) : Bool :=
  x.settlementStatus == .queued && x.cashinStatus == .received && x.xrplTxHash.isNone

def claimed (now : Nat) (x : Txn) : Txn :=
  { x with
    settlementStatus := .processing
    settlementAttempts := x.settlementAttempts + 1
    updatedAt := now }

/-- `claim`: one conditional UPDATE queued -> processing. -/
def claim (t : Nat) : Program (Option Txn) := do
  let hit ← call (.updateTxn t claimable claimed)
  call .commit
  if hit then
    let txn ← reload t
    return some txn
  else
    return none

/-- `select(Wallet).where(user_id == txn.recipient_user_id).with_for_update()` -/
def lockRecipientWallet (txn : Txn) : Program (Option (Nat × Wallet)) := do
  match txn.recipientUserId with
  | none => return none
  | some u =>
      match ← call (.lockWallet u) with
      | none => return none
      | some wallet => return some (u, wallet)

/-- `settlement_status.in_(from_statuses)` -/
def isIn (fromStatuses : List SettlementStatus) (x : Txn) : Bool :=
  fromStatuses.contains x.settlementStatus

def completed (txHash : Option Nat) (now : Nat) (x : Txn) : Txn :=
  { x with
    settlementStatus := .completed
    xrplTxHash := txHash
    xrplErrorReason := none
    settledAt := some now
    updatedAt := now }

/-- Without a wallet row there is no cache to update. -/
def credit (t : Nat) (txn : Txn) : Option (Nat × Wallet) → Program Unit
  | some (u, wallet) =>
      call (.setBalance u (wallet.balanceUctusd + txn.uctusdAmount) (.credit t))
  | none => pure ()

/-- `complete_settlement`: the status change and the credit commit together. -/
def completeSettlement (t : Nat) (txn : Txn) (txHash : Option Nat)
    (fromStatuses : List SettlementStatus) : Program Bool := do
  let hit ← call (.updateTxn t (isIn fromStatuses) (completed txHash))
  if hit then
    -- a crash before COMMIT takes the status back together with the credit
    let wallet ← lockRecipientWallet txn
    credit t txn wallet
    call .commit
    call .refresh
    return true
  else
    call .commit
    return false

/-- The hash is written only when there is one. -/
def failed (reason : String) (txHash : Option Nat) (now : Nat) (x : Txn) : Txn :=
  { x with
    settlementStatus := .failed
    xrplErrorReason := some reason
    xrplTxHash := txHash.or x.xrplTxHash
    updatedAt := now }

/-- `fail_settlement`: only from an expected state. -/
def failSettlement (t : Nat) (reason : String) (txHash : Option Nat)
    (fromStatuses : List SettlementStatus) : Program Bool := do
  let hit ← call (.updateTxn t (isIn fromStatuses) (failed reason txHash))
  if hit then
    call .commit
    call .refresh
    return true
  else
    call .commit
    return false

def requeued (reason : String) (now : Nat) (x : Txn) : Txn :=
  { x with
    settlementStatus := .queued
    xrplErrorReason := some ("retrying: " ++ reason)
    updatedAt := now }

/-- `_retry_or_fail`: nothing has been signed. -/
def retryOrFail (t : Nat) (txn : Txn) (reason : String) : Program Outcome := do
  if maxAttempts ≤ txn.settlementAttempts then
    let _ ← failSettlement t ("retries_exhausted: " ++ reason) none [.processing]
    return .failed
  else
    let delay := retryDelays.getD (min (max txn.settlementAttempts 1 - 1) 2) 0
    let hit ← call (.updateTxn t (isIn [.processing]) (requeued reason))
    if hit then
      call .commit
      call .refresh
      -- after COMMIT: a crash here leaves the row queued and unpublished
      call (.enqueueIn delay (.settle t))
      return .requeued
    else
      call .commit
      return .skipped

/-! ## §2. One message. -/

def remembered (signed : SignedTx) (now : Nat) (x : Txn) : Txn :=
  { x with
    xrplTxHash := some signed.txHash
    settlementLastLedgerSequence := signed.lastLedgerSequence
    settlementSubmittedLedgerIndex := signed.submittedLedgerIndex
    updatedAt := now }

/-- `remember_signed`: hash and ledger range are stored before the payment is
submitted.  The flush is not conditional on the status. -/
def rememberSigned (t : Nat) (signed : SignedTx) : Program Unit := do
  let _ ← call (.updateTxn t (fun _ => true) (remembered signed))
  call .commit
  call (.setSignedHash signed.txHash)

/-- `with lock(): body`; leaving the block may itself raise. -/
def withTreasuryLock {α : Type} (body : Program α) : Program α := do
  call .acquireTreasury
  let result ← Prog.attempt body
  call .releaseTreasury
  -- the result of the body is lost if the release raises
  match result with
  | .ok a => return a
  | .error e => throw e

/-- The body of the worker's `try`. -/
def pay (t u : Nat) (txn : Txn) : Program XRPLResult := do
  let wallet ← provisionWallet t u
  if wallet.trustSetComplete then
    withTreasuryLock
      (sendFromTreasury t wallet.xrplAddress txn.uctusdAmount (rememberSigned t))
  else
    throw (.transient "trust line to the issuer is not set yet")

/-- `db.get(User, txn.recipient_user_id) if txn.recipient_user_id else None` -/
def getRecipient (txn : Txn) : Program (Option Nat) := do
  match txn.recipientUserId with
  | none => return none
  | some u =>
      let found ← call (.getUser u)
      return if found then some u else none

/-- The two `except` clauses. -/
def onException (t : Nat) (txn : Txn) : Exn → Program Outcome
  | .invalidAmount text => do
      let _ ← failSettlement t ("invalid_amount: " ++ text) none [.processing]
      return .failed
  | exc => do
      match ← call .getSignedHash with
      -- signed, so that it may have been paid
      | some signedHash =>
          let _ ← failSettlement t
            ("outcome_unknown: " ++ exc.typeName ++ " after signing; check the hash on the ledger")
            (some signedHash) [.processing]
          return .failed
      | none => retryOrFail t txn (colon exc.typeName exc.text)

/-- After the `try`: branch on the resolution, never on the result code. -/
def onResult (t : Nat) (txn : Txn) (result : XRPLResult) : Program Outcome := do
  match result.resolution with
  | .succeeded =>
      let _ ← completeSettlement t txn result.txHash [.processing]
      return .completed
  -- nothing was handed over: the one outcome that is tried again
  | .notSubmitted =>
      retryOrFail t txn (strip (colon result.resultCode result.message))
  -- it may have been paid, so that the hash stays for an admin
  | .unknown =>
      let _ ← failSettlement t
        ("outcome_unknown: " ++ strip (colon result.resultCode result.message)
          ++ "; check the hash on the ledger")
        result.txHash [.processing]
      return .failed
  | .failed =>
      let _ ← failSettlement t (strip (colon result.resultCode result.message)) result.txHash
        [.processing]
      return .failed

/-- `process_settlement` -/
def processSettlement (t : Nat) : Program Outcome := do
  match ← claim t with
  | none => return .skipped
  | some txn =>
      match ← getRecipient txn with
      | none =>
          let _ ← failSettlement t
            "recipient_not_registered: no platform user to receive funds" none [.processing]
          return .failed
      | some u =>
          -- the wallet, the lock and the payment are inside the `try`, the claim is not
          match ← Prog.attempt (pay t u txn) with
          | .error exc => onException t txn exc
          | .ok result => onResult t txn result

end Orbyt.SettlementWorker
