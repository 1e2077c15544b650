/-
  Orbyt.Platform.CashoutWorker — burn one approved cash-out on XRPL

  `cashout_worker.py`, the settlement path in reverse: claim the row by stamping
  `burn_started_at`, sign, store hash and ledger range, submit, then complete,
  restore the reserve, or hold the row for an admin.
-/
import Orbyt.Platform.SettlementWorker

namespace Orbyt.CashoutWorker

open Interleave
open XrplService
open SettlementWorker (colon strip)

def maxAttempts : Nat := 3
def retryDelays : List Nat := [10, 30, 60]

/-- `STUCK_AFTER`: 10 minutes, more than `JOB_TIMEOUT`. -/
def stuckAfter : Nat := seconds 600

/-- What `process_burn` returns. -/
inductive Outcome where
  | skipped | completed | failed | requeued | unknown
  deriving Repr, DecidableEq

/-- `f"SIMPAY-{req.id.hex[:12].upper()}"` -/
def payoutReference (r : Nat) : String :=
  let digits := Nat.toDigits 16 r
  let hex := List.replicate (32 - digits.length) '0' ++ digits
  "SIMPAY-" ++ String.ofList ((hex.take 12).map Char.toUpper)

/-! ## §1. The transitions of a row. -/

def reload (r : Nat) : Program CashOutRequest := do
  match ← call (.selectReq r) with
  | some req => return req
  | none => throw (.db "NoResultFound" "No row was found when one was required")

/-- Nothing signed, and no claim younger than `stuckAfter` when it was `asked`. -/
def claimable (asked : Nat) (q : CashOutRequest) : Bool :=
  q.status == .approved && q.xrplBurnTxHash.isNone
    && q.burnStartedAt.all (fun started => decide (started + stuckAfter < asked))

def claimed (now : Nat) (q : CashOutRequest) : CashOutRequest :=
  { q with
    burnStartedAt := some now
    burnAttempts := q.burnAttempts + 1
    updatedAt := now }

/-- `claim`: one conditional UPDATE stamping `burn_started_at`. -/
def claim (r : Nat) : Program (Option CashOutRequest) := do
  let asked ← call .now
  let hit ← call (.updateReq r (claimable asked) claimed)
  call .commit
  if hit then
    let req ← reload r
    return some req
  else
    return none

def released (now : Nat) (q : CashOutRequest) : CashOutRequest :=
  { q with burnStartedAt := none, updatedAt := now }

/-- `release_claim`: unconditional. -/
def releaseClaim (r : Nat) : Program Unit := do
  let _ ← call (.updateReq r (fun _ => true) released)
  call .commit

def isApproved (q : CashOutRequest) : Bool := q.status == .approved

/-- All stamps of a completion are one clock read, `stamp`. -/
def completed (r : Nat) (txHash : Option Nat) (stamp _now : Nat) (q : CashOutRequest) :
    CashOutRequest :=
  { q with
    status := .completed
    xrplBurnTxHash := txHash
    failureReason := none
    completedAt := some stamp
    fiatPayoutReference := some (payoutReference r)
    fiatPaidAt := some stamp
    updatedAt := stamp }

/-- `complete_burn`: the balance is not touched. -/
def completeBurn (r : Nat) (txHash : Option Nat) : Program Bool := do
  let stamp ← call .now
  let hit ← call (.updateReq r isApproved (completed r txHash stamp))
  if hit then
    call .commit
    call .refresh
    return true
  else
    call .commit
    return false

/-- The hash is written only when there is one. -/
def failed (reason : String) (txHash : Option Nat) (now : Nat) (q : CashOutRequest) :
    CashOutRequest :=
  { q with
    status := .failed
    failureReason := some reason
    xrplBurnTxHash := txHash.or q.xrplBurnTxHash
    updatedAt := now }

/-- `fail_and_restore`: the restore lives inside the conditional transition. -/
def failAndRestore (r : Nat) (req : CashOutRequest) (reason : String) (txHash : Option Nat) :
    Program Bool := do
  let hit ← call (.updateReq r isApproved (failed reason txHash))
  if hit then
    -- restored at most once: whoever loses the UPDATE never gets here
    match ← call (.lockWallet req.walletId) with
    | none => throw (.db "NoResultFound" "No row was found when one was required")
    | some wallet =>
        call (.setBalance req.walletId (wallet.balanceUctusd + req.uctusdAmount) (.restore r))
        call .commit
        call .refresh
        return true
  else
    call .commit
    return false

def held (reason : String) (now : Nat) (q : CashOutRequest) : CashOutRequest :=
  { q with failureReason := some (colon "outcome_unknown" reason), updatedAt := now }

/-- `hold_unknown`: the row stays `approved` and the reserve stays debited. -/
def holdUnknown (r : Nat) (reason : String) : Program Unit := do
  let hit ← call (.updateReq r isApproved (held reason))
  call .commit
  if hit then call .refresh else pure ()

/-- `_retry_or_fail`: only for failures that never reached the ledger. -/
def retryOrFail (r : Nat) (req : CashOutRequest) (reason : String) : Program Outcome := do
  if maxAttempts ≤ req.burnAttempts then
    let _ ← failAndRestore r req ("retries_exhausted: " ++ reason) none
    return .failed
  else
    let delay := retryDelays.getD (min (req.burnAttempts - 1) 2) 0
    -- committed before the message, so that a worker that gets it can claim the row
    releaseClaim r
    call (.enqueueIn delay (.burn r))
    return .requeued

/-! ## §2. One message. -/

def remembered (signed : SignedTx) (now : Nat) (q : CashOutRequest) : CashOutRequest :=
  { q with
    xrplBurnTxHash := some signed.txHash
    burnLastLedgerSequence := signed.lastLedgerSequence
    burnSubmittedLedgerIndex := signed.submittedLedgerIndex
    updatedAt := now }

/-- `remember_signed`: unconditional, before the burn is submitted. -/
def rememberSigned (r : Nat) (signed : SignedTx) : Program Unit := do
  let _ ← call (.updateReq r (fun _ => true) (remembered signed))
  call .commit
  call (.setSignedHash signed.txHash)

/-- The two `except` clauses. -/
def onException (r : Nat) (req : CashOutRequest) : Exn → Program Outcome
  | .invalidAmount text => do
      let _ ← failAndRestore r req ("invalid_amount: " ++ text) none
      return .failed
  | exc => do
      match ← call .getSignedHash with
      -- signed, so that the tokens may have left the wallet
      | some _ =>
          holdUnknown r (exc.typeName ++ " after signing")
          return .unknown
      | none => retryOrFail r req (colon exc.typeName exc.text)

/-- After the `try`: branch on the resolution, never on the result code. -/
def onResult (r : Nat) (req : CashOutRequest) (result : XRPLResult) : Program Outcome := do
  match result.resolution with
  | .succeeded =>
      let _ ← completeBurn r result.txHash
      return .completed
  -- nothing was handed over: the one outcome that is tried again
  | .notSubmitted =>
      retryOrFail r req (strip (colon result.resultCode result.message))
  | .unknown =>
      holdUnknown r (strip (colon result.resultCode result.message))
      return .unknown
  | .failed =>
      let _ ← failAndRestore r req (strip (colon result.resultCode result.message)) result.txHash
      return .failed

/-- `process_burn` -/
def processBurn (r : Nat) : Program Outcome := do
  match ← claim r with
  | none => return .skipped
  | some req =>
      -- read after the claim, and outside the `try`
      match ← call (.selectWallet req.walletId) with
      | none =>
          let _ ← failAndRestore r req "wallet_missing: no XRPL wallet to burn from" none
          return .failed
      | some wallet =>
          match ← Prog.attempt
              (burnToIssuer r req.walletId wallet req.uctusdAmount (rememberSigned r)) with
          | .error exc => onException r req exc
          | .ok result => onResult r req result

end Orbyt.CashoutWorker
