/-
  Orbyt.Platform.CashinService — sends, cash-in, and the hand-off to settlement

  `cashin_service.py` with the limit check of `limit_service.py`: a remittance is
  created against the sender's allowance, its cash-in is confirmed, failed or
  expired, and a settlement that failed or got stuck is retried by an admin once
  the ledger has been consulted.  An admin's request starts by loading the row
  (`get_transaction`), as the routes do.
-/
import Orbyt.Lib.PyText
import Orbyt.Platform.SettlementWorker

namespace Orbyt

open Interleave

/-! ## §1. Amounts in messages. -/

/-- Digits in groups of three, least significant first. -/
def groupThousands : List Char → List Char
  | a :: b :: c :: d :: rest => a :: b :: c :: ',' :: groupThousands (d :: rest)
  | short => short

/-- `f"{n / 10**digits:,.{digits}f}"` -/
def formatFixed (digits : Nat) (n : Int) : String :=
  let whole := n.natAbs / 10 ^ digits
  let frac := Nat.toDigits 10 (n.natAbs % 10 ^ digits)
  (if n < 0 then "-" else "")
    ++ String.ofList (groupThousands (Nat.toDigits 10 whole).reverse).reverse
    ++ "." ++ String.ofList (List.replicate (digits - frac.length) '0' ++ frac)

namespace LimitService

/-! ## §2. The limit check. -/

structure LimitCheck where
  allowed : Bool
  reason : String
  dailyRemaining : Nat
  monthlyRemaining : Nat
  deriving Repr, DecidableEq

/-- `get_daily_usage`, with the clock read of `display_today`. -/
def getDailyUsage (S : Setting) (user : Nat) : Program Nat := do
  let now ← call .now
  call (.sumZarSince user (S.calendar.dayStartUtc (S.calendar.day now)))

/-- `get_monthly_usage`, with a clock read of its own. -/
def getMonthlyUsage (S : Setting) (user : Nat) : Program Nat := do
  let now ← call .now
  call (.sumZarSince user
    (S.calendar.dayStartUtc (S.calendar.firstOfMonth (S.calendar.day now))))

/-- `check_limit` against the user's tier; remaining amounts are cut off at 0. -/
def checkTier (S : Setting) (tier : LimitTier) (user amountZar : Nat) : Program LimitCheck := do
  if tier.dailyLimitZar = 0 ∧ tier.monthlyLimitZar = 0 then
    return ⟨false, "Your account must be KYC-approved before sending money.", 0, 0⟩
  else
    let dailyUsed ← getDailyUsage S user
    let monthlyUsed ← getMonthlyUsage S user
    let dailyRemaining := tier.dailyLimitZar - dailyUsed
    let monthlyRemaining := tier.monthlyLimitZar - monthlyUsed
    if tier.dailyLimitZar < dailyUsed + amountZar then
      return ⟨false, "Daily limit exceeded. You have R" ++ formatFixed 2 dailyRemaining
        ++ " available today.", dailyRemaining, monthlyRemaining⟩
    else if tier.monthlyLimitZar < monthlyUsed + amountZar then
      return ⟨false, "Monthly limit exceeded. You have R" ++ formatFixed 2 monthlyRemaining
        ++ " available this month.", dailyRemaining, monthlyRemaining⟩
    else
      return ⟨true, "", dailyRemaining, monthlyRemaining⟩

/-- `check_limit` -/
def checkLimit (S : Setting) (user amountZar : Nat) : Program LimitCheck := do
  match ← call (.limitTier user) with
  | none =>
      return ⟨false, "No remittance tier is configured for your account. Contact support.", 0, 0⟩
  | some tier => checkTier S tier user amountZar

end LimitService

namespace CashinService

open SettlementWorker

/-! ## §3. Creating a remittance. -/

/-- All three figures are checked, not just the rate. -/
def pricingMatches (quote : Quote) (accepted : AcceptedQuote) : Bool :=
  quote.exchangeRate == accepted.exchangeRate
    && quote.transactionFee == accepted.transactionFee
    && quote.uctusdAmount == accepted.uctusdAmount

/-- The row a send inserts; the mock processor declines one test card. -/
def newTransaction (form : SendForm) (recipientId : Nat) (quote : Quote) (last4 : String)
    (declined : Bool) (key now : Nat) : Txn where
  senderId := form.senderId
  beneficiaryId := form.beneficiaryId
  recipientUserId := some recipientId
  quote := quote
  idempotencyKey := key
  cashinStatus := if declined then .failed else .pending
  settlementStatus := .notQueued
  cardLast4 := some last4
  cashinUpdatedAt := if declined then some now else none
  cashinReviewedBy := none
  cashinFailureReason :=
    if declined then some "Card declined by the payment processor (test card)." else none
  xrplTxHash := none
  settlementLastLedgerSequence := none
  settlementSubmittedLedgerIndex := none
  settlementAttempts := 0
  settlementPreviousAttempts := []
  xrplErrorReason := none
  settledAt := none
  amlFlagged := false
  createdAt := now
  updatedAt := now

/-- From the checked price to the commit: limit, card, insert. -/
def book (S : Setting) (form : SendForm) (recipientId : Nat) (quote : Quote) : Program Nat := do
  let limit ← LimitService.checkLimit S form.senderId quote.zarAmount
  if limit.allowed then
    let (last4, declined) ← call .validateCard
    -- a declined card is booked as well, with its cash-in failed
    let t ← call (.insertTxn (newTransaction form recipientId quote last4 declined))
    call .commit
    call .refresh
    return t
  else
    throw (.remittance limit.reason)

/-- `create_remittance`: the sender's row stays locked from the first statement to
the commit. -/
def createRemittance (S : Setting) (form : SendForm) : Program Nat := do
  if form.canSend && form.kycApproved then
    call (.lockUser form.senderId)
    match ← call (.findBeneficiary form.beneficiaryId) with
    | none => throw (.remittance "Beneficiary not found.")
    | some payee =>
        match payee.recipientUserId with
        | none =>
            throw (.remittance (payee.fullName ++ " does not have an account yet. Ask them to "
              ++ "register with the email or mobile number you saved, then try again."))
        | some recipientId =>
            -- priced again, under the lock
            let quote ← call (.quoteFor form.zarAmount)
            if pricingMatches quote form.accepted then
              book S form recipientId quote
            else
              throw (.remittance ("The price changed since your quote. Please review the new "
                ++ "quote before paying."))
  else
    throw (.remittance "Your account must be KYC-approved before sending money.")

/-! ## §4. Cash-in. -/

/-- `_publish`: the failure write is conditional on the row still being `queued`. -/
def publish (t : Nat) : Program Unit := do
  match ← Prog.attempt (call (.enqueue (.settle t))) with
  | .ok _ => return ()
  | .error exc =>
      let _ ← failSettlement t
        ("queue_unavailable: " ++ exc.typeName ++ "; retry from the admin monitor") none [.queued]
      return ()

def alreadyProcessed : Exn := .remittance "This cash-in has already been processed."

def isPending (x : Txn) : Bool := x.cashinStatus == .pending

def received (reviewer : Option Nat) (now : Nat) (x : Txn) : Txn :=
  { x with
    cashinStatus := .received
    cashinUpdatedAt := some now
    cashinReviewedBy := reviewer
    settlementStatus := .queued
    updatedAt := now }

def markCashinReceived (t : Nat) (reviewer : Option Nat) : Program Unit := do
  let hit ← call (.updateTxn t isPending (received reviewer))
  call .commit
  if hit then
    call .refresh
    -- after COMMIT: a crash before it leaves the row queued and unpublished
    publish t
  else
    throw alreadyProcessed

/-- `reason.strip() or default` -/
def reasonOr (default reason : String) : String :=
  match PyText.strip reason.toList with
  | [] => default
  | text => String.ofList text

def cashinFailed (reviewer : Option Nat) (reason : String) (now : Nat) (x : Txn) : Txn :=
  { x with
    cashinStatus := .failed
    cashinUpdatedAt := some now
    cashinReviewedBy := reviewer
    cashinFailureReason := some (reasonOr "Payment was not received." reason)
    updatedAt := now }

def markCashinFailed (t : Nat) (reviewer : Option Nat) (reason : String) : Program Unit := do
  let hit ← call (.updateTxn t isPending (cashinFailed reviewer reason))
  call .commit
  if hit then call .refresh else throw alreadyProcessed

/-- `CASHIN_EXPIRY`: 24 hours. -/
def cashinExpiry : Nat := seconds 86400

/-- Created before `cutoff = asked - cashinExpiry`. -/
def isStale (asked : Nat) (x : Txn) : Bool :=
  isPending x && decide (x.createdAt + cashinExpiry < asked)

def expired (now : Nat) (x : Txn) : Txn :=
  { x with
    cashinStatus := .failed
    cashinFailureReason :=
      some ("Payment was not confirmed in time; this transfer was cancelled. "
        ++ "Nothing was sent and your limit allowance has been released.")
    cashinUpdatedAt := some now
    updatedAt := now }

/-- `expire_stale_cashins`: one conditional UPDATE over the table. -/
def expireStaleCashins : Program Unit := do
  let asked ← call .now
  call (.updateTxns (isStale asked) expired)
  call .commit

/-! ## §5. Admin retry. -/

/-- `STUCK_AFTER`: 10 minutes. -/
def stuckAfter : Nat := seconds 600

inductive RetryOutcome where
  | requeued | reconciled
  deriving Repr, DecidableEq

/-- `txn.settlement_status == failed or _is_stuck(txn)` -/
def retryable (txn : Txn) : Program Bool := do
  match txn.settlementStatus with
  | .failed => return true
  | .processing =>
      -- a worker is dead once the row has been still for this long
      let now ← call .now
      return decide (txn.updatedAt + stuckAfter ≤ now)
  | _ => return false

/-- `_refuse_unless_provably_dead` -/
def refuseUnlessProvablyDead (txn : Txn) : Program Unit := do
  match txn.settlementLastLedgerSequence, txn.settlementSubmittedLedgerIndex with
  | some lastLedger, some submittedAt =>
      -- read after the lookup that found nothing
      let latest ← call .latestValidated
      if latest ≤ lastLedger then
        throw (.remittance ("The last attempt could still be validated. Wait until ledger "
          ++ toString lastLedger ++ " has passed, then retry."))
      else
        let complete ← call (.completeRange submittedAt lastLedger)
        if complete then
          return ()
        else
          throw (.remittance ("The server is missing ledger history for this attempt, so a "
            ++ "missing payment proves nothing. Retry once its history is complete."))
  | _, _ =>
      throw (.remittance ("This attempt has no recorded ledger range, so it cannot be shown to "
        ++ "have failed. Check " ++ (txn.xrplTxHash.map toString).getD "None"
        ++ " on the ledger before retrying."))

/-- The ledger is consulted before a signed attempt is retired: its code, or `none`
once it is past `_refuse_unless_provably_dead`. -/
def consultLedger (txn : Txn) (txHash : Nat) : Program (Option TxCode) := do
  let code ← call (.lookup txHash)
  match code with
  | some code => return some code
  | none =>
      refuseUnlessProvablyDead txn
      return none

/-- `_archived_attempts`: hash and ledger range move together. -/
def archivedAttempts (txn : Txn) (now : Nat) : List Attempt :=
  match txn.xrplTxHash with
  | none => txn.settlementPreviousAttempts
  | some txHash =>
      txn.settlementPreviousAttempts ++
        [{ txHash := txHash
           lastLedgerSequence := txn.settlementLastLedgerSequence
           submittedLedgerIndex := txn.settlementSubmittedLedgerIndex
           attempts := txn.settlementAttempts
           failureReason := txn.xrplErrorReason
           retiredAt := now }]

/-- Nothing has touched the row since `txn` was read. -/
def isUntouched (txn : Txn) (x : Txn) : Bool :=
  x.settlementStatus == txn.settlementStatus && x.updatedAt == txn.updatedAt

/-- Cleared so that the row can be claimed and signed again, and archived first. -/
def retired (txn : Txn) (now : Nat) (x : Txn) : Txn :=
  { x with
    settlementStatus := .queued
    settlementAttempts := 0
    xrplErrorReason := none
    xrplTxHash := none
    settlementLastLedgerSequence := none
    settlementSubmittedLedgerIndex := none
    settlementPreviousAttempts := archivedAttempts txn now
    updatedAt := now }

/-- The end of `retry_settlement`, guarded on status and `updated_at`. -/
def requeue (t : Nat) (txn : Txn) : Program RetryOutcome := do
  let hit ← call (.updateTxn t (isUntouched txn) (retired txn))
  call .commit
  if hit then
    call .refresh
    publish t
    return .requeued
  else
    throw (.remittance ("This settlement changed while you were looking at it. Refresh and try "
      ++ "again."))

/-- A signed attempt that succeeded is recorded and never re-sent. -/
def reconcileOrRequeue (t : Nat) (txn : Txn) : Program RetryOutcome := do
  match txn.xrplTxHash with
  | none => requeue t txn
  | some txHash =>
      match ← consultLedger txn txHash with
      | some .tesSUCCESS =>
          let _ ← completeSettlement t txn (some txHash) [txn.settlementStatus]
          return .reconciled
      -- failed on the ledger, or provably in no ledger at all
      | _ => requeue t txn

/-- `retry_settlement` -/
def retrySettlement (t : Nat) (txn : Txn) : Program RetryOutcome := do
  let retryable ← retryable txn
  if retryable && txn.cashinStatus == .received then
    reconcileOrRequeue t txn
  else
    throw (.remittance "Only failed or stuck settlements can be retried.")

/-- `requeue_stuck`, on a row that the route has found `queued`. -/
def requeueStuck (t : Nat) : Program Unit := publish t

/-- `requeue_stuck` with its own check, which the route has made before. -/
def requeueStuckChecked (t : Nat) (txn : Txn) : Program Unit := do
  if txn.settlementStatus = .queued then requeueStuck t
  else throw (.remittance "Only queued settlements can be re-queued.")

/-! ## §6. The admin's requests. -/

/-- `get_transaction`, then `act`; the route redirects when there is no such row. -/
def onTransaction (t : Nat) (act : Txn → Program Unit) : Program Unit := do
  match ← call (.selectTxn t) with
  | none => return ()
  | some txn => act txn

/-- The route behind the retry button. -/
def settlementRetry (t : Nat) : Program Unit :=
  onTransaction t (fun txn =>
    if txn.settlementStatus = .queued then requeueStuck t
    else do
      let _ ← retrySettlement t txn
      return ())

def flaggedAs (flagged : Bool) (now : Nat) (x : Txn) : Txn :=
  { x with amlFlagged := flagged, updatedAt := now }

/-- The ORM writes nothing when the flag is as loaded. -/
def flushFlag (t : Nat) (txn : Txn) (flagged : Bool) : Program Unit := do
  if txn.amlFlagged = flagged then
    return ()
  else
    let _ ← call (.updateTxn t (fun _ => true) (flaggedAs flagged))
    return ()

/-- `set_aml_flag` -/
def setAmlFlag (t : Nat) (flagged : Bool) : Program Unit :=
  onTransaction t (fun txn => do
    flushFlag t txn flagged
    call .commit
    call .refresh)

end CashinService

end Orbyt
