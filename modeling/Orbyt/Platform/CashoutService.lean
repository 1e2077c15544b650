/-
  Orbyt.Platform.CashoutService — cash-out requests and their resolution

  `cashout_service.py`: a recipient opens a request against the available balance,
  an admin approves it (the reserve is debited and the burn is published) or
  rejects it, a held burn is resolved from the ledger, and a sweep re-publishes
  approved burns that have no live message.
-/
import Orbyt.Platform.CashinService
import Orbyt.Platform.CashoutWorker

namespace Orbyt.CashoutService

open Interleave
open CashoutWorker

/-! ## §1. Opening a request. -/

/-- Without accepted figures there is nothing to compare. -/
def pricingMatches (pricing : CashOutPricing) : Option CashOutPricing → Bool
  | none => true
  | some accepted =>
      pricing.marketRate == accepted.marketRate
        && pricing.cashoutFeeUsd == accepted.cashoutFeeUsd
        && pricing.netPayout == accepted.netPayout

def newRequest (form : CashOutForm) (pricing : CashOutPricing) (key now : Nat) :
    CashOutRequest where
  recipientUserId := form.recipientId
  walletId := form.recipientId
  pricing := pricing
  idempotencyKey := key
  status := .requested
  approvedBy := none
  approvedAt := none
  completedAt := none
  failureReason := none
  xrplBurnTxHash := none
  burnLastLedgerSequence := none
  burnSubmittedLedgerIndex := none
  burnStartedAt := none
  burnAttempts := 0
  fiatPayoutReference := none
  fiatPaidAt := none
  createdAt := now
  updatedAt := now

/-- `create_request`: the wallet row is locked for the whole check-and-insert. -/
def createRequest (form : CashOutForm) : Program Nat := do
  match ← call (.lockWallet form.recipientId) with
  | none => throw (.cashOut "You do not have a UCTUSD wallet yet.")
  | some wallet =>
      -- what is asked for and not yet approved is not debited, so it is held back here
      let held ← call (.sumRequested form.recipientId)
      let available := wallet.balanceUctusd - held
      if available < form.amount then
        throw (.cashOut ("You can cash out at most " ++ formatFixed 6 available
          ++ " UCTUSD right now (balance " ++ formatFixed 6 wallet.balanceUctusd
          ++ ", less cash-outs awaiting approval)."))
      else
        let pricing ← call (.priceCashout form.amount form.currency)
        if pricingMatches pricing form.accepted then
          let r ← call (.insertReq (newRequest form pricing))
          call .commit
          call .refresh
          return r
        else
          throw (.pricingChanged ("The rate or fee changed while you were reviewing. Check the "
            ++ "updated payout and submit again."))

/-! ## §2. Approval and rejection. -/

/-- `_publish`: a queue outage restores the reserve. -/
def publish (r : Nat) (req : CashOutRequest) : Program Unit := do
  match ← Prog.attempt (call (.enqueue (.burn r))) with
  | .ok _ => return ()
  -- the message may have been delivered all the same
  | .error exc =>
      let _ ← failAndRestore r req
        ("queue_unavailable: " ++ exc.typeName ++ "; the reserved UCTUSD was returned") none
      return ()

def alreadyActioned : Exn := .cashOut "This cash-out has already been actioned."

def isRequested (q : CashOutRequest) : Bool := q.status == .requested

def approved (admin now : Nat) (q : CashOutRequest) : CashOutRequest :=
  { q with
    status := .approved
    approvedBy := some admin
    approvedAt := some now
    updatedAt := now }

/-- `approve`: lock, re-check, claim, debit, commit, publish. -/
def approve (r : Nat) (req : CashOutRequest) (admin : Nat) : Program Unit := do
  match ← call (.lockWallet req.walletId) with
  | none =>
      throw (.cashOut "The recipient's wallet is missing; this cash-out cannot be approved.")
  | some wallet =>
      -- the balance of the object the session has, which FOR UPDATE may leave as it was loaded
      if wallet.balanceUctusd < req.uctusdAmount then
        throw (.cashOut ("Balance is only " ++ formatFixed 6 wallet.balanceUctusd
          ++ " UCTUSD, not enough to reserve " ++ formatFixed 6 req.uctusdAmount
          ++ ". The recipient may have cashed out since this was requested."))
      else
        let hit ← call (.updateReq r isRequested (approved admin))
        if hit then
          -- the reserve: debited by whoever has won the UPDATE
          call (.setBalance req.walletId (wallet.balanceUctusd - req.uctusdAmount) (.debit r))
          call .commit
          call .refresh
          -- after COMMIT: what is lost here, the sweep publishes
          publish r req
        else
          call .commit
          throw alreadyActioned

def rejected (admin : Nat) (reason : String) (now : Nat) (q : CashOutRequest) :
    CashOutRequest :=
  { q with
    status := .failed
    approvedBy := some admin
    approvedAt := some now
    failureReason := some (CashinService.reasonOr "Rejected by an administrator." reason)
    updatedAt := now }

/-- `reject`: no debit has happened, so none is reversed. -/
def reject (r : Nat) (admin : Nat) (reason : String) : Program Unit := do
  let hit ← call (.updateReq r isRequested (rejected admin reason))
  call .commit
  if hit then call .refresh else throw alreadyActioned

/-! ## §3. Resolving a held burn from the ledger. -/

/-- What the ledger says about a signed burn. -/
inductive Verdict where
  | succeeded
  | rejected (code : TxCode)
  | expired (lastLedger : Nat)
  | unresolved
  deriving Repr, DecidableEq

/-- The ledger reads of `reconcile`, in their order. -/
def consultLedger (req : CashOutRequest) (txHash : Nat) : Program Verdict := do
  let code ← call (.lookup txHash)
  match code with
  | some .tesSUCCESS => return .succeeded
  | some code => return .rejected code
  | none =>
      match req.burnLastLedgerSequence, req.burnSubmittedLedgerIndex with
      | some lastLedger, some submittedAt =>
          -- read after the lookup that found nothing
          let latest ← call .latestValidated
          if latest ≤ lastLedger then
            return .unresolved
          else
            let complete ← call (.completeRange submittedAt lastLedger)
            return if complete then .expired lastLedger else .unresolved
      | _, _ => return .unresolved

/-- `reconcile` -/
def reconcile (r : Nat) (req : CashOutRequest) : Program Unit := do
  if req.status = .completed ∨ req.status = .failed then
    throw (.cashOut "This cash-out is already resolved.")
  else
    match req.status, req.xrplBurnTxHash with
    | .approved, some txHash =>
        match ← consultLedger req txHash with
        | .succeeded =>
            let _ ← completeBurn r (some txHash)
            return ()
        | .rejected code =>
            let _ ← failAndRestore r req (code.name ++ ": burn rejected on-ledger") (some txHash)
            return ()
        | .expired lastLedger =>
            let _ ← failAndRestore r req ("expired: not validated by ledger "
              ++ toString lastLedger ++ "; the burn can never be included") (some txHash)
            return ()
        | .unresolved => return ()
    | _, _ => throw (.cashOut "There is no submitted burn to reconcile yet.")

/-! ## §4. The sweep. -/

/-- `PUBLISH_GRACE`: 2 minutes. -/
def publishGrace : Nat := seconds 120

/-- Re-publish one row; an outage is left for the next sweep. -/
def republish (r : Nat) : Program Unit := do
  let _ ← Prog.attempt (call (.enqueue (.burn r)))
  return ()

/-- Approved, nothing signed, and either never claimed or claimed long ago. -/
def isUnpublished (cutoff staleBefore : Nat) (q : CashOutRequest) : Bool :=
  q.status == .approved && q.xrplBurnTxHash.isNone &&
    (match q.burnStartedAt with
      | none => q.approvedAt.any (fun approved => decide (approved + publishGrace < cutoff))
      | some started => decide (started + stuckAfter < staleBefore))

/-- `sweep_unpublished` -/
def sweepUnpublished : Program Unit := do
  let cutoff ← call .now
  let staleBefore ← call .now
  let rows ← call (.selectReqs (isUnpublished cutoff staleBefore))
  Prog.forEach republish rows

/-! ## §5. The admin's requests. -/

/-- `get_request`, which also loads the wallet, then `act`. -/
def onRequest (r : Nat) (act : CashOutRequest → Program Unit) : Program Unit := do
  match ← call (.selectReq r) with
  | none => return ()
  | some req =>
      let _ ← call (.loadWallet req.walletId)
      act req

end Orbyt.CashoutService
