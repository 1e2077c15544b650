/-
  Orbyt.Rules.Footprints — every statement each entry point can issue

  The platform's UPDATE statements, by the entry point that issues them, as one
  inductive type per table: whatever a row can go through is in these lists.

  The footprint of each function is stated for any predicate `P` that every basic
  call satisfies, so that it can be had inside one entry point's list, or inside the
  part of it that a later proof is about.

  Main result:
    * `body_uses` — a program makes no call that its list does not have.
-/
import Orbyt.Rules.Statements

namespace Orbyt

open Interleave
open Interleave.Prog
open SettlementWorker CashinService

/-! ## §1. The lists. -/

/-- The single-row UPDATEs of `transactions`: who issues them, on which row, under
which condition, and what they write. -/
inductive TxnUpdate : Entry → Nat → (Txn → Bool) → (Nat → Txn → Txn) → Prop where
  | claim (t : Nat) : TxnUpdate (.settle t) t claimable claimed
  | remember (t : Nat) (signed : SignedTx) :
      TxnUpdate (.settle t) t (fun _ => true) (remembered signed)
  | complete (t : Nat) (txHash : Option Nat) :
      TxnUpdate (.settle t) t (isIn [.processing]) (completed txHash)
  | fail (t : Nat) (reason : String) (txHash : Option Nat) :
      TxnUpdate (.settle t) t (isIn [.processing]) (failed reason txHash)
  | requeue (t : Nat) (reason : String) :
      TxnUpdate (.settle t) t (isIn [.processing]) (requeued reason)
  | receive (t : Nat) (reviewer : Option Nat) :
      TxnUpdate (.cashinReceived t reviewer) t isPending (received reviewer)
  | unpublished (t : Nat) (reviewer : Option Nat) (reason : String) :
      TxnUpdate (.cashinReceived t reviewer) t (isIn [.queued]) (failed reason none)
  | refuse (t : Nat) (reviewer : Option Nat) (reason : String) :
      TxnUpdate (.cashinFailed t reviewer reason) t isPending (cashinFailed reviewer reason)
  | reconcile (t txHash : Nat) (status : SettlementStatus)
      (h : status = .failed ∨ status = .processing) :
      TxnUpdate (.settlementRetry t) t (isIn [status]) (completed (some txHash))
  | retire (t : Nat) (txn : Txn)
      (h : txn.settlementStatus = .failed ∨ txn.settlementStatus = .processing) :
      TxnUpdate (.settlementRetry t) t (isUntouched txn) (retired txn)
  | unpublishedRetry (t : Nat) (reason : String) :
      TxnUpdate (.settlementRetry t) t (isIn [.queued]) (failed reason none)
  | flag (t : Nat) (flagged : Bool) :
      TxnUpdate (.amlFlag t flagged) t (fun _ => true) (flaggedAs flagged)

/-- The UPDATEs of `cashout_requests`. -/
inductive ReqUpdate : Entry → Nat → (CashOutRequest → Bool) →
    (Nat → CashOutRequest → CashOutRequest) → Prop where
  | claim (r asked : Nat) :
      ReqUpdate (.burn r) r (CashoutWorker.claimable asked) CashoutWorker.claimed
  | release (r : Nat) : ReqUpdate (.burn r) r (fun _ => true) CashoutWorker.released
  | remember (r : Nat) (signed : SignedTx) :
      ReqUpdate (.burn r) r (fun _ => true) (CashoutWorker.remembered signed)
  | complete (r : Nat) (txHash : Option Nat) (stamp : Nat) :
      ReqUpdate (.burn r) r CashoutWorker.isApproved (CashoutWorker.completed r txHash stamp)
  | fail (r : Nat) (reason : String) (txHash : Option Nat) :
      ReqUpdate (.burn r) r CashoutWorker.isApproved (CashoutWorker.failed reason txHash)
  | hold (r : Nat) (reason : String) :
      ReqUpdate (.burn r) r CashoutWorker.isApproved (CashoutWorker.held reason)
  | approve (r admin : Nat) :
      ReqUpdate (.approve r admin) r CashoutService.isRequested (CashoutService.approved admin)
  | unpublished (r admin : Nat) (reason : String) :
      ReqUpdate (.approve r admin) r CashoutWorker.isApproved (CashoutWorker.failed reason none)
  | reject (r admin : Nat) (reason : String) :
      ReqUpdate (.reject r admin reason) r CashoutService.isRequested
        (CashoutService.rejected admin reason)
  | reconcileComplete (r txHash stamp : Nat) :
      ReqUpdate (.reconcile r) r CashoutWorker.isApproved
        (CashoutWorker.completed r (some txHash) stamp)
  | reconcileFail (r txHash : Nat) (reason : String) :
      ReqUpdate (.reconcile r) r CashoutWorker.isApproved
        (CashoutWorker.failed reason (some txHash))

/-- The transactions that are signed: by which entry point, and what each is for. -/
inductive Signs : Entry → Purpose → XRPLTransaction → Prop where
  | trustSet (t u address : Nat) :
      Signs (.settle t) (.trustSet t u) (.trustSet (.wallet u address))
  | payment (t address amount : Nat) :
      Signs (.settle t) (.payment t) (.payment .treasury (.address address) amount)
  | burn (r u address amount : Nat) :
      Signs (.burn r) (.burn r) (.payment (.wallet u address) .issuer amount)

/-- What an entry point hands over. -/
def Entry.signs : Entry → Purpose → Prop
  | .settle t, .payment t' => t' = t
  | .settle t, .trustSet t' _ => t' = t
  | .burn r, .burn r' => r' = r
  | _, _ => False

/-- The balance statements an entry point issues. -/
def Entry.moves : Entry → Move → Prop
  | .settle t, .credit t' => t' = t
  | .settlementRetry t, .credit t' => t' = t
  | .approve r _, .debit r' => r' = r
  | .approve r _, .restore r' => r' = r
  | .burn r, .restore r' => r' = r
  | .reconcile r, .restore r' => r' = r
  | _, _ => False

/-- The calls on the office: those of the requests on accounts, and what a form that has passed
its checks loads and writes. -/
def Entry.asks : Entry → Office.Op → Prop
  | .office (.account _ _), .directory _ => True
  | .office (.updateFees _), .selectFees => True
  | .office (.updateFees form), .updateFees _ values =>
      Configuration.checkedFees form = .ok values
  | .office (.updateFees _), .commit => True
  | .office (.updateTierLimits n _), .selectTier n' => n' = n
  | .office (.updateTierLimits n form), .updateTier n' _ values =>
      n' = n ∧ Configuration.checkedTier form = .ok values
  | .office (.updateTierLimits _ _), .commit => True
  | _, _ => False

/-- The calls an entry point may make. -/
def Entry.may (e : Entry) : Op → Prop
  | .updateTxn t cond values => TxnUpdate e t cond values
  | .updateTxns cond values =>
      e = .expireStaleCashins ∧ ∃ asked, cond = isStale asked ∧ values = expired
  | .insertTxn row => ∃ form recipientId quote last4 declined,
      e = .createRemittance form ∧ row = newTransaction form recipientId quote last4 declined
  | .updateReq r cond values => ReqUpdate e r cond values
  | .insertReq row => ∃ form pricing,
      e = .createRequest form ∧ row = CashoutService.newRequest form pricing
  | .setBalance _ _ move => e.moves move
  | .insertWallet _ w => ∃ t account, e = .settle t ∧
      w = ⟨account, encryptSeed account, false, 0⟩
  | .setTrustLine _ => ∃ t, e = .settle t
  | .autofillAndSign purpose tx => Signs e purpose tx
  | .handOver purpose _ => e.signs purpose
  | .office o => e.asks o
  | _ => True

/-- The calls that write no row, sign and submit nothing, and ask nothing about a hash or of the
office. -/
def Op.isPlain : Op → Bool
  | .setSignedHash _ | .updateTxn _ _ _ | .updateTxns _ _ | .insertTxn _
  | .updateReq _ _ _ | .insertReq _
  | .setBalance _ _ _ | .insertWallet _ _ | .setTrustLine _ | .autofillAndSign _ _
  | .handOver _ _ | .outcome _ | .lookup _ | .office _ => false
  | _ => true

/-- The publication of a retry. -/
def Op.isDelayed : Op → Bool
  | .enqueueIn _ _ => true
  | _ => false

/-- The plain calls that publish no retry. -/
def Op.isBasic (o : Op) : Bool := o.isPlain && !o.isDelayed

theorem may_plain (e : Entry) : ∀ o, o.isBasic = true → e.may o := by
  intro o h
  cases o <;> trivial

section Functions

variable {P : Op → Prop} (hP : ∀ o, o.isBasic = true → P o) {t r : Nat}

include hP

/-! ## §2. The XRPL programs. -/

omit hP in
theorem uses_submit {purpose : Purpose} {tx : XRPLTransaction}
    {onSignedTx : SignedTx → Program Unit} {index : Option Nat}
    (hs : P (.autofillAndSign purpose tx)) (hh : ∀ h, P (.handOver purpose h))
    (ho : ∀ h, P (.outcome h)) (hcb : ∀ signed, Uses P (onSignedTx signed)) :
    Uses P (XrplService.submit purpose tx onSignedTx index) := by
  unfold XrplService.submit
  refine uses_bind (uses_attempt (uses_call hs)) fun signed => ?_
  split
  · trivial
  · trivial
  · refine uses_bind (hcb _) fun _ => uses_bind (uses_call (hh _)) fun _ =>
      uses_bind (uses_attempt (uses_call (ho _))) fun answer => ?_
    split <;> trivial

theorem uses_ensureTrustLine {u : Nat} {w : Wallet} (ht : P (.setTrustLine u))
    (hs : P (.autofillAndSign (.trustSet t u) (.trustSet (.wallet u w.xrplAddress))))
    (hh : ∀ h, P (.handOver (.trustSet t u) h)) (ho : ∀ h, P (.outcome h)) :
    Uses P (XrplService.ensureTrustLine t u w) := by
  unfold XrplService.ensureTrustLine
  split
  · trivial
  · refine uses_bind (uses_call (hP _ rfl)) fun _ =>
      uses_bind (uses_submit hs hh ho fun _ => trivial) fun result => ?_
    split
    · exact uses_bind (uses_call ht) fun _ => uses_bind (uses_call (hP _ rfl)) fun _ => trivial
    · trivial

theorem uses_refreshWallet {u : Nat} : Uses P (XrplService.refreshWallet u) := by
  unfold XrplService.refreshWallet
  refine uses_bind (uses_call (hP _ rfl)) fun found => ?_
  cases found <;> trivial

theorem uses_findOrFund {u : Nat} 
    (hi : ∀ account, P (.insertWallet u ⟨account, encryptSeed account, false, 0⟩)) :
    Uses P (XrplService.findOrFund u) := by
  unfold XrplService.findOrFund
  refine uses_bind (uses_call (hP _ rfl)) fun found => ?_
  cases found with
  | some wallet => trivial
  | none =>
    exact uses_bind (uses_call (hP _ rfl)) fun address =>
      uses_bind (uses_call (hi address)) fun _ =>
      uses_bind (uses_call (hP _ rfl)) fun _ => uses_refreshWallet hP

omit hP in
theorem uses_uctusd {value : Nat} : Uses P (XrplService.uctusd value) := by
  unfold XrplService.uctusd
  split <;> trivial

theorem uses_sendFromTreasury {destination amount : Nat} {onSignedTx : SignedTx → Program Unit}
    (hs : P (.autofillAndSign (.payment t) (.payment .treasury (.address destination) amount)))
    (hh : ∀ h, P (.handOver (.payment t) h)) (ho : ∀ h, P (.outcome h))
    (hcb : ∀ signed, Uses P (onSignedTx signed)) :
    Uses P (XrplService.sendFromTreasury t destination amount onSignedTx) := by
  unfold XrplService.sendFromTreasury
  exact uses_bind (uses_call (hP _ rfl)) fun _ => uses_bind (uses_call (hP _ rfl)) fun _ =>
    uses_bind uses_uctusd fun _ => uses_submit hs hh ho hcb

theorem uses_burnToIssuer {u amount : Nat} {w : Wallet} {onSignedTx : SignedTx → Program Unit}
    (hs : P (.autofillAndSign (.burn r) (.payment (.wallet u w.xrplAddress) .issuer amount)))
    (hh : ∀ h, P (.handOver (.burn r) h)) (ho : ∀ h, P (.outcome h))
    (hcb : ∀ signed, Uses P (onSignedTx signed)) :
    Uses P (XrplService.burnToIssuer r u w amount onSignedTx) := by
  unfold XrplService.burnToIssuer
  exact uses_bind (uses_call (hP _ rfl)) fun _ => uses_bind uses_uctusd fun _ =>
    uses_bind (uses_call (hP _ rfl)) fun _ => uses_submit hs hh ho hcb

/-! ## §3. The settlement worker. -/

theorem uses_lockRecipientWallet {txn : Txn} : Uses P (lockRecipientWallet txn) := by
  unfold lockRecipientWallet
  cases txn.recipientUserId with
  | none => trivial
  | some u =>
    refine uses_bind (uses_call (hP _ rfl)) fun found => ?_
    cases found <;> trivial

theorem uses_completeSettlement {txn : Txn} {txHash : Option Nat}
    {fromStatuses : List SettlementStatus}
    (hu : P (.updateTxn t (isIn fromStatuses) (completed txHash)))
    (hm : ∀ u balance, P (.setBalance u balance (.credit t))) :
    Uses P (completeSettlement t txn txHash fromStatuses) := by
  unfold completeSettlement
  refine uses_bind (uses_call hu) fun hit => ?_
  split
  · refine uses_bind (uses_lockRecipientWallet hP) fun wallet => uses_bind ?_ fun _ =>
      uses_bind (uses_call (hP _ rfl)) fun _ => uses_bind (uses_call (hP _ rfl)) fun _ => trivial
    cases wallet with
    | none => trivial
    | some w => exact uses_call (hm _ _)
  · exact uses_bind (uses_call (hP _ rfl)) fun _ => trivial

theorem uses_failSettlement {reason : String} {txHash : Option Nat}
    {fromStatuses : List SettlementStatus}
    (hu : P (.updateTxn t (isIn fromStatuses) (failed reason txHash))) :
    Uses P (failSettlement t reason txHash fromStatuses) := by
  unfold failSettlement
  refine uses_bind (uses_call hu) fun hit => ?_
  split
  · exact uses_bind (uses_call (hP _ rfl)) fun _ => uses_bind (uses_call (hP _ rfl))
      fun _ => trivial
  · exact uses_bind (uses_call (hP _ rfl)) fun _ => trivial

theorem uses_claim (hu : P (.updateTxn t claimable claimed)) : Uses P (claim t) := by
  unfold claim reload
  refine uses_bind (uses_call hu) fun hit => uses_bind (uses_call (hP _ rfl)) fun _ => ?_
  split
  · refine uses_bind (uses_bind (uses_call (hP _ rfl)) fun found => ?_) fun _ => trivial
    cases found <;> trivial
  · trivial

theorem uses_retryOrFail {txn : Txn} {reason : String}
    (hf : ∀ reason, P (.updateTxn t (isIn [.processing]) (failed reason none)))
    (hr : P (.updateTxn t (isIn [.processing]) (requeued reason)))
    (he : ∀ delay, P (.enqueueIn delay (.settle t))) :
    Uses P (retryOrFail t txn reason) := by
  unfold retryOrFail
  split
  · exact uses_bind (uses_failSettlement hP (hf _)) fun _ => trivial
  · refine uses_bind (uses_call hr) fun hit => ?_
    split
    · exact uses_bind (uses_call (hP _ rfl)) fun _ => uses_bind (uses_call (hP _ rfl)) fun _ =>
        uses_bind (uses_call (he _)) fun _ => trivial
    · exact uses_bind (uses_call (hP _ rfl)) fun _ => trivial

theorem uses_rememberSigned {signed : SignedTx}
    (hu : P (.updateTxn t (fun _ => true) (remembered signed))) (hs : ∀ h, P (.setSignedHash h)) :
    Uses P (rememberSigned t signed) := by
  unfold rememberSigned
  exact uses_bind (uses_call hu) fun _ => uses_bind (uses_call (hP _ rfl)) fun _ =>
    uses_call (hs _)

theorem uses_withTreasuryLock {α : Type} {p : Program α} (hp : Uses P p) :
    Uses P (withTreasuryLock p) := by
  unfold withTreasuryLock
  refine uses_bind (uses_call (hP _ rfl)) fun _ => uses_bind (uses_attempt hp) fun result =>
    uses_bind (uses_call (hP _ rfl)) fun _ => ?_
  cases result <;> trivial

theorem uses_getRecipient {txn : Txn} : Uses P (getRecipient txn) := by
  unfold getRecipient
  cases txn.recipientUserId with
  | none => trivial
  | some u => exact uses_bind (uses_call (hP _ rfl)) fun _ => trivial

/-- Paying writes the row's new hash, and otherwise no send. -/
theorem uses_pay {u : Nat} {txn : Txn}
    (hremember : ∀ signed, P (.updateTxn t (fun _ => true) (remembered signed)))
    (hother : ∀ o : Op, o.writesTxns = false → o.isDelayed = false → (Entry.settle t).may o → P o) :
    Uses P (pay t u txn) := by
  unfold pay XrplService.provisionWallet
  refine uses_bind (uses_bind
    (uses_findOrFund hP fun address => hother _ rfl rfl ⟨t, address, rfl, rfl⟩)
    fun wallet => uses_bind (uses_ensureTrustLine hP (hother _ rfl rfl ⟨t, rfl⟩)
      (hother _ rfl rfl (.trustSet t u _)) (fun _ => hother _ rfl rfl rfl)
      fun _ => hother _ rfl rfl trivial) fun _ => trivial)
    fun wallet => ?_
  split
  · exact uses_withTreasuryLock hP (uses_sendFromTreasury hP (t := t)
      (hother _ rfl rfl (.payment t _ _))
      (fun _ => hother _ rfl rfl rfl) (fun _ => hother _ rfl rfl trivial) fun signed =>
        uses_rememberSigned hP (hremember signed) fun _ => hother _ rfl rfl trivial)
  · trivial

/-! ## §4. Cash-in and retry. -/

theorem uses_onTransaction {act : Txn → Program Unit} (h : ∀ txn, Uses P (act txn)) :
    Uses P (onTransaction t act) := by
  unfold onTransaction
  refine uses_bind (uses_call (hP _ rfl)) fun found => ?_
  cases found with
  | none => trivial
  | some txn => exact h txn

theorem uses_publish (hu : ∀ reason, P (.updateTxn t (isIn [.queued]) (failed reason none))) :
    Uses P (publish t) := by
  unfold publish
  refine uses_bind (uses_attempt (uses_call (hP _ rfl))) fun answer => ?_
  cases answer with
  | ok _ => trivial
  | error exc => exact uses_bind (uses_failSettlement hP (hu _)) fun _ => trivial

theorem uses_markCashinReceived {reviewer : Option Nat}
    (hr : P (.updateTxn t isPending (received reviewer)))
    (hu : ∀ reason, P (.updateTxn t (isIn [.queued]) (failed reason none))) :
    Uses P (markCashinReceived t reviewer) := by
  unfold markCashinReceived
  refine uses_bind (uses_call hr) fun hit => uses_bind (uses_call (hP _ rfl)) fun _ => ?_
  split
  · exact uses_bind (uses_call (hP _ rfl)) fun _ => uses_publish hP hu
  · trivial

theorem uses_markCashinFailed {reviewer : Option Nat} {reason : String}
    (hu : P (.updateTxn t isPending (cashinFailed reviewer reason))) :
    Uses P (markCashinFailed t reviewer reason) := by
  unfold markCashinFailed
  refine uses_bind (uses_call hu) fun hit => uses_bind (uses_call (hP _ rfl)) fun _ => ?_
  split
  · exact uses_call (hP _ rfl)
  · trivial

theorem uses_checkTier {S : Setting} {tier : LimitTier} {user amount : Nat} :
    Uses P (LimitService.checkTier S tier user amount) := by
  unfold LimitService.checkTier LimitService.getDailyUsage LimitService.getMonthlyUsage
  split
  · trivial
  · refine uses_bind (uses_bind (uses_call (hP _ rfl)) fun _ => uses_call (hP _ rfl)) fun daily =>
      uses_bind (uses_bind (uses_call (hP _ rfl)) fun _ => uses_call (hP _ rfl)) fun monthly => ?_
    dsimp only
    split
    · trivial
    · split <;> trivial

theorem uses_checkLimit {S : Setting} {user amount : Nat} :
    Uses P (LimitService.checkLimit S user amount) := by
  unfold LimitService.checkLimit
  refine uses_bind (uses_call (hP _ rfl)) fun found => ?_
  cases found with
  | none => trivial
  | some tier => exact uses_checkTier hP

theorem uses_createRemittance {S : Setting} {form : SendForm}
    (hi : ∀ recipientId quote last4 declined, pricingMatches quote form.accepted = true →
      P (.insertTxn (newTransaction form recipientId quote last4 declined))) :
    Uses P (createRemittance S form) := by
  unfold createRemittance book
  split
  · refine uses_bind (uses_call (hP _ rfl)) fun _ => uses_bind (uses_call (hP _ rfl))
      fun payee => ?_
    cases payee with
    | none => trivial
    | some payee =>
      dsimp only
      cases payee.recipientUserId with
      | none => trivial
      | some recipientId =>
        refine uses_bind (uses_call (hP _ rfl)) fun quote => ?_
        split
        next hmatch =>
          refine uses_bind (uses_checkLimit hP) fun limit => ?_
          split
          · exact uses_bind (uses_call (hP _ rfl)) fun card =>
              uses_bind (uses_call (hi _ _ _ _ hmatch)) fun _ =>
                uses_bind (uses_call (hP _ rfl)) fun _ =>
                uses_bind (uses_call (hP _ rfl)) fun _ => trivial
          · trivial
        next => trivial
  · trivial

theorem uses_refuseUnlessProvablyDead {txn : Txn} : Uses P (refuseUnlessProvablyDead txn) := by
  unfold refuseUnlessProvablyDead
  split
  · refine uses_bind (uses_call (hP _ rfl)) fun latest => ?_
    split
    · trivial
    · refine uses_bind (uses_call (hP _ rfl)) fun complete => ?_
      split <;> trivial
  · trivial

theorem uses_consultLedger {txn : Txn} {txHash : Nat} (hl : P (.lookup txHash)) :
    Uses P (consultLedger txn txHash) := by
  unfold consultLedger
  refine uses_bind (uses_call hl) fun code => ?_
  cases code with
  | some code => trivial
  | none => exact uses_bind (uses_refuseUnlessProvablyDead hP) fun _ => trivial

theorem uses_retryable {txn : Txn} : Uses P (retryable txn) := by
  unfold retryable
  cases txn.settlementStatus with
  | processing => exact uses_bind (uses_call (hP _ rfl)) fun _ => trivial
  | _ => trivial

theorem uses_requeue {txn : Txn} (hr : P (.updateTxn t (isUntouched txn) (retired txn)))
    (hu : ∀ reason, P (.updateTxn t (isIn [.queued]) (failed reason none))) :
    Uses P (requeue t txn) := by
  unfold requeue
  refine uses_bind (uses_call hr) fun hit => uses_bind (uses_call (hP _ rfl)) fun _ => ?_
  split
  · exact uses_bind (uses_call (hP _ rfl)) fun _ => uses_bind (uses_publish hP hu) fun _ => trivial
  · trivial

theorem uses_setAmlFlag {flagged : Bool}
    (hu : P (.updateTxn t (fun _ => true) (flaggedAs flagged))) :
    Uses P (setAmlFlag t flagged) := by
  unfold setAmlFlag flushFlag
  refine uses_onTransaction hP fun txn => uses_bind ?_ fun _ =>
    uses_bind (uses_call (hP _ rfl)) fun _ => uses_call (hP _ rfl)
  split
  · trivial
  · exact uses_bind (uses_call hu) fun _ => trivial

/-! ## §5. Cash-out. -/

open CashoutWorker CashoutService

variable {req : CashOutRequest}

theorem uses_burnClaim (hu : ∀ asked, P (.updateReq r (CashoutWorker.claimable asked)
    CashoutWorker.claimed)) : Uses P (CashoutWorker.claim r) := by
  unfold CashoutWorker.claim CashoutWorker.reload
  refine uses_bind (uses_call (hP _ rfl)) fun asked => uses_bind (uses_call (hu asked)) fun hit =>
    uses_bind (uses_call (hP _ rfl)) fun _ => ?_
  split
  · refine uses_bind (uses_bind (uses_call (hP _ rfl)) fun found => ?_) fun _ => trivial
    cases found <;> trivial
  · trivial

theorem uses_completeBurn {txHash : Option Nat}
    (hu : ∀ stamp, P (.updateReq r isApproved (CashoutWorker.completed r txHash stamp))) :
    Uses P (completeBurn r txHash) := by
  unfold completeBurn
  refine uses_bind (uses_call (hP _ rfl)) fun stamp => uses_bind (uses_call (hu stamp))
    fun hit => ?_
  split
  · exact uses_bind (uses_call (hP _ rfl)) fun _ => uses_bind (uses_call (hP _ rfl))
      fun _ => trivial
  · exact uses_bind (uses_call (hP _ rfl)) fun _ => trivial

theorem uses_failAndRestore {reason : String} {txHash : Option Nat}
    (hu : P (.updateReq r isApproved (CashoutWorker.failed reason txHash)))
    (hm : ∀ u balance, P (.setBalance u balance (.restore r))) :
    Uses P (failAndRestore r req reason txHash) := by
  unfold failAndRestore
  refine uses_bind (uses_call hu) fun hit => ?_
  split
  · refine uses_bind (uses_call (hP _ rfl)) fun wallet => ?_
    cases wallet with
    | none => trivial
    | some w =>
      exact uses_bind (uses_call (hm _ _)) fun _ => uses_bind (uses_call (hP _ rfl)) fun _ =>
        uses_bind (uses_call (hP _ rfl)) fun _ => trivial
  · exact uses_bind (uses_call (hP _ rfl)) fun _ => trivial

theorem uses_holdUnknown {reason : String}
    (hu : ∀ reason, P (.updateReq r isApproved (CashoutWorker.held reason))) :
    Uses P (holdUnknown r reason) := by
  unfold holdUnknown
  refine uses_bind (uses_call (hu reason)) fun hit => uses_bind (uses_call (hP _ rfl)) fun _ => ?_
  split
  · exact uses_call (hP _ rfl)
  · trivial

theorem uses_releaseClaim (hu : P (.updateReq r (fun _ => true) CashoutWorker.released)) :
    Uses P (releaseClaim r) := by
  unfold releaseClaim
  exact uses_bind (uses_call hu) fun _ => uses_call (hP _ rfl)

theorem uses_burnRememberSigned {signed : SignedTx}
    (hu : P (.updateReq r (fun _ => true) (CashoutWorker.remembered signed)))
    (hs : ∀ h, P (.setSignedHash h)) : Uses P (CashoutWorker.rememberSigned r signed) := by
  unfold CashoutWorker.rememberSigned
  exact uses_bind (uses_call hu) fun _ => uses_bind (uses_call (hP _ rfl)) fun _ =>
    uses_call (hs _)

theorem uses_onRequest {act : CashOutRequest → Program Unit} (h : ∀ req, Uses P (act req)) :
    Uses P (onRequest r act) := by
  unfold onRequest
  refine uses_bind (uses_call (hP _ rfl)) fun found => ?_
  cases found with
  | none => trivial
  | some req => exact uses_bind (uses_call (hP _ rfl)) fun _ => h req

theorem uses_createRequest {form : CashOutForm}
    (hi : ∀ pricing, CashoutService.pricingMatches pricing form.accepted = true →
      P (.insertReq (CashoutService.newRequest form pricing))) :
    Uses P (createRequest form) := by
  unfold createRequest
  refine uses_bind (uses_call (hP _ rfl)) fun wallet => ?_
  cases wallet with
  | none => trivial
  | some w =>
    refine uses_bind (uses_call (hP _ rfl)) fun held => ?_
    dsimp only
    split
    · trivial
    · refine uses_bind (uses_call (hP _ rfl)) fun pricing => ?_
      split
      next hmatch =>
        exact uses_bind (uses_call (hi pricing hmatch)) fun _ =>
          uses_bind (uses_call (hP _ rfl)) fun _ => uses_bind (uses_call (hP _ rfl))
            fun _ => trivial
      next => trivial

theorem uses_reject {admin : Nat} {reason : String}
    (hu : P (.updateReq r isRequested (CashoutService.rejected admin reason))) :
    Uses P (reject r admin reason) := by
  unfold reject
  refine uses_bind (uses_call hu) fun hit => uses_bind (uses_call (hP _ rfl)) fun _ => ?_
  split
  · exact uses_call (hP _ rfl)
  · trivial

theorem uses_burnConsultLedger {txHash : Nat} (hl : P (.lookup txHash)) :
    Uses P (CashoutService.consultLedger req txHash) := by
  unfold CashoutService.consultLedger
  refine uses_bind (uses_call hl) fun code => ?_
  split
  · trivial
  · trivial
  · split
    · refine uses_bind (uses_call (hP _ rfl)) fun latest => ?_
      split
      · trivial
      · exact uses_bind (uses_call (hP _ rfl)) fun _ => trivial
    · trivial

theorem uses_sweepUnpublished : Uses P sweepUnpublished := by
  unfold sweepUnpublished
  refine uses_bind (uses_call (hP _ rfl)) fun _ => uses_bind (uses_call (hP _ rfl)) fun _ =>
    uses_bind (uses_call (hP _ rfl)) fun rows => uses_forEach (fun r => ?_) rows
  unfold republish
  exact uses_bind (uses_attempt (uses_call (hP _ rfl))) fun _ => trivial

/-! ## §6. The office. -/

omit hP in
theorem uses_ask {o : Office.Op} (h : P (.office o)) : Uses P (Office.ask o) := by
  unfold Office.ask
  refine uses_bind (uses_call h) fun answer => ?_
  cases answer <;> trivial

theorem uses_updateFeeConfig {loaded : Configuration.FeeColumns} {values : Configuration.FeeValues}
    (hu : P (.office (.updateFees loaded values))) (hc : P (.office .commit)) :
    Uses P (Office.updateFeeConfig loaded values) := by
  unfold Office.updateFeeConfig Office.flushFees
  refine uses_bind ?_ fun _ => uses_bind (uses_ask hc) fun _ => uses_call (hP .refresh rfl)
  split
  · trivial
  · exact uses_ask hu

theorem uses_updateFees (form : Configuration.FeeForm)
    (hmay : ∀ o, (Entry.office (.updateFees form)).asks o → P (.office o)) :
    Uses P (Office.updateFees form) := by
  unfold Office.updateFees
  split
  · trivial
  next values hchecked =>
    refine uses_bind (uses_ask (hmay .selectFees trivial)) fun found => ?_
    cases found with
    | none => trivial
    | some cfg =>
      exact uses_bind (uses_updateFeeConfig hP (hmay (.updateFees cfg values) hchecked)
        (hmay .commit trivial)) fun _ => trivial

theorem uses_updateTier {n : Nat} {loaded : Configuration.TierColumns}
    {values : Configuration.TierValues} (hu : P (.office (.updateTier n loaded values)))
    (hc : P (.office .commit)) : Uses P (Office.updateTier n loaded values) := by
  unfold Office.updateTier Office.flushTier
  refine uses_bind ?_ fun _ => uses_bind (uses_ask hc) fun _ => uses_call (hP .refresh rfl)
  split
  · trivial
  · exact uses_ask hu

theorem uses_updateTierLimits (n : Nat) (form : Configuration.TierForm)
    (hmay : ∀ o, (Entry.office (.updateTierLimits n form)).asks o → P (.office o)) :
    Uses P (Office.updateTierLimits n form) := by
  unfold Office.updateTierLimits
  split
  · trivial
  next values hchecked =>
    refine uses_bind (uses_ask (hmay (.selectTier n) rfl)) fun found => ?_
    cases found with
    | none => trivial
    | some tier =>
      exact uses_bind (uses_updateTier hP (hmay (.updateTier n tier.limits values) ⟨rfl, hchecked⟩)
        (hmay .commit trivial)) fun _ => trivial

omit hP in
/-- A request on accounts makes none but calls on accounts. -/
theorem uses_onAccounts (h : ∀ o, P (.office (.directory o))) {α : Type}
    (p : Directory.Program α) : Uses P (embed Office.onAccounts p) := by
  refine uses_embed (fun o => ?_) p
  unfold Office.onAccounts
  refine uses_bind (uses_attempt (uses_call (h o))) fun answer => ?_
  cases answer <;> trivial

end Functions

/-! ## §7. Every entry point. -/

section Bodies

open CashoutWorker CashoutService

theorem uses_discard {P : Op → Prop} {α : Type} {p : Program α} (h : Uses P p) :
    Uses P (discard p) := uses_bind h fun _ => trivial

/-- What `process_settlement` does with a row that it has claimed. -/
def SettlementWorker.settleClaimed (t : Nat) (txn : Txn) : Program SettlementWorker.Outcome := do
  match ← getRecipient txn with
  | none =>
      let _ ← failSettlement t
        "recipient_not_registered: no platform user to receive funds" none [.processing]
      return .failed
  | some u =>
      match ← Prog.attempt (pay t u txn) with
      | .error exc => SettlementWorker.onException t txn exc
      | .ok result => SettlementWorker.onResult t txn result

/-- What `process_settlement` does with the answer of its claim. -/
def SettlementWorker.onClaim (t : Nat) : Option Txn → Program SettlementWorker.Outcome
  | none => return .skipped
  | some txn => SettlementWorker.settleClaimed t txn

theorem processSettlement_eq (t : Nat) :
    processSettlement t = Prog.bind (SettlementWorker.claim t) (SettlementWorker.onClaim t) := rfl

/-- Past the claim: the row's UPDATEs, and calls that do not write sends. -/
theorem uses_onClaim {P : Op → Prop} {t : Nat} (hP : ∀ o, o.isBasic = true → P o)
    (hfail : ∀ reason txHash, P (.updateTxn t (isIn [.processing]) (failed reason txHash)))
    (hrequeue : ∀ reason, P (.updateTxn t (isIn [.processing]) (requeued reason)))
    (hcomplete : ∀ txHash, P (.updateTxn t (isIn [.processing]) (completed txHash)))
    (hremember : ∀ signed, P (.updateTxn t (fun _ => true) (remembered signed)))
    (hother : ∀ o : Op, o.writesTxns = false → o.isDelayed = false → (Entry.settle t).may o → P o)
    (hdelay : ∀ delay, P (.enqueueIn delay (.settle t))) (found : Option Txn) :
    Uses P (SettlementWorker.onClaim t found) := by
  have hretry : ∀ txn reason, Uses P (SettlementWorker.retryOrFail t txn reason) :=
    fun txn reason => uses_retryOrFail hP (fun reason => hfail reason none) (hrequeue reason) hdelay
  cases found with
  | none => trivial
  | some txn =>
    show Uses P (SettlementWorker.settleClaimed t txn)
    unfold SettlementWorker.settleClaimed
    refine uses_bind (uses_getRecipient hP) fun recipient => ?_
    cases recipient with
    | none => exact uses_bind (uses_failSettlement hP (hfail _ _)) fun _ => trivial
    | some u =>
      refine uses_bind (uses_attempt (uses_pay hP hremember hother)) fun answer => ?_
      cases answer with
      | error exc =>
        show Uses _ (SettlementWorker.onException t txn exc)
        unfold SettlementWorker.onException
        split
        · exact uses_bind (uses_failSettlement hP (hfail _ _)) fun _ => trivial
        · refine uses_bind (uses_call (hP _ rfl)) fun signed => ?_
          cases signed with
          | some h => exact uses_bind (uses_failSettlement hP (hfail _ _)) fun _ => trivial
          | none => exact hretry _ _
      | ok result =>
        show Uses _ (SettlementWorker.onResult t txn result)
        unfold SettlementWorker.onResult
        split
        · exact uses_bind (uses_completeSettlement hP (hcomplete _)
            fun _ _ => hother _ rfl rfl rfl) fun _ => trivial
        · exact hretry _ _
        · exact uses_bind (uses_failSettlement hP (hfail _ _)) fun _ => trivial
        · exact uses_bind (uses_failSettlement hP (hfail _ _)) fun _ => trivial

/-- The message that an entry point publishes again, later. -/
def Entry.reposts : Entry → Message → Prop
  | .settle t, m => m = .settle t
  | .burn r, m => m = .burn r
  | _, _ => False

/-- A predicate that covers what an entry point calls at once covers its basic calls. -/
theorem basic_of_may {P : Op → Prop} {e : Entry} (hP : ∀ o, o.isDelayed = false → e.may o → P o) :
    ∀ o, o.isBasic = true → P o := by
  intro o ho
  refine hP o ?_ (may_plain e o ho)
  cases o <;> first | rfl | cases ho

variable {P : Op → Prop}

theorem uses_processSettlement (t : Nat)
    (hmay : ∀ o, o.isDelayed = false → (Entry.settle t).may o → P o)
    (hdelay : ∀ delay, P (.enqueueIn delay (.settle t))) : Uses P (processSettlement t) := by
  have hP := basic_of_may hmay
  rw [processSettlement_eq]
  exact uses_bind (uses_claim hP (hmay _ rfl (TxnUpdate.claim t))) (uses_onClaim hP
    (fun reason txHash => hmay _ rfl (TxnUpdate.fail t reason txHash))
    (fun reason => hmay _ rfl (TxnUpdate.requeue t reason))
    (fun txHash => hmay _ rfl (TxnUpdate.complete t txHash))
    (fun signed => hmay _ rfl (TxnUpdate.remember t signed)) (fun o _ => hmay o) hdelay)

/-- Only a failed or a processing row gets past the first check. -/
theorem uses_settlementRetry (t : Nat)
    (hmay : ∀ o, o.isDelayed = false → (Entry.settlementRetry t).may o → P o) :
    Uses P (settlementRetry t) := by
  have hP := basic_of_may hmay
  have hu : ∀ reason, P (.updateTxn t (isIn [.queued]) (failed reason none)) := fun reason =>
    hmay _ rfl (TxnUpdate.unpublishedRetry t reason)
  have hreconcile : ∀ txn : Txn,
      txn.settlementStatus = .failed ∨ txn.settlementStatus = .processing →
      Uses P (reconcileOrRequeue t txn) := by
    intro txn hst
    unfold reconcileOrRequeue
    split
    · exact uses_requeue hP (hmay _ rfl (TxnUpdate.retire t txn hst)) hu
    next txHash _ =>
      refine uses_bind (uses_consultLedger hP (hmay _ rfl trivial)) fun code => ?_
      split
      · exact uses_bind
          (uses_completeSettlement hP (hmay _ rfl (TxnUpdate.reconcile t txHash _ hst))
          fun _ _ => hmay _ rfl rfl) fun _ => trivial
      · exact uses_requeue hP (hmay _ rfl (TxnUpdate.retire t txn hst)) hu
  unfold settlementRetry
  refine uses_onTransaction hP fun txn => ?_
  split
  · exact uses_publish hP hu
  · refine uses_bind ?_ fun _ => trivial
    unfold retrySettlement retryable
    cases hst : txn.settlementStatus with
    | failed =>
      refine uses_bind trivial fun retryable => ?_
      split
      · exact hreconcile txn (.inl hst)
      · trivial
    | processing =>
      refine uses_bind (uses_bind (uses_call (hP _ rfl)) fun _ => trivial) fun retryable => ?_
      split
      · exact hreconcile txn (.inr hst)
      · trivial
    | notQueued => trivial
    | queued => trivial
    | completed => trivial

theorem uses_processBurn (r : Nat) (hmay : ∀ o, o.isDelayed = false → (Entry.burn r).may o → P o)
    (hdelay : ∀ delay, P (.enqueueIn delay (.burn r))) : Uses P (processBurn r) := by
  have hP := basic_of_may hmay
  have hfail : ∀ req reason txHash, Uses P (failAndRestore r req reason txHash) :=
    fun req reason txHash => uses_failAndRestore hP (hmay _ rfl (ReqUpdate.fail r reason txHash))
      fun _ _ => hmay _ rfl rfl
  have hhold : ∀ reason, Uses P (holdUnknown r reason) := fun reason =>
    uses_holdUnknown hP fun reason => hmay _ rfl (ReqUpdate.hold r reason)
  have hretry : ∀ req reason, Uses P (CashoutWorker.retryOrFail r req reason) := by
    intro req reason
    unfold CashoutWorker.retryOrFail
    split
    · exact uses_bind (hfail _ _ _) fun _ => trivial
    · exact uses_bind (uses_releaseClaim hP (hmay _ rfl (ReqUpdate.release r))) fun _ =>
        uses_bind (uses_call (hdelay _)) fun _ => trivial
  unfold processBurn
  refine uses_bind (uses_burnClaim hP fun asked => hmay _ rfl (ReqUpdate.claim r asked))
    fun claimed => ?_
  cases claimed with
  | none => trivial
  | some req =>
    refine uses_bind (uses_call (hP _ rfl)) fun wallet => ?_
    cases wallet with
    | none => exact uses_bind (hfail _ _ _) fun _ => trivial
    | some w =>
      refine uses_bind (uses_attempt (uses_burnToIssuer hP (hmay _ rfl (Signs.burn r _ _ _))
        (fun _ => hmay _ rfl rfl) (fun _ => hmay _ rfl trivial) fun signed =>
        uses_burnRememberSigned hP (hmay _ rfl (ReqUpdate.remember r signed))
          fun _ => hmay _ rfl trivial)) fun answer => ?_
      cases answer with
      | error exc =>
        show Uses _ (CashoutWorker.onException r req exc)
        unfold CashoutWorker.onException
        split
        · exact uses_bind (hfail _ _ _) fun _ => trivial
        · refine uses_bind (uses_call (hP _ rfl)) fun signed => ?_
          cases signed with
          | some h => exact uses_bind (hhold _) fun _ => trivial
          | none => exact hretry _ _
      | ok result =>
        show Uses _ (CashoutWorker.onResult r req result)
        unfold CashoutWorker.onResult
        split
        · exact uses_bind (uses_completeBurn hP fun stamp =>
            hmay _ rfl (ReqUpdate.complete r _ stamp))
            fun _ => trivial
        · exact hretry _ _
        · exact uses_bind (hhold _) fun _ => trivial
        · exact uses_bind (hfail _ _ _) fun _ => trivial

theorem uses_approve (r admin : Nat) (req : CashOutRequest)
    (hmay : ∀ o, o.isDelayed = false → (Entry.approve r admin).may o → P o) :
    Uses P (approve r req admin) := by
  have hP := basic_of_may hmay
  unfold approve CashoutService.publish
  refine uses_bind (uses_call (hP _ rfl)) fun wallet => ?_
  cases wallet with
  | none => trivial
  | some w =>
    dsimp only
    split
    · trivial
    · refine uses_bind (uses_call (hmay _ rfl (ReqUpdate.approve r admin))) fun hit => ?_
      split
      · refine uses_bind (uses_call (hmay _ rfl
            (show Entry.moves (.approve r admin) (.debit r) from rfl))) fun _ =>
          uses_bind (uses_call (hP _ rfl)) fun _ => uses_bind (uses_call (hP _ rfl)) fun _ =>
            uses_bind (uses_attempt (uses_call (hP _ rfl))) fun answer => ?_
        cases answer with
        | ok _ => trivial
        | error exc =>
          exact uses_bind (uses_failAndRestore hP (hmay _ rfl (ReqUpdate.unpublished r admin _))
            fun _ _ => hmay _ rfl rfl) fun _ => trivial
      · exact uses_bind (uses_call (hP _ rfl)) fun _ => trivial

theorem uses_reconcile (r : Nat) (req : CashOutRequest)
    (hmay : ∀ o, o.isDelayed = false → (Entry.reconcile r).may o → P o) :
    Uses P (reconcile r req) := by
  have hP := basic_of_may hmay
  unfold reconcile
  split
  · trivial
  · split
    next txHash _ _ =>
      refine uses_bind (uses_burnConsultLedger hP (hmay _ rfl trivial)) fun verdict => ?_
      cases verdict with
      | succeeded =>
        exact uses_bind (uses_completeBurn hP fun stamp =>
          hmay _ rfl (ReqUpdate.reconcileComplete r txHash stamp)) fun _ => trivial
      | rejected code =>
        exact uses_bind (uses_failAndRestore hP (hmay _ rfl (ReqUpdate.reconcileFail r txHash _))
          fun _ _ => hmay _ rfl rfl) fun _ => trivial
      | expired lastLedger =>
        exact uses_bind (uses_failAndRestore hP (hmay _ rfl (ReqUpdate.reconcileFail r txHash _))
          fun _ _ => hmay _ rfl rfl) fun _ => trivial
      | unresolved => trivial
    · trivial

/-- What covers the calls of an entry point's lists, and the retry it may publish, covers all
that it calls. -/
theorem body_uses_of (S : Setting) : ∀ e : Entry, (∀ o, o.isDelayed = false → e.may o → P o) →
    (∀ delay m, e.reposts m → P (.enqueueIn delay m)) → Uses P (body S e)
  | .settle t, hmay, hdelay =>
      uses_discard (uses_processSettlement t hmay fun delay => hdelay delay _ rfl)
  | .burn r, hmay, hdelay => uses_discard (uses_processBurn r hmay fun delay => hdelay delay _ rfl)
  | .createRemittance form, hmay, _ =>
      uses_discard (uses_createRemittance (basic_of_may hmay)
        fun recipientId quote last4 declined _ =>
          hmay _ rfl ⟨form, recipientId, quote, last4, declined, rfl, rfl⟩)
  | .cashinReceived t reviewer, hmay, _ =>
      uses_onTransaction (basic_of_may hmay) fun _ => uses_markCashinReceived (basic_of_may hmay)
        (hmay _ rfl (TxnUpdate.receive t reviewer))
        fun reason => hmay _ rfl (TxnUpdate.unpublished t reviewer reason)
  | .cashinFailed t reviewer reason, hmay, _ =>
      uses_onTransaction (basic_of_may hmay) fun _ => uses_markCashinFailed (basic_of_may hmay)
        (hmay _ rfl (TxnUpdate.refuse t reviewer reason))
  | .expireStaleCashins, hmay, _ =>
      uses_bind (uses_call (hmay _ rfl trivial)) fun asked =>
        uses_bind (uses_call (hmay _ rfl ⟨rfl, asked, rfl, rfl⟩)) fun _ =>
          uses_call (hmay _ rfl trivial)
  | .settlementRetry t, hmay, _ => uses_settlementRetry t hmay
  | .amlFlag t flagged, hmay, _ =>
      uses_setAmlFlag (basic_of_may hmay) (hmay _ rfl (TxnUpdate.flag t flagged))
  | .createRequest form, hmay, _ =>
      uses_discard (uses_createRequest (basic_of_may hmay) fun pricing _ =>
        hmay _ rfl ⟨form, pricing, rfl, rfl⟩)
  | .approve r admin, hmay, _ =>
      uses_onRequest (basic_of_may hmay) fun req => uses_approve r admin req hmay
  | .reject r admin reason, hmay, _ =>
      uses_onRequest (basic_of_may hmay) fun _ =>
        uses_reject (basic_of_may hmay) (hmay _ rfl (ReqUpdate.reject r admin reason))
  | .reconcile r, hmay, _ => uses_onRequest (basic_of_may hmay) fun req => uses_reconcile r req hmay
  | .sweepUnpublished, hmay, _ => uses_sweepUnpublished (basic_of_may hmay)
  | .office (.account _ _), hmay, _ =>
      uses_discard (uses_onAccounts (fun _ => hmay _ rfl trivial) _)
  | .office (.updateFees form), hmay, _ =>
      uses_discard (uses_updateFees (basic_of_may hmay) form fun o h => hmay (.office o) rfl h)
  | .office (.updateTierLimits n form), hmay, _ =>
      uses_discard (uses_updateTierLimits (basic_of_may hmay) n form
        fun o h => hmay (.office o) rfl h)

/-- **NO OTHER STATEMENTS**: a program makes only the calls of its lists. -/
theorem body_uses (S : Setting) (e : Entry) : Uses e.may (body S e) :=
  body_uses_of S e (fun _ _ h => h) fun _ _ _ => trivial

end Bodies

end Orbyt
