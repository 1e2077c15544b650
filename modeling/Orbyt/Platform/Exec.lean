/-
  Orbyt.Platform.Exec — what one call does

  `exec` performs one call of one program: the clock moves on, the call either
  answers or raises, and a raising statement leaves its session unusable.  What
  the world does not determine (which exception, what a page quotes, when the
  broker loses a response) is resolved by a `Choice`.

  A `Setting` holds what stays fixed over a run (calendar, tier, registered
  users, the hashing of passwords) and which runs are looked at: every field of its
  second block switches on one named restriction, and all of them off leaves every
  run.
-/
import Mathlib.Algebra.BigOperators.Group.Finset.Basic
import Mathlib.Logic.Function.Basic
import Orbyt.Platform.World

namespace Orbyt

open ValidatedLedger
open Function (update)

/-! ## §1. Time and settings. -/

def seconds (n : Nat) : Nat := n * 1000000

/-- `queue_service.JOB_TIMEOUT` -/
def jobTimeout : Nat := seconds 300

/-- `queue_service.TREASURY_LOCK_TIMEOUT` -/
def treasuryLockTimeout : Nat := jobTimeout

/-- The local calendar: the day of an instant, the instant a day begins, the first
day of a day's month.  The windows of days, and of months, partition time. -/
structure Calendar where
  day : Nat → Nat
  dayStartUtc : Nat → Nat
  dayStartUtc_le : ∀ d τ, dayStartUtc d ≤ τ ↔ d ≤ day τ
  month : Nat → Nat
  firstOfMonth : Nat → Nat
  firstOfMonth_le : ∀ d d', firstOfMonth d ≤ d' ↔ month d ≤ month d'

structure Setting where
  calendar : Calendar
  /-- The `standard` tier, the one of KYC-approved senders. -/
  tier : LimitTier
  registered : Nat → Bool
  directory : Directory.Setting
  /-- Every call takes at least this long. -/
  minTick : Nat
  /-- The tier is never edited. -/
  fixedTier : Bool
  /-- A worker takes no step more than `jobTimeout` after its claim. -/
  punctual : Bool
  /-- Every signed blob carries a LastLedgerSequence. -/
  carriesLastLedger : Bool
  /-- The ledger reads of one request see one ledger state. -/
  oneLedgerView : Bool
  /-- A wallet is locked only by a session whose copy of it is not stale. -/
  freshLock : Bool
  /-- A publish failure is recorded only on a row that no worker has taken up. -/
  quietPublishFailure : Bool
  /-- A retry completes a row only with the hash the row still carries. -/
  sameHashReconcile : Bool

/-! ## §2. Choices. -/

inductive Mode where
  | returns
  /-- The call raises and had no effect. -/
  | raises (e : Exn)
  /-- The call took effect, then raised: its response was lost. -/
  | raisesAfter (e : Exn)
  deriving Repr, DecidableEq

/-- Data the world does not determine. -/
inductive Value where
  | unit
  | nat (n : Nat)
  | flag (b : Bool)
  | lastLedger (n : Option Nat)
  | payee (p : Option Payee)
  | quote (q : Quote)
  | pricing (p : CashOutPricing)
  | tier (t : Option LimitTier)
  | card (last4 : String) (declined : Bool)
  deriving Repr, DecidableEq

structure Choice where
  dt : Nat
  mode : Mode
  value : Value
  deriving Repr, DecidableEq

/-! ## §3. The texts of submission exceptions. -/

/-- The rest of `text` after `pre`. -/
def afterPrefix : List Char → List Char → Option (List Char)
  | [], text => some text
  | _ :: _, [] => none
  | c :: pre, d :: text => if c = d then afterPrefix pre text else none

def isLower (c : Char) : Bool := 'a' ≤ c && c ≤ 'z'
def isUpper (c : Char) : Bool := 'A' ≤ c && c ≤ 'Z'
def isUpperOrUnderscore (c : Char) : Bool := isUpper c || c == '_'

/-- `[a-z]{3}[A-Z][A-Z_]*` -/
def isResultCode : List Char → Bool
  | a :: b :: c :: d :: rest =>
      isLower a && isLower b && isLower c && isUpper d && rest.all isUpperOrUnderscore
  | _ => false

/-- `$` also matches before one final newline. -/
def dropFinalNewline (text : List Char) : List Char :=
  if text.getLast? = some '\n' then text.dropLast else text

/-- `_VALIDATED_FAILURE`: the code in `^Transaction failed: ([a-z]{3}[A-Z][A-Z_]*)$`. -/
def validatedFailure (text : String) : Option String :=
  match afterPrefix "Transaction failed: ".toList text.toList with
  | some rest =>
      if isResultCode (dropFinalNewline rest) then some (String.ofList (dropFinalNewline rest))
      else none
  | none => none

/-- `_MALFORMED`: the code in `^(tem[A-Z_]+):`. -/
def malformedCode (text : String) : Option String :=
  match afterPrefix "tem".toList text.toList with
  | some rest =>
      let code := rest.takeWhile isUpperOrUnderscore
      if code ≠ [] ∧ (rest.drop code.length).head? = some ':' then
        some (String.ofList ("tem".toList ++ code))
      else none
  | none => none

/-! ## §4. Rows as a session sees them, locks, commit. -/

def Session.txn (l : Session) (s : World) (t : Nat) : Option Txn := (l.txnWrites t).or (s.txns t)
def Session.req (l : Session) (s : World) (r : Nat) : Option CashOutRequest :=
  (l.reqWrites r).or (s.reqs r)
def Session.wallet (l : Session) (s : World) (u : Nat) : Option Wallet :=
  (l.walletWrites u).or (s.wallets u)

def World.releaseAll (i : Nat) (s : World) : World :=
  { s with
    txnLock := release s.txnLock i
    reqLock := release s.reqLock i
    walletLock := release s.walletLock i
    userLock := release s.userLock i
    office := s.office.close i }

/-- Whose claim a transaction is under once the row `x'` is committed over `x`. -/
def ownerAfter (i : Nat) (x : Option Txn) (x' : Txn) (owner : Option (Nat × Nat)) :
    Option (Nat × Nat) :=
  if x'.settlementStatus = .processing then
    if x.map (·.settlementStatus) = some .processing then owner else some (i, x'.updatedAt)
  else none

/-- Whose claim a cash-out is under once the row `q'` is committed over `q`; its
owner is done with it when it takes the row out of `approved` itself. -/
def reqOwnerAfter (i : Nat) (q : Option CashOutRequest) (q' : CashOutRequest)
    (owner : Option Nat) : Option Nat :=
  if q'.burnStartedAt = q.bind (·.burnStartedAt) then
    if q.map (·.status) = some .approved ∧ q'.status ≠ .approved ∧ owner = some i then none
    else owner
  else if q'.burnStartedAt.isSome then some i else none

/-- The log of a row once a statement has taken its status from `old` to `new`. -/
def logStatus {σ : Type} [DecidableEq σ] (old : Option σ) (new : σ) (log : List σ) : List σ :=
  if old = some new then log else new :: log

/-- COMMIT: the session's writes become the stored rows and its locks are free. -/
def World.commit (i : Nat) (l : Session) (s : World) : World :=
  World.releaseAll i
    { s with
      txns := l.txn s
      reqs := l.req s
      wallets := l.wallet s
      txnOwner := fun t => match l.txnWrites t with
        | some x' => ownerAfter i (s.txns t) x' (s.txnOwner t)
        | none => s.txnOwner t
      reqOwner := fun r => match l.reqWrites r with
        | some q' => reqOwnerAfter i (s.reqs r) q' (s.reqOwner r)
        | none => s.reqOwner r
      moves := l.moves ++ s.moves
      settlementLog := fun t => l.settlementLog t ++ s.settlementLog t
      cashinLog := fun t => l.cashinLog t ++ s.cashinLog t
      statusLog := fun r => l.statusLog r ++ s.statusLog r }

def Session.committed (l : Session) : Session :=
  { l with
    txnWrites := fun _ => none
    reqWrites := fun _ => none
    walletWrites := fun _ => none
    moves := []
    settlementLog := fun _ => []
    cashinLog := fun _ => []
    statusLog := fun _ => [] }

/-- The session after a statement has put `x'` in place of `x`.  A worker's claim
is the write that takes a row into its hands. -/
def Session.writeTxn (l : Session) (now t : Nat) (x : Option Txn) (x' : Txn) : Session :=
  { l with
    txnWrites := update l.txnWrites t (some x')
    settlementLog := update l.settlementLog t
      (logStatus (x.map (·.settlementStatus)) x'.settlementStatus (l.settlementLog t))
    cashinLog := update l.cashinLog t
      (logStatus (x.map (·.cashinStatus)) x'.cashinStatus (l.cashinLog t))
    claimedAt :=
      if x'.settlementStatus = .processing ∧ x.map (·.settlementStatus) ≠ some .processing then
        some now
      else l.claimedAt }

def Session.writeReq (l : Session) (now r : Nat) (q : Option CashOutRequest)
    (q' : CashOutRequest) : Session :=
  { l with
    reqWrites := update l.reqWrites r (some q')
    statusLog := update l.statusLog r (logStatus (q.map (·.status)) q'.status (l.statusLog r))
    claimedAt :=
      if q'.burnStartedAt ≠ q.bind (·.burnStartedAt) ∧ q'.burnStartedAt.isSome then some now
      else l.claimedAt }

/-! ## §5. Sums over the tables. -/

/-- A transaction that counts against its sender's allowance from `since` on. -/
def Txn.countsSince (sender since : Nat) (x : Txn) : Bool :=
  x.senderId == sender && decide (since ≤ x.createdAt) && x.cashinStatus != .failed

def sumZarSince (rows : Nat → Option Txn) (n sender since : Nat) : Nat :=
  ∑ t ∈ Finset.range n, match rows t with
    | some x => if x.countsSince sender since then x.zarAmount else 0
    | none => 0

def sumRequested (rows : Nat → Option CashOutRequest) (n recipient : Nat) : Nat :=
  ∑ r ∈ Finset.range n, match rows r with
    | some q => if q.recipientUserId = recipient ∧ q.status = .requested then q.uctusdAmount else 0
    | none => 0

/-! ## §6. What a call does when it answers. -/

abbrev Answered (o : Op) := Option (Except Exn o.Res × Session × World)

/-- One UPDATE over the whole table: every row that matches is written. -/
def Session.matching (l : Session) (s : World) (cond : Txn → Bool) (t : Nat) : Option Txn :=
  if t < s.nextId then (l.txn s t).filter cond else none

def Session.writeTxns (l : Session) (s : World) (cond : Txn → Bool) (values : Nat → Txn → Txn) :
    Session :=
  { l with
    txnWrites := fun t => ((l.matching s cond t).map (values s.clock)).or (l.txnWrites t)
    settlementLog := fun t => match l.matching s cond t with
      | some x => logStatus (some x.settlementStatus) (values s.clock x).settlementStatus
          (l.settlementLog t)
      | none => l.settlementLog t
    cashinLog := fun t => match l.matching s cond t with
      | some x => logStatus (some x.cashinStatus) (values s.clock x).cashinStatus (l.cashinLog t)
      | none => l.cashinLog t }

/-- A SELECT of a wallet returns the object of the identity map if there is one. -/
def Session.identify (l : Session) (s : World) (u : Nat) : Option Wallet :=
  (l.walletCopy u).or (l.wallet s u)

def Session.consulted (l : Session) (s : World) : Ledger TxCode := l.view.getD s.ledger

def perform (S : Setting) (i : Nat) (l : Session) (s : World) (v : Value) : (o : Op) → Answered o
  | .now => some (.ok s.clock, l, s)
  | .setSignedHash h => some (.ok (), { l with signedHash := some h }, s)
  | .getSignedHash => some (.ok l.signedHash, l, s)
  -- statements on `transactions`
  | .selectTxn t => some (.ok (l.txn s t), l, s)
  | .updateTxn t cond values =>
      match l.txn s t with
      | some x =>
          if cond x then
            if freeFor s.txnLock i t then
              some (.ok true, l.writeTxn s.clock t (some x) (values s.clock x),
                { s with txnLock := update s.txnLock t (some i) })
            else none
          else some (.ok false, l, s)
      | none => some (.ok false, l, s)
  | .updateTxns cond values =>
      if ∀ t < s.nextId, (l.matching s cond t).isSome → freeFor s.txnLock i t then
        some (.ok (), l.writeTxns s cond values,
          { s with txnLock := fun t =>
              if (l.matching s cond t).isSome then some i else s.txnLock t })
      else none
  | .insertTxn row =>
      let t := s.nextId
      if (l.txn s t).isNone && freeFor s.txnLock i t then
        some (.ok t, l.writeTxn s.clock t none (row t s.clock),
          { s with nextId := t + 1, txnLock := update s.txnLock t (some i) })
      else none
  | .limitTier _ =>
      match v with
      | .tier found => if S.fixedTier && found != some S.tier then none else some (.ok found, l, s)
      | _ => none
  | .sumZarSince sender since => some (.ok (sumZarSince (l.txn s) s.nextId sender since), l, s)
  | .lockUser u =>
      if freeFor s.userLock i u then
        some (.ok (), l, { s with userLock := update s.userLock u (some i) })
      else none
  | .getUser u => some (.ok (S.registered u), l, s)
  -- statements on `cashout_requests`
  | .selectReq r => some (.ok (l.req s r), l, s)
  | .updateReq r cond values =>
      match l.req s r with
      | some q =>
          if cond q then
            if freeFor s.reqLock i r then
              some (.ok true, l.writeReq s.clock r (some q) (values s.clock q),
                { s with reqLock := update s.reqLock r (some i) })
            else none
          else some (.ok false, l, s)
      | none => some (.ok false, l, s)
  | .insertReq row =>
      let r := s.nextId
      if (l.req s r).isNone && freeFor s.reqLock i r then
        some (.ok r, l.writeReq s.clock r none (row r s.clock),
          { s with nextId := r + 1, reqLock := update s.reqLock r (some i) })
      else none
  | .selectReqs cond =>
      some (.ok ((List.range s.nextId).filter (fun r => (l.req s r).any cond)), l, s)
  | .sumRequested recipient => some (.ok (sumRequested (l.req s) s.nextId recipient), l, s)
  -- statements on `wallets`
  | .selectWallet u =>
      some (.ok (l.identify s u),
        { l with walletCopy := update l.walletCopy u (l.identify s u) }, s)
  | .loadWallet u =>
      some (.ok (l.wallet s u), { l with walletCopy := update l.walletCopy u (l.wallet s u) }, s)
  | .lockWallet u =>
      if (l.wallet s u).isNone then some (.ok none, l, s)
      else if freeFor s.walletLock i u then
        some (.ok (l.identify s u),
          { l with walletCopy := update l.walletCopy u (l.identify s u) },
          { s with walletLock := update s.walletLock u (some i) })
      else none
  | .setBalance u balance move =>
      match l.wallet s u with
      | some w =>
          if freeFor s.walletLock i u then
            some (.ok (),
              { l with
                walletCopy := update l.walletCopy u
                  ((l.walletCopy u).map ({ · with balanceUctusd := balance }))
                walletWrites := update l.walletWrites u (some { w with balanceUctusd := balance })
                moves := move :: l.moves },
              { s with walletLock := update s.walletLock u (some i) })
          else none
      | none => none
  | .setTrustLine u =>
      match l.wallet s u with
      | some w =>
          if freeFor s.walletLock i u then
            some (.ok (),
              { l with
                walletCopy := update l.walletCopy u
                  ((l.walletCopy u).map ({ · with trustSetComplete := true }))
                walletWrites :=
                  update l.walletWrites u (some { w with trustSetComplete := true }) },
              { s with walletLock := update s.walletLock u (some i) })
          else none
      | none => none
  | .insertWallet u w =>
      if (l.wallet s u).isNone && freeFor s.walletLock i u then
        some (.ok (),
          { l with
            walletCopy := update l.walletCopy u (some w)
            walletWrites := update l.walletWrites u (some w) },
          { s with walletLock := update s.walletLock u (some i) })
      else none
  | .refresh => some (.ok (), l, s)
  | .commit => some (.ok (), l.committed, s.commit i l)
  | .office o =>
      match Office.exec S.directory i l.office s.office o with
      | some (answer, k, w) => some (.ok answer, { l with office := k }, { s with office := w })
      | none => none
  -- pricing and form checks
  | .findBeneficiary _ =>
      match v with
      | .payee p => some (.ok p, l, s)
      | _ => none
  | .quoteFor _ =>
      match v with
      | .quote q => some (.ok q, l, s)
      | _ => none
  | .priceCashout _ _ =>
      match v with
      | .pricing p => some (.ok p, l, s)
      | _ => none
  | .validateCard =>
      match v with
      | .card last4 declined => some (.ok (last4, declined), l, s)
      | _ => none
  -- broker and Redis lock
  | .enqueue m => some (.ok (), l, { s with queue := m :: s.queue })
  | .enqueueIn _ m => some (.ok (), l, { s with queue := m :: s.queue })
  | .acquireTreasury =>
      if s.treasury.all (fun (_, expiry) => decide (expiry ≤ s.clock)) then
        some (.ok (), l, { s with treasury := some (i, s.clock + treasuryLockTimeout) })
      else none
  | .releaseTreasury =>
      if s.treasury.any (fun (holder, expiry) => holder == i && decide (s.clock < expiry)) then
        some (.ok (), l, { s with treasury := none })
      else none
  -- ledger
  | .loadSigner => some (.ok (), l, s)
  | .faucet =>
      match v with
      | .nat address => some (.ok address, l, s)
      | _ => none
  | .latestValidated => some (.ok (l.consulted s).validated, l, s)
  | .autofillAndSign purpose tx =>
      match v with
      | .lastLedger last =>
          if S.carriesLastLedger && last.isNone then none
          else
            some (.ok ⟨s.blobs.length, last, none⟩, l,
              { s with
                blobs := s.blobs ++ [⟨purpose, i, last, s.ledger.validated, s.clock, tx⟩] })
      | _ => none
  | .handOver purpose h =>
      if (s.blobs[h]?).any (fun b => decide (b.purpose = purpose ∧ b.signer = i)) then
        some (.ok (), l, { s with handed := update s.handed h true })
      else none
  | .outcome h =>
      match s.ledger.included h with
      | some (_, code) => some (.ok code, l, s)
      | none => none
  | .lookup h =>
      some (.ok ((l.consulted s).lookup h),
        { l with view := if S.oneLedgerView then some (l.consulted s) else none }, s)
  | .completeRange low high =>
      match v with
      | .flag b =>
          if b && !(List.range (high + 1 - low)).all
              (fun k => (l.consulted s).held (low + k)) then none
          else some (.ok b, l, s)
      | _ => none

/-! ## §7. What a call may raise. -/

/-- Whether the submission of `h` may end in `e`.  xrpl-py says "Transaction failed"
only after a validated non-success and `tem..:` only for a blob no ledger takes;
anything else may come from a transaction that lands. -/
def World.afterOutcomeRaises (s : World) (h : Nat) : Exn → Option World
  | .xrpl true text =>
      if (validatedFailure text).isSome then
        if (s.ledger.included h).any (fun r => r.2 != .tesSUCCESS) then some s else none
      else if (malformedCode text).isSome then
        if (s.ledger.included h).isNone then
          some { s with malformed := update s.malformed h true }
        else none
      else some s
  | .xrpl false _ => some s
  | .other _ _ => some s
  | _ => none

def Op.mayRaise : Op → Exn → Bool
  | .now, _ | .setSignedHash _, _ | .getSignedHash, _ | .handOver _ _, _ | .outcome _, _ => false
  | .quoteFor _, .remittance _ | .quoteFor _, .other _ _ => true
  | .priceCashout _ _, .cashOut _ | .priceCashout _ _, .other _ _ => true
  | .validateCard, .remittance _ | .validateCard, .other _ _ => true
  | .enqueue _, e | .enqueueIn _ _, e | .acquireTreasury, e | .releaseTreasury, e =>
      match e with
      | .broker _ _ | .other _ _ => true
      | _ => false
  | .loadSigner, .other _ _ => true
  | .faucet, e | .latestValidated, e | .autofillAndSign _ _, e | .lookup _, e
  | .completeRange _ _, e =>
      match e with
      | .xrpl _ _ | .other _ _ => true
      | _ => false
  | o, .db _ _ => o.isStatement
  | _, _ => false

/-- The world after `o` has raised `e` without effect. -/
def afterRaises (o : Op) (e : Exn) (s : World) : Option World :=
  match o with
  | .outcome h => s.afterOutcomeRaises h e
  | o => if o.mayRaise e then some s else none

/-- Calls whose response can be lost after they took effect. -/
def Op.losesResponse : Op → Bool
  | .commit | .enqueue _ | .enqueueIn _ _ | .acquireTreasury | .releaseTreasury => true
  | .office o => o.isCommit
  | _ => false

/-! ## §8. Which runs are looked at. -/

/-- The session has not loaded the wallet yet, or its copy holds the stored balance. -/
def Session.freshCopy (l : Session) (s : World) (u : Nat) : Bool :=
  match l.walletCopy u with
  | some w => (s.wallets u).map (·.balanceUctusd) == some w.balanceUctusd
  | none => true

/-- No worker has taken the row up: nothing is signed, and no claim on it is younger
than a job can be. -/
def CashOutRequest.quiet (q : CashOutRequest) (now : Nat) : Bool :=
  q.xrplBurnTxHash.isNone && q.burnStartedAt.all (fun T => decide (T + jobTimeout < now))

def Entry.isApprove : Entry → Bool
  | .approve _ _ => true
  | _ => false

def Entry.isSettlementRetry : Entry → Bool
  | .settlementRetry _ => true
  | _ => false

def permitted (S : Setting) (l : Session) (s : World) (o : Op) : Bool :=
  (!S.punctual || l.claimedAt.all (fun T => decide (s.clock ≤ T + jobTimeout))) &&
  match o with
  | .lockWallet u => !S.freshLock || l.freshCopy s u
  | .updateReq r cond _ =>
      !S.quietPublishFailure || !l.entry.isApprove ||
        (l.req s r).all (fun q => !cond q || q.status != .approved || q.quiet s.clock)
  | .updateTxn t cond values =>
      !S.sameHashReconcile || !l.entry.isSettlementRetry ||
        (l.txn s t).all (fun x => !cond x ||
          (values s.clock x).settlementStatus != .completed ||
          (values s.clock x).xrplTxHash == x.xrplTxHash)
  | _ => true

/-! ## §9. One call. -/

def Session.fail (l : Session) (o : Op) : Session := { l with failed := l.failed || o.isStatement }

def World.tick (S : Setting) (c : Choice) (s : World) : World :=
  { s with clock := s.clock + S.minTick + c.dt }

/-- The call `o` at its instant: the clock has moved on already. -/
def answer (S : Setting) (i : Nat) (o : Op) (c : Choice) (l : Session) (s : World) : Answered o :=
  match c.mode with
  | .returns => if l.failed && o.isStatement then none else perform S i l s c.value o
  | .raises e => (afterRaises o e s).map (fun s' => (.error e, l.fail o, s'))
  | .raisesAfter e =>
      if l.failed && o.isStatement then none
      else if o.losesResponse && o.mayRaise e then
        (perform S i l s c.value o).map (fun r => (.error e, r.2.1.fail o, r.2.2))
      else none

def exec (S : Setting) (i : Nat) (o : Op) (c : Choice) (l : Session) (s : World) : Answered o :=
  if permitted S l (s.tick S c) o then answer S i o c l (s.tick S c) else none

end Orbyt
