/-
  Orbyt.Recovery.Settling — a delivery that settles its row

  A quiet platform, a row that is queued and unsigned, and a ledger that accepts what it is
  handed: the delivery of the row's message ends in `completed`, whether or not the recipient
  has a wallet or a trust line yet.

  Main results:
    * `brings_submit`  — sign, store, submit, with the ledger taking the transaction;
    * `brings_settle`  — one whole delivery.
-/
import Orbyt.Recovery.Alone

namespace Orbyt

open Interleave
open Interleave.Prog
open ValidatedLedger
open Function (update)
open XrplService

variable {S : Setting} {i n now t u : Nat} {e : Entry} {v v' : View} {α : Type}

/-! ## §1. What is stored. -/

/-- A row is written and stored. -/
def View.putTxn (v : View) (t : Nat) (x : Txn) : View :=
  { v with txns := update v.txns t (some x), stored := true, walletsStored := true }

def View.putWallet (v : View) (u : Nat) (w : Wallet) : View :=
  { v with wallets := update v.wallets u (some w), stored := true, walletsStored := true }

@[simp] theorem View.putTxn_txns (v : View) (x : Txn) : (v.putTxn t x).txns t = some x :=
  Function.update_self _ _ _

@[simp] theorem View.putWallet_wallets (v : View) (w : Wallet) :
    (v.putWallet u w).wallets u = some w :=
  Function.update_self _ _ _

/-- A session with time for more has time for less. -/
theorem LeftAlone.less {l : Session} {s : World} {d : Nat} (h : LeftAlone S i e (n + d) v now l s) :
    LeftAlone S i e n v now l s := by
  have hle : n * S.minTick ≤ (n + d) * S.minTick := Nat.mul_le_mul_right _ (Nat.le_add_right n d)
  exact
    { h with
      budget := Nat.le_trans hle h.budget
      time := fun T hT => by
        have ht := h.time T hT
        omega }

theorem Brings.more {p : Program α} {Q : Except Exn α → Nat → View → Nat → Prop} (d : Nat)
    (h : Brings S i e n p v now Q) : Brings S i e (n + d) p v now Q :=
  fun l s hl => h l s hl.less

/-! ## §2. Submitting. -/

/-- The view once session `i` has signed. -/
def View.sign (v : View) (i now : Nat) (purpose : Purpose) (tx : XRPLTransaction) (last : Nat) :
    View :=
  { v with blobs := v.blobs ++ [v.blobOf i now purpose tx last] }

/-- The view once `h` was handed over and the ledger has taken it. -/
def View.accept (v : View) (h : Nat) : View :=
  { v with handed := update v.handed h true }.close h .tesSUCCESS

/-- Nothing has happened to the ledger, and it was not consulted. -/
structure View.SameLedger (v v' : View) : Prop where
  ledger : v'.ledger = v.ledger
  blobs : v'.blobs = v.blobs
  malformed : v'.malformed = v.malformed
  looked : v'.looked = v.looked

/-- What a submission reports that the ledger has accepted. -/
def accepted (h : Nat) : XRPLResult := ⟨true, "tesSUCCESS", some h, "", some .succeeded⟩

/-- **SIGN, STORE, SUBMIT**, and the next ledger takes it. -/
theorem brings_submit {purpose : Purpose} {tx : XRPLTransaction} {cb : SignedTx → Program Unit}
    {index : Option Nat} {m : Nat} {Q : Except Exn XRPLResult → Nat → View → Nat → Prop}
    (hlooked : v.looked = false) (hfresh : v.Fresh)
    (hcb : Brings S i e m (cb ⟨v.blobs.length, some (v.ledger.validated + 1), index⟩)
      (v.sign i (now + S.minTick) purpose tx (v.ledger.validated + 1)) (now + S.minTick)
      fun r n' v' now' => r = .ok () ∧ n' = n + 2 ∧
        View.SameLedger (v.sign i (now + S.minTick) purpose tx (v.ledger.validated + 1)) v' ∧
        Q (.ok (accepted v.blobs.length)) n (v'.accept v.blobs.length)
          (now' + S.minTick + S.minTick)) :
    Brings S i e (m + 1) (submit purpose tx cb index) v now Q := by
  unfold submit
  refine Brings.bind (Brings.attempt
    (brings_last (does_autofillAndSign (v.ledger.validated + 1)) ?_))
  refine Brings.bind (hcb.mono fun r n' v' now' hr => ?_)
  obtain ⟨rfl, rfl, hsame, hQ⟩ := hr
  have hblob : v'.blobs[v.blobs.length]?
      = some (v.blobOf i (now + S.minTick) purpose tx (v.ledger.validated + 1)) := by
    rw [hsame.blobs]
    exact List.getElem?_concat_length
  obtain ⟨hincluded, hmalformed⟩ := hfresh v.blobs.length (Nat.le_refl _)
  refine brings_call (does_handOver hblob rfl rfl) ?_
  -- the ledger closes before its outcome is asked for
  refine brings_close (h := v.blobs.length) .tesSUCCESS (hsame.looked.trans hlooked) hblob
    (Function.update_self _ _ _) ((congrFun hsame.malformed _).trans hmalformed)
    ((congrArg (fun L => L.included v.blobs.length) hsame.ledger).trans hincluded) ?_ ?_
  · show Window.admits ⟨v.ledger.validated, some (v.ledger.validated + 1)⟩ (v'.ledger.validated + 1)
    rw [hsame.ledger]
    exact ⟨Nat.lt_succ_self _, fun last hlast => Nat.le_of_eq (Option.some.inj hlast)⟩
  · refine Brings.bind (Brings.attempt (brings_last (does_outcome
      (k := v'.ledger.validated + 1) (c := .tesSUCCESS) ?_) (brings_ret hQ)))
    refine View.close_included _ _ ?_
    exact (congrArg (fun L => L.included v.blobs.length) hsame.ledger).trans hincluded

/-! ## §3. The recipient's wallet. -/

/-- What is left alone by provisioning, which only adds a wallet and its trust line. -/
structure Provisioned (v v' : View) (now now' : Nat) : Prop where
  time : now ≤ now'
  txns : v'.txns = v.txns
  treasury : v'.treasury = v.treasury
  looked : v'.looked = v.looked
  walletsStored : v'.walletsStored = true
  fresh : v'.Fresh

/-- The transaction that the ledger took is not one that is yet to be signed. -/
theorem View.Fresh.accept {h : Nat} (hf : v.Fresh) (hlt : h < v.blobs.length) :
    (v.accept h).Fresh := by
  intro k hk
  have hk' : v.blobs.length ≤ k := hk
  obtain ⟨hincluded, hmalformed⟩ := hf k hk'
  refine ⟨?_, hmalformed⟩
  have hne : k ≠ h := by omega
  show (v.ledger.included k).or _ = none
  rw [hincluded, Option.none_or]
  simp [hne]

theorem View.Fresh.sign (hf : v.Fresh) (i now : Nat) (purpose : Purpose) (tx : XRPLTransaction)
    (last : Nat) : (v.sign i now purpose tx last).Fresh := by
  intro k hk
  have hlen : (v.blobs ++ [v.blobOf i now purpose tx last]).length ≤ k := hk
  rw [List.length_append] at hlen
  exact hf k (by omega)

theorem View.sign_length {purpose : Purpose} {tx : XRPLTransaction} {last : Nat} :
    v.blobs.length < (v.sign i now purpose tx last).blobs.length := by
  show _ < (v.blobs ++ [v.blobOf i now purpose tx last]).length
  rw [List.length_append]
  exact Nat.lt_succ_self _

theorem brings_refreshWallet {w : Wallet} {Q : Except Exn Wallet → Nat → View → Nat → Prop}
    (hw : v.wallets u = some w) (hQ : Q (.ok w) n v (now + S.minTick)) :
    Brings S i e (n + 1) (refreshWallet u) v now Q := by
  unfold refreshWallet
  refine brings_call does_loadWallet ?_
  rw [hw]
  exact brings_ret hQ

/-- The row is there, or the faucet funds one. -/
theorem brings_findOrFund {Q : Except Exn Wallet → Nat → View → Nat → Prop}
    (hs : v.walletsStored = true) (hf : v.Fresh)
    (hQ : ∀ w v' now', v'.wallets u = some w → v'.ledger = v.ledger → Provisioned v v' now now' →
      Q (.ok w) n v' now') : Brings S i e (n + 5) (findOrFund u) v now Q := by
  unfold findOrFund
  cases hw : v.wallets u with
  | some w =>
    refine Brings.more (n := n + 1) 4 (brings_call does_selectWallet ?_)
    rw [hw]
    exact brings_ret (hQ w v _ hw rfl ⟨Nat.le_add_right _ _, rfl, rfl, rfl, hs, hf⟩)
  | none =>
    refine brings_call does_selectWallet ?_
    rw [hw]
    refine brings_call (does_faucet 0)
      (brings_call (does_insertWallet hw) (brings_call does_commit ?_))
    have hrow : (v.putWallet u ⟨0, encryptSeed 0, false, 0⟩).wallets u
        = some ⟨0, encryptSeed 0, false, 0⟩ := v.putWallet_wallets _
    refine brings_refreshWallet (v := v.putWallet u ⟨0, encryptSeed 0, false, 0⟩) hrow
      (hQ _ _ _ hrow rfl ⟨?_, rfl, rfl, rfl, rfl, hf⟩)
    omega

/-- The trust line is there, or the ledger accepts it. -/
theorem brings_ensureTrustLine {w : Wallet}
    {Q : Except Exn (XRPLResult × Wallet) → Nat → View → Nat → Prop}
    (hw : v.wallets u = some w) (hs : v.walletsStored = true) (hf : v.Fresh)
    (hlooked : v.looked = false)
    (hQ : ∀ result w' v' now', w'.trustSetComplete = true → v'.wallets u = some w' →
      Provisioned v v' now now' → Q (.ok (result, w')) n v' now') :
    Brings S i e (n + 6) (ensureTrustLine t u w) v now Q := by
  unfold ensureTrustLine
  by_cases hcomplete : w.trustSetComplete = true
  · rw [if_pos hcomplete]
    refine Brings.more (n := n) 6 (brings_ret (hQ _ w v now hcomplete hw ?_))
    exact ⟨Nat.le_refl _, rfl, rfl, rfl, hs, hf⟩
  · rw [if_neg hcomplete]
    refine brings_call does_loadSigner (Brings.bind ?_)
    refine brings_submit (n := n + 2) (m := n + 4) hlooked hf
      (brings_ret ⟨rfl, rfl, ⟨rfl, rfl, rfl, rfl⟩, ?_⟩)
    -- the row is marked once the TrustSet is on the ledger
    refine brings_call (does_setTrustLine hw) (brings_call does_commit (brings_ret ?_))
    refine hQ _ _ _ _ rfl (Function.update_self _ _ _) ⟨?_, rfl, rfl, rfl, rfl, ?_⟩
    · omega
    · exact (hf.sign i (now + S.minTick + S.minTick) (.trustSet t u)
        (.trustSet (.wallet u w.xrplAddress)) (v.ledger.validated + 1)).accept View.sign_length

/-- **PROVISIONING** ends with a wallet that can be paid. -/
theorem brings_provisionWallet {Q : Except Exn Wallet → Nat → View → Nat → Prop}
    (hs : v.walletsStored = true) (hf : v.Fresh) (hlooked : v.looked = false)
    (hQ : ∀ w v' now', w.trustSetComplete = true → v'.wallets u = some w →
      Provisioned v v' now now' → Q (.ok w) n v' now') :
    Brings S i e (n + 11) (provisionWallet t u) v now Q := by
  unfold provisionWallet
  refine Brings.bind (brings_findOrFund (n := n + 6) hs hf fun w v₁ now₁ hw hledger h₁ => ?_)
  refine Brings.bind (brings_ensureTrustLine hw h₁.walletsStored h₁.fresh
    (h₁.looked.trans hlooked) fun result w' v₂ now₂ hcomplete hw' h₂ => ?_)
  refine brings_ret (hQ w' v₂ now₂ hcomplete hw' ⟨Nat.le_trans h₁.time h₂.time, ?_, ?_, ?_,
    h₂.walletsStored, h₂.fresh⟩)
  · exact h₂.txns.trans h₁.txns
  · exact h₂.treasury.trans h₁.treasury
  · exact h₂.looked.trans h₁.looked

/-! ## §4. The payment. -/

open SettlementWorker

variable {x txn : Txn}

theorem brings_rememberSigned {signed : SignedTx} {Q : Except Exn Unit → Nat → View → Nat → Prop}
    (hx : v.txns t = some x)
    (hQ : Q (.ok ()) n (v.putTxn t (remembered signed (now + S.minTick) x))
      (now + S.minTick + S.minTick + S.minTick)) :
    Brings S i (.settle t) (n + 3) (rememberSigned t signed) v now Q := by
  unfold rememberSigned
  exact brings_call (does_updateTxn hx rfl nofun)
    (brings_call does_commit (brings_last does_setSignedHash hQ))

/-- What has become of the row `x`: its payment is signed, and on the ledger. -/
structure PaidBy (t : Nat) (x : Txn) (v v' : View) : Prop where
  row : ∃ signed stamp, v'.txns t = some (remembered signed stamp x)
  wallets : v'.wallets = v.wallets
  walletsStored : v'.walletsStored = true

theorem brings_sendFromTreasury {destination amount : Nat}
    {Q : Except Exn XRPLResult → Nat → View → Nat → Prop} (hx : v.txns t = some x)
    (hamount : amount ≠ 0) (hf : v.Fresh) (hlooked : v.looked = false)
    (hQ : ∀ v', PaidBy t x v v' → v'.treasury = v.treasury →
      Q (.ok (accepted v.blobs.length)) n v' (now + 8 * S.minTick)) :
    Brings S i (.settle t) (n + 8) (sendFromTreasury t destination amount (rememberSigned t)) v now
      Q := by
  unfold sendFromTreasury
  refine brings_call does_loadSigner (brings_call does_latestValidated ?_)
  unfold uctusd
  rw [if_neg hamount]
  refine brings_submit (n := n) (m := n + 5) hlooked hf
    (brings_rememberSigned hx ⟨rfl, rfl, ⟨rfl, rfl, rfl, rfl⟩, ?_⟩)
  have htime : now + S.minTick + S.minTick + S.minTick + S.minTick + S.minTick + S.minTick
      + S.minTick + S.minTick = now + 8 * S.minTick := by omega
  rw [htime]
  exact hQ _ ⟨⟨_, _, Function.update_self _ _ _⟩, rfl, rfl⟩ rfl

/-- Under the lock, which is free and does not expire meanwhile. -/
theorem brings_withTreasuryLock {body : Program α} {a : α} {m d : Nat}
    {Q : Except Exn α → Nat → View → Nat → Prop}
    (hfree : v.treasuryFree (now + S.minTick) = true)
    (hlt : (d + 1) * S.minTick < treasuryLockTimeout)
    (hbody : Brings S i e m body
      { v with treasury := some (i, now + S.minTick + treasuryLockTimeout) } (now + S.minTick)
      fun r n' v' now' => r = .ok a ∧ n' = n + 1 ∧ now' = now + S.minTick + d * S.minTick ∧
        v'.treasury = some (i, now + S.minTick + treasuryLockTimeout) ∧
        Q (.ok a) n { v' with treasury := none } (now' + S.minTick)) :
    Brings S i e (m + 1) (withTreasuryLock body) v now Q := by
  unfold withTreasuryLock
  refine brings_call (does_acquireTreasury hfree) (Brings.bind (Brings.attempt
    (hbody.mono fun r n' v' now' hr => ?_)))
  obtain ⟨rfl, rfl, rfl, htreasury, hQ⟩ := hr
  refine brings_call (does_releaseTreasury htreasury ?_) (brings_ret hQ)
  have hsplit : (d + 1) * S.minTick = d * S.minTick + S.minTick := Nat.succ_mul d S.minTick
  omega

/-- **PAYING** ends with a payment that the ledger has taken. -/
theorem brings_pay {Q : Except Exn XRPLResult → Nat → View → Nat → Prop} (hx : v.txns t = some x)
    (hamount : txn.uctusdAmount ≠ 0) (hs : v.walletsStored = true) (hf : v.Fresh)
    (hlooked : v.looked = false) (hfree : v.treasuryFree now = true)
    (hbudget : 9 * S.minTick < treasuryLockTimeout)
    (hQ : ∀ h w v' now', (∃ signed stamp, v'.txns t = some (remembered signed stamp x)) →
      v'.wallets u = some w → v'.walletsStored = true → Q (.ok (accepted h)) n v' now') :
    Brings S i (.settle t) (n + 21) (pay t u txn) v now Q := by
  unfold pay
  refine Brings.bind (brings_provisionWallet (n := n + 10) hs hf hlooked
    fun w v₁ now₁ hcomplete hw h₁ => ?_)
  show Brings S i (.settle t) (n + 10) (if w.trustSetComplete = true then _ else _) v₁ now₁ Q
  rw [if_pos hcomplete]
  -- a lock that was free is still free
  have hfree₁ : v₁.treasuryFree (now₁ + S.minTick) = true :=
    treasuryFree_later hfree h₁.treasury (Nat.le_trans h₁.time (Nat.le_add_right _ _))
  refine brings_withTreasuryLock (n := n) (a := accepted v₁.blobs.length) (d := 8) hfree₁ hbudget ?_
  refine brings_sendFromTreasury (x := x) (n := n + 1) ((congrFun h₁.txns t).trans hx) hamount
    h₁.fresh (h₁.looked.trans hlooked) fun v₂ h₂ ht₂ => ⟨rfl, rfl, rfl, ht₂, ?_⟩
  exact hQ _ w _ _ h₂.row ((congrFun h₂.wallets u).trans hw) h₂.walletsStored

/-! ## §5. The delivery. -/

/-- The recipient of the row is a registered user. -/
def Txn.pays (S : Setting) (x : Txn) (u : Nat) : Prop :=
  x.recipientUserId = some u ∧ S.registered u = true

theorem brings_claim {Q : Except Exn (Option Txn) → Nat → View → Nat → Prop}
    (hx : v.txns t = some x) (hc : claimable x = true)
    (hQ : Q (.ok (some (claimed (now + S.minTick) x))) n
      (v.putTxn t (claimed (now + S.minTick) x)) (now + S.minTick + S.minTick + S.minTick)) :
    Brings S i (.settle t) (n + 3) (claim t) v now Q := by
  unfold claim
  refine brings_call (does_updateTxn hx hc nofun) (brings_call does_commit ?_)
  unfold reload
  refine Brings.bind (brings_call (n := n) (v := v.putTxn t (claimed (now + S.minTick) x))
    does_selectTxn ?_)
  rw [View.putTxn_txns]
  exact brings_ret (brings_ret hQ)

theorem brings_getRecipient {Q : Except Exn (Option Nat) → Nat → View → Nat → Prop}
    (hu : txn.pays S u) (hQ : Q (.ok (some u)) n v (now + S.minTick)) :
    Brings S i e (n + 1) (getRecipient txn) v now Q := by
  unfold getRecipient
  rw [hu.1]
  refine brings_call does_getUser ?_
  rw [if_pos hu.2]
  exact brings_ret hQ

theorem brings_lockRecipientWallet
    {Q : Except Exn (Option (Nat × Wallet)) → Nat → View → Nat → Prop}
    (hu : txn.recipientUserId = some u) (hs : v.walletsStored = true)
    (hQ : Q (.ok ((v.wallets u).map fun w => (u, w))) n v (now + S.minTick)) :
    Brings S i e (n + 1) (lockRecipientWallet txn) v now Q := by
  unfold lockRecipientWallet
  rw [hu]
  refine brings_call (does_lockWallet hs) ?_
  cases hw : v.wallets u with
  | none =>
    rw [hw] at hQ
    exact brings_ret hQ
  | some w =>
    rw [hw] at hQ
    exact brings_ret hQ

/-- The recipient is credited, where there is a wallet. -/
def View.credit (v : View) (u amount : Nat) : View :=
  match v.wallets u with
  | some w => v.putWallet u { w with balanceUctusd := w.balanceUctusd + amount }
  | none => v

/-- The row is completed, and its recipient credited. -/
theorem brings_completeSettlement {txHash : Option Nat} {fromStatuses : List SettlementStatus}
    {Q : Except Exn Bool → Nat → View → Nat → Prop}
    (he : e.isSettlementRetry = true → txHash = x.xrplTxHash)
    (hx : v.txns t = some x) (hin : isIn fromStatuses x = true)
    (hu : txn.recipientUserId = some u) (hs : v.walletsStored = true)
    (hQ : ∀ stamp now', now ≤ now' → Q (.ok true) n
      ((v.putTxn t (completed txHash stamp x)).credit u txn.uctusdAmount) now') :
    Brings S i e (n + 5) (completeSettlement t txn txHash fromStatuses) v now Q := by
  unfold completeSettlement
  refine brings_call (does_updateTxn hx hin fun hretry _ => he hretry) ?_
  rw [if_pos rfl]
  refine Brings.bind (brings_lockRecipientWallet (n := n + 3) hu hs ?_)
  have hcredit := fun now' => hQ (now + S.minTick) now'
  unfold View.credit at hcredit
  show Brings S i e (n + 3) (Prog.bind (credit t txn ((v.wallets u).map fun w => (u, w))) _) _ _ Q
  cases hw : v.wallets u with
  | none =>
    rw [show (v.putTxn t (completed txHash (now + S.minTick) x)).wallets u = none from hw]
      at hcredit
    exact Brings.more (n := n + 2) 1 (brings_call does_commit (brings_call does_refresh
      (brings_ret (hcredit _ (by omega)))))
  | some w =>
    rw [show (v.putTxn t (completed txHash (now + S.minTick) x)).wallets u = some w from hw]
      at hcredit
    exact Brings.bind (brings_last (does_setBalance hw) (brings_call does_commit
      (brings_call does_refresh (brings_ret (hcredit _ (by omega))))))

/-- What a delivery leads to. -/
structure Settled (t : Nat) (v' : View) : Prop where
  row : ∃ x', v'.txns t = some x' ∧ x'.settlementStatus = .completed
  stored : v'.stored = true ∧ v'.walletsStored = true

theorem View.credit_txns (v : View) (amount : Nat) : (v.credit u amount).txns = v.txns := by
  unfold View.credit
  split <;> rfl

theorem View.credit_stored (v : View) (amount : Nat) (hs : v.stored = true)
    (hw : v.walletsStored = true) :
    (v.credit u amount).stored = true ∧ (v.credit u amount).walletsStored = true := by
  unfold View.credit
  split
  · exact ⟨rfl, rfl⟩
  · exact ⟨hs, hw⟩

theorem Settled.of_credit {x' : Txn} {amount : Nat} (hst : x'.settlementStatus = .completed) :
    Settled t ((v.putTxn t x').credit u amount) where
  row := ⟨x', by rw [View.credit_txns]; exact v.putTxn_txns x', hst⟩
  stored := View.credit_stored _ _ rfl rfl

/-- **ONE DELIVERY** of a queued row settles it. -/
theorem brings_settle (hx : v.txns t = some x) (hc : claimable x = true) (hu : x.pays S u)
    (hamount : x.uctusdAmount ≠ 0) (hf : v.Fresh) (hlooked : v.looked = false)
    (hfree : v.treasuryFree now = true) (hbudget : 9 * S.minTick < treasuryLockTimeout) :
    Brings S i (.settle t) 30 (body S (.settle t)) v now fun _ _ v' _ => Settled t v' := by
  show Brings S i (.settle t) 30 (Prog.bind (processSettlement t) fun _ => .ret ()) v now _
  refine Brings.bind ?_
  unfold processSettlement
  refine Brings.bind (brings_claim (n := 27) hx hc ?_)
  refine Brings.bind (brings_getRecipient (n := 26) hu ?_)
  have hfree' : (v.putTxn t (claimed (now + S.minTick) x)).treasuryFree
      (now + S.minTick + S.minTick + S.minTick + S.minTick) = true := by
    refine treasuryFree_later hfree rfl ?_
    omega
  refine Brings.bind (Brings.attempt (brings_pay (n := 5) (u := u)
    (v.putTxn_txns (claimed (now + S.minTick) x)) hamount rfl hf hlooked hfree' hbudget
    fun h w v₁ now₁ hrow _ hs₁ => ?_))
  obtain ⟨signed, stamp, hrow⟩ := hrow
  show Brings S i (.settle t) 5 (onResult t _ (accepted h)) v₁ now₁ _
  unfold onResult
  exact Brings.bind (brings_completeSettlement (n := 0) (u := u) nofun hrow rfl hu.1 hs₁
    fun _ _ _ => brings_ret (brings_ret (.of_credit rfl)))

end Orbyt
