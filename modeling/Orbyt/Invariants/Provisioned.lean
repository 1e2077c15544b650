/-
  Orbyt.Invariants.Provisioned — accounts are opened before they are paid

  A recipient's wallet is committed before its TrustSet is signed, its trust line is recorded
  only after `tesSUCCESS`, and the treasury pays only where a trust line is recorded.  What a
  worker has come to on this way is followed as a typestate: the wallet it has read, the
  TrustSet it has signed for that wallet, and the answer it was given.

  Main results:
    * `body_provisioning` — every program follows the typestate;
    * `provisioned_reach` — in every reachable state a recorded trust line is validated, and
      what the treasury has signed goes to stored wallets that had one by then.
-/
import Orbyt.Invariants.Priced
import Orbyt.Lib.Typestate
import Orbyt.Rules.Evidence

namespace Orbyt

open Interleave
open Interleave.Prog
open ValidatedLedger
open Function (update)

variable {S : Setting} {i j : Nat} {o : Op} {c : Choice} {l l' : Session} {s s' : World}
  {e : Entry}

/-! ## §1. Trust lines. -/

/-- A TrustSet signed for the account of `u` at `address` is validated with `tesSUCCESS`, in a
ledger up to `index`. -/
def World.TrustLine (s : World) (u address index : Nat) : Prop :=
  ∃ (h : Nat) (b : Blob) (n : Nat), s.blobs[h]? = some b ∧
    b.tx = .trustSet (.wallet u address) ∧ s.ledger.included h = some (n, .tesSUCCESS) ∧ n ≤ index

theorem World.TrustLine.onward {u address index index' : Nat} (h : s.TrustLine u address index)
    (ho : Onward s s') (hi : index ≤ index') : s'.TrustLine u address index' := by
  obtain ⟨k, b, n, hb, htx, hn, hle⟩ := h
  exact ⟨k, b, n, ho.blobs k b hb, htx, (ho.ledger k b hb).stays _ hn, Nat.le_trans hle hi⟩

/-- A trust line that is validated by now. -/
def World.Trusted (s : World) (u address : Nat) : Prop := s.TrustLine u address s.ledger.validated

theorem World.Trusted.onward {u address : Nat} (h : s.Trusted u address) (ho : Onward s s') :
    s'.Trusted u address := World.TrustLine.onward h ho ho.validated

theorem World.Trusted.of_success {u address h n : Nat} {b : Blob} (hr : s.Regular)
    (hb : s.blobs[h]? = some b) (htx : b.tx = .trustSet (.wallet u address))
    (hn : s.ledger.included h = some (n, .tesSUCCESS)) : s.Trusted u address :=
  -- a ledger that includes anything is closed
  ⟨h, b, n, hb, htx, hn, (hr.window h b hb n _ hn).2⟩

/-- The trust line that the wallet `w` of `u` records is there. -/
def World.Backs (s : World) (u : Nat) (w : Wallet) : Prop :=
  w.trustSetComplete = true → s.Trusted u w.xrplAddress

theorem World.Backs.onward {u : Nat} {w : Wallet} (h : s.Backs u w) (ho : Onward s s') :
    s'.Backs u w := fun hw => (h hw).onward ho

/-- `tx` pays a stored wallet whose trust line is validated up to `index`. -/
def World.PaysOpened (s : World) (tx : XRPLTransaction) (index : Nat) : Prop :=
  ∃ u w amount, s.wallets u = some w ∧ tx = .payment .treasury (.address w.xrplAddress) amount ∧
    s.TrustLine u w.xrplAddress index

theorem World.PaysOpened.moves {tx : XRPLTransaction} {index : Nat} (h : s.PaysOpened tx index)
    (ho : Onward s s') (ha : Accounts s s') : s'.PaysOpened tx index := by
  obtain ⟨u, w, amount, hw, rfl, ht⟩ := h
  obtain ⟨w', hw', hsame⟩ := ha u w hw
  refine ⟨u, w', amount, hw', ?_, ?_⟩
  · rw [hsame.address]
  · rw [hsame.address]
    exact ht.onward ho (Nat.le_refl _)

/-- Recorded trust lines are there, and all that the treasury signs are payments to stored
wallets whose trust lines were there when it signed. -/
structure World.Provisioned (s : World) : Prop where
  wallets : ∀ u w, s.wallets u = some w → s.Backs u w
  payments : ∀ (h : Nat) (b : Blob), s.blobs[h]? = some b → b.tx.account = .treasury →
    s.PaysOpened b.tx b.signedIndex

theorem World.Provisioned.of_same (h : s.Provisioned) (ho : Onward s s')
    (hw : s'.wallets = s.wallets) (hb : s'.blobs = s.blobs) : s'.Provisioned where
  wallets := fun u w hst => by
    rw [hw] at hst
    exact (h.wallets u w hst).onward ho
  payments := fun k b hk htx => by
    rw [hb] at hk
    exact (h.payments k b hk htx).moves ho (.of_eq hw)

/-! ## §2. What a session writes. -/

/-- A session writes wallets with the trust lines they have. -/
def Session.Backed (l : Session) (s : World) : Prop :=
  ∀ u w, l.walletWrites u = some w → s.Backs u w

theorem Session.Backed.onward (h : l.Backed s) (ho : Onward s s') : l.Backed s' :=
  fun u w hw => (h u w hw).onward ho

/-- So is the wallet as the session sees it. -/
theorem Session.Backed.reads (h : l.Backed s) (hs : s.Provisioned) {u : Nat} {w : Wallet}
    (hw : l.wallet s u = some w) : s.Backs u w := by
  rcases Option.or_eq_some_iff.mp hw with hwrite | ⟨-, hst⟩
  · exact h u w hwrite
  · exact hs.wallets u w hst

/-- The trust line of wallet `u`, as the session sees the wallet, is there. -/
def Session.Opened (l : Session) (s : World) (u : Nat) : Prop :=
  ∀ w, l.wallet s u = some w → s.Trusted u w.xrplAddress

theorem exec_backed (h : l.Backed s) (hs : s.Provisioned) (ho : Onward s s')
    (hopened : ∀ u, o = .setTrustLine u → l.Opened s u)
    (hinsert : ∀ u w, o = .insertWallet u w → w.trustSetComplete = false)
    {r : Except Exn o.Res} (hx : exec S i o c l s = some (r, l', s')) : l'.Backed s' := by
  intro u w' hw'
  rcases exec_walletWrites hx hw' with hold | ⟨w, balance, move, hread, rfl, -⟩ |
    ⟨w, hread, rfl, heq⟩ | ⟨-, heq⟩
  · exact (h u w' hold).onward ho
  · intro htrue
    exact (h.reads hs hread htrue).onward ho
  · intro _
    exact (hopened u heq w hread).onward ho
  · intro htrue
    rw [hinsert u w' heq] at htrue
    cases htrue

/-- What a program signs for the treasury pays a stored wallet with a trust line. -/
def Op.Provisioned (s : World) (o : Op) : Prop :=
  ∀ purpose tx, o = .autofillAndSign purpose tx → tx.account = .treasury →
    s.PaysOpened tx s.ledger.validated

theorem exec_provisioned (h : s.Provisioned) (hl : (pricing S).session i l s) (hb : l.Backed s)
    (hsign : o.Provisioned s) {r : Except Exn o.Res}
    (hx : exec S i o c l s = some (r, l', s')) : s'.Provisioned := by
  have ho := exec_onward hl.1.locked hx
  have hacc := exec_accounts hl.2 hx
  refine ⟨fun u w hw => ?_, fun k b hk htx => ?_⟩
  · by_cases hcommit : o = .commit
    · subst hcommit
      rcases exec_commit hx with ⟨-, -, rfl⟩ | ⟨-, rfl, -⟩
      · exact (h.wallets u w hw).onward ho
      · exact World.Backs.onward (hb.reads h hw) ho
    · rw [(exec_uncommitted hcommit hx).wallets] at hw
      exact World.Backs.onward (h.wallets u w hw) ho
  · rcases exec_blobs hx hk with hold | ⟨hnew, hindex⟩
    · exact (h.payments k b hold htx).moves ho hacc
    · rw [hindex]
      exact (hsign _ _ hnew htx).moves ho hacc

/-! ## §3. What a worker has come to. -/

structure Provisioning where
  /-- A wallet object has been loaded or written. -/
  loaded : Bool
  /-- A wallet is written and not committed. -/
  dirty : Bool
  /-- The stored wallet that was read last, and whose it is. -/
  found : Option (Nat × Wallet)
  /-- The last TrustSet signed: whose account, its address, and the hash. -/
  proposed : Option (Nat × Nat × Nat)
  /-- The account whose TrustSet was answered with success. -/
  opened : Option (Nat × Nat)

def Provisioning.initial : Provisioning := ⟨false, false, none, none, none⟩

/-- What a read of wallet `u` has found. -/
def foundWallet (u : Nat) : Except Exn (Option Wallet) → Option (Nat × Wallet)
  | .ok (some w) => some (u, w)
  | _ => none

/-- The account that the success of `h` opens. -/
def openedBy (h : Nat) : Option (Nat × Nat × Nat) → Option (Nat × Nat)
  | some (u, address, k) => if k = h then some (u, address) else none
  | none => none

def Provisioning.dirtyAfter (q : Provisioning) : (o : Op) → Except Exn o.Res → Bool
  | .commit, .ok _ => false
  | o, _ => o.writesWallets || q.dirty

/-- A wallet that the session has loaded before may be stale. -/
def Provisioning.foundAfter (q : Provisioning) : (o : Op) → Except Exn o.Res → Option (Nat × Wallet)
  | .selectWallet u, r => if q.loaded || q.dirty then none else foundWallet u r
  | .loadWallet u, r => if q.dirty then none else foundWallet u r
  | _, _ => q.found

def Provisioning.proposedAfter (q : Provisioning) :
    (o : Op) → Except Exn o.Res → Option (Nat × Nat × Nat)
  | .autofillAndSign _ (.trustSet (.wallet u address)), .ok signed =>
      some (u, address, signed.txHash)
  | _, _ => q.proposed

def Provisioning.openedAfter (q : Provisioning) : (o : Op) → Except Exn o.Res → Option (Nat × Nat)
  | .outcome h, .ok .tesSUCCESS => openedBy h q.proposed
  | _, _ => q.opened

def Provisioning.next (q : Provisioning) (o : Op) (r : Except Exn o.Res) : Provisioning where
  loaded := o.loadsWallets || q.loaded
  dirty := q.dirtyAfter o r
  found := q.foundAfter o r
  proposed := q.proposedAfter o r
  opened := q.openedAfter o r

/-- The wallet of `u` at `address` is stored, and its trust line was found set or has been
opened since. -/
def Provisioning.Ready (q : Provisioning) (address : Nat) : Prop :=
  ∃ u w, q.found = some (u, w) ∧ w.xrplAddress = address ∧
    (w.trustSetComplete = true ∨ q.opened = some (u, address))

/-- What is signed: payments of the treasury go where it is ready to pay. -/
def Provisioning.maySign (q : Provisioning) : XRPLTransaction → Prop
  | .payment .treasury (.address address) _ => q.Ready address
  | .payment .treasury .issuer _ | .trustSet .treasury => False
  | .payment (.wallet _ _) _ _ | .trustSet (.wallet _ _) => True

/-- A wallet is stored without a trust line, the trust line is recorded once it is opened, and
only then the wallet is paid. -/
def Provisioning.allows (q : Provisioning) : Op → Prop
  | .insertWallet _ w => w.trustSetComplete = false
  | .setTrustLine u => ∃ w, q.found = some (u, w) ∧ q.opened = some (u, w.xrplAddress)
  | .autofillAndSign _ tx => q.maySign tx
  | _ => True

def provisioning : Typestate calls Exn := ⟨Provisioning, Provisioning.allows, Provisioning.next⟩

/-! ## §4. Every program follows it. -/

/-- The calls that are allowed whatever has come before. -/
def Op.Free (o : Op) : Prop := ∀ q : Provisioning, q.allows o

theorem free_plain (o : Op) (ho : o.isBasic = true) : o.Free := by
  intro q
  cases o <;> trivial

/-- Only settlements touch what a wallet says of its account, or sign for the treasury. -/
theorem may_free (he : e.may o) (hs : ∀ t, e ≠ .settle t) : o.Free := by
  intro q
  cases o with
  | insertWallet u w =>
    obtain ⟨t, -, rfl, -⟩ := he
    exact absurd rfl (hs t)
  | setTrustLine u =>
    obtain ⟨t, rfl⟩ := he
    exact absurd rfl (hs t)
  | autofillAndSign purpose tx =>
    have hsigns : Signs e purpose tx := he
    cases hsigns with
    | trustSet t u address => exact absurd rfl (hs t)
    | payment t address amount => exact absurd rfl (hs t)
    | burn r u address amount => trivial
  | _ => trivial

variable {α β : Type} {p : Program α} {q : Provisioning}

theorem free_end (hu : Uses Op.Free p) : FollowsEnd provisioning p q :=
  Follows.of_uses (A := provisioning) (F := Op.Free) (I := fun _ => True)
    (fun _ q' ho _ => ⟨ho q', fun _ => trivial⟩) hu trivial

/-- To its end, and whatever follows to its own. -/
theorem end_bind {f : α → Program β} (hp : FollowsEnd provisioning p q)
    (hf : ∀ a q', FollowsEnd provisioning (f a) q') :
    FollowsEnd provisioning (Prog.bind p f) q := Follows.bind hp fun a q' _ => hf a q'

/-- The claim and the recipient: no wallet is touched. -/
def Provisioning.Untouched (q : Provisioning) : Prop := q.loaded = false ∧ q.dirty = false

theorem claim_provisioning {t : Nat} (hq : q.Untouched) :
    Follows provisioning (fun _ q' => q'.Untouched) (fun _ _ => True)
      (SettlementWorker.claim t) q := by
  unfold SettlementWorker.claim
  refine Follows.call_bind (A := provisioning) trivial (fun hit => ?_) fun _ => trivial
  refine Follows.call_bind (A := provisioning) trivial (fun _ => ?_) fun _ => trivial
  split
  · unfold SettlementWorker.reload
    refine Follows.bind (R := fun _ (q' : Provisioning) => q'.Untouched) ?_ fun txn q' h => h
    refine Follows.call_bind (A := provisioning) trivial (fun found => ?_) fun _ => trivial
    cases found with
    | some txn => exact ⟨hq.1, rfl⟩
    | none => exact trivial
  · exact ⟨hq.1, rfl⟩

theorem getRecipient_provisioning {txn : Txn} (hq : q.Untouched) :
    Follows provisioning (fun _ q' => q'.Untouched) (fun _ _ => True)
      (SettlementWorker.getRecipient txn) q := by
  unfold SettlementWorker.getRecipient
  cases txn.recipientUserId with
  | none => exact hq
  | some u => exact Follows.call_bind (A := provisioning) trivial (fun _ => hq) fun _ => trivial

/-- The wallet is handed back as it is stored. -/
theorem findOrFund_provisioning {u : Nat} (hq : q.Untouched) :
    Follows provisioning (fun w q' => q'.found = some (u, w)) (fun _ _ => True)
      (XrplService.findOrFund u) q := by
  unfold XrplService.findOrFund
  refine Follows.call_bind (A := provisioning) trivial (fun found => ?_) fun _ => trivial
  cases found with
  | some w =>
    show (if q.loaded || q.dirty then none else some (u, w)) = some (u, w)
    rw [hq.1, hq.2]
    rfl
  | none =>
    refine Follows.call_bind (A := provisioning) trivial (fun account => ?_) fun _ => trivial
    refine Follows.call_bind (A := provisioning) rfl (fun _ => ?_) fun _ => trivial
    refine Follows.call_bind (A := provisioning) trivial (fun _ => ?_) fun _ => trivial
    -- the INSERT is committed, so the refresh reads what is stored
    unfold XrplService.refreshWallet
    refine Follows.call_bind (A := provisioning) trivial (fun found => ?_) fun _ => trivial
    cases found with
    | some w => rfl
    | none => exact trivial

/-- A TrustSet that succeeds has opened its account. -/
theorem submit_opens {purpose : Purpose} {u address : Nat} :
    Follows provisioning
      (fun result q' => q'.found = q.found ∧
        (result.success = true → q'.opened = some (u, address)))
      (fun _ _ => True)
      (XrplService.submit purpose (.trustSet (.wallet u address)) (fun _ => pure ()) none) q := by
  unfold XrplService.submit
  refine ⟨trivial, fun r => ?_⟩
  cases r with
  | error e =>
    cases e with
    | xrpl reliable text => exact ⟨rfl, fun h => by cases h⟩
    | _ => trivial
  | ok signed =>
    refine Follows.call_bind (A := provisioning) trivial (fun _ => ?_) fun _ => trivial
    refine ⟨trivial, fun answer => ?_⟩
    cases answer with
    | error e =>
      cases e with
      | xrpl reliable text => exact ⟨rfl, fun h => by cases h⟩
      | _ => trivial
    | ok code =>
      cases code with
      | tesSUCCESS => exact ⟨rfl, fun _ => if_pos rfl⟩
      | other name => exact ⟨rfl, fun h => by cases h⟩

/-- **THE TRUST LINE COMES FIRST**: a wallet that is handed back as set is ready to be paid. -/
theorem ensureTrustLine_provisioning {t u : Nat} {w : Wallet} (hq : q.found = some (u, w)) :
    Follows provisioning
      (fun r q' => r.2.trustSetComplete = true → q'.Ready r.2.xrplAddress) (fun _ _ => True)
      (XrplService.ensureTrustLine t u w) q := by
  unfold XrplService.ensureTrustLine
  split
  next hset => exact fun _ => ⟨u, w, hq, rfl, .inl hset⟩
  next hnot =>
    refine Follows.call_bind (A := provisioning) trivial (fun _ => ?_) fun _ => trivial
    refine Follows.bind submit_opens fun result q₁ ⟨hfound, hopened⟩ => ?_
    have hw : q₁.found = some (u, w) := hfound.trans hq
    split
    next hsuccess =>
      have ho := hopened hsuccess
      refine Follows.call_bind (A := provisioning) ⟨w, hw, ho⟩ (fun _ => ?_) fun _ => trivial
      refine Follows.call_bind (A := provisioning) trivial (fun _ => ?_) fun _ => trivial
      exact fun _ => ⟨u, w, hw, rfl, .inr ho⟩
    · exact fun hset => absurd hset hnot

/-- What is signed is allowed, and the rest of a submission always is. -/
theorem submit_end {purpose : Purpose} {tx : XRPLTransaction}
    {onSignedTx : SignedTx → Program Unit} {index : Option Nat}
    (hsign : q.allows (.autofillAndSign purpose tx))
    (hcb : ∀ signed, Uses Op.Free (onSignedTx signed)) :
    FollowsEnd provisioning (XrplService.submit purpose tx onSignedTx index) q := by
  unfold XrplService.submit
  refine ⟨hsign, fun r => ?_⟩
  cases r with
  | error e => cases e <;> trivial
  | ok signed =>
    show FollowsEnd provisioning
      (Prog.bind (onSignedTx { signed with submittedLedgerIndex := index }) _) _
    refine free_end (uses_bind (hcb _) fun _ => uses_bind (uses_call fun _ => trivial) fun _ =>
      uses_bind (uses_attempt (uses_call fun _ => trivial)) fun answer => ?_)
    split <;> trivial

theorem sendFromTreasury_end {t destination amount : Nat} (hq : q.Ready destination) :
    FollowsEnd provisioning (XrplService.sendFromTreasury t destination amount
      (SettlementWorker.rememberSigned t)) q := by
  unfold XrplService.sendFromTreasury
  refine Follows.call_bind (A := provisioning) trivial (fun _ => ?_) fun _ => trivial
  refine Follows.call_bind (A := provisioning) trivial (fun index => ?_) fun _ => trivial
  have hrest : FollowsEnd provisioning (XrplService.submit (.payment t)
      (.payment .treasury (.address destination) amount) (SettlementWorker.rememberSigned t)
      (some index)) q :=
    submit_end hq fun signed => uses_rememberSigned free_plain (fun _ => trivial)
      fun _ _ => trivial
  unfold XrplService.uctusd
  by_cases hzero : amount = 0
  · rw [if_pos hzero]
    trivial
  · rw [if_neg hzero]
    exact hrest

theorem pay_end {t u : Nat} {txn : Txn} (hq : q.Untouched) :
    FollowsEnd provisioning (SettlementWorker.pay t u txn) q := by
  unfold SettlementWorker.pay
  refine Follows.bind (R := fun w (q' : Provisioning) =>
    w.trustSetComplete = true → q'.Ready w.xrplAddress) ?_ fun wallet q₁ hready => ?_
  · unfold XrplService.provisionWallet
    refine Follows.bind (findOrFund_provisioning hq) fun w q₁ hfound => ?_
    refine Follows.bind (ensureTrustLine_provisioning hfound) fun r q₂ hr => ?_
    obtain ⟨result, w'⟩ := r
    exact hr
  · split
    next hset =>
      unfold SettlementWorker.withTreasuryLock
      refine Follows.call_bind (A := provisioning) trivial (fun _ => ?_) fun _ => trivial
      refine Follows.attempt_bind (sendFromTreasury_end (hready hset)) ?_ ?_
      · intro result q' _
        exact free_end (uses_bind (uses_call fun _ => trivial) fun _ => trivial)
      · intro exc q' _
        exact free_end (uses_bind (uses_call fun _ => trivial) fun _ => trivial)
    · trivial

theorem settleClaimed_end {t : Nat} {txn : Txn} (hq : q.Untouched) :
    FollowsEnd provisioning (SettlementWorker.settleClaimed t txn) q := by
  have hfail : ∀ (reason : String) (txHash : Option Nat) (b : SettlementWorker.Outcome),
      Uses Op.Free (Prog.bind (SettlementWorker.failSettlement t reason txHash [.processing])
        fun _ => .ret b) := fun _ _ _ =>
    uses_bind (uses_failSettlement free_plain fun _ => trivial) fun _ => trivial
  have hretry : ∀ (reason : String), Uses Op.Free (SettlementWorker.retryOrFail t txn reason) :=
    fun _ => uses_retryOrFail free_plain (fun _ _ => trivial) (fun _ => trivial)
      fun _ _ => trivial
  unfold SettlementWorker.settleClaimed
  refine Follows.bind (getRecipient_provisioning hq) fun recipient q₁ hq₁ => ?_
  cases recipient with
  | none => exact free_end (hfail _ _ _)
  | some u =>
    refine Follows.attempt_bind (pay_end hq₁) ?_ ?_
    · intro result q₂ _
      show FollowsEnd provisioning (SettlementWorker.onResult t txn result) q₂
      unfold SettlementWorker.onResult
      refine free_end ?_
      split
      · exact uses_bind (uses_completeSettlement free_plain (fun _ => trivial)
          fun _ _ _ => trivial) fun _ => trivial
      · exact hretry _
      · exact hfail _ _ _
      · exact hfail _ _ _
    · intro exc q₂ _
      show FollowsEnd provisioning (SettlementWorker.onException t txn exc) q₂
      unfold SettlementWorker.onException
      refine free_end ?_
      split
      · exact hfail _ _ _
      · refine uses_bind (uses_call fun _ => trivial) fun signed => ?_
        cases signed with
        | some h => exact hfail _ _ _
        | none => exact hretry _

theorem body_provisioning (S : Setting) (e : Entry) :
    FollowsEnd provisioning (body S e) Provisioning.initial := by
  have hother : (∀ t, e ≠ .settle t) → FollowsEnd provisioning (body S e) Provisioning.initial :=
    fun hs => free_end ((body_uses S e).mono fun o he => may_free he hs)
  cases e with
  | settle t =>
    refine end_bind ?_ fun _ _ => trivial
    rw [processSettlement_eq]
    refine Follows.bind (claim_provisioning ⟨rfl, rfl⟩) fun found q hq => ?_
    cases found with
    | none => trivial
    | some txn => exact settleClaimed_end hq
  | _ => exact hother nofun

/-! ## §5. What it means. -/

/-- The wallet of `u` is stored at the address of `w`, and what `w` records of its trust line is
true. -/
def World.Stands (s : World) (u : Nat) (w : Wallet) : Prop :=
  (∃ w', s.wallets u = some w' ∧ w'.xrplAddress = w.xrplAddress) ∧ s.Backs u w

theorem World.Stands.moves {u : Nat} {w : Wallet} (h : s.Stands u w) (ho : Onward s s')
    (ha : Accounts s s') : s'.Stands u w := by
  obtain ⟨⟨w', hw', haddress⟩, hb⟩ := h
  obtain ⟨w'', hw'', hsame⟩ := ha u w' hw'
  exact ⟨⟨w'', hw'', hsame.address.trans haddress⟩, hb.onward ho⟩

structure Provisioning.Means (q : Provisioning) (l : Session) (s : World) : Prop where
  backed : l.Backed s
  fresh : q.loaded = false → ∀ u, l.walletCopy u = none
  clean : q.dirty = false → ∀ u, l.walletWrites u = none
  found : ∀ u w, q.found = some (u, w) → s.Stands u w
  proposed : ∀ u address h, q.proposed = some (u, address, h) →
    ∃ b : Blob, s.blobs[h]? = some b ∧ b.tx = .trustSet (.wallet u address)
  opened : ∀ u address, q.opened = some (u, address) → s.Trusted u address

theorem Provisioning.Means.initial (e : Entry) : Provisioning.initial.Means (.start e) s where
  backed := fun _ _ h => by cases h
  fresh := fun _ _ => rfl
  clean := fun _ _ => rfl
  found := fun _ _ h => by cases h
  proposed := fun _ _ _ h => by cases h
  opened := fun _ _ h => by cases h

theorem Provisioning.Means.moves (h : q.Means l s) (ho : Onward s s') (ha : Accounts s s') :
    q.Means l s' where
  backed := h.backed.onward ho
  fresh := h.fresh
  clean := h.clean
  found := fun u w hf => (h.found u w hf).moves ho ha
  proposed := fun u address k hk => by
    obtain ⟨b, hb, htx⟩ := h.proposed u address k hk
    exact ⟨b, ho.blobs k b hb, htx⟩
  opened := fun u address hopened => (h.opened u address hopened).onward ho

section Call

variable (hm : q.Means l s) (ha : q.allows o) (hl : (pricing S).session i l s)

include hm ha hl

/-- The trust line that is about to be recorded is that of the wallet the session sees. -/
theorem Provisioning.Means.sets {u : Nat} (ho : o = .setTrustLine u) : l.Opened s u := by
  subst ho
  obtain ⟨w, hfound, hopened⟩ := ha
  obtain ⟨⟨w', hw', haddress⟩, -⟩ := hm.found u w hfound
  intro w₁ hw₁
  have hsame := hl.2.reads hw₁ hw'
  rw [hsame.address, haddress]
  exact hm.opened u _ hopened

omit hl in
theorem Provisioning.Means.signs : o.Provisioned s := by
  rintro purpose tx rfl htreasury
  cases tx with
  | trustSet account =>
    cases account with
    | treasury => exact ha.elim
    | wallet u address => cases htreasury
  | payment account destination amount =>
    cases account with
    | wallet u address => cases htreasury
    | treasury =>
      cases destination with
      | issuer => exact ha.elim
      | address a =>
        obtain ⟨u, w, hfound, rfl, hset⟩ := ha
        obtain ⟨⟨w', hw', haddress⟩, hb⟩ := hm.found u w hfound
        refine ⟨u, w', amount, hw', by rw [haddress], ?_⟩
        rw [haddress]
        rcases hset with hset | hopened
        · exact hb hset
        · exact hm.opened u _ hopened

end Call

theorem Provisioning.Means.fresh_next {r : Except Exn o.Res} (hm : q.Means l s)
    (hx : exec S i o c l s = some (r, l', s')) (hq : (q.next o r).loaded = false) (u : Nat) :
    l'.walletCopy u = none := by
  obtain ⟨hloads, hloaded⟩ := Bool.or_eq_false_iff.mp hq
  rw [(exec_sameCopies hloads hx).copies]
  exact hm.fresh hloaded u

theorem Provisioning.Means.clean_next {r : Except Exn o.Res} (hm : q.Means l s)
    (hx : exec S i o c l s = some (r, l', s')) (hq : (q.next o r).dirty = false) (u : Nat) :
    l'.walletWrites u = none := by
  by_cases hcommit : o = .commit
  · subst hcommit
    rcases exec_commit hx with ⟨⟨e, rfl⟩, -⟩ | ⟨-, -, ⟨-, rfl⟩ | ⟨-, rfl⟩⟩
    · cases hq
    · rfl
    · rfl
  · have hdirty : q.dirtyAfter o r = (o.writesWallets || q.dirty) := by
      cases o with
      | commit => exact absurd rfl hcommit
      | _ => rfl
    obtain ⟨hwrites, hclean⟩ := Bool.or_eq_false_iff.mp (hdirty.symm.trans hq)
    rw [(exec_sameWallets hwrites hx).1]
    exact hm.clean hclean u

/-- What a read that was not stale has found is stored. -/
theorem foundWallet_stands {u u' : Nat} {w : Wallet} {r : Except Exn (Option Wallet)}
    (hs : s.Provisioned) (hr : (∃ e, r = .error e) ∨ r = .ok (s.wallets u'))
    (hw : foundWallet u' r = some (u, w)) : s.Stands u w := by
  rcases hr with ⟨e, rfl⟩ | rfl
  · cases hw
  · cases hst : s.wallets u' with
    | none =>
      rw [hst] at hw
      cases hw
    | some w₁ =>
      rw [hst] at hw
      obtain ⟨rfl, rfl⟩ := Prod.mk.inj (Option.some.inj hw)
      exact ⟨⟨w₁, hst, rfl⟩, hs.wallets u' w₁ hst⟩

theorem Provisioning.Means.found_next {r : Except Exn o.Res} (hm : q.Means l s)
    (hs : s.Provisioned) (ho : Onward s s') (hacc : Accounts s s')
    (hx : exec S i o c l s = some (r, l', s')) {u : Nat} {w : Wallet}
    (hw : (q.next o r).found = some (u, w)) : s'.Stands u w := by
  cases o with
  | selectWallet u' =>
    replace hw : (if q.loaded || q.dirty then none else foundWallet u' r) = some (u, w) := hw
    split at hw
    · cases hw
    next hfresh =>
      rw [Bool.or_eq_true, not_or, Bool.not_eq_true, Bool.not_eq_true] at hfresh
      have hread : l.identify s u' = s.wallets u' := by
        simp [Session.identify, Session.wallet, hm.fresh hfresh.1, hm.clean hfresh.2]
      refine (foundWallet_stands hs ?_ hw).moves ho hacc
      rw [← hread]
      exact (exec_selectWallet hx).imp id fun h => h.1
  | loadWallet u' =>
    replace hw : (if q.dirty then none else foundWallet u' r) = some (u, w) := hw
    split at hw
    · cases hw
    next hclean =>
      rw [Bool.not_eq_true] at hclean
      have hread : l.wallet s u' = s.wallets u' := by
        simp [Session.wallet, hm.clean hclean]
      refine (foundWallet_stands hs ?_ hw).moves ho hacc
      rw [← hread]
      exact (exec_loadWallet hx).imp id fun h => h.1
  | _ => exact (hm.found u w hw).moves ho hacc

theorem Provisioning.Means.proposed_next {r : Except Exn o.Res} (hm : q.Means l s)
    (ho : Onward s s') (hx : exec S i o c l s = some (r, l', s')) {u address h : Nat}
    (hp : (q.next o r).proposed = some (u, address, h)) :
    ∃ b : Blob, s'.blobs[h]? = some b ∧ b.tx = .trustSet (.wallet u address) := by
  have hold : q.proposed = some (u, address, h) →
      ∃ b : Blob, s'.blobs[h]? = some b ∧ b.tx = .trustSet (.wallet u address) := by
    intro hq
    obtain ⟨b, hb, htx⟩ := hm.proposed u address h hq
    exact ⟨b, ho.blobs h b hb, htx⟩
  cases o with
  | autofillAndSign purpose tx =>
    cases r with
    | error e => cases tx with
      | payment account destination amount => exact hold hp
      | trustSet account => cases account <;> exact hold hp
    | ok signed => cases tx with
      | payment account destination amount => exact hold hp
      | trustSet account => cases account with
        | treasury => exact hold hp
        | wallet u' a =>
          rcases exec_autofillAndSign hx with ⟨e, he⟩ | ⟨last, hr, hb, -⟩
          · cases he
          · cases hr
            cases hp
            exact ⟨_, hb, rfl⟩
  | _ => exact hold hp

theorem openedBy_eq_some {u address h : Nat} {proposed : Option (Nat × Nat × Nat)}
    (ho : openedBy h proposed = some (u, address)) : proposed = some (u, address, h) := by
  cases proposed with
  | none => cases ho
  | some p =>
    obtain ⟨u', a, k⟩ := p
    replace ho : (if k = h then some (u', a) else none) = some (u, address) := ho
    split at ho
    next hk =>
      cases ho
      rw [hk]
    · cases ho

theorem Provisioning.Means.opened_next {r : Except Exn o.Res} (hm : q.Means l s)
    (hr : s.Regular) (ho : Onward s s') (hx : exec S i o c l s = some (r, l', s'))
    {u address : Nat} (hp : (q.next o r).opened = some (u, address)) : s'.Trusted u address := by
  have hold : q.opened = some (u, address) → s'.Trusted u address :=
    fun hq => (hm.opened u address hq).onward ho
  cases o with
  | outcome h =>
    rcases exec_outcome hx with ⟨e, rfl, -⟩ | ⟨n, code, rfl, hn, -⟩
    · exact hold hp
    · cases code with
      | other name => exact hold hp
      | tesSUCCESS =>
        -- the ledger has taken the TrustSet that was signed last
        obtain ⟨b, hb, htx⟩ := hm.proposed u address h (openedBy_eq_some hp)
        exact World.Trusted.onward (.of_success hr hb htx hn) ho
  | _ => exact hold hp

/-- **ONE CALL**: the world stays provisioned, and the caller knows what it knows. -/
theorem provisioning_call {r : Except Exn o.Res} (hw : s.Orderly) (hs : s.Provisioned)
    (hl : (pricing S).session i l s) (hm : q.Means l s) (ha : q.allows o)
    (hx : exec S i o c l s = some (r, l', s')) : s'.Provisioned ∧ (q.next o r).Means l' s' := by
  have ho := exec_onward hl.1.locked hx
  have hacc := exec_accounts hl.2 hx
  have hinsert : ∀ u w, o = .insertWallet u w → w.trustSetComplete = false := by
    rintro u w rfl
    exact ha
  refine ⟨exec_provisioned hs hl hm.backed (hm.signs ha) hx, ?_⟩
  exact
    { backed := exec_backed hm.backed hs ho (fun u he => hm.sets ha hl he) hinsert hx
      fresh := hm.fresh_next hx
      clean := hm.clean_next hx
      found := fun u w hf => hm.found_next hs ho hacc hx hf
      proposed := fun u address h hp => hm.proposed_next ho hx hp
      opened := fun u address hp => hm.opened_next hw.regular ho hx hp }

/-! ## §6. Every reachable state. -/

theorem provisioning_sound (S : Setting) :
    provisioning.Sound (pricing S) (fun _ => Provisioning.initial) World.Provisioned
      (fun _ q l s => Provisioning.Means q l s) where
  body := body_provisioning S
  spawn := fun e s hw hs =>
    ⟨hs.of_same (((rules_kept S).spawn s e hw).2.2 0).others.onward rfl rfl, .initial e⟩
  call := fun i q o ch l s r l' s' hw hs hl hm ha hx => provisioning_call hw hs hl hm ha hx
  close := fun i s hw hs => by
    have hmoves := ((rules_kept S).close i s hw).2 (i + 1) (Nat.succ_ne_self i)
    exact hs.of_same hmoves.others.onward rfl rfl
  env := fun v s s' hw hs hx => by
    have hmoves := ((rules_kept S).env v s s' hw hx).2 0
    refine hs.of_same hmoves.others.onward ?_ ?_
    · rw [(env_eq hx).1]
    · rw [(env_eq hx).1]

/-- **ACCOUNTS ARE OPENED BEFORE THEY ARE PAID**, in every reachable state. -/
theorem provisioned_reach {w : World} (hw : w.Orderly) (hp : w.Provisioned)
    {k : Config (platform S)} (h : Reach (M := platform S) w k) : k.world.Provisioned :=
  ((provisioning_sound S).reach (pricing_kept S)
    (fun _ _ _ _ _ _ hm hmoves => hm.moves hmoves.1.others.onward hmoves.2) hw hp h).world

theorem World.Provisioned.initial (clock validated : Nat) (held : Nat → Bool) :
    (World.initial clock validated held).Provisioned where
  wallets := fun _ _ h => by cases h
  payments := fun _ _ h => by cases h

end Orbyt
