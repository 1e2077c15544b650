/-
  Orbyt.Recovery.Alone — one session that is left alone

  Where nothing else is in flight, a session neither waits for a lock nor finds its copies
  stale: its statements act on one plain state, `View`, the rows as it sees them with the broker,
  the Redis lock and the ledger.  `LeftAlone` relates the two, and each call has one rule that
  says what it makes of the view.

  Main results:
    * one rule a call: `LeftAlone.read`, `LeftAlone.updateTxn`, `LeftAlone.commit`, ..;
    * `LeftAlone.closeLedger` — a ledger closes with what was handed over in it;
    * `request_alone` — with nothing in flight, what a request makes of its view it makes of
      the platform.
-/
import Orbyt.Lib.Prospect
import Orbyt.Rules.Statements

namespace Orbyt

open Interleave
open Interleave.Prog
open ValidatedLedger
open Function (update)

variable {S : Setting} {i n now : Nat} {o : Op} {l l' : Session} {s s' : World} {e : Entry}
  {α : Type}

/-! ## §1. What a session sees. -/

/-- The rows as one session sees them, and the outside. -/
structure View where
  txns : Nat → Option Txn
  reqs : Nat → Option CashOutRequest
  wallets : Nat → Option Wallet
  nextId : Nat
  queue : List Message
  treasury : Option (Nat × Nat)
  ledger : Ledger TxCode
  blobs : List Blob
  handed : Nat → Bool
  malformed : Nat → Bool
  /-- Nothing is written that is not stored. -/
  stored : Bool
  walletsStored : Bool
  /-- The ledger has been consulted. -/
  looked : Bool

def World.view (s : World) : View where
  txns := s.txns
  reqs := s.reqs
  wallets := s.wallets
  nextId := s.nextId
  queue := s.queue
  treasury := s.treasury
  ledger := s.ledger
  blobs := s.blobs
  handed := s.handed
  malformed := s.malformed
  stored := true
  walletsStored := true
  looked := false

/-- Nothing has been heard of a transaction that is yet to be signed. -/
def View.Fresh (v : View) : Prop :=
  ∀ h, v.blobs.length ≤ h → v.ledger.included h = none ∧ v.malformed h = false

/-- Session `i` of `e` is alone, sees `v` at `now`, and has time for `n` more calls. -/
structure LeftAlone (S : Setting) (i : Nat) (e : Entry) (n : Nat) (v : View) (now : Nat)
    (l : Session) (s : World) : Prop where
  entry : l.entry = e
  unfailed : l.failed = false
  budget : n * S.minTick ≤ jobTimeout
  time : ∀ T, l.claimedAt = some T → now + n * S.minTick ≤ T + jobTimeout
  txnLock : ∀ t, freeFor s.txnLock i t = true
  reqLock : ∀ r, freeFor s.reqLock i r = true
  walletLock : ∀ u, freeFor s.walletLock i u = true
  clock : s.clock = now
  txns : l.txn s = v.txns
  reqs : l.req s = v.reqs
  wallets : l.wallet s = v.wallets
  copies : ∀ u w, l.walletCopy u = some w → v.wallets u = some w
  stored : v.stored = true → (∀ t, l.txnWrites t = none) ∧ ∀ r, l.reqWrites r = none
  walletsStored : v.walletsStored = true → ∀ u, l.walletWrites u = none
  nextId : s.nextId = v.nextId
  queue : s.queue = v.queue
  treasury : s.treasury = v.treasury
  ledger : s.ledger = v.ledger
  blobs : s.blobs = v.blobs
  handed : s.handed = v.handed
  malformed : s.malformed = v.malformed
  looked : l.view = none ∨ (v.looked = true ∧ l.view = some v.ledger)
  fresh : v.Fresh
  ids : ∀ r q, v.reqs r = some q → r < v.nextId

variable {v v' : View}

/-- The call answers, as soon as it can. -/
def promptly (a : Value) : Choice := ⟨0, .returns, a⟩

/-- Calls are answered, and take no effect that is not reported. -/
def Choice.answers (c : Choice) : Prop := c.mode = .returns

theorem LeftAlone.tick (h : LeftAlone S i e (n + 1) v now l s) (a : Value) :
    LeftAlone S i e n v (now + S.minTick) l (s.tick S (promptly a)) := by
  have hmul : (n + 1) * S.minTick = n * S.minTick + S.minTick := Nat.succ_mul n S.minTick
  have hbudget := h.budget
  exact
    { h with
      budget := by omega
      time := fun T hT => by
        have ht := h.time T hT
        omega
      clock := by
        show s.clock + S.minTick + 0 = now + S.minTick
        rw [h.clock, Nat.add_zero] }

theorem LeftAlone.consulted (h : LeftAlone S i e n v now l s) : l.consulted s = v.ledger := by
  unfold Session.consulted
  rcases h.looked with hn | ⟨-, hl⟩
  · rw [hn]
    exact h.ledger
  · rw [hl]
    rfl

theorem LeftAlone.identify (h : LeftAlone S i e n v now l s) (u : Nat) :
    l.identify s u = v.wallets u := by
  unfold Session.identify
  cases hc : l.walletCopy u with
  | none => exact congrFun h.wallets u
  | some w => exact (h.copies u w hc).symm

/-- No call comes too late. -/
theorem LeftAlone.punctual (h : LeftAlone S i e n v now l s) :
    (!S.punctual || l.claimedAt.all fun T => decide (s.clock ≤ T + jobTimeout)) = true := by
  cases hc : l.claimedAt with
  | none => simp
  | some T =>
    have ht := h.time T hc
    have hclock := h.clock
    simp only [Option.all_some, Bool.or_eq_true, decide_eq_true_eq]
    right
    omega

/-! ## §2. One call. -/

/-- What restricts runs has nothing to say of most calls. -/
def Op.unrestricted : Op → Bool
  | .lockWallet _ | .updateReq _ _ _ | .updateTxn _ _ _ => false
  | _ => true

theorem LeftAlone.permitted (h : LeftAlone S i e n v now l s) (ho : o.unrestricted = true) :
    permitted S l s o = true := by
  unfold Orbyt.permitted
  rw [h.punctual]
  cases o <;> first | rfl | cases ho

/-- At `now`, the call answers `b` to session `i` of `e` and takes its view from `v` to `v'`. -/
def Does (S : Setting) (i : Nat) (e : Entry) (now : Nat) (o : Op) (b : o.Res) (v v' : View) :
    Prop :=
  ∃ a, ∀ n l s, LeftAlone S i e n v now l s → permitted S l s o = true ∧
    ∃ l' s', perform S i l s a o = some (.ok b, l', s') ∧ LeftAlone S i e n v' now l' s'

theorem Does.exec {b : o.Res} (hd : Does S i e now o b v v') :
    ∃ a, ∀ n l s, LeftAlone S i e n v now l (s.tick S (promptly a)) →
      ∃ l' s', exec S i o (promptly a) l s = some (.ok b, l', s') ∧
        LeftAlone S i e n v' now l' s' := by
  obtain ⟨a, hd⟩ := hd
  refine ⟨a, fun n l s hl => ?_⟩
  obtain ⟨hp, l', s', hx, hl'⟩ := hd n l _ hl
  refine ⟨l', s', ?_, hl'⟩
  unfold Orbyt.exec
  rw [if_pos hp]
  show (if l.failed && o.isStatement then none else perform S i l (s.tick S (promptly a)) a o) = _
  rw [hl.unfailed]
  exact hx

theorem does_of {b : o.Res} (a : Value) (ho : o.unrestricted = true)
    (h : ∀ n l s, LeftAlone S i e n v now l s →
      ∃ l' s', perform S i l s a o = some (.ok b, l', s') ∧ LeftAlone S i e n v' now l' s') :
    Does S i e now o b v v' :=
  ⟨a, fun n l s hl => ⟨hl.permitted ho, h n l s hl⟩⟩

/-- A call that changes nothing. -/
theorem does_read {b : o.Res} (a : Value) (ho : o.unrestricted = true)
    (h : ∀ n l s, LeftAlone S i e n v now l s → perform S i l s a o = some (.ok b, l, s)) :
    Does S i e now o b v v :=
  does_of a ho fun n l s hl => ⟨l, s, h n l s hl, hl⟩

/-! ### Reading. -/

theorem does_now : Does S i e now .now now v v :=
  does_read .unit rfl fun _ _ _ h => by simp only [perform, h.clock]

theorem does_selectTxn {t : Nat} : Does S i e now (.selectTxn t) (v.txns t) v v :=
  does_read .unit rfl fun _ _ _ h => by simp only [perform, h.txns]

theorem does_selectReq {r : Nat} : Does S i e now (.selectReq r) (v.reqs r) v v :=
  does_read .unit rfl fun _ _ _ h => by simp only [perform, h.reqs]

theorem does_getUser {u : Nat} : Does S i e now (.getUser u) (S.registered u) v v :=
  does_read .unit rfl fun _ _ _ _ => rfl

theorem does_refresh : Does S i e now .refresh () v v := does_read .unit rfl fun _ _ _ _ => rfl

theorem does_loadSigner : Does S i e now .loadSigner () v v :=
  does_read .unit rfl fun _ _ _ _ => rfl

theorem does_latestValidated : Does S i e now .latestValidated v.ledger.validated v v :=
  does_read .unit rfl fun _ _ _ h => by simp only [perform, h.consulted]

theorem does_faucet (address : Nat) : Does S i e now .faucet address v v :=
  does_read (.nat address) rfl fun _ _ _ _ => rfl

theorem does_outcome {h k : Nat} {c : TxCode} (hi : v.ledger.included h = some (k, c)) :
    Does S i e now (.outcome h) c v v :=
  does_read .unit rfl fun _ _ _ hl => by simp only [perform, hl.ledger, hi]

theorem does_completeRange {low high : Nat} (hh : v.ledger.holds low high) :
    Does S i e now (.completeRange low high) true v v := by
  refine does_read (.flag true) rfl fun n l s hl => perform_completeRange.mpr ?_
  rw [hl.consulted]
  exact hh

/-- The rows that a SELECT finds. -/
theorem does_selectReqs {cond : CashOutRequest → Bool} :
    Does S i e now (.selectReqs cond)
      ((List.range v.nextId).filter fun r => (v.reqs r).any cond) v v :=
  does_read .unit rfl fun _ _ _ h => by simp only [perform, h.nextId, h.reqs]

/-! ### The session itself. -/

theorem does_setSignedHash {h : Nat} : Does S i e now (.setSignedHash h) () v v :=
  does_of .unit rfl fun _ l s hl => ⟨{ l with signedHash := some h }, s, rfl, { hl with }⟩

/-- Loading a wallet makes a copy of what is seen. -/
theorem LeftAlone.load (h : LeftAlone S i e n v now l s) (u : Nat) :
    LeftAlone S i e n v now { l with walletCopy := update l.walletCopy u (v.wallets u) } s where
  __ := h
  copies := fun u' w hw => by
    by_cases hu : u' = u
    · subst hu
      exact (Function.update_self u' (v.wallets u') l.walletCopy).symm.trans hw
    · exact h.copies u' w ((Function.update_of_ne hu (v.wallets u) l.walletCopy).symm.trans hw)

theorem does_selectWallet {u : Nat} : Does S i e now (.selectWallet u) (v.wallets u) v v :=
  does_of .unit rfl fun _ l s h =>
    ⟨_, s, by simp only [perform, h.identify], h.load u⟩

theorem does_loadWallet {u : Nat} : Does S i e now (.loadWallet u) (v.wallets u) v v :=
  does_of .unit rfl fun _ l s h =>
    ⟨_, s, by simp only [perform, h.wallets], h.load u⟩

/-- A lock taken by the session is free for it. -/
theorem freeFor_update {lock : Nat → Option Nat} {k : Nat} (h : ∀ k, freeFor lock i k = true)
    (k' : Nat) : freeFor (update lock k (some i)) i k' = true := by
  by_cases hk : k' = k
  · subst hk
    simp [freeFor]
  · have hfree := h k'
    unfold freeFor at hfree ⊢
    rw [Function.update_of_ne hk]
    exact hfree

theorem does_lockWallet {u : Nat} (hs : v.walletsStored = true) :
    Does S i e now (.lockWallet u) (v.wallets u) v v := by
  refine ⟨.unit, fun n l s h => ⟨?_, ?_⟩⟩
  · -- a copy that agrees with the stored row is not stale
    have hfresh : l.freshCopy s u = true := by
      unfold Session.freshCopy
      cases hc : l.walletCopy u with
      | none => rfl
      | some w =>
        have hseen : l.wallet s u = some w := (congrFun h.wallets u).trans (h.copies u w hc)
        unfold Session.wallet at hseen
        rw [h.walletsStored hs u, Option.none_or] at hseen
        simp [hseen]
    unfold permitted
    rw [h.punctual]
    show (!S.freshLock || l.freshCopy s u) = true
    rw [hfresh, Bool.or_true]
  · cases hw : v.wallets u with
    | none =>
      refine ⟨l, s, ?_, h⟩
      simp only [perform, h.wallets, hw, Option.isNone_none, if_true]
    | some w =>
      have hload := h.load u
      rw [hw] at hload
      refine ⟨_, { s with walletLock := update s.walletLock u (some i) }, ?_,
        { hload with walletLock := freeFor_update h.walletLock }⟩
      simp only [perform, h.wallets, h.identify, hw, h.walletLock u, Option.isNone_some, if_true]
      rfl

/-! ### Writing. -/

/-- A write goes before the stored rows. -/
theorem written_eq {β : Type} {writes rows seen : Nat → Option β} {k : Nat} {x : β}
    (h : (fun j => (writes j).or (rows j)) = seen) :
    (fun j => (update writes k (some x) j).or (rows j)) = update seen k (some x) := by
  subst h
  funext j
  by_cases hj : j = k
  · subst hj
    rw [Function.update_self, Function.update_self, Option.some_or]
  · rw [Function.update_of_ne hj, Function.update_of_ne hj]

/-- A claim has `jobTimeout` from now on. -/
theorem LeftAlone.claim_time (h : LeftAlone S i e n v now l s) {p : Prop} [Decidable p] {T : Nat}
    (hT : (if p then some now else l.claimedAt) = some T) :
    now + n * S.minTick ≤ T + jobTimeout := by
  have hbudget := h.budget
  split at hT
  · obtain rfl : now = T := Option.some.inj hT
    omega
  · exact h.time T hT

theorem LeftAlone.writeTxn {t : Nat} {x : Option Txn} {x' : Txn}
    (h : LeftAlone S i e n v now l s) :
    LeftAlone S i e n { v with txns := update v.txns t (some x'), stored := false } now
      (l.writeTxn now t x x') { s with txnLock := update s.txnLock t (some i) } where
  __ := h
  time := fun _ hT => h.claim_time hT
  txnLock := freeFor_update h.txnLock
  txns := written_eq h.txns
  stored := nofun

theorem LeftAlone.writeReq {r : Nat} {q q' : CashOutRequest} (h : LeftAlone S i e n v now l s)
    (hq : v.reqs r = some q) :
    LeftAlone S i e n { v with reqs := update v.reqs r (some q'), stored := false } now
      (l.writeReq now r (some q) q') { s with reqLock := update s.reqLock r (some i) } where
  __ := h
  time := fun _ hT => h.claim_time hT
  reqLock := freeFor_update h.reqLock
  reqs := written_eq h.reqs
  stored := nofun
  ids := fun r' q₁ hq₁ => by
    by_cases hr : r' = r
    · subst hr
      exact h.ids r' q hq
    · exact h.ids r' q₁ ((Function.update_of_ne hr _ v.reqs).symm.trans hq₁)

/-- A row of the wallets is written, and so is the copy of it. -/
theorem LeftAlone.writeWallet {u : Nat} {w' : Wallet}
    (h : LeftAlone S i e n v now l s) (copy : Option Wallet)
    (hcopy : ∀ w₁, copy = some w₁ → w₁ = w') (moves : List Move) :
    LeftAlone S i e n
      { v with wallets := update v.wallets u (some w'), stored := false, walletsStored := false }
      now
      { l with
        walletCopy := update l.walletCopy u copy
        walletWrites := update l.walletWrites u (some w')
        moves := moves }
      { s with walletLock := update s.walletLock u (some i) } where
  __ := h
  walletLock := freeFor_update h.walletLock
  stored := nofun
  walletsStored := nofun
  wallets := written_eq h.wallets
  copies := fun u' w₁ hw => by
    show update v.wallets u (some w') u' = some w₁
    have hw' : update l.walletCopy u copy u' = some w₁ := hw
    by_cases hu : u' = u
    · subst hu
      rw [Function.update_self] at hw' ⊢
      rw [hcopy w₁ hw']
    · rw [Function.update_of_ne hu] at hw' ⊢
      exact h.copies u' w₁ hw'

/-- An UPDATE changes the copy that a session holds of a wallet as it changes the row. -/
theorem LeftAlone.changeWallet {u : Nat} {w : Wallet} (h : LeftAlone S i e n v now l s)
    (hw : v.wallets u = some w) (f : Wallet → Wallet) (moves : List Move) :
    LeftAlone S i e n
      { v with wallets := update v.wallets u (some (f w)), stored := false, walletsStored := false }
      now
      { l with
        walletCopy := update l.walletCopy u ((l.walletCopy u).map f)
        walletWrites := update l.walletWrites u (some (f w))
        moves := moves }
      { s with walletLock := update s.walletLock u (some i) } := by
  refine h.writeWallet ((l.walletCopy u).map f) (fun w₁ hw₁ => ?_) moves
  obtain ⟨w₂, hcopy, rfl⟩ := Option.map_eq_some_iff.mp hw₁
  obtain rfl : w₂ = w := Option.some.inj ((h.copies u w₂ hcopy).symm.trans hw)
  rfl

/-- The UPDATE of a row that matches; a retry completes a row with the hash that it carries. -/
theorem does_updateTxn {t : Nat} {x : Txn} {cond : Txn → Bool} {values : Nat → Txn → Txn}
    (hx : v.txns t = some x) (hc : cond x = true)
    (hsame : e.isSettlementRetry = true → (values now x).settlementStatus = .completed →
      (values now x).xrplTxHash = x.xrplTxHash) :
    Does S i e now (.updateTxn t cond values) true v
      { v with txns := update v.txns t (some (values now x)), stored := false } := by
  refine ⟨.unit, fun n l s h => ⟨?_, _, _, ?_, h.writeTxn (x := some x)⟩⟩
  · unfold permitted
    rw [h.punctual]
    show (!S.sameHashReconcile || !l.entry.isSettlementRetry || _) = true
    rw [h.entry, h.txns, h.clock, hx]
    cases he : e.isSettlementRetry with
    | false => simp
    | true =>
      have hhash := hsame he
      by_cases hst : (values now x).settlementStatus = .completed
      · simp [hhash hst]
      · simp [hst]
  · have hread : l.txn s t = some x := by rw [h.txns, hx]
    simp only [perform, hread, hc, h.txnLock t, h.clock, if_true]

theorem does_updateReq {r : Nat} {q : CashOutRequest} {cond : CashOutRequest → Bool}
    {values : Nat → CashOutRequest → CashOutRequest} (hq : v.reqs r = some q)
    (hc : cond q = true) (he : e.isApprove = false) :
    Does S i e now (.updateReq r cond values) true v
      { v with reqs := update v.reqs r (some (values now q)), stored := false } := by
  refine ⟨.unit, fun n l s h => ⟨?_, _, _, ?_, h.writeReq hq⟩⟩
  · unfold permitted
    rw [h.punctual]
    show (!S.quietPublishFailure || !l.entry.isApprove || _) = true
    rw [h.entry, he]
    simp
  · have hread : l.req s r = some q := by rw [h.reqs, hq]
    simp only [perform, hread, hc, h.reqLock r, h.clock, if_true]

theorem does_setBalance {u : Nat} {w : Wallet} {balance : Int} {move : Move}
    (hw : v.wallets u = some w) :
    Does S i e now (.setBalance u balance move) () v
      { v with
        wallets := update v.wallets u (some { w with balanceUctusd := balance })
        stored := false, walletsStored := false } := by
  refine does_of .unit rfl fun n l s h => ?_
  have hread : l.wallet s u = some w := by rw [h.wallets, hw]
  refine ⟨_, _, ?_, h.changeWallet hw ({ · with balanceUctusd := balance }) (move :: l.moves)⟩
  simp only [perform, hread, h.walletLock u, if_true]

theorem does_setTrustLine {u : Nat} {w : Wallet} (hw : v.wallets u = some w) :
    Does S i e now (.setTrustLine u) () v
      { v with
        wallets := update v.wallets u (some { w with trustSetComplete := true })
        stored := false, walletsStored := false } := by
  refine does_of .unit rfl fun n l s h => ?_
  have hread : l.wallet s u = some w := by rw [h.wallets, hw]
  refine ⟨_, _, ?_, h.changeWallet hw ({ · with trustSetComplete := true }) l.moves⟩
  simp only [perform, hread, h.walletLock u, if_true]

theorem does_insertWallet {u : Nat} {w : Wallet} (hw : v.wallets u = none) :
    Does S i e now (.insertWallet u w) () v
      { v with
        wallets := update v.wallets u (some w)
        stored := false, walletsStored := false } := by
  refine does_of .unit rfl fun n l s h => ?_
  have hread : l.wallet s u = none := by rw [h.wallets, hw]
  refine ⟨_, _, ?_, h.writeWallet (some w) (fun _ hw₁ => (Option.some.inj hw₁).symm) l.moves⟩
  simp only [perform, hread, h.walletLock u, Option.isNone_none, Bool.and_self, if_true]

/-- COMMIT stores what is seen. -/
theorem does_commit :
    Does S i e now .commit () v { v with stored := true, walletsStored := true } := by
  refine does_of .unit rfl fun n l s h => ⟨_, _, rfl, ?_⟩
  have hrelease : ∀ {lock : Nat → Option Nat}, (∀ k, freeFor lock i k = true) →
      ∀ k, freeFor (release lock i) i k = true := by
    intro lock hfree k
    rcases freeFor_iff.mp (hfree k) with hn | hs
    · simp [freeFor, release, hn]
    · simp [freeFor, release, hs]
  exact
    { h with
      txnLock := hrelease h.txnLock
      reqLock := hrelease h.reqLock
      walletLock := hrelease h.walletLock
      txns := h.txns
      reqs := h.reqs
      wallets := h.wallets
      stored := fun _ => ⟨fun _ => rfl, fun _ => rfl⟩
      walletsStored := fun _ _ => rfl }

/-! ### The outside. -/

theorem does_enqueue {m : Message} :
    Does S i e now (.enqueue m) () v { v with queue := m :: v.queue } :=
  does_of .unit rfl fun _ l _ h => ⟨l, _, rfl, { h with queue := congrArg (m :: ·) h.queue }⟩

/-- The Redis lock is free, or has expired. -/
def View.treasuryFree (v : View) (now : Nat) : Bool :=
  v.treasury.all fun (_, expiry) => decide (expiry ≤ now)

/-- It stays free while nobody takes it. -/
theorem treasuryFree_later {now' : Nat} (h : v.treasuryFree now = true)
    (ht : v'.treasury = v.treasury) (hle : now ≤ now') : v'.treasuryFree now' = true := by
  unfold View.treasuryFree at h ⊢
  rw [ht]
  cases hv : v.treasury with
  | none => rfl
  | some p =>
    rw [hv] at h
    have hp := of_decide_eq_true (show decide (p.2 ≤ now) = true from h)
    exact decide_eq_true (by omega)

theorem does_acquireTreasury (hfree : v.treasuryFree now = true) :
    Does S i e now .acquireTreasury () v
      { v with treasury := some (i, now + treasuryLockTimeout) } := by
  refine does_of .unit rfl fun n l s h =>
    ⟨l, { s with treasury := some (i, s.clock + treasuryLockTimeout) }, ?_,
      { h with treasury := by rw [h.clock] }⟩
  simp only [perform, h.treasury, h.clock]
  exact if_pos hfree

theorem does_releaseTreasury {expiry : Nat} (ht : v.treasury = some (i, expiry))
    (hlt : now < expiry) : Does S i e now .releaseTreasury () v { v with treasury := none } := by
  refine does_of .unit rfl fun n l s h =>
    ⟨l, { s with treasury := none }, ?_, { h with treasury := rfl }⟩
  simp only [perform, h.treasury, h.clock, ht]
  exact if_pos (by simp [hlt])

/-- The signature of session `i`. -/
def View.blobOf (v : View) (i now : Nat) (purpose : Purpose) (tx : XRPLTransaction) (last : Nat) :
    Blob :=
  ⟨purpose, i, some last, v.ledger.validated, now, tx⟩

theorem does_autofillAndSign {purpose : Purpose} {tx : XRPLTransaction} (last : Nat) :
    Does S i e now (.autofillAndSign purpose tx) ⟨v.blobs.length, some last, none⟩ v
      { v with blobs := v.blobs ++ [v.blobOf i now purpose tx last] } := by
  refine does_of (.lastLedger (some last)) rfl fun n l s h =>
    ⟨l, { s with blobs := s.blobs ++ [⟨purpose, i, some last, s.ledger.validated, s.clock, tx⟩] },
      ?_,
      { h with
        blobs := by rw [h.blobs, h.ledger, h.clock]; rfl
        fresh := fun k hk => h.fresh k ?_ }⟩
  · simp only [perform, Option.isNone_some, Bool.and_false, h.blobs]
    exact if_neg Bool.false_ne_true
  · have hlen : (v.blobs ++ [v.blobOf i now purpose tx last]).length ≤ k := hk
    rw [List.length_append] at hlen
    omega

theorem does_handOver {purpose : Purpose} {h : Nat} {b : Blob} (hb : v.blobs[h]? = some b)
    (hpurpose : b.purpose = purpose) (hsigner : b.signer = i) :
    Does S i e now (.handOver purpose h) () v { v with handed := update v.handed h true } := by
  refine does_of .unit rfl fun n l s hl =>
    ⟨l, { s with handed := update s.handed h true }, ?_, { hl with handed := by rw [hl.handed] }⟩
  simp only [perform, hl.blobs, hb, Option.any_some, hpurpose, hsigner, and_self, decide_true,
    if_true]

theorem does_lookup {h : Nat} :
    Does S i e now (.lookup h) (v.ledger.lookup h) v { v with looked := true } := by
  refine does_of .unit rfl fun n l s hl =>
    ⟨{ l with view := if S.oneLedgerView then some (l.consulted s) else none }, s, ?_,
      { hl with looked := ?_ }⟩
  · simp only [perform, hl.consulted]
  · by_cases hv : S.oneLedgerView = true
    · exact .inr ⟨rfl, by show (if _ then _ else _) = _; rw [if_pos hv, hl.consulted]⟩
    · exact .inl (if_neg hv)

/-- The next ledger closes with one transaction in it. -/
def View.close (v : View) (h : Nat) (code : TxCode) : View :=
  { v with ledger :=
    { validated := v.ledger.validated + 1
      included := fun k => (v.ledger.included k).or
        (([(h, code)].lookup k).map fun code => (v.ledger.validated + 1, code))
      held := v.ledger.held } }

theorem View.close_included (v : View) {h : Nat} (code : TxCode) (hn : v.ledger.included h = none) :
    (v.close h code).ledger.included h = some (v.ledger.validated + 1, code) := by
  show (v.ledger.included h).or _ = _
  rw [hn, Option.none_or]
  simp

/-- **A LEDGER CLOSES** with what was handed over in it. -/
theorem LeftAlone.closeLedger {h : Nat} {b : Blob} (hl : LeftAlone S i e n v now l s)
    (code : TxCode) (hlooked : v.looked = false) (hb : v.blobs[h]? = some b)
    (hh : v.handed h = true)
    (hm : v.malformed h = false) (hn : v.ledger.included h = none)
    (ha : b.window.admits (v.ledger.validated + 1)) :
    ∃ s', World.env (.closeLedger [(h, code)]) s = some s' ∧
      LeftAlone S i e n (v.close h code) now l s' := by
  have hincludable : s.includable h = true := by
    unfold World.includable
    rw [hl.handed, hl.malformed, hl.ledger, hl.blobs, hh, hm, hn, hb]
    simp [ha]
  refine ⟨_, if_pos (by simp [hincludable]),
    { hl with ledger := ?_, looked := ?_, fresh := fun k hk => ⟨?_, (hl.fresh k hk).2⟩ }⟩
  · show ({ .. } : Ledger TxCode) = _
    rw [hl.ledger]
    rfl
  · refine .inl (hl.looked.resolve_right fun hv => ?_)
    rw [hlooked] at hv
    exact Bool.false_ne_true hv.1
  · -- only what is signed is included
    have hlt : h < v.blobs.length := (List.getElem?_eq_some_iff.mp hb).1
    have hne : k ≠ h := fun he => absurd hk (by rw [he]; exact Nat.not_le_of_lt hlt)
    show (v.ledger.included k).or _ = none
    rw [(hl.fresh k hk).1, Option.none_or]
    simp [hne]

/-! ## §3. Programs. -/

/-- With time for `n` calls, session `i` of `e` can take `v` at `now` to an end in `Q`. -/
def Brings (S : Setting) (i : Nat) (e : Entry) (n : Nat) (p : Program α) (v : View) (now : Nat)
    (Q : Except Exn α → Nat → View → Nat → Prop) : Prop :=
  ∀ l s, LeftAlone S i e n v now l s → Can (M := platform S) Choice.answers i
    (fun r l' s' => ∃ n' v' now', LeftAlone S i e n' v' now' l' s' ∧ Q r n' v' now') p l s

section Programs

variable {β : Type} {p : Program α} {f : α → Program β}
  {Q Q' : Except Exn α → Nat → View → Nat → Prop} {R : Except Exn β → Nat → View → Nat → Prop}

theorem brings_ret {a : α} (h : Q (.ok a) n v now) : Brings S i e n (.ret a) v now Q :=
  fun _ _ hl => .ret ⟨n, v, now, hl, h⟩

theorem brings_raise {exc : Exn} (h : Q (.error exc) n v now) :
    Brings S i e n (.raise exc) v now Q :=
  fun _ _ hl => .raise ⟨n, v, now, hl, h⟩

theorem Brings.mono (h : Brings S i e n p v now Q)
    (hQ : ∀ r n' v' now', Q r n' v' now' → Q' r n' v' now') : Brings S i e n p v now Q' :=
  fun l s hl => (h l s hl).mono fun r _ _ hq => by
    obtain ⟨n', v', now', hl', hq⟩ := hq
    exact ⟨n', v', now', hl', hQ r n' v' now' hq⟩

theorem Brings.bind (h : Brings S i e n p v now fun r n' v' now' => match r with
    | .ok a => Brings S i e n' (f a) v' now' R
    | .error exc => R (.error exc) n' v' now') :
    Brings S i e n (Prog.bind p f) v now R := fun l s hl => by
  refine Can.bind (M := platform S) ((h l s hl).mono fun r l' s' hr => ?_)
  obtain ⟨n', v', now', hl', hr⟩ := hr
  cases r with
  | ok a => exact hr l' s' hl'
  | error exc => exact ⟨n', v', now', hl', hr⟩

/-- What an attempt comes to is a value. -/
theorem Brings.attempt {Q : Except Exn (Except Exn α) → Nat → View → Nat → Prop}
    (h : Brings S i e n p v now fun r => Q (.ok r)) : Brings S i e n (Prog.attempt p) v now Q :=
  fun l s hl => Can.attempt (M := platform S) (h l s hl)

/-- A call, then the rest. -/
theorem brings_call {f : o.Res → Program β} {b : o.Res}
    (hd : Does S i e (now + S.minTick) o b v v')
    (h : Brings S i e n (f b) v' (now + S.minTick) R) :
    Brings S i e (n + 1) (Prog.bind (call o) f) v now R := fun l s hl => by
  obtain ⟨a, ha⟩ := hd.exec
  obtain ⟨l', s', hx, hl'⟩ := ha n l s (hl.tick a)
  exact Can.call_bind (M := platform S) (c := promptly a) rfl hx (h l' s' hl')

/-- A call on its own. -/
theorem brings_last {b : o.Res} {Q : Except Exn o.Res → Nat → View → Nat → Prop}
    (hd : Does S i e (now + S.minTick) o b v v') (h : Q (.ok b) n v' (now + S.minTick)) :
    Brings S i e (n + 1) (call o) v now Q := by
  have hcall : Prog.bind (call o) (fun b => .ret b) = (call o : Program o.Res) := by
    unfold call Prog.call
    rw [op_bind]
    congr 1
    funext r
    cases r <;> rfl
  rw [← hcall]
  exact brings_call hd (brings_ret h)

/-- The ledger closes in between. -/
theorem brings_close {h : Nat} {b : Blob} (code : TxCode) (hlooked : v.looked = false)
    (hb : v.blobs[h]? = some b) (hh : v.handed h = true) (hm : v.malformed h = false)
    (hn : v.ledger.included h = none) (ha : b.window.admits (v.ledger.validated + 1))
    (hp : Brings S i e n p (v.close h code) now Q) : Brings S i e n p v now Q := fun l s hl => by
  obtain ⟨s', hx, hl'⟩ := hl.closeLedger code hlooked hb hh hm hn ha
  exact .env (M := platform S) (v := .closeLedger [(h, code)]) hx (hp l s' hl')

end Programs

/-! ## §4. One request. -/

/-- Nothing is locked, and nothing is known of what is yet to be signed. -/
structure Still (s : World) : Prop where
  txnLock : ∀ t, s.txnLock t = none
  reqLock : ∀ r, s.reqLock r = none
  walletLock : ∀ u, s.walletLock u = none
  fresh : s.view.Fresh
  ids : ∀ r q, s.reqs r = some q → r < s.nextId

theorem Still.start (hs : Still s) (e : Entry) (hn : n * S.minTick ≤ jobTimeout) :
    LeftAlone S i e n s.view s.clock (Session.start e) { s with nextTid := s.nextTid + 1 } where
  entry := rfl
  unfailed := rfl
  budget := hn
  time := nofun
  txnLock := fun t => by show freeFor s.txnLock i t = true; simp [freeFor, hs.txnLock t]
  reqLock := fun r => by show freeFor s.reqLock i r = true; simp [freeFor, hs.reqLock r]
  walletLock := fun u => by show freeFor s.walletLock i u = true; simp [freeFor, hs.walletLock u]
  clock := rfl
  txns := rfl
  reqs := rfl
  wallets := rfl
  copies := nofun
  stored := fun _ => ⟨fun _ => rfl, fun _ => rfl⟩
  walletsStored := fun _ _ => rfl
  nextId := rfl
  queue := rfl
  treasury := rfl
  ledger := rfl
  blobs := rfl
  handed := rfl
  malformed := rfl
  looked := .inl rfl
  fresh := hs.fresh
  ids := hs.ids

/-- What is left of a view when its session is over. -/
def View.settled (v : View) : View :=
  { v with stored := true, walletsStored := true, looked := false }

theorem LeftAlone.close (h : LeftAlone S i e n v now l s) (hs : v.stored = true)
    (hw : v.walletsStored = true) :
    Still (s.releaseAll i) ∧ (s.releaseAll i).view = v.settled ∧ (s.releaseAll i).clock = now := by
  have hfree : ∀ {lock : Nat → Option Nat} {k : Nat}, freeFor lock i k = true →
      release lock i k = none := by
    intro lock k hk
    rcases freeFor_iff.mp hk with hn | hi
    · simp [release, hn]
    · simp [release, hi]
  -- nothing is pending, so that what the session sees is what is stored
  have htxns : s.txns = v.txns := by
    rw [← h.txns]
    funext t
    show _ = (l.txnWrites t).or (s.txns t)
    rw [(h.stored hs).1 t, Option.none_or]
  have hreqs : s.reqs = v.reqs := by
    rw [← h.reqs]
    funext r
    show _ = (l.reqWrites r).or (s.reqs r)
    rw [(h.stored hs).2 r, Option.none_or]
  have hwallets : s.wallets = v.wallets := by
    rw [← h.wallets]
    funext u
    show _ = (l.walletWrites u).or (s.wallets u)
    rw [h.walletsStored hw u, Option.none_or]
  have hview : (s.releaseAll i).view = v.settled := by
    show (⟨s.txns, s.reqs, s.wallets, s.nextId, s.queue, s.treasury, s.ledger, s.blobs, s.handed,
      s.malformed, true, true, false⟩ : View) = _
    rw [htxns, hreqs, hwallets, h.nextId, h.queue, h.treasury, h.ledger, h.blobs, h.handed,
      h.malformed]
    rfl
  refine ⟨⟨fun t => hfree (h.txnLock t), fun r => hfree (h.reqLock r),
    fun u => hfree (h.walletLock u), ?_, fun r q hq => ?_⟩, hview, h.clock⟩
  · rw [hview]
    exact h.fresh
  · show r < s.nextId
    rw [h.nextId]
    exact h.ids r q (hreqs ▸ hq)

variable {ok : Config (platform S) → Label (platform S) → Prop} {k : Config (platform S)}

/-- **ONE REQUEST** with nothing in flight: what it makes of its view it makes of the platform. -/
theorem request_alone {Q : Except Exn Unit → View → Nat → Prop}
    (ha : Grants ok Choice.answers) (hidle : Idle k) (hok : ok k (.start e))
    (hp : Can (M := platform S) Choice.answers k.world.nextTid
      (fun r l' s' => ∃ n' v' now', LeftAlone S k.world.nextTid e n' v' now' l' s' ∧
        (v'.stored = true ∧ v'.walletsStored = true) ∧ Q r v' now')
      (body S e) (Session.start e) { k.world with nextTid := k.world.nextTid + 1 }) :
    ∃ k' r v', Course ok k k' ∧ Idle k' ∧ Still k'.world ∧ Q r v' k'.world.clock ∧
      k'.world.view = v'.settled := by
  obtain ⟨k', r, l', s', hcourse, hidle', hq, hworld⟩ :=
    Idle.request (M := platform S) ha hidle hok hp
  obtain ⟨n', v', now', hl', ⟨hst, hw⟩, hq⟩ := hq
  obtain ⟨hstill, hview, hclock⟩ := hl'.close hst hw
  have hworld' : k'.world = s'.releaseAll k.world.nextTid := hworld
  refine ⟨k', r, v', hcourse, hidle', ?_, ?_, ?_⟩
  · rw [hworld']
    exact hstill
  · rw [hworld', hclock]
    exact hq
  · rw [hworld', hview]

end Orbyt
