/-
  Orbyt.Rules.Calls — what a call can do

  Everything later proofs need to know about `exec`, said once:

    * `exec_inv`          — a call raises without effect, or performs (and may then
                            lose its response);
    * `Uncommitted`       — what any call but COMMIT does to the world: stored rows
                            stay, locks are only taken, blobs are only added;
    * `World.Regular`, `Session.Locked` — what holds of every world and of every
                            session in it, whichever calls are made;
    * `Others`            — what a program may rely on when another one moves.

  Main results:
    * `exec_regular`, `exec_locked` — every call keeps `Regular` and `Locked`;
    * `exec_others`, `releaseAll_others`, `env_others` — every move respects `Others`.
-/
import Orbyt.Platform.Platform

namespace Orbyt

open Interleave
open ValidatedLedger
open Function (update)

variable {S : Setting} {i j : Nat} {o : Op} {c : Choice} {l l' : Session} {s s' : World}
  {r : Except Exn o.Res}

/-! ## §1. A call raises or performs. -/

/-- Only the clock ticks. -/
@[simp] theorem tick_clock : (s.tick S c).clock = s.clock + S.minTick + c.dt := rfl
@[simp] theorem tick_ledger : (s.tick S c).ledger = s.ledger := rfl
@[simp] theorem tick_blobs : (s.tick S c).blobs = s.blobs := rfl
@[simp] theorem tick_handed : (s.tick S c).handed = s.handed := rfl
@[simp] theorem tick_txns : (s.tick S c).txns = s.txns := rfl
@[simp] theorem tick_reqs : (s.tick S c).reqs = s.reqs := rfl
@[simp] theorem tick_wallets : (s.tick S c).wallets = s.wallets := rfl
@[simp] theorem tick_txnOwner : (s.tick S c).txnOwner = s.txnOwner := rfl
@[simp] theorem tick_reqOwner : (s.tick S c).reqOwner = s.reqOwner := rfl
@[simp] theorem tick_moves : (s.tick S c).moves = s.moves := rfl
@[simp] theorem tick_settlementLog : (s.tick S c).settlementLog = s.settlementLog := rfl
@[simp] theorem tick_cashinLog : (s.tick S c).cashinLog = s.cashinLog := rfl
@[simp] theorem tick_statusLog : (s.tick S c).statusLog = s.statusLog := rfl

theorem exec_inv (h : exec S i o c l s = some (r, l', s')) :
    permitted S l (s.tick S c) o = true ∧
      ((∃ e, r = .error e ∧ l' = l.fail o ∧ afterRaises o e (s.tick S c) = some s') ∨
       ((l.failed && o.isStatement) = false ∧
          ∃ r₀ l₀, perform S i l (s.tick S c) c.value o = some (r₀, l₀, s') ∧
            ((r = r₀ ∧ l' = l₀) ∨
              ∃ e, o.losesResponse = true ∧ r = .error e ∧ l' = l₀.fail o))) := by
  unfold exec at h
  split at h
  next hp =>
    refine ⟨hp, ?_⟩
    unfold answer at h
    split at h
    next =>
      split at h
      · cases h
      next hf =>
        exact .inr ⟨by simpa using hf, r, l', h, .inl ⟨rfl, rfl⟩⟩
    next e _ =>
      obtain ⟨w, hw, heq⟩ := Option.map_eq_some_iff.mp h
      cases heq
      exact .inl ⟨e, rfl, rfl, hw⟩
    next e _ =>
      split at h
      · cases h
      next hf =>
        split at h
        next hl =>
          obtain ⟨⟨r₀, l₀, w⟩, hw, heq⟩ := Option.map_eq_some_iff.mp h
          cases heq
          rw [Bool.and_eq_true] at hl
          exact .inr ⟨by simpa using hf, r₀, l₀, hw, .inr ⟨e, hl.1, rfl, rfl⟩⟩
        · cases h
  · cases h

/-- A call that raises leaves the world as it is, or marks a blob malformed. -/
theorem afterRaises_eq {e : Exn} (h : afterRaises o e s = some s') :
    s' = s ∨ ∃ k, o = .outcome k ∧ s.ledger.included k = none ∧
      s' = { s with malformed := update s.malformed k true } := by
  unfold afterRaises at h
  split at h
  next k =>
    unfold World.afterOutcomeRaises at h
    split at h
    next text =>
      split at h
      · split at h
        · exact .inl (Option.some.inj h).symm
        · cases h
      · split at h
        · split at h
          next hn => exact .inr ⟨k, rfl, by simpa using hn, (Option.some.inj h).symm⟩
          · cases h
        · exact .inl (Option.some.inj h).symm
    · exact .inl (Option.some.inj h).symm
    · exact .inl (Option.some.inj h).symm
    · cases h
  next =>
    split at h
    · exact .inl (Option.some.inj h).symm
    · cases h

/-! ## §2. What any call but COMMIT does to the world. -/

/-- Locks are only taken, by `i` and where they are free. -/
def Takes (i : Nat) (lock lock' : Nat → Option Nat) : Prop :=
  ∀ k, lock' k = lock k ∨ (lock k = none ∧ lock' k = some i)

theorem Takes.refl (i : Nat) (lock : Nat → Option Nat) : Takes i lock lock := fun _ => .inl rfl

theorem freeFor_iff {lock : Nat → Option Nat} {k : Nat} :
    freeFor lock i k = true ↔ lock k = none ∨ lock k = some i := by
  unfold freeFor
  cases lock k <;> simp

theorem Takes.update {lock : Nat → Option Nat} {k : Nat} (h : freeFor lock i k = true) :
    Takes i lock (Function.update lock k (some i)) := by
  intro k'
  by_cases hk : k' = k
  · subst hk
    rw [Function.update_self]
    rcases freeFor_iff.mp h with hn | hs
    · exact .inr ⟨hn, rfl⟩
    · exact .inl hs.symm
  · exact .inl (Function.update_of_ne hk _ _)

/-- Stored rows, owners and histories stay; locks are taken and blobs are added by
`i` only, and only its own blobs are handed over. -/
structure Uncommitted (i : Nat) (s s' : World) : Prop where
  clock : s'.clock = s.clock
  nextTid : s'.nextTid = s.nextTid
  nextId : s.nextId ≤ s'.nextId
  ledger : s'.ledger = s.ledger
  txns : s'.txns = s.txns
  reqs : s'.reqs = s.reqs
  wallets : s'.wallets = s.wallets
  txnOwner : s'.txnOwner = s.txnOwner
  reqOwner : s'.reqOwner = s.reqOwner
  moves : s'.moves = s.moves
  settlementLog : s'.settlementLog = s.settlementLog
  cashinLog : s'.cashinLog = s.cashinLog
  statusLog : s'.statusLog = s.statusLog
  txnLock : Takes i s.txnLock s'.txnLock
  reqLock : Takes i s.reqLock s'.reqLock
  walletLock : Takes i s.walletLock s'.walletLock
  userLock : Takes i s.userLock s'.userLock
  blobs : ∃ new, s'.blobs = s.blobs ++ new ∧
    ∀ b ∈ new, b.signer = i ∧ b.signedIndex = s.ledger.validated ∧ b.signedAt = s'.clock
  handed : ∀ h, s.handed h = true → s'.handed h = true
  handedOwn : ∀ h, s'.handed h = true →
    s.handed h = true ∨ ∃ b, s.blobs[h]? = some b ∧ b.signer = i
  malformed : ∀ h, s.malformed h = true → s'.malformed h = true
  malformedNew : ∀ h, s'.malformed h = true →
    s.malformed h = true ∨ s.ledger.included h = none

theorem Uncommitted.refl (i : Nat) (s : World) : Uncommitted i s s where
  clock := rfl
  nextTid := rfl
  nextId := Nat.le_refl _
  ledger := rfl
  txns := rfl
  reqs := rfl
  wallets := rfl
  txnOwner := rfl
  reqOwner := rfl
  moves := rfl
  settlementLog := rfl
  cashinLog := rfl
  statusLog := rfl
  txnLock := Takes.refl _ _
  reqLock := Takes.refl _ _
  walletLock := Takes.refl _ _
  userLock := Takes.refl _ _
  blobs := ⟨[], by simp, by simp⟩
  handed := fun _ h => h
  handedOwn := fun _ h => .inl h
  malformed := fun _ h => h
  malformedNew := fun _ h => .inl h

theorem perform_uncommitted {v : Value} (ho : o ≠ .commit)
    (h : perform S i l s v o = some (r, l', s')) : Uncommitted i s s' := by
  have same : s' = s → Uncommitted i s s' := fun he => he ▸ Uncommitted.refl i s
  cases o with
  | commit => exact absurd rfl ho
  | updateTxn t cond values =>
    simp only [perform] at h
    split at h
    · split at h
      · split at h
        next hf =>
          cases h
          exact { Uncommitted.refl i s with txnLock := Takes.update hf }
        · cases h
      · cases h; exact .refl i s
    · cases h; exact .refl i s
  | updateTxns cond values =>
    simp only [perform] at h
    split at h
    next hf =>
      cases h
      refine { Uncommitted.refl i s with txnLock := fun t => ?_ }
      -- a row that matches is locked, and was free or already ours; any other keeps its lock
      by_cases hm : (l.matching s cond t).isSome = true
      · have hlt : t < s.nextId := by
          by_contra hn
          simp [Session.matching, hn] at hm
        rcases freeFor_iff.mp (hf t hlt hm) with hn | hs
        · exact .inr ⟨hn, if_pos hm⟩
        · exact .inl ((if_pos hm).trans hs.symm)
      · exact .inl (if_neg hm)
    · cases h
  | insertTxn row =>
    simp only [perform] at h
    split at h
    next hf =>
      cases h
      rw [Bool.and_eq_true] at hf
      exact { Uncommitted.refl i s with
        nextId := Nat.le_succ _, txnLock := Takes.update hf.2 }
    · cases h
  | lockUser u =>
    simp only [perform] at h
    split at h
    next hf => cases h; exact { Uncommitted.refl i s with userLock := Takes.update hf }
    · cases h
  | updateReq r cond values =>
    simp only [perform] at h
    split at h
    · split at h
      · split at h
        next hf =>
          cases h
          exact { Uncommitted.refl i s with reqLock := Takes.update hf }
        · cases h
      · cases h; exact .refl i s
    · cases h; exact .refl i s
  | insertReq row =>
    simp only [perform] at h
    split at h
    next hf =>
      cases h
      rw [Bool.and_eq_true] at hf
      exact { Uncommitted.refl i s with
        nextId := Nat.le_succ _, reqLock := Takes.update hf.2 }
    · cases h
  | lockWallet u =>
    simp only [perform] at h
    split at h
    · cases h; exact .refl i s
    · split at h
      next hf => cases h; exact { Uncommitted.refl i s with walletLock := Takes.update hf }
      · cases h
  | setBalance u balance move =>
    simp only [perform] at h
    split at h
    · split at h
      next hf => cases h; exact { Uncommitted.refl i s with walletLock := Takes.update hf }
      · cases h
    · cases h
  | setTrustLine u =>
    simp only [perform] at h
    split at h
    · split at h
      next hf => cases h; exact { Uncommitted.refl i s with walletLock := Takes.update hf }
      · cases h
    · cases h
  | insertWallet u w =>
    simp only [perform] at h
    split at h
    next hf =>
      cases h
      rw [Bool.and_eq_true] at hf
      exact { Uncommitted.refl i s with walletLock := Takes.update hf.2 }
    · cases h
  | acquireTreasury =>
    simp only [perform] at h
    split at h
    · cases h; exact { Uncommitted.refl i s with }
    · cases h
  | releaseTreasury =>
    simp only [perform] at h
    split at h
    · cases h; exact { Uncommitted.refl i s with }
    · cases h
  | enqueue m => cases h; exact { Uncommitted.refl i s with }
  | enqueueIn n m => cases h; exact { Uncommitted.refl i s with }
  | office o =>
    simp only [perform] at h
    split at h
    · cases h; exact { Uncommitted.refl i s with }
    · cases h
  | autofillAndSign purpose tx =>
    simp only [perform] at h
    split at h
    · split at h
      · cases h
      · cases h
        exact { Uncommitted.refl i s with blobs := ⟨_, rfl, by simp⟩ }
    · cases h
  | handOver purpose k =>
    simp only [perform] at h
    split at h
    next hb =>
      cases h
      obtain ⟨b, hb, hp⟩ := (Option.any_eq_true _ _).mp hb
      refine { Uncommitted.refl i s with handed := fun h hh => ?_, handedOwn := fun h hh => ?_ }
      -- what was handed over stays handed over
      · by_cases hk : h = k <;> simp [update, hk, hh]
      · by_cases hk : h = k
        · subst hk
          exact .inr ⟨b, hb, (of_decide_eq_true hp).2⟩
        · exact .inl (by simpa [update, hk] using hh)
    · cases h
  -- the reads: none of them changes the database
  | _ =>
    apply same
    simp only [perform] at h
    first
      | (cases h; rfl)
      | (split at h <;> first | (cases h; rfl) | (split at h <;> (cases h; try rfl)) | cases h)

/-- Any call but COMMIT, from its instant on. -/
theorem exec_uncommitted (ho : o ≠ .commit) (h : exec S i o c l s = some (r, l', s')) :
    Uncommitted i (s.tick S c) s' := by
  obtain ⟨-, ⟨e, rfl, rfl, ha⟩ | ⟨-, r₀, l₀, hx, -⟩⟩ := exec_inv h
  · rcases afterRaises_eq ha with rfl | ⟨k, rfl, hn, rfl⟩
    · exact .refl i _
    · refine { Uncommitted.refl i (s.tick S c) with
        malformed := fun h hh => ?_, malformedNew := fun h hh => ?_ }
      · by_cases hk : h = k <;> simp [update, hk, hh]
      · by_cases hk : h = k
        · exact .inr (hk ▸ hn)
        · exact .inl (by simpa [update, hk] using hh)
  · exact perform_uncommitted ho hx

/-- COMMIT: nothing happens, or the session's writes become the stored rows. -/
theorem exec_commit {r : Except Exn Unit} (h : exec S i .commit c l s = some (r, l', s')) :
    ((∃ e, r = .error e) ∧ l' = l.fail .commit ∧ s' = s.tick S c) ∨
      (l.failed = false ∧ s' = (s.tick S c).commit i l ∧
        ((r = .ok () ∧ l' = l.committed) ∨
          ((∃ e, r = .error e) ∧ l' = l.committed.fail .commit))) := by
  obtain ⟨-, ⟨e, rfl, rfl, ha⟩ | ⟨hf, r₀, l₀, hx, hr⟩⟩ := exec_inv h
  · rcases afterRaises_eq ha with rfl | ⟨k, hk, -⟩
    · exact .inl ⟨⟨e, rfl⟩, rfl, rfl⟩
    · cases hk
  · cases hx
    refine .inr ⟨by simpa [Op.isStatement] using hf, rfl, ?_⟩
    rcases hr with ⟨rfl, rfl⟩ | ⟨e, -, rfl, rfl⟩
    · exact .inl ⟨rfl, rfl⟩
    · exact .inr ⟨⟨e, rfl⟩, rfl⟩

theorem exec_clock (h : exec S i o c l s = some (r, l', s')) :
    s'.clock = s.clock + S.minTick + c.dt := by
  by_cases ho : o = .commit
  · subst ho
    rcases exec_commit h with ⟨-, -, rfl⟩ | ⟨-, rfl, -⟩ <;> rfl
  · exact (exec_uncommitted ho h).clock

/-- A worker takes no step more than `jobTimeout` after its claim. -/
theorem exec_punctual (hp : S.punctual = true) (h : exec S i o c l s = some (r, l', s'))
    {T : Nat} (hT : l.claimedAt = some T) : s'.clock ≤ T + jobTimeout := by
  have hperm := (exec_inv h).1
  have hclock := exec_clock h
  unfold permitted at hperm
  rw [hp, hT, Bool.and_eq_true] at hperm
  have hle : decide ((s.tick S c).clock ≤ T + jobTimeout) = true := hperm.1
  rw [hclock]
  exact of_decide_eq_true hle

/-! ## §3. What holds of every world and every session. -/

/-- Facts about the ledger, the blobs and the row names that every call keeps. -/
structure World.Regular (s : World) : Prop where
  included : ∀ h r, s.ledger.included h = some r → s.handed h = true ∧ s.malformed h = false
  window : ∀ (h : Nat) (b : Blob), s.blobs[h]? = some b → s.ledger.respects h b.window
  handed : ∀ h, s.handed h = true → ∃ b, s.blobs[h]? = some b
  blobs : ∀ (h : Nat) (b : Blob), s.blobs[h]? = some b →
    b.signedIndex ≤ s.ledger.validated ∧ b.signedAt ≤ s.clock ∧ b.signer < s.nextTid
  txnIds : ∀ t x, s.txns t = some x → t < s.nextId
  reqIds : ∀ r q, s.reqs r = some q → r < s.nextId

/-- The writes of an open transaction are on rows the session has locked. -/
structure Session.Locked (i : Nat) (l : Session) (s : World) : Prop where
  born : i < s.nextTid
  txns : ∀ t x, l.txnWrites t = some x → s.txnLock t = some i ∧ t < s.nextId
  reqs : ∀ r q, l.reqWrites r = some q → s.reqLock r = some i ∧ r < s.nextId
  wallets : ∀ u w, l.walletWrites u = some w → s.walletLock u = some i
  settlementLog : ∀ t, l.txnWrites t = none → l.settlementLog t = []
  cashinLog : ∀ t, l.txnWrites t = none → l.cashinLog t = []
  statusLog : ∀ r, l.reqWrites r = none → l.statusLog r = []
  claimedAt : ∀ T, l.claimedAt = some T → T ≤ s.clock

theorem Takes.keeps {lock lock' : Nat → Option Nat} (h : Takes i lock lock') {k j : Nat}
    (hk : lock k = some j) : lock' k = some j := by
  rcases h k with he | ⟨hn, -⟩
  · rw [he, hk]
  · rw [hn] at hk; cases hk

/-- A session stays `Locked` when the world moves on without touching its locks. -/
theorem Session.Locked.mono (h : l.Locked i s) (hclock : s.clock ≤ s'.clock)
    (htid : s.nextTid ≤ s'.nextTid) (hid : s.nextId ≤ s'.nextId)
    (htxn : ∀ t, s.txnLock t = some i → s'.txnLock t = some i)
    (hreq : ∀ r, s.reqLock r = some i → s'.reqLock r = some i)
    (hwallet : ∀ u, s.walletLock u = some i → s'.walletLock u = some i) : l.Locked i s' where
  born := Nat.lt_of_lt_of_le h.born htid
  txns := fun t x hx => ⟨htxn t (h.txns t x hx).1, Nat.lt_of_lt_of_le (h.txns t x hx).2 hid⟩
  reqs := fun r q hq => ⟨hreq r (h.reqs r q hq).1, Nat.lt_of_lt_of_le (h.reqs r q hq).2 hid⟩
  wallets := fun u w hw => hwallet u (h.wallets u w hw)
  settlementLog := h.settlementLog
  cashinLog := h.cashinLog
  statusLog := h.statusLog
  claimedAt := fun T hT => Nat.le_trans (h.claimedAt T hT) hclock

theorem Session.Locked.of_uncommitted (h : l.Locked i s) (hu : Uncommitted j s s') :
    l.Locked i s' :=
  h.mono (Nat.le_of_eq hu.clock.symm) (Nat.le_of_eq hu.nextTid.symm) hu.nextId
    (fun _ => hu.txnLock.keeps) (fun _ => hu.reqLock.keeps) (fun _ => hu.walletLock.keeps)

theorem Session.Locked.start (e : Entry) (h : i < s.nextTid) : (Session.start e).Locked i s where
  born := h
  txns := by intro t x hx; cases hx
  reqs := by intro r q hq; cases hq
  wallets := by intro u w hw; cases hw
  settlementLog := fun _ _ => rfl
  cashinLog := fun _ _ => rfl
  statusLog := fun _ _ => rfl
  claimedAt := by intro T hT; cases hT

theorem Session.Locked.committed (h : l.Locked i s) (hs' : s'.nextTid = s.nextTid)
    (hc : s'.clock = s.clock) : l.committed.Locked i s' where
  born := hs' ▸ h.born
  txns := by intro t x hx; cases hx
  reqs := by intro r q hq; cases hq
  wallets := by intro u w hw; cases hw
  settlementLog := fun _ _ => rfl
  cashinLog := fun _ _ => rfl
  statusLog := fun _ _ => rfl
  claimedAt := fun T hT => hc ▸ h.claimedAt T hT

theorem Session.Locked.fail (h : l.Locked i s) : (l.fail o).Locked i s :=
  ⟨h.born, h.txns, h.reqs, h.wallets, h.settlementLog, h.cashinLog, h.statusLog, h.claimedAt⟩

/-- Writing one row of `transactions` under its lock. -/
theorem Session.Locked.writeTxn {t : Nat} {x : Option Txn} {x' : Txn} (h : l.Locked i s)
    (hlock : s.txnLock t = some i) (hid : t < s.nextId) :
    (l.writeTxn s.clock t x x').Locked i s := by
  refine { h with
    txns := fun t' y hy => ?_, settlementLog := fun t' hn => ?_
    cashinLog := fun t' hn => ?_, claimedAt := fun T hT => ?_ }
  · by_cases ht : t' = t
    · exact ht ▸ ⟨hlock, hid⟩
    · exact h.txns t' y (by simpa [Session.writeTxn, update, ht] using hy)
  · by_cases ht : t' = t
    · simp [Session.writeTxn, update, ht] at hn
    · simpa [Session.writeTxn, update, ht] using
        h.settlementLog t' (by simpa [Session.writeTxn, update, ht] using hn)
  · by_cases ht : t' = t
    · simp [Session.writeTxn, update, ht] at hn
    · simpa [Session.writeTxn, update, ht] using
        h.cashinLog t' (by simpa [Session.writeTxn, update, ht] using hn)
  · simp only [Session.writeTxn] at hT
    split at hT
    · exact Nat.le_of_eq (Option.some.inj hT).symm
    · exact h.claimedAt T hT

theorem Session.Locked.writeReq {r : Nat} {q : Option CashOutRequest} {q' : CashOutRequest}
    (h : l.Locked i s) (hlock : s.reqLock r = some i) (hid : r < s.nextId) :
    (l.writeReq s.clock r q q').Locked i s := by
  refine { h with
    reqs := fun r' y hy => ?_, statusLog := fun r' hn => ?_, claimedAt := fun T hT => ?_ }
  · by_cases hr : r' = r
    · exact hr ▸ ⟨hlock, hid⟩
    · exact h.reqs r' y (by simpa [Session.writeReq, update, hr] using hy)
  · by_cases hr : r' = r
    · simp [Session.writeReq, update, hr] at hn
    · simpa [Session.writeReq, update, hr] using
        h.statusLog r' (by simpa [Session.writeReq, update, hr] using hn)
  · simp only [Session.writeReq] at hT
    split at hT
    · exact Nat.le_of_eq (Option.some.inj hT).symm
    · exact h.claimedAt T hT

theorem matching_eq_some {cond : Txn → Bool} {t : Nat} {x : Txn}
    (h : l.matching s cond t = some x) : t < s.nextId ∧ l.txn s t = some x ∧ cond x = true := by
  unfold Session.matching at h
  split at h
  next hlt =>
    obtain ⟨hx, hc⟩ := Option.filter_eq_some_iff.mp h
    exact ⟨hlt, hx, hc⟩
  · cases h

/-- A row that a session reads is stored, or one it has written itself. -/
theorem Session.txn_cases {t : Nat} {x : Txn} (h : l.txn s t = some x) :
    l.txnWrites t = some x ∨ (l.txnWrites t = none ∧ s.txns t = some x) := by
  unfold Session.txn at h
  cases hw : l.txnWrites t with
  | none => exact .inr ⟨rfl, by simpa [hw] using h⟩
  | some y => exact .inl (by simpa [hw] using h)

theorem Session.req_cases {r : Nat} {q : CashOutRequest} (h : l.req s r = some q) :
    l.reqWrites r = some q ∨ (l.reqWrites r = none ∧ s.reqs r = some q) := by
  unfold Session.req at h
  cases hw : l.reqWrites r with
  | none => exact .inr ⟨rfl, by simpa [hw] using h⟩
  | some y => exact .inl (by simpa [hw] using h)

theorem Session.Locked.writeTxns {cond : Txn → Bool} {values : Nat → Txn → Txn}
    (h : l.Locked i s)
    (hlock : ∀ t x, l.matching s cond t = some x → s'.txnLock t = some i)
    (hold : ∀ t, s.txnLock t = some i → s'.txnLock t = some i)
    (hs' : s' = { s with txnLock := s'.txnLock }) :
    (l.writeTxns s cond values).Locked i s' := by
  have hmono : l.Locked i s' := by
    rw [hs']
    exact h.mono (Nat.le_refl _) (Nat.le_refl _) (Nat.le_refl _) (fun t ht => hold t ht)
      (fun _ hr => hr) (fun _ hu => hu)
  have hmiss : ∀ t, (l.writeTxns s cond values).txnWrites t = none →
      l.matching s cond t = none ∧ l.txnWrites t = none := by
    intro t hn
    simpa [Session.writeTxns, Option.or_eq_none_iff] using hn
  refine { hmono with
    txns := fun t y hy => ?_, settlementLog := fun t hn => ?_, cashinLog := fun t hn => ?_ }
  · cases hm : l.matching s cond t with
    | some x =>
      refine ⟨hlock t x hm, ?_⟩
      rw [hs']
      exact (matching_eq_some hm).1
    | none => exact hmono.txns t y (by simpa [Session.writeTxns, hm] using hy)
  · obtain ⟨hm, hw⟩ := hmiss t hn
    simpa [Session.writeTxns, hm] using h.settlementLog t hw
  · obtain ⟨hm, hw⟩ := hmiss t hn
    simpa [Session.writeTxns, hm] using h.cashinLog t hw

/-- Every call but COMMIT keeps its own session locked. -/
theorem perform_locked {v : Value} (ho : o ≠ .commit) (hs : s.Regular) (h : l.Locked i s)
    (hx : perform S i l s v o = some (r, l', s')) : l'.Locked i s' := by
  have hu := perform_uncommitted ho hx
  have hl := h.of_uncommitted hu
  have same : l'.txnWrites = l.txnWrites ∧ l'.reqWrites = l.reqWrites ∧
      l'.walletWrites = l.walletWrites ∧ l'.settlementLog = l.settlementLog ∧
      l'.cashinLog = l.cashinLog ∧ l'.statusLog = l.statusLog ∧ l'.claimedAt = l.claimedAt →
      l'.Locked i s' := by
    rintro ⟨h₁, h₂, h₃, h₄, h₅, h₆, h₇⟩
    exact ⟨hl.born, h₁ ▸ hl.txns, h₂ ▸ hl.reqs, h₃ ▸ hl.wallets, h₁ ▸ h₄ ▸ hl.settlementLog,
      h₁ ▸ h₅ ▸ hl.cashinLog, h₂ ▸ h₆ ▸ hl.statusLog, h₇ ▸ hl.claimedAt⟩
  -- a write of one wallet, under its lock
  have wallet : ∀ u w, s'.walletLock u = some i →
      l'.txnWrites = l.txnWrites ∧ l'.reqWrites = l.reqWrites ∧
        l'.walletWrites = update l.walletWrites u (some w) ∧
        l'.settlementLog = l.settlementLog ∧ l'.cashinLog = l.cashinLog ∧
        l'.statusLog = l.statusLog ∧ l'.claimedAt = l.claimedAt → l'.Locked i s' := by
    rintro u w hu ⟨h₁, h₂, h₃, h₄, h₅, h₆, h₇⟩
    refine ⟨hl.born, h₁ ▸ hl.txns, h₂ ▸ hl.reqs, fun u' w' hw => ?_, h₁ ▸ h₄ ▸ hl.settlementLog,
      h₁ ▸ h₅ ▸ hl.cashinLog, h₂ ▸ h₆ ▸ hl.statusLog, h₇ ▸ hl.claimedAt⟩
    by_cases huu : u' = u
    · exact huu ▸ hu
    · exact hl.wallets u' w' (by simpa [h₃, update, huu] using hw)
  cases o with
  | commit => exact absurd rfl ho
  | updateTxn t cond values =>
    simp only [perform] at hx
    split at hx
    next x hxt =>
      have hid : t < s.nextId := by
        rcases Session.txn_cases hxt with hw | ⟨-, ht⟩
        · exact (h.txns t x hw).2
        · exact hs.txnIds t x ht
      split at hx
      · split at hx
        · cases hx; exact Session.Locked.writeTxn hl (Function.update_self _ _ _) hid
        · cases hx
      · cases hx; exact hl
    · cases hx; exact hl
  | updateTxns cond values =>
    simp only [perform] at hx
    split at hx
    · cases hx
      exact h.writeTxns (fun t x hm => if_pos (by rw [hm]; rfl))
        (fun t ht => hu.txnLock.keeps ht) rfl
    · cases hx
  | insertTxn row =>
    simp only [perform] at hx
    split at hx
    · cases hx; exact Session.Locked.writeTxn hl (Function.update_self _ _ _) (Nat.lt_succ_self _)
    · cases hx
  | updateReq k cond values =>
    simp only [perform] at hx
    split at hx
    next q hq =>
      have hid : k < s.nextId := by
        rcases Session.req_cases hq with hw | ⟨-, ht⟩
        · exact (h.reqs k q hw).2
        · exact hs.reqIds k q ht
      split at hx
      · split at hx
        · cases hx; exact Session.Locked.writeReq hl (Function.update_self _ _ _) hid
        · cases hx
      · cases hx; exact hl
    · cases hx; exact hl
  | insertReq row =>
    simp only [perform] at hx
    split at hx
    · cases hx; exact Session.Locked.writeReq hl (Function.update_self _ _ _) (Nat.lt_succ_self _)
    · cases hx
  | setBalance u balance move =>
    simp only [perform] at hx
    split at hx
    · split at hx
      · cases hx; exact wallet u _ (Function.update_self _ _ _) ⟨rfl, rfl, rfl, rfl, rfl, rfl, rfl⟩
      · cases hx
    · cases hx
  | setTrustLine u =>
    simp only [perform] at hx
    split at hx
    · split at hx
      · cases hx; exact wallet u _ (Function.update_self _ _ _) ⟨rfl, rfl, rfl, rfl, rfl, rfl, rfl⟩
      · cases hx
    · cases hx
  | insertWallet u w =>
    simp only [perform] at hx
    split at hx
    · cases hx; exact wallet u _ (Function.update_self _ _ _) ⟨rfl, rfl, rfl, rfl, rfl, rfl, rfl⟩
    · cases hx
  | _ =>
    apply same
    simp only [perform] at hx
    first
      | (cases hx; exact ⟨rfl, rfl, rfl, rfl, rfl, rfl, rfl⟩)
      | (repeat' split at hx) <;>
          first | (cases hx; exact ⟨rfl, rfl, rfl, rfl, rfl, rfl, rfl⟩) | cases hx

theorem World.Regular.tick (h : s.Regular) : (s.tick S c).Regular :=
  { h with blobs := fun k b hb =>
      ⟨(h.blobs k b hb).1, Nat.le_trans (h.blobs k b hb).2.1 (by simp [World.tick]; omega),
        (h.blobs k b hb).2.2⟩ }

theorem Session.Locked.tick (h : l.Locked i s) : l.Locked i (s.tick S c) :=
  h.mono (by simp [World.tick]; omega) (Nat.le_refl _) (Nat.le_refl _) (fun _ ht => ht)
    (fun _ hr => hr) (fun _ hu => hu)

theorem Session.Locked.commit (h : l.Locked i s) : l.committed.Locked i (s.commit i l) :=
  h.committed rfl rfl

/-- Nothing of a session is left after COMMIT but what it has loaded. -/
theorem Session.Locked.released (h : l.Locked i s) (hs' : s'.nextTid = s.nextTid)
    (hc : s'.clock = s.clock) : (l.committed.fail o).Locked i s' := (h.committed hs' hc).fail

theorem exec_locked (hs : s.Regular) (h : l.Locked i s)
    (hx : exec S i o c l s = some (r, l', s')) : l'.Locked i s' := by
  by_cases ho : o = .commit
  · subst ho
    rcases exec_commit hx with ⟨-, rfl, rfl⟩ | ⟨-, rfl, ⟨-, rfl⟩ | ⟨-, rfl⟩⟩
    · exact h.tick.fail
    · exact h.tick.commit
    · exact h.tick.commit.fail
  · have hu := exec_uncommitted ho hx
    obtain ⟨-, ⟨e, -, rfl, -⟩ | ⟨-, r₀, l₀, hp, hr⟩⟩ := exec_inv hx
    · exact (h.tick.of_uncommitted hu).fail
    · have hl₀ := perform_locked ho hs.tick h.tick hp
      rcases hr with ⟨-, rfl⟩ | ⟨e, -, -, rfl⟩
      · exact hl₀
      · exact hl₀.fail

/-! ## §4. Regular worlds stay regular. -/

theorem World.Regular.of_uncommitted (h : s.Regular) (hi : i < s.nextTid)
    (hu : Uncommitted i s s') : s'.Regular := by
  obtain ⟨new, hb, hnew⟩ := hu.blobs
  -- an old blob keeps its place, a new one comes after all old ones
  have hold : ∀ (k : Nat) (b : Blob), s.blobs[k]? = some b → s'.blobs[k]? = some b := by
    intro k b hk
    rw [hb, List.getElem?_append_left (List.getElem?_eq_some_iff.mp hk).1]
    exact hk
  have hcases : ∀ (k : Nat) (b : Blob), s'.blobs[k]? = some b →
      s.blobs[k]? = some b ∨ (s.blobs[k]? = none ∧ b ∈ new) := by
    intro k b hk
    by_cases hlt : k < s.blobs.length
    · left
      rwa [hb, List.getElem?_append_left hlt] at hk
    · right
      rw [hb, List.getElem?_append_right (by omega)] at hk
      exact ⟨List.getElem?_eq_none (by omega), List.mem_of_getElem? hk⟩
  have hhanded : ∀ k : Nat, s'.handed k = true → ∃ b : Blob, s.blobs[k]? = some b := by
    intro k hk
    rcases hu.handedOwn k hk with hk | ⟨b, hk, -⟩
    · exact h.handed k hk
    · exact ⟨b, hk⟩
  constructor
  · intro k v hk
    rw [hu.ledger] at hk
    refine ⟨hu.handed k (h.included k v hk).1, ?_⟩
    cases hm : s'.malformed k with
    | false => rfl
    | true =>
      rcases hu.malformedNew k hm with hm | hn
      · rw [(h.included k v hk).2] at hm; cases hm
      · rw [hn] at hk; cases hk
  · intro k b hk
    rw [hu.ledger]
    rcases hcases k b hk with hk | ⟨hn, -⟩
    · exact h.window k b hk
    · intro n code hs
      obtain ⟨b', hb'⟩ := h.handed k (h.included k _ hs).1
      rw [hn] at hb'; cases hb'
  · intro k hk
    obtain ⟨b, hk⟩ := hhanded k hk
    exact ⟨b, hold k b hk⟩
  · intro k b hk
    rw [hu.ledger, hu.clock, hu.nextTid]
    rcases hcases k b hk with hk | ⟨-, hm⟩
    · exact h.blobs k b hk
    · obtain ⟨h₁, h₂, h₃⟩ := hnew b hm
      exact ⟨Nat.le_of_eq h₂, Nat.le_of_eq (h₃.trans hu.clock), h₁ ▸ hi⟩
  · intro t x ht
    rw [hu.txns] at ht
    exact Nat.lt_of_lt_of_le (h.txnIds t x ht) hu.nextId
  · intro k q hk
    rw [hu.reqs] at hk
    exact Nat.lt_of_lt_of_le (h.reqIds k q hk) hu.nextId

theorem World.Regular.commit (h : s.Regular) (hl : l.Locked i s) : (s.commit i l).Regular :=
  { h with
    txnIds := fun t x ht => by
      rcases Session.txn_cases ht with hw | ⟨-, ht⟩
      · exact (hl.txns t x hw).2
      · exact h.txnIds t x ht
    reqIds := fun k q hk => by
      rcases Session.req_cases hk with hw | ⟨-, hk⟩
      · exact (hl.reqs k q hw).2
      · exact h.reqIds k q hk }

theorem exec_regular (hs : s.Regular) (h : l.Locked i s)
    (hx : exec S i o c l s = some (r, l', s')) : s'.Regular := by
  by_cases ho : o = .commit
  · subst ho
    rcases exec_commit hx with ⟨-, -, rfl⟩ | ⟨-, rfl, -⟩
    · exact hs.tick
    · exact hs.tick.commit h.tick
  · exact hs.tick.of_uncommitted h.born (exec_uncommitted ho hx)

/-! ## §5. What a program may rely on. -/

/-- What holds between two moments of the program `j` while others move: time and
the ledger go on, nothing is unsaid, and rows `j` has locked stay as they are. -/
structure Others (j : Nat) (s s' : World) : Prop where
  clock : s.clock ≤ s'.clock
  nextTid : s.nextTid ≤ s'.nextTid
  nextId : s.nextId ≤ s'.nextId
  validated : s.ledger.validated ≤ s'.ledger.validated
  blobs : ∀ (h : Nat) (b : Blob), s.blobs[h]? = some b → s'.blobs[h]? = some b
  ledger : ∀ (h : Nat) (b : Blob), s.blobs[h]? = some b → Evolves h b.window s.ledger s'.ledger
  handed : ∀ h, s.handed h = true → s'.handed h = true
  handedOwn : ∀ (h : Nat) (b : Blob), s.blobs[h]? = some b → b.signer = j →
    s'.handed h = s.handed h
  malformed : ∀ h, s.malformed h = true → s'.malformed h = true
  wallets : ∀ u, (s.wallets u).isSome → (s'.wallets u).isSome
  txnLock : ∀ t, s.txnLock t = some j → s'.txnLock t = some j ∧ s'.txns t = s.txns t ∧
    s'.settlementLog t = s.settlementLog t ∧ s'.cashinLog t = s.cashinLog t ∧
    s'.txnOwner t = s.txnOwner t
  reqLock : ∀ k, s.reqLock k = some j → s'.reqLock k = some j ∧ s'.reqs k = s.reqs k ∧
    s'.statusLog k = s.statusLog k ∧ s'.reqOwner k = s.reqOwner k
  walletLock : ∀ u, s.walletLock u = some j → s'.walletLock u = some j ∧ s'.wallets u = s.wallets u
  userLock : ∀ u, s.userLock u = some j → s'.userLock u = some j

theorem Others.refl (j : Nat) (s : World) : Others j s s where
  clock := Nat.le_refl _
  nextTid := Nat.le_refl _
  nextId := Nat.le_refl _
  validated := Nat.le_refl _
  blobs := fun _ _ hb => hb
  ledger := fun h b _ => Evolves.refl h b.window _
  handed := fun _ hh => hh
  handedOwn := fun _ _ _ _ => rfl
  malformed := fun _ hh => hh
  wallets := fun _ hu => hu
  txnLock := fun _ ht => ⟨ht, rfl, rfl, rfl, rfl⟩
  reqLock := fun _ hk => ⟨hk, rfl, rfl, rfl⟩
  walletLock := fun _ hu => ⟨hu, rfl⟩
  userLock := fun _ hu => hu

theorem Others.trans {s'' : World} (h₁ : Others j s s') (h₂ : Others j s' s'') :
    Others j s s'' where
  clock := Nat.le_trans h₁.clock h₂.clock
  nextTid := Nat.le_trans h₁.nextTid h₂.nextTid
  nextId := Nat.le_trans h₁.nextId h₂.nextId
  validated := Nat.le_trans h₁.validated h₂.validated
  blobs := fun h b hb => h₂.blobs h b (h₁.blobs h b hb)
  ledger := fun h b hb => (h₁.ledger h b hb).trans (h₂.ledger h b (h₁.blobs h b hb))
  handed := fun h hh => h₂.handed h (h₁.handed h hh)
  handedOwn := fun h b hb hj =>
    (h₂.handedOwn h b (h₁.blobs h b hb) hj).trans (h₁.handedOwn h b hb hj)
  malformed := fun h hh => h₂.malformed h (h₁.malformed h hh)
  wallets := fun u hu => h₂.wallets u (h₁.wallets u hu)
  txnLock := fun t ht => by
    obtain ⟨a, b, c, d, e⟩ := h₁.txnLock t ht
    obtain ⟨a', b', c', d', e'⟩ := h₂.txnLock t a
    exact ⟨a', b'.trans b, c'.trans c, d'.trans d, e'.trans e⟩
  reqLock := fun k hk => by
    obtain ⟨a, b, c, d⟩ := h₁.reqLock k hk
    obtain ⟨a', b', c', d'⟩ := h₂.reqLock k a
    exact ⟨a', b'.trans b, c'.trans c, d'.trans d⟩
  walletLock := fun u hu => by
    obtain ⟨a, b⟩ := h₁.walletLock u hu
    obtain ⟨a', b'⟩ := h₂.walletLock u a
    exact ⟨a', b'.trans b⟩
  userLock := fun u hu => h₂.userLock u (h₁.userLock u hu)

theorem Others.tick : Others j s (s.tick S c) :=
  { Others.refl j s with clock := by simp [World.tick]; omega }

theorem Uncommitted.others (hu : Uncommitted i s s') (hij : j ≠ i) : Others j s s' where
  clock := Nat.le_of_eq hu.clock.symm
  nextTid := Nat.le_of_eq hu.nextTid.symm
  nextId := hu.nextId
  validated := Nat.le_of_eq (by rw [hu.ledger])
  blobs := fun h b hb => by
    obtain ⟨new, he, -⟩ := hu.blobs
    rw [he, List.getElem?_append_left (List.getElem?_eq_some_iff.mp hb).1]
    exact hb
  ledger := fun h b _ => hu.ledger ▸ Evolves.refl h b.window _
  handed := hu.handed
  handedOwn := fun h b hb hj => by
    cases hh : s.handed h with
    | true => exact hu.handed h hh
    | false =>
      cases hh' : s'.handed h with
      | false => rfl
      | true =>
        rcases hu.handedOwn h hh' with ht | ⟨b', hb', hi⟩
        · rw [hh] at ht; cases ht
        · rw [hb] at hb'
          cases hb'
          exact absurd (hj.symm.trans hi) hij
  malformed := hu.malformed
  wallets := fun u h => hu.wallets ▸ h
  txnLock := fun t ht => ⟨hu.txnLock.keeps ht, by rw [hu.txns], by rw [hu.settlementLog],
    by rw [hu.cashinLog], by rw [hu.txnOwner]⟩
  reqLock := fun k hk => ⟨hu.reqLock.keeps hk, by rw [hu.reqs], by rw [hu.statusLog],
    by rw [hu.reqOwner]⟩
  walletLock := fun u h => ⟨hu.walletLock.keeps h, by rw [hu.wallets]⟩
  userLock := fun u h => hu.userLock.keeps h

theorem release_other {lock : Nat → Option Nat} {k : Nat} (hij : j ≠ i)
    (h : lock k = some j) : release lock i k = some j := by
  simp [release, h, hij]

theorem releaseAll_others (hij : j ≠ i) : Others j s (s.releaseAll i) :=
  { Others.refl j s with
    txnLock := fun _ ht => ⟨release_other hij ht, rfl, rfl, rfl, rfl⟩
    reqLock := fun _ hk => ⟨release_other hij hk, rfl, rfl, rfl⟩
    walletLock := fun _ hu => ⟨release_other hij hu, rfl⟩
    userLock := fun _ hu => release_other hij hu }

theorem commit_txnOwner {t : Nat} (hw : l.txnWrites t = none) :
    (s.commit i l).txnOwner t = s.txnOwner t := by
  simp only [World.commit, World.releaseAll, hw]

theorem commit_txnOwner_written {t : Nat} {x' : Txn} (hw : l.txnWrites t = some x') :
    (s.commit i l).txnOwner t = ownerAfter i (s.txns t) x' (s.txnOwner t) := by
  simp only [World.commit, World.releaseAll, hw]

theorem commit_reqOwner {k : Nat} (hw : l.reqWrites k = none) :
    (s.commit i l).reqOwner k = s.reqOwner k := by
  simp only [World.commit, World.releaseAll, hw]

theorem commit_reqOwner_written {k : Nat} {q' : CashOutRequest} (hw : l.reqWrites k = some q') :
    (s.commit i l).reqOwner k = reqOwnerAfter i (s.reqs k) q' (s.reqOwner k) := by
  simp only [World.commit, World.releaseAll, hw]

theorem commit_others (hl : l.Locked i s) (hij : j ≠ i) : Others j s (s.commit i l) := by
  -- a row that `j` has locked is not among the writes of `i`
  have htxn : ∀ t, s.txnLock t = some j → l.txnWrites t = none := by
    intro t ht
    cases hw : l.txnWrites t with
    | none => rfl
    | some x =>
      rw [(hl.txns t x hw).1] at ht
      cases ht
      exact absurd rfl hij
  have hreq : ∀ k, s.reqLock k = some j → l.reqWrites k = none := by
    intro k hk
    cases hw : l.reqWrites k with
    | none => rfl
    | some q =>
      rw [(hl.reqs k q hw).1] at hk
      cases hk
      exact absurd rfl hij
  have hwallet : ∀ u, s.walletLock u = some j → l.walletWrites u = none := by
    intro u hu
    cases hw : l.walletWrites u with
    | none => rfl
    | some w =>
      rw [hl.wallets u w hw] at hu
      cases hu
      exact absurd rfl hij
  refine { Others.refl j s with
    wallets := fun u hu => ?_, txnLock := fun t ht => ?_, reqLock := fun k hk => ?_
    walletLock := fun u hu => ?_, userLock := fun _ hu => release_other hij hu }
  · show ((l.walletWrites u).or (s.wallets u)).isSome
    cases l.walletWrites u with
    | none => exact hu
    | some w => rfl
  · have hw := htxn t ht
    refine ⟨release_other hij ht, ?_, ?_, ?_, ?_⟩
    · show (l.txnWrites t).or (s.txns t) = s.txns t
      rw [hw]; rfl
    · show l.settlementLog t ++ s.settlementLog t = s.settlementLog t
      rw [hl.settlementLog t hw]; rfl
    · show l.cashinLog t ++ s.cashinLog t = s.cashinLog t
      rw [hl.cashinLog t hw]; rfl
    · exact commit_txnOwner hw
  · have hw := hreq k hk
    refine ⟨release_other hij hk, ?_, ?_, ?_⟩
    · show (l.reqWrites k).or (s.reqs k) = s.reqs k
      rw [hw]; rfl
    · show l.statusLog k ++ s.statusLog k = s.statusLog k
      rw [hl.statusLog k hw]; rfl
    · exact commit_reqOwner hw
  · refine ⟨release_other hij hu, ?_⟩
    show (l.walletWrites u).or (s.wallets u) = s.wallets u
    rw [hwallet u hu]; rfl

theorem exec_others (hl : l.Locked i s) (hx : exec S i o c l s = some (r, l', s'))
    (hij : j ≠ i) : Others j s s' := by
  by_cases ho : o = .commit
  · subst ho
    rcases exec_commit hx with ⟨-, -, rfl⟩ | ⟨-, rfl, -⟩
    · exact Others.tick
    · exact Others.tick.trans (commit_others hl.tick hij)
  · exact Others.tick.trans ((exec_uncommitted ho hx).others hij)

theorem env_ledger {v : Env} (hx : World.env v s = some s') :
    ∀ (h : Nat) (b : Blob), s.blobs[h]? = some b → Evolves h b.window s.ledger s'.ledger := by
  intro h b hb
  cases v with
  | closeLedger txs =>
    simp only [World.env] at hx
    split at hx
    next hall =>
      cases hx
      refine ⟨Nat.le_succ _, fun r hr => ?_, fun hn n code hc => ?_⟩
      · show (s.ledger.included h).or _ = some r
        rw [hr]; rfl
      · have hc' : (s.ledger.included h).or
            ((txs.lookup h).map (fun code => (s.ledger.validated + 1, code))) = some (n, code) := hc
        rw [hn, Option.none_or] at hc'
        obtain ⟨code', hl, he⟩ := Option.map_eq_some_iff.mp hc'
        cases he
        -- the transaction is one of this ledger, so it was includable
        have hmem : (h, code) ∈ txs := by
          obtain ⟨l₁, l₂, rfl, -⟩ := List.lookup_eq_some_iff.mp hl
          simp
        have hinc := List.all_eq_true.mp hall _ hmem
        simp only [World.includable, hb, Bool.and_eq_true] at hinc
        refine ⟨by simpa using hinc.2, Nat.lt_succ_self _, Nat.le_refl _⟩
    · cases hx
  | hold n held =>
    cases hx
    exact ⟨Nat.le_refl _, fun _ hr => hr, (Evolves.refl h b.window s.ledger).fresh⟩
  | wait dt => cases hx; exact Evolves.refl h b.window _
  | office v =>
    obtain ⟨d, -, rfl⟩ := Option.map_eq_some_iff.mp hx
    exact Evolves.refl h b.window _

/-- What moves without a program touches the ledger, the clock and the office only. -/
theorem env_eq {v : Env} (hx : World.env v s = some s') :
    s' = { s with ledger := s'.ledger, clock := s'.clock, office := s'.office } ∧
      s.clock ≤ s'.clock ∧
      s.ledger.validated ≤ s'.ledger.validated := by
  cases v with
  | closeLedger txs =>
    simp only [World.env] at hx
    split at hx
    · cases hx; exact ⟨rfl, Nat.le_refl _, Nat.le_succ _⟩
    · cases hx
  | hold n held => cases hx; exact ⟨rfl, Nat.le_refl _, Nat.le_refl _⟩
  | wait dt => cases hx; exact ⟨rfl, Nat.le_add_right _ _, Nat.le_refl _⟩
  | office v =>
    obtain ⟨d, -, rfl⟩ := Option.map_eq_some_iff.mp hx
    exact ⟨rfl, Nat.le_refl _, Nat.le_refl _⟩

/-- Only blobs that were handed over and are not malformed get included. -/
theorem env_included {v : Env} (hx : World.env v s = some s') (h : Nat) (r : Nat × TxCode)
    (hr : s'.ledger.included h = some r) :
    s.ledger.included h = some r ∨ (s.handed h = true ∧ s.malformed h = false) := by
  cases v with
  | closeLedger txs =>
    simp only [World.env] at hx
    split at hx
    next hall =>
      cases hx
      have hc : (s.ledger.included h).or
          ((txs.lookup h).map (fun code => (s.ledger.validated + 1, code))) = some r := hr
      cases hi : s.ledger.included h with
      | some r' => left; rw [hi] at hc; exact hc
      | none =>
        right
        rw [hi, Option.none_or] at hc
        obtain ⟨code, hl, -⟩ := Option.map_eq_some_iff.mp hc
        have hmem : (h, code) ∈ txs := by
          obtain ⟨l₁, l₂, rfl, -⟩ := List.lookup_eq_some_iff.mp hl
          simp
        have hinc := List.all_eq_true.mp hall _ hmem
        simp only [World.includable, Bool.and_eq_true] at hinc
        exact ⟨hinc.1.1.1, by simpa using hinc.1.1.2⟩
    · cases hx
  | hold n held => cases hx; exact .inl hr
  | wait dt => cases hx; exact .inl hr
  | office v =>
    obtain ⟨d, -, rfl⟩ := Option.map_eq_some_iff.mp hx
    exact .inl hr

theorem env_others {v : Env} (hx : World.env v s = some s') : Others j s s' := by
  have hledger := env_ledger hx
  obtain ⟨he, hclock, hval⟩ := env_eq hx
  rw [he] at hledger ⊢
  exact { Others.refl j s with clock := hclock, validated := hval, ledger := hledger }

theorem World.Regular.env {v : Env} (h : s.Regular) (hx : World.env v s = some s') :
    s'.Regular := by
  have hledger := env_ledger hx
  have hinc := env_included hx
  obtain ⟨he, hclock, hval⟩ := env_eq hx
  rw [he] at hledger hinc ⊢
  exact
    { h with
      included := fun k r hr => by
        rcases hinc k r hr with hi | hi
        · exact h.included k r hi
        · exact hi
      window := fun k b hb => (hledger k b hb).respects (h.window k b hb)
      blobs := fun k b hb => ⟨Nat.le_trans (h.blobs k b hb).1 hval,
        Nat.le_trans (h.blobs k b hb).2.1 hclock, (h.blobs k b hb).2.2⟩ }

theorem spawn_others : Others j s { s with nextTid := s.nextTid + 1 } :=
  { Others.refl j s with nextTid := Nat.le_succ _ }

theorem World.Regular.spawn (h : s.Regular) :
    ({ s with nextTid := s.nextTid + 1 } : World).Regular :=
  { h with blobs := fun k b hb =>
      ⟨(h.blobs k b hb).1, (h.blobs k b hb).2.1, Nat.lt_succ_of_lt (h.blobs k b hb).2.2⟩ }

theorem World.Regular.releaseAll (h : s.Regular) : (s.releaseAll i).Regular :=
  ⟨h.included, h.window, h.handed, h.blobs, h.txnIds, h.reqIds⟩

/-! ## §6. At the start, and when others move. -/

theorem Session.Locked.of_others (h : l.Locked j s) (ho : Others j s s') : l.Locked j s' :=
  h.mono ho.clock ho.nextTid ho.nextId (fun t ht => (ho.txnLock t ht).1)
    (fun k hk => (ho.reqLock k hk).1) (fun u hu => (ho.walletLock u hu).1)

theorem World.Regular.initial (clock validated : Nat) (held : Nat → Bool) :
    (World.initial clock validated held).Regular where
  included := by intro h r hr; cases hr
  window := by intro h b hb; cases hb
  handed := by intro h hh; cases hh
  blobs := by intro h b hb; cases hb
  txnIds := by intro t x hx; cases hx
  reqIds := by intro k q hq; cases hq

end Orbyt
