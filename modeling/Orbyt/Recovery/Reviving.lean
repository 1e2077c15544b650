/-
  Orbyt.Recovery.Reviving — an administrator's retry of a settlement

  A row that is queued, failed or stuck, on a quiet platform: its retry publishes its message,
  for a row that can be claimed again, or completes the row where its last payment turns out to
  be on the ledger.  A signed attempt must be past its window by then, with the window in the
  server's history.

  Main results:
    * `brings_refuse`  — the ledger proves that a missing payment is dead;
    * `brings_retry`   — one whole retry.
-/
import Orbyt.Recovery.Settling

namespace Orbyt

open Interleave
open Interleave.Prog
open ValidatedLedger
open Function (update)
open SettlementWorker CashinService

variable {S : Setting} {i n now t u : Nat} {e : Entry} {v v' : View} {α : Type} {x txn : Txn}

/-! ## §1. Publishing. -/

/-- The message of `t` is published. -/
def View.publish (v : View) (m : Message) : View := { v with queue := m :: v.queue }

theorem brings_publish {Q : Except Exn Unit → Nat → View → Nat → Prop}
    (hQ : Q (.ok ()) n (v.publish (.settle t)) (now + S.minTick)) :
    Brings S i e (n + 1) (publish t) v now Q := by
  unfold publish
  exact Brings.bind (Brings.attempt (brings_last does_enqueue (brings_ret hQ)))

/-- The row is as it was read: it is retired, and its message published. -/
theorem brings_requeue {Q : Except Exn RetryOutcome → Nat → View → Nat → Prop}
    (hx : v.txns t = some x)
    (hQ : ∀ stamp now', now ≤ now' →
      Q (.ok .requeued) n ((v.putTxn t (retired x stamp x)).publish (.settle t)) now') :
    Brings S i e (n + 4) (requeue t x) v now Q := by
  unfold requeue
  have huntouched : isUntouched x x = true := by
    unfold isUntouched
    simp
  refine brings_call (does_updateTxn hx huntouched fun _ hst => by cases hst) ?_
  refine brings_call does_commit ?_
  rw [if_pos rfl]
  refine brings_call does_refresh (Brings.bind (brings_publish (n := n)
    (v := v.putTxn t (retired x (now + S.minTick) x)) (brings_ret (hQ _ _ ?_))))
  omega

/-! ## §2. What the ledger proves. -/

/-- The row's last payment has a window, which is past and in the server's history. -/
structure View.Provable (v : View) (x : Txn) : Prop where
  window : ∃ last submitted, x.settlementLastLedgerSequence = some last ∧
    x.settlementSubmittedLedgerIndex = some submitted ∧ last < v.ledger.validated ∧
    v.ledger.holds submitted last

theorem brings_refuse {Q : Except Exn Unit → Nat → View → Nat → Prop} (hp : v.Provable x)
    (hQ : Q (.ok ()) n v (now + S.minTick + S.minTick)) :
    Brings S i e (n + 2) (refuseUnlessProvablyDead x) v now Q := by
  obtain ⟨last, submitted, hlast, hsubmitted, hpast, hholds⟩ := hp.window
  unfold refuseUnlessProvablyDead
  rw [hlast, hsubmitted]
  refine brings_call does_latestValidated ?_
  rw [if_neg (Nat.not_le_of_lt hpast)]
  refine brings_call (does_completeRange hholds) ?_
  rw [if_pos rfl]
  exact brings_ret hQ

/-- The ledger is consulted: it has the payment, or never will. -/
theorem brings_consultLedger {h : Nat} {Q : Except Exn (Option TxCode) → Nat → View → Nat → Prop}
    (hp : v.Provable x)
    (hQ : ∀ code now', now ≤ now' → Q (.ok code) n { v with looked := true } now') :
    Brings S i e (n + 3) (consultLedger x h) v now Q := by
  unfold consultLedger
  refine brings_call does_lookup ?_
  cases v.ledger.lookup h with
  | some code =>
    refine Brings.more (n := n) 2 (brings_ret (hQ _ _ ?_))
    omega
  | none =>
    refine Brings.bind (brings_refuse (n := n) ⟨hp.window⟩ (brings_ret (hQ _ _ ?_)))
    omega

/-! ## §3. The retry. -/

/-- What a retry leads to: the row is completed, or it can be claimed, and its message is
published. -/
structure Revived (t : Nat) (x : Txn) (v v' : View) : Prop where
  outcome : (∃ x', v'.txns t = some x' ∧ x'.settlementStatus = .completed) ∨
    ∃ x', v'.txns t = some x' ∧ claimable x' = true ∧
      x'.recipientUserId = x.recipientUserId ∧ x'.quote = x.quote ∧ .settle t ∈ v'.queue
  treasury : v'.treasury = v.treasury
  stored : v'.stored = true ∧ v'.walletsStored = true

theorem claimable_retired {stamp : Nat} (hreceived : x.cashinStatus = .received) :
    claimable (retired txn stamp x) = true := by
  unfold claimable retired
  rw [hreceived]
  rfl

theorem Revived.requeued {stamp : Nat} (hreceived : x.cashinStatus = .received)
    (ht : v'.treasury = v.treasury) :
    Revived t x v ((v'.putTxn t (retired x stamp x)).publish (.settle t)) where
  outcome := .inr ⟨_, View.putTxn_txns _ _, claimable_retired hreceived, rfl, rfl,
    List.mem_cons_self⟩
  treasury := ht
  stored := ⟨rfl, rfl⟩

theorem View.credit_treasury (v : View) (amount : Nat) :
    (v.credit u amount).treasury = v.treasury := by
  unfold View.credit
  split <;> rfl

theorem Revived.completed {x' : Txn} {amount : Nat} (hst : x'.settlementStatus = .completed)
    (ht : v'.treasury = v.treasury) : Revived t x v ((v'.putTxn t x').credit u amount) where
  outcome := .inl ⟨x', by rw [View.credit_txns]; exact View.putTxn_txns _ _, hst⟩
  treasury := (View.credit_treasury _ _).trans ht
  stored := View.credit_stored _ _ rfl rfl

theorem brings_reconcileOrRequeue {Q : Except Exn RetryOutcome → Nat → View → Nat → Prop}
    (hx : v.txns t = some x) (hu : x.recipientUserId = some u)
    (hreceived : x.cashinStatus = .received) (hs : v.walletsStored = true)
    (hp : x.xrplTxHash.isSome = true → v.Provable x)
    (hQ : ∀ r v' now', now ≤ now' → Revived t x v v' → Q (.ok r) n v' now') :
    Brings S i e (n + 8) (reconcileOrRequeue t x) v now Q := by
  have hin : isIn [x.settlementStatus] x = true := by
    unfold isIn
    simp
  unfold reconcileOrRequeue
  cases hhash : x.xrplTxHash with
  | none =>
    refine Brings.more (n := n + 4) 4 (brings_requeue hx fun stamp now' hle => ?_)
    exact hQ _ _ _ hle (.requeued hreceived rfl)
  | some h =>
    refine Brings.bind (brings_consultLedger (n := n + 5) (hp (by rw [hhash]; rfl))
      fun code now₁ hle₁ => ?_)
    -- whatever the ledger says of it, but for a success
    have hrequeue : Brings S i e (n + 5) (requeue t x) { v with looked := true } now₁ Q := by
      refine Brings.more (n := n + 4) 1 (brings_requeue hx fun stamp now' hle => ?_)
      exact hQ _ _ _ (Nat.le_trans hle₁ hle) (.requeued hreceived rfl)
    cases code with
    | none => exact hrequeue
    | some code =>
      cases code with
      | other name => exact hrequeue
      | tesSUCCESS =>
        exact Brings.bind (brings_completeSettlement (n := n) (u := u) (fun _ => hhash.symm) hx hin
          hu hs fun stamp now' hle => brings_ret (hQ _ _ _ (Nat.le_trans hle₁ hle)
            (.completed rfl rfl)))

/-- What is stored of a row lets it be retried, and the ledger has nothing to hold against it. -/
structure View.Retryable (v : View) (x : Txn) (now : Nat) : Prop where
  received : x.cashinStatus = .received
  status : x.settlementStatus = .queued ∧ x.xrplTxHash = none ∨ x.settlementStatus = .failed ∨
    x.settlementStatus = .processing ∧ x.updatedAt + stuckAfter ≤ now
  provable : x.xrplTxHash.isSome = true → v.Provable x

theorem brings_retryable {Q : Except Exn Bool → Nat → View → Nat → Prop}
    (hx : x.settlementStatus = .failed ∨
      x.settlementStatus = .processing ∧ x.updatedAt + stuckAfter ≤ now)
    (hQ : ∀ now', now ≤ now' → Q (.ok true) n v now') :
    Brings S i e (n + 1) (retryable x) v now Q := by
  unfold retryable
  rcases hx with hst | ⟨hst, hstuck⟩
  · rw [hst]
    exact Brings.more (n := n) 1 (brings_ret (hQ _ (Nat.le_refl _)))
  · rw [hst]
    refine brings_call does_now (brings_ret ?_)
    have hle : x.updatedAt + stuckAfter ≤ now + S.minTick :=
      Nat.le_trans hstuck (Nat.le_add_right _ _)
    rw [decide_eq_true hle]
    exact hQ _ (Nat.le_add_right _ _)

theorem brings_retrySettlement {Q : Except Exn RetryOutcome → Nat → View → Nat → Prop}
    (hx : v.txns t = some x) (hu : x.recipientUserId = some u)
    (hreceived : x.cashinStatus = .received) (hs : v.walletsStored = true)
    (hst : x.settlementStatus = .failed ∨
      x.settlementStatus = .processing ∧ x.updatedAt + stuckAfter ≤ now)
    (hp : x.xrplTxHash.isSome = true → v.Provable x)
    (hQ : ∀ r v' now', now ≤ now' → Revived t x v v' → Q (.ok r) n v' now') :
    Brings S i e (n + 9) (retrySettlement t x) v now Q := by
  unfold retrySettlement
  refine Brings.bind (brings_retryable (n := n + 8) hst fun now₁ hle₁ => ?_)
  show Brings S i e (n + 8) (if (true && x.cashinStatus == .received) = true then
    reconcileOrRequeue t x else _) v now₁ Q
  have hif : (true && x.cashinStatus == .received) = true := by
    rw [hreceived]
    rfl
  rw [if_pos hif]
  exact brings_reconcileOrRequeue hx hu hreceived hs hp fun r v' now' hle hrevived =>
    hQ r v' now' (Nat.le_trans hle₁ hle) hrevived

/-- **ONE RETRY** revives its row. -/
theorem brings_retry (hx : v.txns t = some x) (hu : x.recipientUserId = some u)
    (hr : v.Retryable x now) (hst : v.stored = true) (hs : v.walletsStored = true) :
    Brings S i e 10 (body S (.settlementRetry t)) v now fun _ _ v' now' =>
      (v'.stored = true ∧ v'.walletsStored = true) ∧ now ≤ now' ∧ Revived t x v v' := by
  show Brings S i e 10 (settlementRetry t) v now _
  unfold settlementRetry onTransaction
  refine brings_call (n := 9) does_selectTxn ?_
  rw [hx]
  show Brings S i e 9 (if x.settlementStatus = .queued then requeueStuck t else _) v _ _
  rcases hr.status with ⟨hqueued, hhash⟩ | hother
  · rw [if_pos hqueued]
    refine Brings.more (n := 1) 8 (brings_publish ⟨⟨hst, hs⟩, ?_, ?_⟩)
    · omega
    · refine ⟨.inr ⟨x, hx, ?_, rfl, rfl, List.mem_cons_self⟩, rfl, ⟨hst, hs⟩⟩
      unfold claimable
      rw [hqueued, hr.received, hhash]
      rfl
  · have hne : x.settlementStatus ≠ .queued := by
      rcases hother with h | ⟨h, -⟩
      · rw [h]
        nofun
      · rw [h]
        nofun
    rw [if_neg hne]
    refine Brings.bind (brings_retrySettlement (n := 0) hx hu hr.received hs ?_ hr.provable
      fun r v' now' hle hrevived => brings_ret ⟨hrevived.stored, ?_, hrevived⟩)
    · exact hother.imp id fun h => ⟨h.1, Nat.le_trans h.2 (Nat.le_add_right _ _)⟩
    · omega

end Orbyt
