/-
  Orbyt.Guarantees.Recovery — no row is stranded

  Whatever has happened so far, workers that died at any step, messages that were lost,
  publications that failed, retries that were used up and outcomes that were never seen: a
  settlement that is paid for can still be completed, and an approved cash-out can be ended.
  The course that does it is one the platform allows: requests of an admin, deliveries of
  messages that are queued, answered calls, time, ledgers that close, and a server that fills
  the gaps in its history.

  Assumed of a run: workers are punctual, time passes with every call but not so fast that a job
  times out by itself, and signed blobs expire; for a settlement also that one consultation sees
  one ledger or a retry completes a row only with the hash it still carries.

  Main results:
    * `settlement_recoverable` — an admin's retry and one delivery complete it;
    * `cashout_recoverable`    — a sweep and one delivery, or a reconciliation, end it.
-/
import Orbyt.Guarantees.Burns
import Orbyt.Guarantees.Payments
import Orbyt.Invariants.Owned
import Orbyt.Recovery.Retiring
import Orbyt.Recovery.Reviving

namespace Orbyt

open Interleave
open ValidatedLedger
open Trails
open SettlementWorker CashinService CashoutService

variable {S : Setting} {clock validated : Nat} {held : Nat → Bool} {k : Config (platform S)}
  {t u : Nat} {x : Txn}

/-! ## §1. What a stored row allows. -/

/-- Once its last payment is past its window, and the window in the server's history, the row
can be retried. -/
theorem Txn.Kept.retryable {owner : Option (Nat × Nat)} (hk : x.Kept S k.world t owner)
    (hpaired : x.Paired) (hc : S.carriesLastLedger = true)
    (hreceived : x.cashinStatus = .received) (hopen : x.settlementStatus ≠ .completed)
    {v : View} {now : Nat} (hnow : x.updatedAt + stuckAfter ≤ now)
    (hpast : x.settlementLastLedgerSequence.getD 0 < v.ledger.validated)
    (hholds : v.ledger.holds (x.settlementSubmittedLedgerIndex.getD 0)
      (x.settlementLastLedgerSequence.getD 0)) : v.Retryable x now where
  received := hreceived
  status := by
    cases hst : x.settlementStatus with
    | notQueued => exact absurd hst (hpaired.mpr hreceived)
    | queued => exact .inl ⟨rfl, hk.unsigned (.inl hst)⟩
    | processing => exact .inr (.inr ⟨rfl, hnow⟩)
    | completed => exact absurd hst hopen
    | failed => exact .inr (.inl rfl)
  provable := fun hsome => by
    obtain ⟨h, hh⟩ := Option.isSome_iff_exists.mp hsome
    -- a hash that is still there has its window with it
    have hsigned := hk.live h hh
    obtain ⟨last, hlast⟩ := Option.isSome_iff_exists.mp (hsigned.expires hc)
    obtain ⟨b, -, -, -, submitted, hsubmitted, -⟩ := hsigned.blob
    rw [hlast] at hpast hholds
    rw [hsubmitted] at hholds
    exact ⟨last, submitted, hlast, hsubmitted, hpast, hholds⟩

/-! ## §2. Settlements. -/

/-- A quiet platform on which the retry of the row can be made. -/
theorem leads_retryable (hS : 1 ≤ S.minTick) (hp : S.punctual = true)
    (hc : S.carriesLastLedger = true)
    (hview : S.oneLedgerView = true ∨ S.sameHashReconcile = true)
    (h : Reach (M := platform S) (World.initial clock validated held) k)
    (hx : k.world.txns t = some x) (hreceived : x.cashinStatus = .received)
    (hopen : x.settlementStatus ≠ .completed) :
    Leads k fun v now => v.txns t = some x ∧ v.Retryable x now ∧ v.treasuryFree now = true ∧
      v.stored = true ∧ v.walletsStored = true ∧ v.looked = false := by
  have hw := World.Orderly.initial clock validated held
  have hkept := (settlement_reach hS hp hview hw (.initial clock validated held) h).rows t x hx
  have hpaired := ((lifecycle_reach hw h).txn t x hx).paired
  -- wait out the job that may have the row, and the Redis lock
  refine (leads_quiet h).then fun k₁ hq₁ h₁ => ?_
  refine (leads_wait hq₁ (x.updatedAt + stuckAfter + (k.world.treasury.map (·.2)).getD 0)).then
    fun k₂ hq₂ h₂ => ?_
  -- then the window of its last payment
  refine (leads_past (x.settlementLastLedgerSequence.getD 0) hq₂).then fun k₃ hq₃ h₃ => ?_
  refine (leads_hold (x.settlementSubmittedLedgerIndex.getD 0)
    (x.settlementLastLedgerSequence.getD 0) hq₃).mono fun v now h₄ => ?_
  obtain ⟨hview₁, -⟩ := h₁
  obtain ⟨hview₂, hnow₂⟩ := h₂
  obtain ⟨hnow₃, L₃, hview₃, hpast, -⟩ := h₃
  obtain ⟨hnow₄, L₄, hview₄, hholds, hvalidated, -⟩ := h₄
  have hledger : k₃.world.ledger = L₃ := congrArg View.ledger hview₃
  have hwhole : v = k.world.view.withLedger L₄ := by
    rw [hview₄, hview₃, hview₂, hview₁]
    rfl
  have hnow : x.updatedAt + stuckAfter + (k.world.treasury.map (·.2)).getD 0 ≤ now := by
    rw [hnow₄, hnow₃, hnow₂]
    exact Nat.le_add_left _ _
  subst hwhole
  refine ⟨hx, hkept.retryable hpaired hc hreceived hopen ?_ ?_ hholds, ?_, rfl, rfl, rfl⟩
  · omega
  · show _ < L₄.validated
    rw [hvalidated, hledger]
    exact hpast
  · show k.world.treasury.all _ = true
    cases ht : k.world.treasury with
    | none => rfl
    | some p =>
      rw [ht] at hnow
      have hle : x.updatedAt + stuckAfter + p.2 ≤ now := hnow
      exact decide_eq_true (by omega)

/-- **NO PAID-FOR SETTLEMENT IS STRANDED**: from every reachable state some course of a retry, a
delivery, time and a ledger that accepts the payment completes it, with the payment validated. -/
theorem settlement_recoverable (hS : 1 ≤ S.minTick) (hbudget : 30 * S.minTick ≤ jobTimeout)
    (hp : S.punctual = true) (hc : S.carriesLastLedger = true)
    (hview : S.oneLedgerView = true ∨ S.sameHashReconcile = true)
    (h : Reach (M := platform S) (World.initial clock validated held) k)
    (hx : k.world.txns t = some x) (hreceived : x.cashinStatus = .received)
    (hu : x.pays S u) (hamount : x.uctusdAmount ≠ 0) :
    ∃ k', Course Recovers k k' ∧ ∃ x', k'.world.txns t = some x' ∧
      x'.settlementStatus = .completed ∧ ∃ h, x'.xrplTxHash = some h ∧ k'.world.Paid h := by
  have hw := World.Orderly.initial clock validated held
  -- a completed row is paid, whenever it is completed
  have hfinish : (∃ k', Course Recovers k k' ∧ ∃ x', k'.world.txns t = some x' ∧
      x'.settlementStatus = .completed) → ∃ k', Course Recovers k k' ∧ ∃ x',
        k'.world.txns t = some x' ∧ x'.settlementStatus = .completed ∧
          ∃ h, x'.xrplTxHash = some h ∧ k'.world.Paid h := by
    rintro ⟨k', hcourse, x', hx', hst⟩
    have hkept := (settlement_reach hS hp hview hw (.initial clock validated held)
      (hcourse.reach h)).rows t x' hx'
    exact ⟨k', hcourse, x', hx', hst, (hkept.paid hst).2⟩
  refine hfinish ?_
  by_cases hopen : x.settlementStatus = .completed
  · exact ⟨k, .refl, x, hx, hopen⟩
  suffices hleads : Leads k fun v _ =>
      ∃ x', v.txns t = some x' ∧ x'.settlementStatus = .completed by
    obtain ⟨k', hcourse, -, -, hend⟩ := hleads
    exact ⟨k', hcourse, hend⟩
  refine (leads_retryable hS hp hc hview h hx hreceived hopen).then fun k₁ hq₁ h₁ => ?_
  obtain ⟨hx₁, hretryable, hfree, hst₁, hws₁, hlooked₁⟩ := h₁
  refine (leads_request (e := .settlementRetry t) (n := 10) hq₁ trivial (by omega)
    ((brings_retry hx₁ hu.1 hretryable hst₁ hws₁).mono fun _ _ _ _ hr => hr)).then
      fun k₂ hq₂ h₂ => ?_
  obtain ⟨-, v₂, ⟨hle, hrevived⟩, hview₂⟩ := h₂
  rcases hrevived.outcome with ⟨x', hx', hst⟩ | ⟨x', hx', hclaimable, hrecipient, hquote, hqueued⟩
  · exact hq₂.leads ⟨x', by rw [hview₂]; exact hx', hst⟩
  · -- its message is delivered
    have hstored : k₂.world.txns t = some x' := (congrFun (congrArg View.txns hview₂) t).trans hx'
    have htreasury : k₂.world.treasury = k₁.world.treasury :=
      (congrArg View.treasury hview₂).trans hrevived.treasury
    have hmessage : .settle t ∈ k₂.world.queue := by
      rw [show k₂.world.queue = v₂.queue from congrArg View.queue hview₂]
      exact hqueued
    have hfree₂ : k₂.world.view.treasuryFree k₂.world.clock = true :=
      treasuryFree_later hfree htreasury hle
    have hpays : x'.pays S u := ⟨hrecipient.trans hu.1, hu.2⟩
    have hamount' : x'.uctusdAmount ≠ 0 := by
      unfold Txn.uctusdAmount at hamount ⊢
      rw [hquote]
      exact hamount
    have hlock : 9 * S.minTick < treasuryLockTimeout := by
      unfold treasuryLockTimeout
      omega
    refine (leads_request (e := .settle t) (n := 30) hq₂ hmessage hbudget
      ((brings_settle hstored hclaimable hpays hamount' hq₂.still.fresh rfl hfree₂ hlock).mono
        fun _ _ v' _ (hr : Settled t v') => ⟨hr.stored, hr.row⟩)).mono fun v now h₃ => ?_
    obtain ⟨-, v₃, hrow, rfl⟩ := h₃
    exact hrow

/-- A payment whose outcome was never seen. -/
theorem settlement_recoverable_unknown :
    ∃ k, Reach (M := platform .usual) World.empty k ∧
      (k.world.txns 0).map (·.xrplTxHash) = some (some 1) ∧
      ∃ k', Course Recovers k k' ∧ ∃ x', k'.world.txns 0 = some x' ∧
        x'.settlementStatus = .completed ∧ ∃ h, x'.xrplTxHash = some h ∧ k'.world.Paid h := by
  have hrun : (Config.run (unknownOutcome .usual) (Config.initial World.empty)).map
      (fun k => (k.world.txns 0).map fun x =>
        (x.xrplTxHash, x.cashinStatus, x.recipientUserId, x.uctusdAmount))
        = some (some (some 1, .received, some 2, 5)) := by decide +kernel
  obtain ⟨k, hk, hend⟩ := Reach.of_run_map hrun
  obtain ⟨x, hx, hrow⟩ := Option.map_eq_some_iff.mp hend
  simp only [Prod.mk.injEq] at hrow
  obtain ⟨hhash, hreceived, hrecipient, hamount⟩ := hrow
  refine ⟨k, hk, by rw [hx, Option.map_some, hhash], ?_⟩
  refine settlement_recoverable (S := .usual) (by decide) (by decide) rfl rfl (.inl rfl) hk hx
    hreceived (u := 2) ⟨hrecipient, rfl⟩ ?_
  rw [hamount]
  decide

/-! ## §3. Cash-outs. -/

variable {r : Nat} {q : CashOutRequest}

/-- What a cash-out has been stays on its record. -/
theorem step_statusLog {k' : Config (platform S)} {lab : Label (platform S)}
    (hs : k.step lab = some k') : k.world.statusLog r <:+ k'.world.statusLog r := by
  cases lab with
  | start e =>
    injection hs with hs
    subst hs
    exact List.suffix_refl _
  | call i ch =>
    obtain ⟨l, o, f, out, l', s', hth, hx, rfl⟩ := Config.step_call hs
    by_cases ho : o = .commit
    · subst ho
      rcases exec_commit hx with ⟨-, -, rfl⟩ | ⟨-, rfl, -⟩
      · exact List.suffix_refl _
      · exact List.suffix_append _ _
    · rw [(exec_uncommitted ho hx).statusLog]
      exact List.suffix_refl _
  | stop i =>
    obtain ⟨_, _, rfl⟩ := Option.map_eq_some_iff.mp hs
    exact List.suffix_refl _
  | env v =>
    obtain ⟨s', hv, rfl⟩ := Option.map_eq_some_iff.mp hs
    rw [(env_eq hv).1]

theorem course_statusLog {k' : Config (platform S)}
    {ok : Config (platform S) → Label (platform S) → Prop} (h : Course ok k k') :
    k.world.statusLog r <:+ k'.world.statusLog r := by
  induction h with
  | refl => exact List.suffix_refl _
  | step _ _ hs ih => exact ih.trans (step_statusLog hs)

/-- Only an approved cash-out fails once it was approved. -/
theorem failed_of_approved {log : List CashOutStatus}
    (ht : Trail CashOutStatus.Edge (· = .requested) log) (hhead : log.head? = some .failed)
    (happroved : .approved ∈ log) : [.failed, .approved] <:+: log := by
  cases ht with
  | start hstart =>
    subst hstart
    cases hhead
  | @step a b rest htrail hedge =>
    obtain rfl : b = .failed := Option.some.inj hhead
    cases hedge with
    | restore => exact ⟨[], rest, rfl⟩
    | reject =>
      -- nothing comes before `requested`
      cases htrail with
      | start _ => simp at happroved
      | step _ hedge' => cases hedge'

/-- A cash-out that was approved and has failed had its reserve restored. -/
theorem restored_of_failed (h : Reach (M := platform S) (World.initial clock validated held) k)
    (hq : k.world.reqs r = some q) (hfailed : q.status = .failed)
    (happroved : .approved ∈ k.world.statusLog r) : k.world.moves.count (.restore r) = 1 := by
  have hw := World.Orderly.initial clock validated held
  have hlog := (lifecycle_reach hw h).req r q hq
  have hinfix := failed_of_approved hlog.trail (hfailed ▸ hlog.head) happroved
  rw [(books_reach hw (.initial S clock validated held) h).moves (.restore r)]
  show (decide ([.failed, .approved] <:+: k.world.statusLog r)).toNat = 1
  rw [decide_eq_true hinfix]
  rfl

/-- A quiet platform on which the burn, signed or not, is out of its time. -/
theorem leads_retirable (h : Reach (M := platform S) (World.initial clock validated held) k)
    (hq : k.world.reqs r = some q) :
    Leads k fun v now => v.reqs r = some q ∧ v.wallets = k.world.wallets ∧
      (q.approvedAt.getD 0 + publishGrace)
        + (q.burnStartedAt.getD 0 + CashoutWorker.stuckAfter) < now ∧
      q.burnLastLedgerSequence.getD 0 < v.ledger.validated ∧
      v.ledger.holds (q.burnSubmittedLedgerIndex.getD 0) (q.burnLastLedgerSequence.getD 0) := by
  -- quiet first, then time passes, then ledgers, and at last the history is held
  refine (leads_quiet h).then fun k₁ hq₁ h₁ => ?_
  refine (leads_wait hq₁ ((q.approvedAt.getD 0 + publishGrace)
    + (q.burnStartedAt.getD 0 + CashoutWorker.stuckAfter) + 1)).then fun k₂ hq₂ h₂ => ?_
  refine (leads_past (q.burnLastLedgerSequence.getD 0) hq₂).then fun k₃ hq₃ h₃ => ?_
  refine (leads_hold (q.burnSubmittedLedgerIndex.getD 0)
    (q.burnLastLedgerSequence.getD 0) hq₃).mono fun v now h₄ => ?_
  obtain ⟨hview₁, -⟩ := h₁
  obtain ⟨hview₂, hnow₂⟩ := h₂
  obtain ⟨hnow₃, L₃, hview₃, hpast, -⟩ := h₃
  obtain ⟨hnow₄, L₄, hview₄, hholds, hvalidated, -⟩ := h₄
  have hledger : k₃.world.ledger = L₃ := congrArg View.ledger hview₃
  have hwhole : v = k.world.view.withLedger L₄ := by
    rw [hview₄, hview₃, hview₂, hview₁]
    rfl
  subst hwhole
  refine ⟨hq, rfl, ?_, ?_, hholds⟩
  · rw [hnow₄, hnow₃, hnow₂]
    exact Nat.le_add_left _ _
  · show _ < L₄.validated
    rw [hvalidated, hledger]
    exact hpast

/-- An unsigned burn that is out of its time is found by the sweep, and can be claimed. -/
theorem CashOutRequest.Stamped.stale {now : Nat} (hs : q.Stamped) (hst : q.status = .approved)
    (hunsigned : q.xrplBurnTxHash = none)
    (hlate : (q.approvedAt.getD 0 + publishGrace)
      + (q.burnStartedAt.getD 0 + CashoutWorker.stuckAfter) < now) :
    Stale q now ∧ q.Unburned now := by
  obtain ⟨approved, happroved⟩ := Option.isSome_iff_exists.mp (hs hst)
  rw [happroved, Option.getD_some] at hlate
  have hgrace : approved + publishGrace < now := Nat.lt_of_le_of_lt (Nat.le_add_right _ _) hlate
  have hstarted : ∀ started, q.burnStartedAt = some started →
      started + CashoutWorker.stuckAfter < now := by
    intro started hstarted
    rw [hstarted, Option.getD_some] at hlate
    exact Nat.lt_of_le_of_lt (Nat.le_add_left _ _) hlate
  refine ⟨fun cutoff staleBefore hc hb => ?_, hst, hunsigned, hstarted⟩
  -- never claimed it goes by its approval, else by its claim
  unfold isUnpublished
  rw [hst, hunsigned]
  cases hb' : q.burnStartedAt with
  | none =>
    have hlt : approved + publishGrace < cutoff := Nat.lt_of_lt_of_le hgrace hc
    dsimp only
    rw [happroved, Option.any_some, decide_eq_true hlt]
    rfl
  | some started =>
    have hlt : started + CashoutWorker.stuckAfter < staleBefore :=
      Nat.lt_of_lt_of_le (hstarted started hb') hb
    dsimp only
    rw [decide_eq_true hlt]
    rfl

/-- **NO APPROVED CASH-OUT IS STRANDED**: from every reachable state some course of the sweep, a
delivery, a reconciliation, time and the ledger ends it, burned with the burn validated or with its
reserve restored once. -/
theorem cashout_recoverable (hbudget : 17 * S.minTick ≤ jobTimeout) (hp : S.punctual = true)
    (hc : S.carriesLastLedger = true)
    (h : Reach (M := platform S) (World.initial clock validated held) k)
    (hq : k.world.reqs r = some q) (hst : q.status = .approved) :
    ∃ k', Course Recovers k k' ∧ ∃ q', k'.world.reqs r = some q' ∧
      ((q'.status = .completed ∧ ∃ h, q'.xrplBurnTxHash = some h ∧ k'.world.Paid h) ∨
        (q'.status = .failed ∧ k'.world.moves.count (.restore r) = 1)) := by
  have hw := World.Orderly.initial clock validated held
  have hburns := burning_reach hp hw (.initial clock validated held) h
  have howned := owned_reach hw (.initial clock validated held) h
  obtain ⟨w, hwallet⟩ := Option.isSome_iff_exists.mp (howned.wallet r q hq)
  suffices hleads : Leads k fun v _ => ∃ q', v.reqs r = some q' ∧
      (q'.status = .completed ∨ q'.status = .failed) by
    obtain ⟨k', hcourse, -, -, q', hq', hend⟩ := hleads
    have hreach := hcourse.reach h
    refine ⟨k', hcourse, q', hq', hend.imp (fun hdone => ⟨hdone, ?_⟩) fun hfailed => ⟨hfailed, ?_⟩⟩
    · have hburns' := burning_reach hp hw (.initial clock validated held) hreach
      exact (hburns'.rows r q' hq').burned hdone
    · refine restored_of_failed hreach hq' hfailed ((course_statusLog hcourse).subset ?_)
      exact Trail.head_mem (hst ▸ ((lifecycle_reach hw h).req r q hq).head)
  refine (leads_retirable h hq).then fun k₁ hq₁ h₁ => ?_
  obtain ⟨hrow, hwallets, hlate, hpast, hholds⟩ := h₁
  have hwallet₁ : k₁.world.wallets q.walletId = some w := by
    rw [show k₁.world.wallets = k.world.wallets from hwallets]
    exact hwallet
  cases hhash : q.xrplBurnTxHash with
  | some m =>
    -- the ledger knows what has become of the burn
    have hsigned := (hburns.rows r q hq).live m hhash
    obtain ⟨last, hlast⟩ := Option.isSome_iff_exists.mp (hsigned.expires hc)
    obtain ⟨b, -, -, -, submitted, hsubmitted, -⟩ := hsigned.blob
    rw [hlast] at hpast hholds
    rw [hsubmitted] at hholds
    have hprovable : k₁.world.view.ProvableBurn q :=
      ⟨last, submitted, hlast, hsubmitted, hpast, hholds⟩
    refine (leads_request (e := .reconcile r) (n := 10) hq₁ trivial (by omega)
      ((brings_reconcile hrow hst hhash hprovable hwallet₁ rfl).mono
        fun _ _ v' _ (hend : Ended r v') => ⟨hend.stored, hend.row⟩)).mono fun v now h₂ => ?_
    obtain ⟨-, v', hend, rfl⟩ := h₂
    exact hend
  | none =>
    obtain ⟨hstale, hunburned⟩ := (howned.stamped r q hq).stale hst hhash hlate
    refine (leads_swept hq₁ hrow hstale).then fun k₂ hq₂ h₂ => ?_
    obtain ⟨hle, queue, hview, hmem⟩ := h₂
    -- its message is delivered
    have hmessage : .burn r ∈ k₂.world.queue := by
      rw [show k₂.world.queue = queue from congrArg View.queue hview]
      exact hmem
    have hrow₂ : k₂.world.reqs r = some q := (congrFun (congrArg View.reqs hview) r).trans hrow
    have hwallet₂ : k₂.world.wallets q.walletId = some w :=
      (congrFun (congrArg View.wallets hview) q.walletId).trans hwallet₁
    have hunburned₂ : q.Unburned k₂.world.clock := ⟨hst, hhash, fun started hs =>
      Nat.lt_of_lt_of_le (hunburned.stale started hs) hle⟩
    refine (leads_request (e := .burn r) (n := 17) hq₂ hmessage hbudget
      ((brings_burn hrow₂ hunburned₂ hwallet₂ hq₂.still.fresh rfl).mono
        fun _ _ v' _ (hend : Ended r v') => ⟨hend.stored, hend.row⟩)).mono fun v now h₃ => ?_
    obtain ⟨-, v', hend, rfl⟩ := h₃
    exact hend

/-- A worker that dies once it has handed its burn over. -/
def deadAfterBurning : List (Label (platform .usual)) :=
  approving .usual ++ steps .usual 4 1 ++ [.stop 4] ++ claimingBurn .usual 5
    ++ submittingBurn .usual 5 140 ++ [.stop 5]

theorem cashout_recoverable_dead :
    ∃ k, Reach (M := platform .usual) World.empty k ∧
      (k.world.reqs 1).map (·.xrplBurnTxHash) = some (some 2) ∧
      ∃ k', Course Recovers k k' ∧ ∃ q', k'.world.reqs 1 = some q' ∧
        ((q'.status = .completed ∧ ∃ h, q'.xrplBurnTxHash = some h ∧ k'.world.Paid h) ∨
          (q'.status = .failed ∧ k'.world.moves.count (.restore 1) = 1)) := by
  have hrun : (Config.run deadAfterBurning (Config.initial World.empty)).map
      (fun k => (k.world.reqs 1).map fun q => (q.xrplBurnTxHash, q.status))
        = some (some (some 2, .approved)) := by decide +kernel
  obtain ⟨k, hk, hend⟩ := Reach.of_run_map hrun
  obtain ⟨q, hq, hrow⟩ := Option.map_eq_some_iff.mp hend
  obtain ⟨hhash, hst⟩ := Prod.mk.inj hrow
  refine ⟨k, hk, by rw [hq, Option.map_some, hhash], ?_⟩
  exact cashout_recoverable (S := .usual) (by decide) rfl rfl hk hq hst

end Orbyt
