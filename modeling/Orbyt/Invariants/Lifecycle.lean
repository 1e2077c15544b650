/-
  Orbyt.Invariants.Lifecycle — the edges rows move along

  Which status changes there are at all, in any interleaving of any number of
  requests and jobs, and that the terms of a row never change.  Nothing about
  timing, ledger or sessions is assumed: every edge is guarded by the UPDATE that
  takes it.

  With the locks of `Calls` this is the discipline `rules` that every program keeps
  by its footprint alone; the protocols of the other modules are protocols over it.

  Main results:
    * `TxnUpdate.moves`, `ReqUpdate.moves` — each UPDATE of the lists takes an edge
      or leaves the statuses alone;
    * `rules_kept`, `lifecycle_reach` — in every reachable state every row's history
      is a trail of such edges that ends in its present statuses.
-/
import Orbyt.Lib.Trail
import Orbyt.Rules.Footprints

namespace Orbyt

open Interleave
open Trails
open Function (update)

/-! ## §1. Edges. -/

inductive CashInStatus.Edge : CashInStatus → CashInStatus → Prop where
  | confirm : CashInStatus.Edge .pending .received
  | refuse : CashInStatus.Edge .pending .failed

inductive SettlementStatus.Edge : SettlementStatus → SettlementStatus → Prop where
  | queue : SettlementStatus.Edge .notQueued .queued
  | claim : SettlementStatus.Edge .queued .processing
  | unpublished : SettlementStatus.Edge .queued .failed
  | requeue : SettlementStatus.Edge .processing .queued
  | complete : SettlementStatus.Edge .processing .completed
  | fail : SettlementStatus.Edge .processing .failed
  | retry : SettlementStatus.Edge .failed .queued
  | reconcile : SettlementStatus.Edge .failed .completed

inductive CashOutStatus.Edge : CashOutStatus → CashOutStatus → Prop where
  | approve : CashOutStatus.Edge .requested .approved
  | reject : CashOutStatus.Edge .requested .failed
  | complete : CashOutStatus.Edge .approved .completed
  | restore : CashOutStatus.Edge .approved .failed

/-- A send is queued for settlement exactly when its cash-in is received. -/
def Txn.Paired (x : Txn) : Prop :=
  x.settlementStatus ≠ .notQueued ↔ x.cashinStatus = .received

/-- A payout reference is there exactly when the cash-out is completed. -/
def CashOutRequest.PaidOut (q : CashOutRequest) : Prop :=
  q.fiatPayoutReference.isSome = true ↔ q.status = .completed

/-- A pending send has not been queued. -/
theorem Txn.Paired.notQueued {x : Txn} (h : x.Paired) (hp : x.cashinStatus ≠ .received) :
    x.settlementStatus = .notQueued := by
  by_contra hn
  exact hp (h.mp hn)

theorem isIn_iff {statuses : List SettlementStatus} {x : Txn} :
    SettlementWorker.isIn statuses x = true ↔ x.settlementStatus ∈ statuses := by
  simp [SettlementWorker.isIn]

/-! ## §2. What one UPDATE can do to the statuses. -/

structure Txn.Moves (x x' : Txn) : Prop where
  paired : x'.Paired
  settlement : x'.settlementStatus = x.settlementStatus ∨
    SettlementStatus.Edge x.settlementStatus x'.settlementStatus
  cashin : x'.cashinStatus = x.cashinStatus ∨ CashInStatus.Edge x.cashinStatus x'.cashinStatus

/-- A settlement edge that leaves the cash-in alone. -/
theorem Txn.Moves.of_edge {x x' : Txn} {a b : SettlementStatus} (he : SettlementStatus.Edge a b)
    (hp : x.Paired) (hs : x.settlementStatus = a) (hs' : x'.settlementStatus = b)
    (ha : a ≠ .notQueued) (hc : x'.cashinStatus = x.cashinStatus) : x.Moves x' where
  paired := by
    have hb : b ≠ .notQueued := by cases he <;> decide
    exact ⟨fun _ => hc.trans (hp.mp (hs ▸ ha)), fun _ => hs' ▸ hb⟩
  settlement := .inr (by rw [hs, hs']; exact he)
  cashin := .inl hc

theorem Txn.Moves.of_same {x x' : Txn} (hp : x.Paired)
    (hs : x'.settlementStatus = x.settlementStatus) (hc : x'.cashinStatus = x.cashinStatus) :
    x.Moves x' where
  paired := by unfold Txn.Paired; rw [hs, hc]; exact hp
  settlement := .inl hs
  cashin := .inl hc

/-- A pending cash-in that fails. -/
theorem Txn.Moves.of_refuse {x x' : Txn} (hp : x.Paired) (hpending : x.cashinStatus = .pending)
    (hs : x'.settlementStatus = x.settlementStatus) (hc : x'.cashinStatus = .failed) :
    x.Moves x' where
  paired := by
    have hn : x.settlementStatus = .notQueued := hp.notQueued (by rw [hpending]; decide)
    unfold Txn.Paired
    rw [hs, hc, hn]
    simp
  settlement := .inl hs
  cashin := .inr (by rw [hpending, hc]; exact .refuse)

theorem TxnUpdate.moves {e : Entry} {t : Nat} {cond : Txn → Bool} {values : Nat → Txn → Txn}
    (h : TxnUpdate e t cond values) (now : Nat) {x : Txn} (hp : x.Paired)
    (hc : cond x = true) : x.Moves (values now x) := by
  cases h with
  | claim =>
    simp only [SettlementWorker.claimable, Bool.and_eq_true, beq_iff_eq] at hc
    exact .of_edge .claim hp hc.1.1 rfl (by decide) rfl
  | remember => exact .of_same hp rfl rfl
  | complete => exact .of_edge .complete hp (by simpa using isIn_iff.mp hc) rfl (by decide) rfl
  | fail => exact .of_edge .fail hp (by simpa using isIn_iff.mp hc) rfl (by decide) rfl
  | requeue => exact .of_edge .requeue hp (by simpa using isIn_iff.mp hc) rfl (by decide) rfl
  | receive =>
    have hpending : x.cashinStatus = .pending := by simpa [CashinService.isPending] using hc
    have hn : x.settlementStatus = .notQueued := hp.notQueued (by rw [hpending]; decide)
    refine ⟨by simp [Txn.Paired, CashinService.received], .inr ?_, .inr ?_⟩
    · rw [hn]; exact .queue
    · rw [hpending]; exact .confirm
  | unpublished | unpublishedRetry =>
    exact .of_edge .unpublished hp (by simpa using isIn_iff.mp hc) rfl (by decide) rfl
  | refuse => exact .of_refuse hp (by simpa [CashinService.isPending] using hc) rfl rfl
  | reconcile _ _ _ hst =>
    have hs := isIn_iff.mp hc
    rw [List.mem_singleton] at hs
    rcases hst with rfl | rfl
    · exact .of_edge .reconcile hp hs rfl (by decide) rfl
    · exact .of_edge .complete hp hs rfl (by decide) rfl
  | retire _ _ hst =>
    simp only [CashinService.isUntouched, Bool.and_eq_true, beq_iff_eq] at hc
    rw [← hc.1] at hst
    rcases hst with hs | hs
    · exact .of_edge .retry hp hs rfl (by decide) rfl
    · exact .of_edge .requeue hp hs rfl (by decide) rfl
  | flag => exact .of_same hp rfl rfl

theorem isStale_moves (asked now : Nat) {x : Txn} (hp : x.Paired)
    (hc : CashinService.isStale asked x = true) : x.Moves (CashinService.expired now x) := by
  simp only [CashinService.isStale, CashinService.isPending, Bool.and_eq_true, beq_iff_eq] at hc
  exact .of_refuse hp hc.1 rfl rfl

structure CashOutRequest.Moves (q q' : CashOutRequest) : Prop where
  paidOut : q'.PaidOut
  status : q'.status = q.status ∨ CashOutStatus.Edge q.status q'.status

theorem CashOutRequest.Moves.of_same {q q' : CashOutRequest} (hp : q.PaidOut)
    (hs : q'.status = q.status) (hr : q'.fiatPayoutReference = q.fiatPayoutReference) :
    q.Moves q' := ⟨by unfold CashOutRequest.PaidOut; rw [hs, hr]; exact hp, .inl hs⟩

/-- An edge between statuses that are not `completed`. -/
theorem CashOutRequest.Moves.of_edge {q q' : CashOutRequest} {a b : CashOutStatus}
    (he : CashOutStatus.Edge a b) (hp : q.PaidOut) (hs : q.status = a) (hs' : q'.status = b)
    (ha : a ≠ .completed) (hb : b ≠ .completed)
    (hr : q'.fiatPayoutReference = q.fiatPayoutReference) : q.Moves q' where
  paidOut := by
    unfold CashOutRequest.PaidOut
    rw [hr]
    exact ⟨fun h => absurd (hs.symm.trans (hp.mp h)) ha, fun h => absurd (hs'.symm.trans h) hb⟩
  status := .inr (by rw [hs, hs']; exact he)

theorem ReqUpdate.moves {e : Entry} {r : Nat} {cond : CashOutRequest → Bool}
    {values : Nat → CashOutRequest → CashOutRequest} (h : ReqUpdate e r cond values) (now : Nat)
    {q : CashOutRequest} (hp : q.PaidOut) (hc : cond q = true) : q.Moves (values now q) := by
  cases h with
  | claim | release | remember | hold => exact .of_same hp rfl rfl
  | complete | reconcileComplete =>
    have hs : q.status = .approved := by simpa [CashoutWorker.isApproved] using hc
    refine ⟨by simp [CashOutRequest.PaidOut, CashoutWorker.completed], .inr ?_⟩
    rw [hs]
    exact .complete
  | fail | unpublished | reconcileFail =>
    exact .of_edge .restore hp (by simpa [CashoutWorker.isApproved] using hc) rfl (by decide)
      (by decide) rfl
  | approve =>
    exact .of_edge .approve hp (by simpa [CashoutService.isRequested] using hc) rfl (by decide)
      (by decide) rfl
  | reject =>
    exact .of_edge .reject hp (by simpa [CashoutService.isRequested] using hc) rfl (by decide)
      (by decide) rfl

/-! ## §3. What no UPDATE changes. -/

/-- The terms of a send: who, for whom, at which price, since when, under which key. -/
structure Txn.SameTerms (x x' : Txn) : Prop where
  sender : x'.senderId = x.senderId
  recipient : x'.recipientUserId = x.recipientUserId
  quote : x'.quote = x.quote
  created : x'.createdAt = x.createdAt
  idempotencyKey : x'.idempotencyKey = x.idempotencyKey

structure CashOutRequest.SameTerms (q q' : CashOutRequest) : Prop where
  wallet : q'.walletId = q.walletId
  pricing : q'.pricing = q.pricing
  idempotencyKey : q'.idempotencyKey = q.idempotencyKey

theorem Txn.SameTerms.refl (x : Txn) : x.SameTerms x := ⟨rfl, rfl, rfl, rfl, rfl⟩

theorem Txn.SameTerms.trans {x x' x'' : Txn} (h : x.SameTerms x') (h' : x'.SameTerms x'') :
    x.SameTerms x'' :=
  ⟨h'.sender.trans h.sender, h'.recipient.trans h.recipient, h'.quote.trans h.quote,
    h'.created.trans h.created, h'.idempotencyKey.trans h.idempotencyKey⟩

theorem CashOutRequest.SameTerms.refl (q : CashOutRequest) : q.SameTerms q := ⟨rfl, rfl, rfl⟩

theorem CashOutRequest.SameTerms.trans {q q' q'' : CashOutRequest} (h : q.SameTerms q')
    (h' : q'.SameTerms q'') : q.SameTerms q'' :=
  ⟨h'.wallet.trans h.wallet, h'.pricing.trans h.pricing,
    h'.idempotencyKey.trans h.idempotencyKey⟩

theorem TxnUpdate.terms {e : Entry} {t : Nat} {cond : Txn → Bool} {values : Nat → Txn → Txn}
    (h : TxnUpdate e t cond values) (now : Nat) (x : Txn) : x.SameTerms (values now x) := by
  cases h <;> exact ⟨rfl, rfl, rfl, rfl, rfl⟩

theorem ReqUpdate.terms {e : Entry} {r : Nat} {cond : CashOutRequest → Bool}
    {values : Nat → CashOutRequest → CashOutRequest} (h : ReqUpdate e r cond values) (now : Nat)
    (q : CashOutRequest) : q.SameTerms (values now q) := by
  cases h <;> exact ⟨rfl, rfl, rfl⟩

/-- Every stored row is still there, on the same terms. -/
structure TermsKept (s s' : World) : Prop where
  txn : ∀ t x, s.txns t = some x → ∃ x', s'.txns t = some x' ∧ x.SameTerms x'
  req : ∀ r q, s.reqs r = some q → ∃ q', s'.reqs r = some q' ∧ q.SameTerms q'

theorem TermsKept.of_eq {s s' : World} (ht : s'.txns = s.txns) (hr : s'.reqs = s.reqs) :
    TermsKept s s' :=
  ⟨fun t x hx => ⟨x, by rw [ht]; exact hx, .refl x⟩,
    fun r q hq => ⟨q, by rw [hr]; exact hq, .refl q⟩⟩

theorem TermsKept.trans {s s' s'' : World} (h : TermsKept s s') (h' : TermsKept s' s'') :
    TermsKept s s'' where
  txn := fun t x hx => by
    obtain ⟨y, hy, hxy⟩ := h.txn t x hx
    obtain ⟨z, hz, hyz⟩ := h'.txn t y hy
    exact ⟨z, hz, hxy.trans hyz⟩
  req := fun r q hq => by
    obtain ⟨y, hy, hqy⟩ := h.req r q hq
    obtain ⟨z, hz, hyz⟩ := h'.req r y hy
    exact ⟨z, hz, hqy.trans hyz⟩

/-! ## §4. Histories. -/

/-- A row's histories are trails that end in its present statuses. -/
structure Txn.Logged (x : Txn) (settlement : List SettlementStatus)
    (cashin : List CashInStatus) : Prop where
  paired : x.Paired
  settlementTrail : Trail SettlementStatus.Edge (· = .notQueued) settlement
  settlementHead : settlement.head? = some x.settlementStatus
  cashinTrail : Trail CashInStatus.Edge (· ≠ .received) cashin
  cashinHead : cashin.head? = some x.cashinStatus

structure CashOutRequest.Logged (q : CashOutRequest) (log : List CashOutStatus) : Prop where
  paidOut : q.PaidOut
  trail : Trail CashOutStatus.Edge (· = .requested) log
  head : log.head? = some q.status

theorem logStatus_some {σ : Type} [DecidableEq σ] {a b : σ} {log stored : List σ} :
    logStatus (some a) b log ++ stored = if a = b then log ++ stored else b :: (log ++ stored) := by
  unfold logStatus
  by_cases h : a = b <;> simp [h]

theorem Txn.Logged.moves {x x' : Txn} {settlement settlement' : List SettlementStatus}
    {cashin cashin' : List CashInStatus}
    (h : x.Logged (settlement ++ settlement') (cashin ++ cashin'))
    (hm : x.Moves x') :
    x'.Logged
      (logStatus (some x.settlementStatus) x'.settlementStatus settlement ++ settlement')
      (logStatus (some x.cashinStatus) x'.cashinStatus cashin ++ cashin') := by
  rw [logStatus_some, logStatus_some]
  have hs := h.settlementTrail.move h.settlementHead hm.settlement
  have hc := h.cashinTrail.move h.cashinHead hm.cashin
  exact ⟨hm.paired, hs.1, hs.2, hc.1, hc.2⟩

theorem CashOutRequest.Logged.moves {q q' : CashOutRequest} {log log' : List CashOutStatus}
    (h : q.Logged (log ++ log')) (hm : q.Moves q') :
    q'.Logged (logStatus (some q.status) q'.status log ++ log') := by
  rw [logStatus_some]
  have hs := h.trail.move h.head hm.status
  exact ⟨hm.paidOut, hs.1, hs.2⟩

/-- A send as it is inserted. -/
theorem Txn.Logged.new {x : Txn} (hs : x.settlementStatus = .notQueued)
    (hc : x.cashinStatus ≠ .received) :
    x.Logged [x.settlementStatus] [x.cashinStatus] where
  paired := ⟨fun h => absurd hs h, fun h => absurd h hc⟩
  settlementTrail := .start hs
  settlementHead := rfl
  cashinTrail := .start hc
  cashinHead := rfl

/-- Every stored row is `Logged`, and what is not stored has no history. -/
structure Lifecycle (s : World) : Prop where
  txn : ∀ t x, s.txns t = some x → x.Logged (s.settlementLog t) (s.cashinLog t)
  noTxn : ∀ t, s.txns t = none → s.settlementLog t = [] ∧ s.cashinLog t = []
  req : ∀ r q, s.reqs r = some q → q.Logged (s.statusLog r)
  noReq : ∀ r, s.reqs r = none → s.statusLog r = []

/-- The same for the rows a session has written, under its locks; what it has written
over a stored row has that row's terms. -/
structure Session.LogsWrites (i : Nat) (l : Session) (s : World) : Prop where
  locked : l.Locked i s
  txnTerms : ∀ t x', l.txnWrites t = some x' → ∀ x, s.txns t = some x → x.SameTerms x'
  reqTerms : ∀ r q', l.reqWrites r = some q' → ∀ q, s.reqs r = some q → q.SameTerms q'
  txn : ∀ t x, l.txnWrites t = some x →
    x.Logged (l.settlementLog t ++ s.settlementLog t) (l.cashinLog t ++ s.cashinLog t)
  req : ∀ r q, l.reqWrites r = some q → q.Logged (l.statusLog r ++ s.statusLog r)

variable {S : Setting} {i : Nat} {l l' : Session} {s s' : World}

theorem Session.LogsWrites.start (e : Entry) (h : i < s.nextTid) :
    (Session.start e).LogsWrites i s where
  locked := .start e h
  txnTerms := by intro t x hx; cases hx
  reqTerms := by intro r q hq; cases hq
  txn := by intro t x hx; cases hx
  req := by intro r q hq; cases hq

theorem Session.LogsWrites.of_others (h : l.LogsWrites i s) (ho : Others i s s') :
    l.LogsWrites i s' where
  locked := h.locked.of_others ho
  txnTerms := fun t x' hx' x hx => by
    rw [(ho.txnLock t (h.locked.txns t x' hx').1).2.1] at hx
    exact h.txnTerms t x' hx' x hx
  reqTerms := fun r q' hq' q hq => by
    rw [(ho.reqLock r (h.locked.reqs r q' hq').1).2.1] at hq
    exact h.reqTerms r q' hq' q hq
  txn := fun t x hx => by
    obtain ⟨-, -, h₁, h₂, -⟩ := ho.txnLock t (h.locked.txns t x hx).1
    rw [h₁, h₂]
    exact h.txn t x hx
  req := fun r q hq => by
    obtain ⟨-, -, h₁, -⟩ := ho.reqLock r (h.locked.reqs r q hq).1
    rw [h₁]
    exact h.req r q hq

/-- A row that a session reads is `Logged`, whether stored or written by itself. -/
theorem Session.LogsWrites.read_txn (h : l.LogsWrites i s) (hs : Lifecycle s) {t : Nat} {x : Txn}
    (hx : l.txn s t = some x) :
    x.Logged (l.settlementLog t ++ s.settlementLog t) (l.cashinLog t ++ s.cashinLog t) := by
  rcases Session.txn_cases hx with hw | ⟨hw, ht⟩
  · exact h.txn t x hw
  · rw [h.locked.settlementLog t hw, h.locked.cashinLog t hw]
    exact hs.txn t x ht

theorem Session.LogsWrites.read_req (h : l.LogsWrites i s) (hs : Lifecycle s) {r : Nat}
    {q : CashOutRequest} (hq : l.req s r = some q) :
    q.Logged (l.statusLog r ++ s.statusLog r) := by
  rcases Session.req_cases hq with hw | ⟨hw, hr⟩
  · exact h.req r q hw
  · rw [h.locked.statusLog r hw]
    exact hs.req r q hr

theorem Session.LogsWrites.read_txnTerms (h : l.LogsWrites i s) {t : Nat} {x y : Txn}
    (hx : l.txn s t = some x) (hy : s.txns t = some y) : y.SameTerms x := by
  rcases Session.txn_cases hx with hw | ⟨-, ht⟩
  · exact h.txnTerms t x hw y hy
  · obtain rfl : y = x := Option.some.inj (hy.symm.trans ht)
    exact .refl y

theorem Session.LogsWrites.read_reqTerms (h : l.LogsWrites i s) {r : Nat} {q y : CashOutRequest}
    (hq : l.req s r = some q) (hy : s.reqs r = some y) : y.SameTerms q := by
  rcases Session.req_cases hq with hw | ⟨-, hr⟩
  · exact h.reqTerms r q hw y hy
  · obtain rfl : y = q := Option.some.inj (hy.symm.trans hr)
    exact .refl y

/-! ## §5. Every call keeps them. -/

variable {e : Entry} {o : Op} {c : Choice}

/-- A call that writes no row. -/
theorem Session.LogsWrites.of_same (h : l.LogsWrites i s) (hu : Uncommitted i (s.tick S c) s')
    (hl : l'.Locked i s')
    (htxns : l'.txnWrites = l.txnWrites ∧ l'.settlementLog = l.settlementLog ∧
      l'.cashinLog = l.cashinLog)
    (hreqs : l'.reqWrites = l.reqWrites ∧ l'.statusLog = l.statusLog) : l'.LogsWrites i s' where
  locked := hl
  txnTerms := by rw [htxns.1, hu.txns]; exact h.txnTerms
  reqTerms := by rw [hreqs.1, hu.reqs]; exact h.reqTerms
  txn := fun t x hx => by
    rw [htxns.1] at hx
    rw [htxns.2.1, htxns.2.2, hu.settlementLog, hu.cashinLog]
    exact h.txn t x hx
  req := fun r q hq => by
    rw [hreqs.1] at hq
    rw [hreqs.2, hu.statusLog]
    exact h.req r q hq

/-- One row of `transactions` written; `x` is what stood there. -/
theorem Session.LogsWrites.writeTxn (h : l.LogsWrites i s) (hu : Uncommitted i (s.tick S c) s')
    {now t : Nat} {x : Option Txn} {x' : Txn} (hl : (l.writeTxn now t x x').Locked i s')
    (hterms : ∀ y, s.txns t = some y → y.SameTerms x')
    (hx' : x'.Logged
      (logStatus (x.map (·.settlementStatus)) x'.settlementStatus (l.settlementLog t)
        ++ s.settlementLog t)
      (logStatus (x.map (·.cashinStatus)) x'.cashinStatus (l.cashinLog t) ++ s.cashinLog t)) :
    (l.writeTxn now t x x').LogsWrites i s' where
  locked := hl
  txnTerms := fun t' y hy z hz => by
    rw [hu.txns] at hz
    by_cases ht : t' = t
    · subst ht
      obtain rfl : x' = y := by simpa [Session.writeTxn] using hy
      exact hterms z hz
    · exact h.txnTerms t' y (by simpa [Session.writeTxn, update, ht] using hy) z hz
  reqTerms := by rw [hu.reqs]; exact h.reqTerms
  txn := fun t' y hy => by
    rw [hu.settlementLog, hu.cashinLog]
    by_cases ht : t' = t
    · subst ht
      obtain rfl : x' = y := by simpa [Session.writeTxn] using hy
      simpa [Session.writeTxn] using hx'
    · have hy' : l.txnWrites t' = some y := by simpa [Session.writeTxn, update, ht] using hy
      simpa [Session.writeTxn, update, ht] using h.txn t' y hy'
  req := fun r q hq => by
    rw [hu.statusLog]
    exact h.req r q hq

theorem Session.LogsWrites.writeReq (h : l.LogsWrites i s) (hu : Uncommitted i (s.tick S c) s')
    {now r : Nat} {q : Option CashOutRequest} {q' : CashOutRequest}
    (hl : (l.writeReq now r q q').Locked i s')
    (hterms : ∀ y, s.reqs r = some y → y.SameTerms q')
    (hq' : q'.Logged (logStatus (q.map (·.status)) q'.status (l.statusLog r) ++ s.statusLog r)) :
    (l.writeReq now r q q').LogsWrites i s' where
  locked := hl
  txnTerms := by rw [hu.txns]; exact h.txnTerms
  reqTerms := fun r' y hy z hz => by
    rw [hu.reqs] at hz
    by_cases hr : r' = r
    · subst hr
      obtain rfl : q' = y := by simpa [Session.writeReq] using hy
      exact hterms z hz
    · exact h.reqTerms r' y (by simpa [Session.writeReq, update, hr] using hy) z hz
  txn := fun t x hx => by
    rw [hu.settlementLog, hu.cashinLog]
    exact h.txn t x hx
  req := fun r' y hy => by
    rw [hu.statusLog]
    by_cases hr : r' = r
    · subst hr
      obtain rfl : q' = y := by simpa [Session.writeReq] using hy
      simpa [Session.writeReq] using hq'
    · have hy' : l.reqWrites r' = some y := by simpa [Session.writeReq, update, hr] using hy
      simpa [Session.writeReq, update, hr] using h.req r' y hy'

/-- One UPDATE over the whole table. -/
theorem Session.LogsWrites.writeTxns (h : l.LogsWrites i s) (hs : Lifecycle s)
    (hu : Uncommitted i (s.tick S c) s') {cond : Txn → Bool} {values : Nat → Txn → Txn}
    (hm : ∀ now x, x.Paired → cond x = true → x.Moves (values now x))
    (hterms : ∀ (now : Nat) (x : Txn), x.SameTerms (values now x))
    (hl : (l.writeTxns (s.tick S c) cond values).Locked i s') :
    (l.writeTxns (s.tick S c) cond values).LogsWrites i s' where
  locked := hl
  txnTerms := fun t y hy z hz => by
    rw [hu.txns] at hz
    cases hmatch : l.matching (s.tick S c) cond t with
    | none => exact h.txnTerms t y (by simpa [Session.writeTxns, hmatch] using hy) z hz
    | some x =>
      obtain ⟨-, hx, -⟩ := matching_eq_some hmatch
      obtain rfl : values (s.tick S c).clock x = y := by
        simpa [Session.writeTxns, hmatch] using hy
      exact (h.read_txnTerms (t := t) (x := x) hx hz).trans (hterms _ x)
  reqTerms := by rw [hu.reqs]; exact h.reqTerms
  txn := fun t y hy => by
    rw [hu.settlementLog, hu.cashinLog]
    cases hmatch : l.matching (s.tick S c) cond t with
    | none =>
      have hy' : l.txnWrites t = some y := by simpa [Session.writeTxns, hmatch] using hy
      simpa [Session.writeTxns, hmatch] using h.txn t y hy'
    | some x =>
      obtain ⟨-, hx, hc⟩ := matching_eq_some hmatch
      obtain rfl : values (s.tick S c).clock x = y := by
        simpa [Session.writeTxns, hmatch] using hy
      have hlog := h.read_txn hs (t := t) (x := x) hx
      simpa [Session.writeTxns, hmatch] using hlog.moves (hm _ x hlog.paired hc)
  req := fun r q hq => by
    rw [hu.statusLog]
    exact h.req r q hq

theorem Session.LogsWrites.call (he : e.may o) (ho : o ≠ .commit) (h : l.LogsWrites i s)
    (hs : Lifecycle s) (hr : s.Regular) {r : Except Exn o.Res}
    (hx : exec S i o c l s = some (r, l', s')) : l'.LogsWrites i s' := by
  have hu := exec_uncommitted ho hx
  have hl := exec_locked hr h.locked hx
  cases o with
  | commit => exact absurd rfl ho
  | updateTxn t cond values =>
    rcases exec_updateTxn hx with ⟨-, -, rfl⟩ | ⟨-, rfl, -⟩ | ⟨x, -, -, hxt, hc, rfl, -⟩
    · exact h.of_same hu hl ⟨rfl, rfl, rfl⟩ ⟨rfl, rfl⟩
    · exact h.of_same hu hl ⟨rfl, rfl, rfl⟩ ⟨rfl, rfl⟩
    · have hlog := h.read_txn hs hxt
      exact h.writeTxn hu hl (fun y hy => (h.read_txnTerms hxt hy).trans (he.terms _ x))
        (hlog.moves (he.moves _ hlog.paired hc))
  | updateTxns cond values =>
    obtain ⟨-, asked, rfl, rfl⟩ := he
    rcases exec_updateTxns hx with ⟨-, rfl⟩ | ⟨-, rfl, -⟩
    · exact h.of_same hu hl ⟨rfl, rfl, rfl⟩ ⟨rfl, rfl⟩
    · exact h.writeTxns hs hu (fun now x hp hc => isStale_moves asked now hp hc)
        (fun _ _ => ⟨rfl, rfl, rfl, rfl, rfl⟩) hl
  | insertTxn row =>
    obtain ⟨form, recipientId, quote, last4, declined, -, rfl⟩ := he
    rcases exec_insertTxn hx with ⟨-, -, rfl⟩ | ⟨-, -, hn, rfl, -, -⟩
    · exact h.of_same hu hl ⟨rfl, rfl, rfl⟩ ⟨rfl, rfl⟩
    · obtain ⟨hw, ht⟩ := Option.or_eq_none_iff.mp hn
      refine h.writeTxn hu hl (fun y hy => by rw [ht] at hy; cases hy) ?_
      -- a new row: its logs are empty, here and in the table
      rw [h.locked.settlementLog _ hw, h.locked.cashinLog _ hw, (hs.noTxn _ ht).1,
        (hs.noTxn _ ht).2]
      refine Txn.Logged.new rfl ?_
      cases declined <;> simp [CashinService.newTransaction]
  | updateReq k cond values =>
    rcases exec_updateReq hx with ⟨-, -, rfl⟩ | ⟨-, rfl, -⟩ | ⟨q, -, -, hq, hc, rfl, -⟩
    · exact h.of_same hu hl ⟨rfl, rfl, rfl⟩ ⟨rfl, rfl⟩
    · exact h.of_same hu hl ⟨rfl, rfl, rfl⟩ ⟨rfl, rfl⟩
    · have hlog := h.read_req hs hq
      exact h.writeReq hu hl (fun y hy => (h.read_reqTerms hq hy).trans (he.terms _ q))
        (hlog.moves (he.moves _ hlog.paidOut hc))
  | insertReq row =>
    obtain ⟨form, pricing, -, rfl⟩ := he
    rcases exec_insertReq hx with ⟨-, -, rfl⟩ | ⟨-, -, hn, rfl, -, -⟩
    · exact h.of_same hu hl ⟨rfl, rfl, rfl⟩ ⟨rfl, rfl⟩
    · obtain ⟨hw, hq⟩ := Option.or_eq_none_iff.mp hn
      refine h.writeReq hu hl (fun y hy => by rw [hq] at hy; cases hy) ?_
      rw [h.locked.statusLog _ hw, hs.noReq _ hq]
      exact ⟨by simp [CashOutRequest.PaidOut, CashoutService.newRequest], .start rfl, rfl⟩
  | _ => exact h.of_same hu hl (exec_sameTxns rfl hx) (exec_sameReqs rfl hx)

theorem Lifecycle.of_uncommitted (h : Lifecycle s) (hu : Uncommitted i (s.tick S c) s') :
    Lifecycle s' where
  txn := fun t x hx => by
    rw [hu.txns] at hx
    rw [hu.settlementLog, hu.cashinLog]
    exact h.txn t x hx
  noTxn := fun t ht => by
    rw [hu.txns] at ht
    rw [hu.settlementLog, hu.cashinLog]
    exact h.noTxn t ht
  req := fun r q hq => by
    rw [hu.reqs] at hq
    rw [hu.statusLog]
    exact h.req r q hq
  noReq := fun r hr => by
    rw [hu.reqs] at hr
    rw [hu.statusLog]
    exact h.noReq r hr

theorem Lifecycle.commit (h : Lifecycle s) (hl : l.LogsWrites i s) : Lifecycle (s.commit i l) where
  txn := fun _ _ hx => hl.read_txn h hx
  noTxn := fun t hn => by
    obtain ⟨hw, ht⟩ := Option.or_eq_none_iff.mp hn
    show l.settlementLog t ++ s.settlementLog t = [] ∧ l.cashinLog t ++ s.cashinLog t = []
    rw [hl.locked.settlementLog t hw, hl.locked.cashinLog t hw]
    exact h.noTxn t ht
  req := fun _ _ hq => hl.read_req h hq
  noReq := fun r hn => by
    obtain ⟨hw, hq⟩ := Option.or_eq_none_iff.mp hn
    show l.statusLog r ++ s.statusLog r = []
    rw [hl.locked.statusLog r hw]
    exact h.noReq r hq

theorem lifecycle_call (he : e.may o) (h : l.LogsWrites i s) (hs : Lifecycle s) (hr : s.Regular)
    {r : Except Exn o.Res} (hx : exec S i o c l s = some (r, l', s')) :
    Lifecycle s' ∧ l'.LogsWrites i s' := by
  by_cases ho : o = .commit
  · subst ho
    have hl := exec_locked hr h.locked hx
    have htick : l.LogsWrites i (s.tick S c) := h.of_others Others.tick
    have hempty : ∀ k : Session, k.txnWrites = l.committed.txnWrites →
        k.reqWrites = l.committed.reqWrites → k.Locked i ((s.tick S c).commit i l) →
        k.LogsWrites i ((s.tick S c).commit i l) := fun k ht hq hk =>
      ⟨hk, fun t x hx => (by rw [ht] at hx; cases hx), fun r q hx => (by rw [hq] at hx; cases hx),
        fun t x hx => (by rw [ht] at hx; cases hx), fun r q hx => (by rw [hq] at hx; cases hx)⟩
    rcases exec_commit hx with ⟨-, rfl, rfl⟩ | ⟨-, rfl, ⟨-, rfl⟩ | ⟨-, rfl⟩⟩
    · exact ⟨hs.of_uncommitted (Uncommitted.refl i _), h.of_same (Uncommitted.refl i _) hl
        ⟨rfl, rfl, rfl⟩ ⟨rfl, rfl⟩⟩
    · exact ⟨Lifecycle.commit (hs.of_uncommitted (Uncommitted.refl i _)) htick, hempty _ rfl rfl hl⟩
    · exact ⟨Lifecycle.commit (hs.of_uncommitted (Uncommitted.refl i _)) htick, hempty _ rfl rfl hl⟩
  · exact ⟨hs.of_uncommitted (exec_uncommitted ho hx), h.call he ho hs hr hx⟩

theorem TermsKept.commit (h : l.LogsWrites i s) : TermsKept s (s.commit i l) where
  txn := fun t x hx => by
    show ∃ x', l.txn s t = some x' ∧ x.SameTerms x'
    cases hw : l.txnWrites t with
    | none => exact ⟨x, by simp [Session.txn, hw, hx], .refl x⟩
    | some x' => exact ⟨x', by simp [Session.txn, hw], h.txnTerms t x' hw x hx⟩
  req := fun r q hq => by
    show ∃ q', l.req s r = some q' ∧ q.SameTerms q'
    cases hw : l.reqWrites r with
    | none => exact ⟨q, by simp [Session.req, hw, hq], .refl q⟩
    | some q' => exact ⟨q', by simp [Session.req, hw], h.reqTerms r q' hw q hq⟩

theorem exec_terms (h : l.LogsWrites i s) {r : Except Exn o.Res}
    (hx : exec S i o c l s = some (r, l', s')) : TermsKept s s' := by
  by_cases ho : o = .commit
  · subst ho
    rcases exec_commit hx with ⟨-, -, rfl⟩ | ⟨-, rfl, -⟩
    · exact .of_eq rfl rfl
    · have htick : TermsKept s (s.tick S c) := .of_eq rfl rfl
      exact htick.trans (TermsKept.commit (h.of_others Others.tick))
  · have hu := exec_uncommitted ho hx
    exact .of_eq hu.txns hu.reqs

/-! ## §6. The discipline of the platform. -/

theorem Lifecycle.of_eq (h : Lifecycle s) (ht : s'.txns = s.txns) (hr : s'.reqs = s.reqs)
    (h₁ : s'.settlementLog = s.settlementLog) (h₂ : s'.cashinLog = s.cashinLog)
    (h₃ : s'.statusLog = s.statusLog) : Lifecycle s' where
  txn := by rw [ht, h₁, h₂]; exact h.txn
  noTxn := by rw [ht, h₁, h₂]; exact h.noTxn
  req := by rw [hr, h₃]; exact h.req
  noReq := by rw [hr, h₃]; exact h.noReq

theorem Lifecycle.initial (clock validated : Nat) (held : Nat → Bool) :
    Lifecycle (World.initial clock validated held) where
  txn := by intro t x hx; cases hx
  noTxn := fun _ _ => ⟨rfl, rfl⟩
  req := by intro r q hq; cases hq
  noReq := fun _ _ => rfl

/-- Regular worlds with orderly histories. -/
structure World.Orderly (s : World) : Prop where
  regular : s.Regular
  lifecycle : Lifecycle s

theorem World.Orderly.initial (clock validated : Nat) (held : Nat → Bool) :
    (World.initial clock validated held).Orderly :=
  ⟨.initial clock validated held, .initial clock validated held⟩

/-- What a program sees of the others' moves. -/
structure Meanwhile (j : Nat) (s s' : World) : Prop where
  others : Others j s s'
  terms : TermsKept s s'

def rules (S : Setting) : Discipline (platform S) where
  may := Entry.may
  world := World.Orderly
  session := Session.LogsWrites
  moves := Meanwhile
  refl := fun j s => ⟨.refl j s, .of_eq rfl rfl⟩
  trans := fun h h' => ⟨h.others.trans h'.others, h.terms.trans h'.terms⟩
  stable := fun h hm => h.of_others hm.others

theorem rules_kept (S : Setting) : (rules S).Kept where
  uses := body_uses S
  spawn := fun s e hs =>
    ⟨⟨hs.regular.spawn, hs.lifecycle.of_eq rfl rfl rfl rfl rfl⟩, .start e (Nat.lt_succ_self _),
      fun _ => ⟨spawn_others, .of_eq rfl rfl⟩⟩
  call := fun e i o c l s r l' s' he hs hl hx => by
    obtain ⟨hlife, hl'⟩ := lifecycle_call he hl hs.lifecycle hs.regular hx
    exact ⟨⟨⟨exec_regular hs.regular hl.locked hx, hlife⟩,
      fun j hj => ⟨exec_others hl.locked hx hj, exec_terms hl hx⟩⟩, hl'⟩
  close := fun i s hs =>
    ⟨⟨hs.regular.releaseAll, hs.lifecycle.of_eq rfl rfl rfl rfl rfl⟩,
      fun j hj => ⟨releaseAll_others hj, .of_eq rfl rfl⟩⟩
  env := fun v s s' hs hx => by
    have heq := (env_eq hx).1
    refine ⟨⟨hs.regular.env hx, ?_⟩, fun j => ⟨env_others hx, ?_⟩⟩
    · rw [heq]
      exact hs.lifecycle.of_eq rfl rfl rfl rfl rfl
    · rw [heq]
      exact .of_eq rfl rfl

/-- **ROWS ONLY MOVE ALONG THE EDGES**, in every reachable state. -/
theorem lifecycle_reach {w : World} (hw : w.Orderly) {k : Config (platform S)}
    (h : Reach (M := platform S) w k) : Lifecycle k.world :=
  ((rules_kept S).reach hw h).world.lifecycle

end Orbyt
