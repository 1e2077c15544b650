/-
  Orbyt.Invariants.Books — the balance column and the statements that write it

  Three functions write a balance, each next to a status change of the row the
  money is for: settlement credits, approval debits, a burn that failed restores.
  A session that has made the status change owes the balance statement until it
  has issued it, and commits only when it owes nothing.

  Main results:
    * `books_sound`, `books_reach` — in every reachable state every credit, debit
      and restore has been made exactly as often as the row's history calls for, and,
      where no wallet is locked through a stale copy, the balances add up.
-/
import Orbyt.Invariants.Lifecycle
import Orbyt.Lib.Tables

namespace Orbyt

open Interleave
open Tables
open Trails
open Function (update update_of_ne)

/-! ## §1. What rows are worth to a wallet. -/

/-- What a settlement has added to the wallet of `u`. -/
def Txn.creditTo (u : Nat) (x : Txn) : Int :=
  if x.settlementStatus = .completed ∧ x.recipientUserId = some u then x.uctusdAmount else 0

/-- What a cash-out has taken from the wallet of `u`. -/
def CashOutRequest.reservedFrom (u : Nat) (q : CashOutRequest) : Int :=
  if q.walletId = u ∧ (q.status = .approved ∨ q.status = .completed) then q.uctusdAmount else 0

/-- Over the completed transactions whose recipient is `u`. -/
def World.credited (s : World) (u : Nat) : Int := total (Txn.creditTo u) s.txns s.nextId

/-- Over the approved or completed cash-outs on the wallet of `u`. -/
def World.reserved (s : World) (u : Nat) : Int :=
  total (CashOutRequest.reservedFrom u) s.reqs s.nextId

def balanceOf (w : Option Wallet) : Int := worth Wallet.balanceUctusd w

/-! ## §2. The balance statements a history calls for. -/

/-- The history of the statement's row calls for it. -/
def Move.due (settlementLog : Nat → List SettlementStatus) (statusLog : Nat → List CashOutStatus) :
    Move → Bool
  | .credit t => decide (.completed ∈ settlementLog t)
  | .debit r => decide (.approved ∈ statusLog r)
  | .restore r => decide ([.failed, .approved] <:+: statusLog r)

/-- How often the statement is to be executed. -/
def Move.times (settlementLog : Nat → List SettlementStatus) (statusLog : Nat → List CashOutStatus)
    (m : Move) : Nat := (m.due settlementLog statusLog).toNat

/-- A balance statement that a status change calls for. -/
structure Due where
  move : Move
  wallet : Option Nat
  amount : Int

def owedTo (u : Nat) (dues : List Due) : Int :=
  (dues.map (fun d => if d.wallet = some u then d.amount else 0)).sum

/-- What a write of `x'` over `x` calls for. -/
def Txn.dues (t : Nat) (x : Option Txn) (x' : Txn) : List Due :=
  if x'.settlementStatus = .completed ∧ x.map (·.settlementStatus) ≠ some .completed then
    [⟨.credit t, x'.recipientUserId, x'.uctusdAmount⟩]
  else []

def CashOutRequest.dues (r : Nat) (q : Option CashOutRequest) (q' : CashOutRequest) : List Due :=
  if q'.status = .approved ∧ q.map (·.status) ≠ some .approved then
    [⟨.debit r, some q'.walletId, -q'.uctusdAmount⟩]
  else if q'.status = .failed ∧ q.map (·.status) = some .approved then
    [⟨.restore r, some q'.walletId, q'.uctusdAmount⟩]
  else []

theorem mem_logStatus {σ : Type} [DecidableEq σ] {old : Option σ} {new a : σ}
    {log stored : List σ} :
    a ∈ logStatus old new log ++ stored ↔ (a = new ∧ old ≠ some new) ∨ a ∈ log ++ stored := by
  unfold logStatus
  by_cases h : old = some new <;> simp [h]

/-- A history that calls for a credit ends in it. -/
theorem Txn.Logged.completed_iff {x : Txn} {log : List SettlementStatus}
    {cashin : List CashInStatus} (h : x.Logged log cashin) :
    .completed ∈ log ↔ x.settlementStatus = .completed := by
  constructor
  · intro hm
    have habs := h.settlementTrail.absorbed (a := .completed) (fun b he => by cases he) hm
    exact (Option.some.inj (h.settlementHead.symm.trans habs))
  · intro hx
    have hhead := h.settlementHead
    rw [hx] at hhead
    exact Trail.head_mem hhead

/-- A cash-out that is still requested has been nothing else. -/
theorem CashOutRequest.Logged.not_approved {q : CashOutRequest} {log : List CashOutStatus}
    (h : q.Logged log) (hq : q.status = .requested) : .approved ∉ log := by
  intro hm
  have hhead := h.head
  rw [hq] at hhead
  cases h.trail with
  | start hs => subst hs; simp at hm
  | step htr he =>
    obtain rfl : _ = CashOutStatus.requested := by simpa using hhead
    cases he

/-- A cash-out that is approved has not failed. -/
theorem CashOutRequest.Logged.not_failed {q : CashOutRequest} {log : List CashOutStatus}
    (h : q.Logged log) (hq : q.status ≠ .failed) : .failed ∉ log := by
  intro hm
  have habs := h.trail.absorbed (a := .failed) (fun b he => by cases he) hm
  exact hq (Option.some.inj (h.head.symm.trans habs))

/-- A statement looks at the history of its own row only. -/
theorem Move.times_credit {a a' : Nat → List SettlementStatus} {b b' : Nat → List CashOutStatus}
    {t : Nat} (h : a t = a' t) : (Move.credit t).times a b = (Move.credit t).times a' b' := by
  show (decide (_ ∈ a t)).toNat = (decide (_ ∈ a' t)).toNat
  rw [h]

theorem Move.times_debit {a a' : Nat → List SettlementStatus} {b b' : Nat → List CashOutStatus}
    {r : Nat} (h : b r = b' r) : (Move.debit r).times a b = (Move.debit r).times a' b' := by
  show (decide (_ ∈ b r)).toNat = (decide (_ ∈ b' r)).toNat
  rw [h]

theorem Move.times_restore {a a' : Nat → List SettlementStatus} {b b' : Nat → List CashOutStatus}
    {r : Nat} (h : b r = b' r) : (Move.restore r).times a b = (Move.restore r).times a' b' := by
  show (decide (_ <:+: b r)).toNat = (decide (_ <:+: b' r)).toNat
  rw [h]

theorem Move.times_updateTxn {settlementLog : Nat → List SettlementStatus}
    {statusLog : Nat → List CashOutStatus} {t : Nat} {log : List SettlementStatus} {m : Move}
    (hm : m ≠ .credit t) :
    m.times (update settlementLog t log) statusLog = m.times settlementLog statusLog := by
  cases m with
  | credit t' => exact times_credit (update_of_ne (fun he => hm (congrArg Move.credit he)) _ _)
  | debit r => rfl
  | restore r => rfl

theorem Move.times_updateReq {settlementLog : Nat → List SettlementStatus}
    {statusLog : Nat → List CashOutStatus} {r : Nat} {log : List CashOutStatus} {m : Move}
    (hd : m ≠ .debit r) (hr : m ≠ .restore r) :
    m.times settlementLog (update statusLog r log) = m.times settlementLog statusLog := by
  cases m with
  | credit t => rfl
  | debit r' => exact times_debit (update_of_ne (fun he => hd (congrArg Move.debit he)) _ _)
  | restore r' => exact times_restore (update_of_ne (fun he => hr (congrArg Move.restore he)) _ _)

/-- What a transaction is written over: a row on an edge to the new one, or nothing. -/
def Txn.WrittenOver (x : Option Txn) (x' : Txn) (log : List SettlementStatus) : Prop :=
  match x with
  | some x => (.completed ∈ log ↔ x.settlementStatus = .completed) ∧ x.SameTerms x' ∧
      (x'.settlementStatus = x.settlementStatus ∨
        SettlementStatus.Edge x.settlementStatus x'.settlementStatus)
  | none => log = []

/-- **A WRITE CALLS FOR ITS DUES**, and for nothing else. -/
theorem Txn.times_dues (settlementLog : Nat → List SettlementStatus)
    (statusLog : Nat → List CashOutStatus) {t : Nat} {x : Option Txn} {x' : Txn}
    {log stored : List SettlementStatus} (hlog : settlementLog t = log ++ stored)
    (hx : Txn.WrittenOver x x' (log ++ stored)) (m : Move) :
    ((x'.dues t x).map Due.move).count m + m.times settlementLog statusLog
      = m.times (update settlementLog t
          (logStatus (x.map (·.settlementStatus)) x'.settlementStatus log ++ stored))
            statusLog := by
  by_cases hm : m = .credit t
  · subst hm
    simp only [Move.times, Move.due, Function.update_self, mem_logStatus, hlog, Txn.dues]
    cases x with
    | none =>
      rw [show log ++ stored = [] from hx]
      by_cases hc : x'.settlementStatus = .completed
      · simp [hc]
      · simp [hc, Ne.symm hc]
    | some x =>
      have hiff : SettlementStatus.completed ∈ log ++ stored ↔ x.settlementStatus = .completed :=
        hx.1
      simp only [hiff, Option.map_some]
      by_cases hc : x'.settlementStatus = .completed
      · by_cases hd : x.settlementStatus = .completed <;> simp [hc, hd]
      · by_cases hd : x.settlementStatus = .completed <;> simp [hc, hd, Ne.symm hc]
  · rw [Move.times_updateTxn hm]
    have hnone : ((x'.dues t x).map Due.move).count m = 0 := by
      unfold Txn.dues
      split
      · simpa [List.count_eq_zero] using hm
      · rfl
    rw [hnone, Nat.zero_add]

theorem singleton_prefix_iff {σ : Type} {a : σ} {log : List σ} :
    [a] <+: log ↔ log.head? = some a := by
  cases log with
  | nil => simp
  | cons b log => simp [eq_comm]

/-- A restore is called for by the step from `approved` to `failed`, and by no other. -/
theorem restored_logStatus {q q' : CashOutRequest} {log stored : List CashOutStatus}
    (h : q.Logged (log ++ stored)) :
    [.failed, .approved] <:+: logStatus (some q.status) q'.status log ++ stored ↔
      (q'.status = .failed ∧ q.status = .approved) ∨
        [.failed, .approved] <:+: log ++ stored := by
  rw [logStatus_some]
  by_cases he : q.status = q'.status
  · rw [if_pos he]
    constructor
    · exact .inr
    · rintro (⟨hf, ha⟩ | hi)
      · rw [hf, ha] at he
        cases he
      · exact hi
  · rw [if_neg he, List.infix_cons_iff, List.cons_prefix_cons, singleton_prefix_iff, h.head]
    simp [eq_comm]

/-- What a cash-out is written over. -/
def CashOutRequest.WrittenOver (q : Option CashOutRequest) (q' : CashOutRequest)
    (log : List CashOutStatus) : Prop :=
  match q with
  | some q => q.Logged log ∧ q.SameTerms q' ∧
      (q'.status = q.status ∨ CashOutStatus.Edge q.status q'.status)
  | none => log = [] ∧ q'.status = .requested

theorem CashOutRequest.times_dues (settlementLog : Nat → List SettlementStatus)
    (statusLog : Nat → List CashOutStatus) {r : Nat} {q : Option CashOutRequest}
    {q' : CashOutRequest} {log stored : List CashOutStatus} (hlog : statusLog r = log ++ stored)
    (hq : CashOutRequest.WrittenOver q q' (log ++ stored)) (m : Move) :
    ((q'.dues r q).map Due.move).count m + m.times settlementLog statusLog
      = m.times settlementLog (update statusLog r
          (logStatus (q.map (·.status)) q'.status log ++ stored)) := by
  by_cases hm : m = .debit r ∨ m = .restore r
  · cases q with
    | none =>
      -- a new row starts out requested, which calls for nothing
      obtain ⟨hnil, hreq⟩ := hq
      obtain ⟨rfl, rfl⟩ := List.append_eq_nil_iff.mp hnil
      rcases hm with rfl | rfl <;>
        simp [Move.times, Move.due, CashOutRequest.dues, hlog, hreq, logStatus, List.infix_cons_iff]
    | some q =>
      obtain ⟨hl, -, hedge⟩ := hq
      rcases hm with rfl | rfl
      · simp only [Move.times, Move.due, Function.update_self, Option.map_some, mem_logStatus, hlog]
        by_cases hstep : q'.status = .approved ∧ q.status ≠ .approved
        · -- approved now: it was requested, so it never was approved before
          have hreq : q.status = .requested := by
            rcases hedge with he | he
            · exact absurd (he.symm.trans hstep.1) hstep.2
            · rw [hstep.1] at he
              generalize hqs : q.status = a at he
              cases he
              rfl
          simp [CashOutRequest.dues, hstep.1, hreq, hl.not_approved hreq]
        · have hsame : (q'.dues r (some q)).map Due.move = [] ∨
              (q'.dues r (some q)).map Due.move = [.restore r] := by
            unfold CashOutRequest.dues
            rw [if_neg (by simpa using hstep)]
            split
            · exact .inr rfl
            · exact .inl rfl
          have hold : ¬ (CashOutStatus.approved = q'.status ∧ q.status ≠ q'.status) := by
            rintro ⟨ha, hne⟩
            exact hstep ⟨ha.symm, fun hq => hne (hq.trans ha)⟩
          rcases hsame with h | h <;> simp [h, hold]
      · simp only [Move.times, Move.due, Function.update_self, Option.map_some,
          restored_logStatus hl, hlog]
        by_cases hstep : q'.status = .failed ∧ q.status = .approved
        · -- failed now: it was approved, so it never failed before
          have hnew : ¬ [CashOutStatus.failed, .approved] <:+: log ++ stored := fun hi =>
            hl.not_failed (by rw [hstep.2]; decide) (hi.subset (by simp))
          simp [CashOutRequest.dues, hstep.1, hstep.2, hnew]
        · have hsame : (q'.dues r (some q)).map Due.move = [] ∨
              (q'.dues r (some q)).map Due.move = [.debit r] := by
            unfold CashOutRequest.dues
            split
            · exact .inr rfl
            · rw [if_neg (by simpa using hstep)]
              exact .inl rfl
          rcases hsame with h | h <;> simp [h, hstep]
  · rw [not_or] at hm
    rw [Move.times_updateReq hm.1 hm.2]
    have hnone : ((q'.dues r q).map Due.move).count m = 0 := by
      unfold CashOutRequest.dues
      split
      · simpa [List.count_eq_zero] using hm.1
      · split
        · simpa [List.count_eq_zero] using hm.2
        · rfl
    rw [hnone, Nat.zero_add]

@[simp] theorem owedTo_nil (u : Nat) : owedTo u [] = 0 := rfl

@[simp] theorem owedTo_cons (u : Nat) (d : Due) (dues : List Due) :
    owedTo u (d :: dues) = (if d.wallet = some u then d.amount else 0) + owedTo u dues := rfl

/-- **A WRITE IS WORTH ITS DUES** to every wallet. -/
theorem Txn.worth_dues {x : Option Txn} {x' : Txn} {log : List SettlementStatus}
    (hx : Txn.WrittenOver x x' log) (t u : Nat) :
    x'.creditTo u - worth (Txn.creditTo u) x = owedTo u (x'.dues t x) := by
  cases x with
  | none =>
    by_cases hc : x'.settlementStatus = .completed <;> simp [Txn.creditTo, Txn.dues, hc]
  | some x =>
    obtain ⟨-, hterms, hedge⟩ := hx
    have hq : x'.uctusdAmount = x.uctusdAmount := congrArg Quote.uctusdAmount hterms.quote
    by_cases hd : x.settlementStatus = .completed
    · -- completed is absorbing, so both rows are worth the same
      have hc : x'.settlementStatus = .completed := by
        rcases hedge with he | he
        · exact he.trans hd
        · rw [hd] at he
          cases he
      simp [Txn.creditTo, Txn.dues, hc, hd, hterms.recipient, hq]
    · by_cases hc : x'.settlementStatus = .completed <;> simp [Txn.creditTo, Txn.dues, hc, hd]

theorem CashOutRequest.worth_dues {q : Option CashOutRequest} {q' : CashOutRequest}
    {log : List CashOutStatus} (hq : CashOutRequest.WrittenOver q q' log) (r u : Nat) :
    worth (CashOutRequest.reservedFrom u) q - q'.reservedFrom u = owedTo u (q'.dues r q) := by
  cases q with
  | none => simp [CashOutRequest.reservedFrom, CashOutRequest.dues, hq.2]
  | some q =>
    obtain ⟨-, hterms, hedge⟩ := hq
    have hw : q'.walletId = q.walletId := hterms.wallet
    have ha : q'.uctusdAmount = q.uctusdAmount :=
      congrArg CashOutPricing.uctusdAmount hterms.pricing
    simp only [CashOutRequest.reservedFrom, CashOutRequest.dues, worth_some,
      Option.map_some, hw, ha]
    rcases hedge with he | he
    · rw [he]
      cases q.status <;> simp
    · generalize q.status = a, q'.status = b at he
      cases he <;> by_cases hu : q.walletId = u <;> simp [hu]

/-! ## §3. The books of the world, and of a session. -/

/-- The recipient of `t` is known and has a wallet. -/
def World.HasPayee (s : World) (t : Nat) : Prop :=
  ∃ x u, s.txns t = some x ∧ x.recipientUserId = some u ∧ (s.wallets u).isSome = true

structure Books (S : Setting) (s : World) : Prop where
  moves : ∀ m, s.moves.count m = m.times s.settlementLog s.statusLog
  payee : ∀ t x, s.txns t = some x → x.xrplTxHash.isSome = true → s.HasPayee t
  money : S.freshLock = true → ∀ u, balanceOf (s.wallets u) = s.credited u - s.reserved u

/-- The histories as they will be once the session has committed. -/
def Session.settlementLogs (l : Session) (s : World) (t : Nat) : List SettlementStatus :=
  l.settlementLog t ++ s.settlementLog t

def Session.statusLogs (l : Session) (s : World) (r : Nat) : List CashOutStatus :=
  l.statusLog r ++ s.statusLog r

/-- What the session has changed of a balance so far. -/
def Session.gap (l : Session) (s : World) (u : Nat) : Int :=
  balanceOf (l.wallet s u) - balanceOf (s.wallets u)

/-- What its writes are worth to the wallet of `u`. -/
def Session.earned (l : Session) (s : World) (u : Nat) : Int :=
  drift (Txn.creditTo u) l.txnWrites s.txns s.nextId
    - drift (CashOutRequest.reservedFrom u) l.reqWrites s.reqs s.nextId

/-- The open transaction of a session that still owes the statements `owed`. -/
structure Session.Books (S : Setting) (owed : List Due) (l : Session) (s : World) : Prop where
  moves : ∀ m, (owed.map Due.move ++ l.moves).count m + m.times s.settlementLog s.statusLog
    = m.times (l.settlementLogs s) (l.statusLogs s)
  payee : ∀ t x, l.txnWrites t = some x → x.xrplTxHash.isSome = true → s.HasPayee t
  money : S.freshLock = true → ∀ u, l.earned s u = l.gap s u + owedTo u owed

/-- Nothing has been done about `owed` yet; a session that has failed owes nothing, since
it cannot commit. -/
def Session.Owes (S : Setting) (owed : List Due) (l : Session) (s : World) : Prop :=
  l.failed = true ∨
    (l.Books S owed s ∧ (S.freshLock = true → ∀ u, l.gap s u = 0))

variable {S : Setting} {i : Nat} {l l' : Session} {s s' : World} {owed : List Due}

/-- What a session has written is as it was. -/
structure Session.Undisturbed (l : Session) (s s' : World) : Prop where
  nextId : s.nextId ≤ s'.nextId
  txns : ∀ t x, l.txnWrites t = some x → s'.txns t = s.txns t ∧
    s'.settlementLog t = s.settlementLog t
  reqs : ∀ r q, l.reqWrites r = some q → s'.reqs r = s.reqs r ∧ s'.statusLog r = s.statusLog r
  wallets : ∀ u w, l.walletWrites u = some w → s'.wallets u = s.wallets u
  payee : ∀ t, s.HasPayee t → s'.HasPayee t

theorem World.HasPayee.mono {t : Nat} (h : s.HasPayee t) (ht : TermsKept s s')
    (hw : ∀ u, (s.wallets u).isSome = true → (s'.wallets u).isSome = true) : s'.HasPayee t := by
  obtain ⟨x, u, hx, hu, hs⟩ := h
  obtain ⟨x', hx', hterms⟩ := ht.txn t x hx
  exact ⟨x', u, hx', hterms.recipient.trans hu, hw u hs⟩

theorem Session.Locked.undisturbed (hl : l.Locked i s) (hm : Meanwhile i s s') :
    l.Undisturbed s s' where
  nextId := hm.others.nextId
  txns := fun t x hx => by
    obtain ⟨-, h₁, h₂, -⟩ := hm.others.txnLock t (hl.txns t x hx).1
    exact ⟨h₁, h₂⟩
  reqs := fun r q hq => by
    obtain ⟨-, h₁, h₂, -⟩ := hm.others.reqLock r (hl.reqs r q hq).1
    exact ⟨h₁, h₂⟩
  wallets := fun u w hw => (hm.others.walletLock u (hl.wallets u w hw)).2
  payee := fun _ h => h.mono hm.terms hm.others.wallets

theorem Uncommitted.undisturbed {c : Choice} (hu : Uncommitted i (s.tick S c) s') :
    l.Undisturbed s s' where
  nextId := hu.nextId
  txns := fun t _ _ => ⟨by rw [hu.txns]; rfl, by rw [hu.settlementLog]; rfl⟩
  reqs := fun r _ _ => ⟨by rw [hu.reqs]; rfl, by rw [hu.statusLog]; rfl⟩
  wallets := fun u _ _ => by rw [hu.wallets]; rfl
  payee := fun t h => h.mono (.of_eq hu.txns hu.reqs) (fun u h => by rw [hu.wallets]; exact h)

theorem Session.gap_frame (hd : l.Undisturbed s s') (u : Nat) : l.gap s' u = l.gap s u := by
  unfold Session.gap Session.wallet
  cases hw : l.walletWrites u with
  | none => simp
  | some w => rw [hd.wallets u w hw]

theorem Session.earned_frame (hl : l.Locked i s) (hd : l.Undisturbed s s') (u : Nat) :
    l.earned s' u = l.earned s u := by
  unfold Session.earned
  have ht := drift_frame (v := Txn.creditTo u) hd.nextId
    (fun t x hx => ⟨(hl.txns t x hx).2, (hd.txns t x hx).1⟩)
  have hr := drift_frame (v := CashOutRequest.reservedFrom u) hd.nextId
    (fun r q hq => ⟨(hl.reqs r q hq).2, (hd.reqs r q hq).1⟩)
  rw [ht, hr]

/-- Either the session has written the statement's row, whose history then stands still,
or it has added nothing to that history. -/
theorem Session.times_frame (hl : l.Locked i s) (hd : l.Undisturbed s s') (m : Move) :
    (m.times s'.settlementLog s'.statusLog = m.times s.settlementLog s.statusLog ∧
      m.times (l.settlementLogs s') (l.statusLogs s')
        = m.times (l.settlementLogs s) (l.statusLogs s)) ∨
    (m.times (l.settlementLogs s) (l.statusLogs s) = m.times s.settlementLog s.statusLog ∧
      m.times (l.settlementLogs s') (l.statusLogs s')
        = m.times s'.settlementLog s'.statusLog) := by
  cases m with
  | credit t =>
    cases hw : l.txnWrites t with
    | some x =>
      have h := (hd.txns t x hw).2
      exact .inl ⟨Move.times_credit h, Move.times_credit (congrArg (l.settlementLog t ++ ·) h)⟩
    | none =>
      have h : ∀ s : World, l.settlementLogs s t = s.settlementLog t := fun s => by
        simp [Session.settlementLogs, hl.settlementLog t hw]
      exact .inr ⟨Move.times_credit (h s), Move.times_credit (h s')⟩
  | debit r =>
    cases hw : l.reqWrites r with
    | some q =>
      have h := (hd.reqs r q hw).2
      exact .inl ⟨Move.times_debit h, Move.times_debit (congrArg (l.statusLog r ++ ·) h)⟩
    | none =>
      have h : ∀ s : World, l.statusLogs s r = s.statusLog r := fun s => by
        simp [Session.statusLogs, hl.statusLog r hw]
      exact .inr ⟨Move.times_debit (h s), Move.times_debit (h s')⟩
  | restore r =>
    cases hw : l.reqWrites r with
    | some q =>
      have h := (hd.reqs r q hw).2
      exact .inl ⟨Move.times_restore h, Move.times_restore (congrArg (l.statusLog r ++ ·) h)⟩
    | none =>
      have h : ∀ s : World, l.statusLogs s r = s.statusLog r := fun s => by
        simp [Session.statusLogs, hl.statusLog r hw]
      exact .inr ⟨Move.times_restore (h s), Move.times_restore (h s')⟩

theorem Session.Books.frame (h : l.Books S owed s) (hl : l.Locked i s)
    (hd : l.Undisturbed s s') : l.Books S owed s' where
  moves := fun m => by
    have hm := h.moves m
    rcases Session.times_frame hl hd m with ⟨h₁, h₂⟩ | ⟨h₁, h₂⟩ <;> omega
  payee := fun t x hx hh => hd.payee t (h.payee t x hx hh)
  money := fun hf u => by
    rw [Session.earned_frame hl hd, Session.gap_frame hd]
    exact h.money hf u

theorem Session.Owes.frame (h : l.Owes S owed s) (hl : l.Locked i s)
    (hd : l.Undisturbed s s') : l.Owes S owed s' := by
  rcases h with hf | ⟨hb, hg⟩
  · exact .inl hf
  · exact .inr ⟨hb.frame hl hd, fun hf u => (Session.gap_frame hd u).trans (hg hf u)⟩

theorem Books.of_uncommitted {c : Choice} (h : Orbyt.Books S s) (hs : s.Regular)
    (hu : Uncommitted i (s.tick S c) s') : Orbyt.Books S s' where
  moves := fun m => by
    rw [hu.moves, hu.settlementLog, hu.statusLog]
    exact h.moves m
  payee := fun t x hx hh => by
    rw [hu.txns] at hx
    exact (h.payee t x hx hh).mono (.of_eq hu.txns hu.reqs) (fun u h => by rw [hu.wallets]; exact h)
  money := fun hf u => by
    have ht : s'.credited u = s.credited u := by
      unfold World.credited
      rw [hu.txns]
      exact total_extend hu.nextId hs.txnIds
    have hr : s'.reserved u = s.reserved u := by
      unfold World.reserved
      rw [hu.reqs]
      exact total_extend hu.nextId hs.reqIds
    rw [hu.wallets, ht, hr]
    exact h.money hf u

/-- **COMMIT** stores a transaction that owes nothing. -/
theorem Books.commit (h : Orbyt.Books S s) (hl : l.LogsWrites i s) (hb : l.Books S [] s) :
    Orbyt.Books S (s.commit i l) where
  moves := fun m => by
    show (l.moves ++ s.moves).count m = m.times (l.settlementLogs s) (l.statusLogs s)
    have hm := hb.moves m
    rw [List.map_nil, List.nil_append] at hm
    rw [List.count_append, h.moves m, hm]
  payee := fun t x hx hh => by
    have hold : s.HasPayee t := by
      rcases Session.txn_cases hx with hw | ⟨-, ht⟩
      · exact hb.payee t x hw hh
      · exact h.payee t x ht hh
    refine hold.mono (TermsKept.commit hl) fun u hu => ?_
    show ((l.walletWrites u).or (s.wallets u)).isSome = true
    cases l.walletWrites u with
    | none => exact hu
    | some w => rfl
  money := fun hf u => by
    show balanceOf (l.wallet s u)
      = total (Txn.creditTo u) (overlay l.txnWrites s.txns) s.nextId
        - total (CashOutRequest.reservedFrom u) (overlay l.reqWrites s.reqs) s.nextId
    have hm := hb.money hf u
    have hs := h.money hf u
    unfold Session.earned Session.gap at hm
    unfold World.credited World.reserved at hs
    rw [owedTo_nil] at hm
    rw [total_overlay, total_overlay]
    omega

/-! ## §4. What a statement does to the books. -/

theorem owedTo_append (u : Nat) (dues dues' : List Due) :
    owedTo u (dues ++ dues') = owedTo u dues + owedTo u dues' := by
  simp [owedTo]

theorem Session.settlementLogs_writeTxn {now t : Nat} {x : Option Txn} {x' : Txn} :
    (l.writeTxn now t x x').settlementLogs s
      = update (l.settlementLogs s) t
          (logStatus (x.map (·.settlementStatus)) x'.settlementStatus (l.settlementLog t)
            ++ s.settlementLog t) := by
  funext t'
  by_cases ht : t' = t
  · subst ht
    simp [Session.settlementLogs, Session.writeTxn]
  · simp [Session.settlementLogs, Session.writeTxn, ht]

theorem Session.statusLogs_writeReq {now r : Nat} {q : Option CashOutRequest}
    {q' : CashOutRequest} :
    (l.writeReq now r q q').statusLogs s
      = update (l.statusLogs s) r
          (logStatus (q.map (·.status)) q'.status (l.statusLog r) ++ s.statusLog r) := by
  funext r'
  by_cases hr : r' = r
  · subst hr
    simp [Session.statusLogs, Session.writeReq]
  · simp [Session.statusLogs, Session.writeReq, hr]

/-- A row of `transactions` written: its dues are owed on top. -/
theorem Session.Books.writeTxn (h : l.Books S owed s) (now : Nat) {t : Nat} {x : Option Txn}
    (x' : Txn)
    (hx : l.txn s t = x) (ht : t < s.nextId)
    (hover : Txn.WrittenOver x x' (l.settlementLog t ++ s.settlementLog t))
    (hpayee : x'.xrplTxHash.isSome = true → s.HasPayee t) :
    (l.writeTxn now t x x').Books S (x'.dues t x ++ owed) s where
  moves := fun m => by
    have hm := h.moves m
    have hdue := Txn.times_dues (l.settlementLogs s) (l.statusLogs s) rfl hover m
    rw [Session.settlementLogs_writeTxn]
    show ((x'.dues t x ++ owed).map Due.move ++ l.moves).count m + _
      = m.times _ (l.statusLogs s)
    rw [← hdue, List.map_append, List.append_assoc, List.count_append]
    omega
  payee := fun t' y hy hh => by
    by_cases htt : t' = t
    · subst htt
      obtain rfl : x' = y := by simpa [Session.writeTxn] using hy
      exact hpayee hh
    · exact h.payee t' y (by simpa [Session.writeTxn, htt] using hy) hh
  money := fun hf u => by
    have hm := h.money hf u
    have hworth := Txn.worth_dues hover t u
    have hview : overlay l.txnWrites s.txns t = x := hx
    unfold Session.earned at hm ⊢
    show drift (Txn.creditTo u) (update l.txnWrites t (some x')) s.txns s.nextId - _
      = l.gap s u + _
    rw [drift_update ht, hview, owedTo_append]
    show _ - drift (CashOutRequest.reservedFrom u) l.reqWrites s.reqs s.nextId = _
    omega

/-- One UPDATE over the whole table that leaves settlement alone. -/
theorem Session.Books.writeTxns (h : l.Books S owed s) {s₀ : World} {cond : Txn → Bool}
    {values : Nat → Txn → Txn}
    (hview : ∀ t x, l.matching s₀ cond t = some x → l.txn s t = some x)
    (hsame : ∀ (now : Nat) (x : Txn), (values now x).settlementStatus = x.settlementStatus ∧
      x.SameTerms (values now x) ∧ (values now x).xrplTxHash = x.xrplTxHash)
    (hpayee : ∀ t x, l.txn s t = some x → x.xrplTxHash.isSome = true → s.HasPayee t) :
    (l.writeTxns s₀ cond values).Books S owed s := by
  have hlogs : (l.writeTxns s₀ cond values).settlementLog = l.settlementLog := by
    funext t
    show (match l.matching s₀ cond t with
      | some x => logStatus (some x.settlementStatus) (values s₀.clock x).settlementStatus
          (l.settlementLog t)
      | none => l.settlementLog t) = l.settlementLog t
    cases l.matching s₀ cond t with
    | none => rfl
    | some x => simp [logStatus, (hsame s₀.clock x).1]
  -- no row settles by it: nothing to log, no new payee, and nobody's earnings move
  refine ⟨fun m => ?_, fun t y hy hh => ?_, fun hf u => ?_⟩
  · have hm := h.moves m
    unfold Session.settlementLogs at hm ⊢
    rw [hlogs]
    exact hm
  · cases hmatch : l.matching s₀ cond t with
    | none => exact h.payee t y (by simpa [Session.writeTxns, hmatch] using hy) hh
    | some x =>
      obtain rfl : values s₀.clock x = y := by simpa [Session.writeTxns, hmatch] using hy
      rw [(hsame _ x).2.2] at hh
      exact hpayee t x (hview t x hmatch) hh
  · have hdrift : drift (Txn.creditTo u) (l.writeTxns s₀ cond values).txnWrites s.txns s.nextId
        = drift (Txn.creditTo u) l.txnWrites s.txns s.nextId := by
      apply drift_congr
      intro t
      cases hmatch : l.matching s₀ cond t with
      | none => simp [overlay, Session.writeTxns, hmatch]
      | some x =>
        have hold : overlay l.txnWrites s.txns t = some x := hview t x hmatch
        obtain ⟨hst, hterms, -⟩ := hsame s₀.clock x
        have hq : (values s₀.clock x).uctusdAmount = x.uctusdAmount :=
          congrArg Quote.uctusdAmount hterms.quote
        rw [hold]
        simp [overlay, Session.writeTxns, hmatch, Txn.creditTo, hst, hterms.recipient, hq]
    have hm := h.money hf u
    unfold Session.earned at hm ⊢
    rw [hdrift]
    exact hm

theorem Session.Books.writeReq (h : l.Books S owed s) (now : Nat) {r : Nat}
    {q : Option CashOutRequest} (q' : CashOutRequest) (hq : l.req s r = q) (hr : r < s.nextId)
    (hover : CashOutRequest.WrittenOver q q' (l.statusLog r ++ s.statusLog r)) :
    (l.writeReq now r q q').Books S (q'.dues r q ++ owed) s where
  moves := fun m => by
    have hm := h.moves m
    have hdue := CashOutRequest.times_dues (l.settlementLogs s) (l.statusLogs s) rfl hover m
    rw [Session.statusLogs_writeReq]
    show ((q'.dues r q ++ owed).map Due.move ++ l.moves).count m + _
      = m.times (l.settlementLogs s) _
    rw [← hdue, List.map_append, List.append_assoc, List.count_append]
    omega
  payee := h.payee
  money := fun hf u => by
    have hm := h.money hf u
    have hworth := CashOutRequest.worth_dues hover r u
    have hview : overlay l.reqWrites s.reqs r = q := hq
    unfold Session.earned at hm ⊢
    show _ - drift (CashOutRequest.reservedFrom u) (update l.reqWrites r (some q')) s.reqs s.nextId
      = l.gap s u + _
    rw [drift_update hr, hview, owedTo_append]
    show drift (Txn.creditTo u) l.txnWrites s.txns s.nextId - _ = _
    omega

/-- The statement that is owed: the balance the session sees, plus the amount. -/
theorem Session.Books.setBalance {move : Move} {u : Nat} {amount balance : Int} {w : Wallet}
    (h : l.Books S (⟨move, some u, amount⟩ :: owed) s) (hw : l.wallet s u = some w)
    (hb : S.freshLock = true → balance = w.balanceUctusd + amount)
    (htxns : l'.txnWrites = l.txnWrites ∧ l'.settlementLog = l.settlementLog)
    (hreqs : l'.reqWrites = l.reqWrites ∧ l'.statusLog = l.statusLog)
    (hwallets : l'.walletWrites = update l.walletWrites u
      (some { w with balanceUctusd := balance }))
    (hmoves : l'.moves = move :: l.moves) : l'.Books S owed s where
  moves := fun m => by
    have hm := h.moves m
    unfold Session.settlementLogs Session.statusLogs at hm ⊢
    rw [htxns.2, hreqs.2, hmoves, ← hm]
    simp only [List.map_cons, List.cons_append, List.count_append, List.count_cons]
    omega
  payee := by rw [htxns.1]; exact h.payee
  money := fun hf u' => by
    have hm := h.money hf u'
    have hearned : l'.earned s u' = l.earned s u' := by
      unfold Session.earned
      rw [htxns.1, hreqs.1]
    have hgap : l'.gap s u' = l.gap s u' + (if some u = some u' then amount else 0) := by
      unfold Session.gap Session.wallet
      rw [hwallets]
      by_cases hu : u' = u
      · subst hu
        have hview : balanceOf ((l.walletWrites u').or (s.wallets u')) = w.balanceUctusd := by
          rw [show (l.walletWrites u').or (s.wallets u') = some w from hw]
          rfl
        rw [hview, hb hf]
        simp [balanceOf]
        omega
      · simp [update_of_ne hu, Ne.symm hu]
    rw [hearned, hgap, hm, owedTo_cons]
    show l.gap s u' + ((if some u = some u' then amount else 0) + owedTo u' owed) = _
    omega

/-- A statement on a wallet that leaves its balance as the session sees it. -/
theorem Session.Books.of_sameBalances (h : l.Books S owed s)
    (htxns : l'.txnWrites = l.txnWrites ∧ l'.settlementLog = l.settlementLog)
    (hreqs : l'.reqWrites = l.reqWrites ∧ l'.statusLog = l.statusLog)
    (hmoves : l'.moves = l.moves) (hgap : ∀ u, l'.gap s u = l.gap s u) : l'.Books S owed s where
  moves := fun m => by
    have hm := h.moves m
    unfold Session.settlementLogs Session.statusLogs at hm ⊢
    rw [htxns.2, hreqs.2, hmoves]
    exact hm
  payee := by rw [htxns.1]; exact h.payee
  money := fun hf u => by
    have hearned : l'.earned s u = l.earned s u := by
      unfold Session.earned
      rw [htxns.1, hreqs.1]
    rw [hearned, hgap]
    exact h.money hf u

theorem Session.gap_same (hw : l'.walletWrites = l.walletWrites) (u : Nat) :
    l'.gap s u = l.gap s u := by
  unfold Session.gap Session.wallet
  rw [hw]

/-- A wallet written with the balance the session sees. -/
theorem Session.gap_write {u : Nat} {w : Wallet} (hb : w.balanceUctusd = balanceOf (l.wallet s u))
    (hw : l'.walletWrites = update l.walletWrites u (some w)) (u' : Nat) :
    l'.gap s u' = l.gap s u' := by
  unfold Session.gap
  have hview : balanceOf (l'.wallet s u') = balanceOf (l.wallet s u') := by
    by_cases hu : u' = u
    · subst hu
      rw [← hb]
      simp [Session.wallet, hw, balanceOf]
    · simp [Session.wallet, hw, update_of_ne hu]
  rw [hview]

/-! ## §5. What a call does to the books. -/

/-- A call that calls for no balance statement: `K` tells the transactions whose
recipient is known to have a wallet, `G` whether a hash may be noted, `W`
whether wallets may be loaded. -/
def Op.Idle (K : Nat → Prop) (G W : Prop) : Op → Prop
  | .setSignedHash _ => G
  | .selectWallet _ | .loadWallet _ | .lockWallet _ | .setTrustLine _ | .insertWallet _ _ => W
  | .updateTxn t cond values => ∀ now x, cond x = true →
      ((values now x).settlementStatus = .completed → x.settlementStatus = .completed) ∧
      ((values now x).xrplTxHash.isSome = true → x.xrplTxHash.isSome = true ∨ K t)
  | .updateReq _ cond values => ∀ now q, cond q = true →
      ((values now q).status = .approved → q.status = .approved) ∧
      ((values now q).status = .failed → q.status ≠ .approved)
  | .setBalance _ _ _ => False
  | _ => True

theorem idle_plain {K : Nat → Prop} {G : Prop} :
    ∀ o : Op, o.isBasic = true → o.Idle K G True := by
  intro o h
  cases o <;> trivial

theorem may_idle_plain (e : Entry) (K : Nat → Prop) (G : Prop) :
    ∀ o : Op, o.isBasic = true → e.may o ∧ o.Idle K G True :=
  fun o ho => ⟨may_plain e o ho, idle_plain o ho⟩

theorem Txn.Logged.writtenOver {x x' : Txn} {log : List SettlementStatus}
    {cashin : List CashInStatus} (h : x.Logged log cashin) (ht : x.SameTerms x') (hm : x.Moves x') :
    Txn.WrittenOver (some x) x' log := ⟨h.completed_iff, ht, hm.settlement⟩

theorem CashOutRequest.Logged.writtenOver {q q' : CashOutRequest} {log : List CashOutStatus}
    (h : q.Logged log) (ht : q.SameTerms q') (hm : q.Moves q') :
    CashOutRequest.WrittenOver (some q) q' log := ⟨h, ht, hm.status⟩

/-- What a session needs to know to follow what a call does to its books. -/
structure Bookkeeping (i : Nat) (l : Session) (s : World) : Prop where
  orderly : s.Orderly
  session : l.LogsWrites i s

variable {e : Entry} {o : Op} {c : Choice}

/-- An UPDATE of one transaction leaves its dues owed. -/
theorem Session.Owes.updateTxn {t : Nat} {cond : Txn → Bool} {values : Nat → Txn → Txn}
    (h : l.Owes S owed s) (hk : Bookkeeping i l s) (he : TxnUpdate e t cond values)
    (hpayee : ∀ now x, l.txn s t = some x → cond x = true →
      (values now x).xrplTxHash.isSome = true → s.HasPayee t)
    {r : Except Exn Bool}
    (hx : exec S i (.updateTxn t cond values) c l s = some (r, l', s')) :
    ((∃ e, r = .error e) ∧ l'.failed = true) ∨
    (r = .ok false ∧ l'.Owes S owed s') ∨
    (∃ x now, r = .ok true ∧ cond x = true ∧ l.txn s t = some x ∧
      l'.Owes S ((values now x).dues t (some x) ++ owed) s') := by
  have hu := exec_uncommitted (by simp) hx
  have hd : l.Undisturbed s s' := hu.undisturbed
  have hs' := h.frame hk.session.locked hd
  rcases exec_updateTxn hx with ⟨he, hf, -⟩ | ⟨hr, rfl, -⟩ | ⟨x, hr, hnf, hxt, hc, hl', -⟩
  · exact .inl ⟨he, hf⟩
  · exact .inr (.inl ⟨hr, hs'⟩)
  · refine .inr (.inr ⟨x, s'.clock, hr, hc, hxt, ?_⟩)
    rcases hs' with hf | ⟨hb, hg⟩
    · rw [hnf] at hf; cases hf
    · right
      have hlog := hk.session.read_txn hk.orderly.lifecycle hxt
      have ht : t < s.nextId := by
        rcases Session.txn_cases hxt with hw | ⟨-, hst⟩
        · exact (hk.session.locked.txns t x hw).2
        · exact hk.orderly.regular.txnIds t x hst
      have hview : l.txn s' t = some x := by
        unfold Session.txn
        rw [hu.txns]
        exact hxt
      have hlogs : l.settlementLog t ++ s'.settlementLog t
          = l.settlementLog t ++ s.settlementLog t := by rw [hu.settlementLog]; rfl
      subst hl'
      refine ⟨hb.writeTxn _ _ hview (Nat.lt_of_lt_of_le ht hd.nextId) ?_ fun hh =>
        hd.payee t (hpayee _ x hxt hc hh), hg⟩
      rw [hlogs]
      exact hlog.writtenOver (he.terms _ x) (he.moves _ hlog.paired hc)

theorem Session.Owes.updateReq {k : Nat} {cond : CashOutRequest → Bool}
    {values : Nat → CashOutRequest → CashOutRequest}
    (h : l.Owes S owed s) (hk : Bookkeeping i l s) (he : ReqUpdate e k cond values)
    {r : Except Exn Bool}
    (hx : exec S i (.updateReq k cond values) c l s = some (r, l', s')) :
    ((∃ e, r = .error e) ∧ l'.failed = true) ∨
    (r = .ok false ∧ l'.Owes S owed s') ∨
    (∃ q now, r = .ok true ∧ cond q = true ∧ l.req s k = some q ∧
      l'.Owes S ((values now q).dues k (some q) ++ owed) s') := by
  have hu := exec_uncommitted (by simp) hx
  have hd : l.Undisturbed s s' := hu.undisturbed
  have hs' := h.frame hk.session.locked hd
  rcases exec_updateReq hx with ⟨he, hf, -⟩ | ⟨hr, rfl, -⟩ | ⟨q, hr, hnf, hq, hc, hl', -⟩
  · exact .inl ⟨he, hf⟩
  · exact .inr (.inl ⟨hr, hs'⟩)
  · refine .inr (.inr ⟨q, s'.clock, hr, hc, hq, ?_⟩)
    rcases hs' with hf | ⟨hb, hg⟩
    · rw [hnf] at hf; cases hf
    · right
      have hlog := hk.session.read_req hk.orderly.lifecycle hq
      have ht : k < s.nextId := by
        rcases Session.req_cases hq with hw | ⟨-, hst⟩
        · exact (hk.session.locked.reqs k q hw).2
        · exact hk.orderly.regular.reqIds k q hst
      have hview : l.req s' k = some q := by
        unfold Session.req
        rw [hu.reqs]
        exact hq
      have hlogs : l.statusLog k ++ s'.statusLog k = l.statusLog k ++ s.statusLog k := by
        rw [hu.statusLog]; rfl
      subst hl'
      refine ⟨hb.writeReq _ _ hview (Nat.lt_of_lt_of_le ht hd.nextId) ?_, hg⟩
      rw [hlogs]
      exact hlog.writtenOver (he.terms _ q) (he.moves _ hlog.paidOut hc)

/-- A call that calls for nothing, and is not COMMIT, leaves owed what was. -/
theorem Session.Owes.idle {K : Nat → Prop} {G W : Prop} (h : l.Owes S owed s)
    (hk : Bookkeeping i l s)
    (he : e.may o) (hi : o.Idle K G W) (hknown : ∀ t, K t → s.HasPayee t)
    (hbooks : Orbyt.Books S s) (ho : o ≠ .commit) {r : Except Exn o.Res}
    (hx : exec S i o c l s = some (r, l', s')) : l'.Owes S owed s' := by
  have hu := exec_uncommitted ho hx
  have hd : l.Undisturbed s s' := hu.undisturbed
  have hlocked := hk.session.locked
  rcases id h with hf | ⟨hb₀, hg₀⟩
  · exact .inl (exec_staysFailed hf hx)
  have hb := hb₀.frame hlocked hd
  have hg : S.freshLock = true → ∀ u, l.gap s' u = 0 := fun hf u =>
    (Session.gap_frame hd u).trans (hg₀ hf u)
  have same : l'.txnWrites = l.txnWrites ∧ l'.settlementLog = l.settlementLog →
      l'.reqWrites = l.reqWrites ∧ l'.statusLog = l.statusLog → l'.moves = l.moves →
      (∀ u, l'.gap s' u = l.gap s' u) → l'.Owes S owed s' := fun h₁ h₂ h₃ h₄ =>
    .inr ⟨hb.of_sameBalances h₁ h₂ h₃ h₄, fun hf u => (h₄ u).trans (hg hf u)⟩
  -- the recipient of a row with a hash has a wallet, whether stored or just written
  have hpayee : ∀ t x, l.txn s t = some x → x.xrplTxHash.isSome = true → s.HasPayee t := by
    intro t x hxt hh
    rcases Session.txn_cases hxt with hw | ⟨-, hst⟩
    · exact hb₀.payee t x hw hh
    · exact hbooks.payee t x hst hh
  have hview : ∀ t, l.txn s' t = l.txn s t := fun t => by
    unfold Session.txn
    rw [hu.txns]
    rfl
  have hwallet : ∀ u, l.wallet s' u = l.wallet s u := fun u => by
    unfold Session.wallet
    rw [hu.wallets]
    rfl
  cases o with
  | commit => exact absurd rfl ho
  | updateTxn t cond values =>
    have hp : ∀ now x, l.txn s t = some x → cond x = true →
        (values now x).xrplTxHash.isSome = true → s.HasPayee t := fun now x hxt hc hh => by
      rcases (hi now x hc).2 hh with hold | hkt
      · exact hpayee t x hxt hold
      · exact hknown t hkt
    rcases h.updateTxn hk he hp hx with ⟨-, hf⟩ | ⟨-, hs'⟩ | ⟨x, now, -, hc, -, hs'⟩
    · exact .inl hf
    · exact hs'
    · have hnone : (values now x).dues t (some x) = [] := by
        unfold Txn.dues
        rw [if_neg]
        rintro ⟨h₁, h₂⟩
        exact h₂ (congrArg some ((hi now x hc).1 h₁))
      rwa [hnone] at hs'
  | updateTxns cond values =>
    obtain ⟨-, asked, rfl, rfl⟩ := he
    rcases exec_updateTxns hx with ⟨-, rfl⟩ | ⟨-, rfl, -⟩
    · exact .inl (Bool.or_true _)
    · refine .inr
        ⟨hb.writeTxns (fun t x hm => ?_) (fun _ _ => ⟨rfl, ⟨rfl, rfl, rfl, rfl, rfl⟩, rfl⟩)
        (fun t x hxt hh => hd.payee t (hpayee t x (hview t ▸ hxt) hh)), hg⟩
      rw [hview]
      exact (matching_eq_some hm).2.1
  | insertTxn row =>
    obtain ⟨form, recipientId, quote, last4, declined, -, rfl⟩ := he
    rcases exec_insertTxn hx with ⟨-, hf, -⟩ | ⟨-, -, hn, rfl, -, hid⟩
    · exact .inl hf
    · obtain ⟨hw, ht⟩ := Option.or_eq_none_iff.mp hn
      have hlogs : l.settlementLog s.nextId ++ s'.settlementLog s.nextId = [] := by
        rw [hlocked.settlementLog _ hw, hu.settlementLog]
        exact (hk.orderly.lifecycle.noTxn _ ht).1
      have hnew := hb.writeTxn s'.clock
        (CashinService.newTransaction form recipientId quote last4 declined s.nextId s'.clock)
        ((hview _).trans hn) (by omega) hlogs (fun hh => by cases hh)
      exact .inr ⟨hnew, hg⟩
  | updateReq k cond values =>
    rcases h.updateReq hk he hx with ⟨-, hf⟩ | ⟨-, hs'⟩ | ⟨q, now, -, hc, -, hs'⟩
    · exact .inl hf
    · exact hs'
    · have hnone : (values now q).dues k (some q) = [] := by
        unfold CashOutRequest.dues
        rw [if_neg, if_neg]
        · rintro ⟨h₁, h₂⟩
          exact (hi now q hc).2 h₁ (Option.some.inj h₂)
        · rintro ⟨h₁, h₂⟩
          exact h₂ (congrArg some ((hi now q hc).1 h₁))
      rwa [hnone] at hs'
  | insertReq row =>
    obtain ⟨form, pricing, -, rfl⟩ := he
    rcases exec_insertReq hx with ⟨-, hf, -⟩ | ⟨-, -, hn, rfl, -, hid⟩
    · exact .inl hf
    · obtain ⟨hw, hr⟩ := Option.or_eq_none_iff.mp hn
      have hreq : l.req s' s.nextId = none := by
        unfold Session.req
        rw [hu.reqs]
        exact hn
      have hlogs : l.statusLog s.nextId ++ s'.statusLog s.nextId = [] := by
        rw [hlocked.statusLog _ hw, hu.statusLog]
        exact hk.orderly.lifecycle.noReq _ hr
      have hnew := hb.writeReq s'.clock (CashoutService.newRequest form pricing s.nextId s'.clock)
        hreq (by omega) ⟨hlogs, rfl⟩
      exact .inr ⟨hnew, hg⟩
  | setBalance u balance move => exact absurd hi id
  | setTrustLine u =>
    have htxns := exec_sameTxns rfl hx
    obtain ⟨hm, hw | ⟨w, hw, hl'⟩⟩ := exec_setTrustLine hx
    · exact same ⟨htxns.1, htxns.2.1⟩ (exec_sameReqs rfl hx) hm (Session.gap_same hw)
    · refine same ⟨htxns.1, htxns.2.1⟩ (exec_sameReqs rfl hx) hm (Session.gap_write ?_ hl')
      rw [hwallet, hw]
      rfl
  | insertWallet u w =>
    obtain ⟨t, address, -, rfl⟩ := he
    have htxns := exec_sameTxns rfl hx
    obtain ⟨hm, hw | ⟨hw, hl'⟩⟩ := exec_insertWallet hx
    · exact same ⟨htxns.1, htxns.2.1⟩ (exec_sameReqs rfl hx) hm (Session.gap_same hw)
    · refine same ⟨htxns.1, htxns.2.1⟩ (exec_sameReqs rfl hx) hm (Session.gap_write ?_ hl')
      rw [hwallet, hw]
      rfl
  | _ =>
    have htxns := exec_sameTxns rfl hx
    have hwal := exec_sameWallets rfl hx
    exact same ⟨htxns.1, htxns.2.1⟩ (exec_sameReqs rfl hx) hwal.2 (Session.gap_same hwal.1)

/-! ## §6. The protocol. -/

/-- A transaction that owes nothing more. -/
def Session.Settled (S : Setting) (l : Session) (s : World) : Prop :=
  l.failed = true ∨ l.Books S [] s

theorem Session.Owes.settled (h : l.Owes S [] s) : l.Settled S s := h.imp id And.left

/-- Rows stay on their terms and wallets stay. -/
structure Grows (s s' : World) : Prop where
  terms : TermsKept s s'
  wallets : ∀ u, (s.wallets u).isSome = true → (s'.wallets u).isSome = true

theorem Grows.trans {s'' : World} (h : Grows s s') (h' : Grows s' s'') : Grows s s'' :=
  ⟨h.terms.trans h'.terms, fun u hu => h'.wallets u (h.wallets u hu)⟩

theorem Grows.refl (s : World) : Grows s s := ⟨.of_eq rfl rfl, fun _ h => h⟩

theorem Meanwhile.grows (h : Meanwhile i s s') : Grows s s' := ⟨h.terms, h.others.wallets⟩

theorem exec_grows (hl : l.LogsWrites i s) {r : Except Exn o.Res}
    (hx : exec S i o c l s = some (r, l', s')) : Grows s s' := by
  refine ⟨exec_terms hl hx, fun u hu => ?_⟩
  by_cases ho : o = .commit
  · subst ho
    rcases exec_commit hx with ⟨-, -, rfl⟩ | ⟨-, rfl, -⟩
    · exact hu
    · show ((l.walletWrites u).or (s.wallets u)).isSome = true
      cases l.walletWrites u with
      | none => exact hu
      | some w => rfl
  · rw [(exec_uncommitted ho hx).wallets]
    exact hu

def books (S : Setting) : Protocol (rules S) where
  known := fun _ => True
  inv := Orbyt.Books S
  rely := fun _ _ _ => True
  refl := fun _ _ => trivial
  trans := fun _ _ => trivial

theorem Session.Owes.sees (h : l.Owes S owed s) (hg : (books S).Given i l s)
    (hs : (books S).Sees i s s') : l.Owes S owed s' :=
  h.frame hg.session.locked (hg.session.locked.undisturbed hs.moves)

theorem Session.Settled.sees (h : l.Settled S s) (hg : (books S).Given i l s)
    (hs : (books S).Sees i s s') : l.Settled S s' :=
  h.imp id fun hb => hb.frame hg.session.locked (hg.session.locked.undisturbed hs.moves)

theorem books_keeps (hh : (books S).Here i l s) (ho : o ≠ .commit) {r : Except Exn o.Res}
    (hx : exec S i o c l s = some (r, l', s')) : (books S).keeps i s s' :=
  ⟨Books.of_uncommitted hh.inv hh.world.regular (exec_uncommitted ho hx), fun _ _ => trivial⟩

/-- A session with nothing open owes nothing. -/
theorem Session.Owes.committed (S : Setting) (l : Session) (s : World) :
    l.committed.Owes S [] s := by
  have hgap : ∀ u, l.committed.gap s u = 0 := fun u => by
    simp [Session.gap, Session.wallet, Session.committed]
  refine .inr ⟨⟨fun m => ?_, fun t x hx => (by cases hx), fun _ u => ?_⟩, fun _ u => hgap u⟩
  · simp only [List.map_nil, List.nil_append]
    show ([] : List Move).count m + _ = m.times s.settlementLog s.statusLog
    rw [List.count_nil, Nat.zero_add]
  · have ht : drift (Txn.creditTo u) l.committed.txnWrites s.txns s.nextId = 0 :=
      drift_none fun _ => rfl
    have hr : drift (CashOutRequest.reservedFrom u) l.committed.reqWrites s.reqs s.nextId = 0 :=
      drift_none fun _ => rfl
    unfold Session.earned
    rw [ht, hr, hgap]
    rfl

/-- **COMMIT** of a transaction that owes nothing keeps the books. -/
theorem books_commit (hh : (books S).Here i l s) (h : l.Settled S s) {r : Except Exn Unit}
    (hx : exec S i .commit c l s = some (r, l', s')) :
    (books S).keeps i s s' ∧ l'.Owes S [] s' := by
  have htick : Uncommitted i (s.tick S c) (s.tick S c) := .refl i _
  have hbooks : Orbyt.Books S (s.tick S c) := hh.inv.of_uncommitted hh.world.regular htick
  rcases exec_commit hx with ⟨-, rfl, rfl⟩ | ⟨hf, rfl, hend⟩
  · exact ⟨⟨hbooks, fun _ _ => trivial⟩, .inl (Bool.or_true _)⟩
  · have hl : l.LogsWrites i (s.tick S c) := hh.session.of_others Others.tick
    have hb : l.Books S [] (s.tick S c) := by
      rcases h with hfail | hb
      · rw [hf] at hfail; cases hfail
      · exact hb.frame hh.session.locked htick.undisturbed
    refine ⟨⟨hbooks.commit hl hb, fun _ _ => trivial⟩, ?_⟩
    rcases hend with ⟨-, rfl⟩ | ⟨-, rfl⟩
    · exact Session.Owes.committed S l _
    · exact .inl (Bool.or_true _)

/-- A call that calls for nothing, of a session that owes nothing. -/
theorem books_step {K : Nat → Prop} {G W : Prop} (hh : (books S).Here i l s)
    (he : e.may o) (hi : o.Idle K G W) (hknown : ∀ t, K t → s.HasPayee t) (h : l.Owes S [] s)
    {r : Except Exn o.Res} (hx : exec S i o c l s = some (r, l', s')) :
    (books S).keeps i s s' ∧ l'.Owes S [] s' := by
  by_cases ho : o = .commit
  · subst ho
    exact books_commit hh h.settled hx
  · exact ⟨books_keeps hh ho hx,
      h.idle ⟨hh.world, hh.session⟩ he hi hknown hh.inv ho hx⟩

/-- How a session that owes nothing has got from one moment to another. -/
structure OnTrack (S : Setting) (G W : Prop) (l : Session) (s : World) (l' : Session)
    (s' : World) : Prop where
  owes : l'.Owes S [] s'
  grows : Grows s s'
  signed : l'.signedHash = l.signedHash ∨ G
  copies : l.SameCopies l' ∨ W

variable {G W : Prop}

theorem OnTrack.refl (h : l.Owes S [] s) : OnTrack S G W l s l s :=
  ⟨h, .refl s, .inl rfl, .inl ⟨rfl, fun _ h => h⟩⟩

theorem OnTrack.trans {l'' : Session} {s'' : World} (h : OnTrack S G W l s l' s')
    (h' : OnTrack S G W l' s' l'' s'') : OnTrack S G W l s l'' s'' where
  owes := h'.owes
  grows := h.grows.trans h'.grows
  signed := by
    rcases h'.signed with he | hs
    · rw [he]
      exact h.signed
    · exact .inr hs
  copies := by
    rcases h.copies with hc | hl
    · rcases h'.copies with hc' | hl
      · exact .inl ⟨hc'.copies.trans hc.copies, fun u hu => hc'.writes u (hc.writes u hu)⟩
      · exact .inr hl
    · exact .inr hl

/-- A session on track has at most been allowed more. -/
theorem OnTrack.weaken (h : OnTrack S False False l s l' s') : OnTrack S G W l s l' s' :=
  ⟨h.owes, h.grows, h.signed.imp id False.elim, h.copies.imp id False.elim⟩

theorem exec_signed {K : Nat → Prop} (hi : o.Idle K G W) {r : Except Exn o.Res}
    (hx : exec S i o c l s = some (r, l', s')) :
    (l'.signedHash = l.signedHash ∨ G) ∧ (l.SameCopies l' ∨ W) := by
  constructor
  · cases ho : o.setsSignedHash with
    | false => exact .inl (exec_sameSigned ho hx)
    | true =>
      cases o with
      | setSignedHash h => exact .inr hi
      | _ => cases ho
  · cases ho : o.loadsWallets with
    | false => exact .inl (exec_sameCopies ho hx)
    | true =>
      cases o with
      | selectWallet _ | loadWallet _ | lockWallet _ | setTrustLine _ | insertWallet _ _ =>
        exact .inr hi
      | setBalance _ _ _ => exact hi.elim
      | _ => cases ho

theorem exec_track {K : Nat → Prop} (hl : l.LogsWrites i s) (hi : o.Idle K G W)
    {r : Except Exn o.Res} (hx : exec S i o c l s = some (r, l', s')) (ho : l'.Owes S [] s') :
    OnTrack S G W l s l' s' :=
  ⟨ho, exec_grows hl hx, (exec_signed hi hx).1, (exec_signed hi hx).2⟩

theorem OnTrack.sees (hs : (books S).Sees i s s') {s'' : World}
    (h : OnTrack S G W l s' l' s'') : OnTrack S G W l s l' s'' :=
  ⟨h.owes, hs.moves.grows.trans h.grows, h.signed, h.copies⟩

/-- **IDLE PROGRAMS**: a program whose calls call for nothing owes nothing in the end. -/
theorem books_of_uses {K : Nat → Prop} {α : Type} {p : Program α}
    (hu : Prog.Uses (fun o : Op => e.may o ∧ o.Idle K G W) p)
    (hknown : ∀ t, K t → s.HasPayee t) (h : l.Owes S [] s) :
    Safe (books S) i (fun _ l' s' => OnTrack S G W l s l' s')
      (fun _ l' s' => OnTrack S G W l s l' s') p l s := by
  refine Safe.of_uses (P := books S) (F := fun o : Op => e.may o ∧ o.Idle K G W)
    (A := fun (l' : Session) (s' : World) => OnTrack S G W l s l' s') ?_ ?_ hu (.refl h)
  · intro (l₁ : Session) (s₁ : World) (s₂ : World) ha hg _ hs
    exact ⟨ha.owes.sees hg hs, ha.grows.trans hs.moves.grows, ha.signed, ha.copies⟩
  · rintro (o : Op) ⟨he, hi⟩ (l₁ : Session) (s₁ : World) ha hh c r l' s' hx _
    obtain ⟨hk, ho'⟩ := books_step hh he hi (fun t ht => (hknown t ht).mono ha.grows.terms
      ha.grows.wallets) ha.owes hx
    exact ⟨hk, ha.trans (exec_track hh.session hi hx ho')⟩

/-! ## §7. The programs that move money. -/

section Programs

variable {α : Type} {Q : α → Session → World → Prop} {E : Exn → Session → World → Prop}

/-- The wallet of `u` is locked by `i`, and `b` is the balance the session sees. -/
def Holding (S : Setting) (i : Nat) (l : Session) (s : World) (u : Nat) (b : Int) : Prop :=
  s.walletLock u = some i ∧ (S.freshLock = true → b = balanceOf (l.wallet s u))

theorem Holding.sees {u : Nat} {b : Int} (h : Holding S i l s u b)
    (hs : (books S).Sees i s s') : Holding S i l s' u b := by
  obtain ⟨hlock, hsame⟩ := hs.moves.others.walletLock u h.1
  refine ⟨hlock, fun hf => ?_⟩
  unfold Session.wallet
  rw [hsame]
  exact h.2 hf

theorem Holding.exec {u : Nat} {b : Int} (h : Holding S i l s u b) (ho : o ≠ .commit)
    (hw : o.writesWallets = false) {r : Except Exn o.Res}
    (hx : exec S i o c l s = some (r, l', s')) : Holding S i l' s' u b := by
  have hu := exec_uncommitted ho hx
  refine ⟨hu.walletLock.keeps h.1, fun hf => ?_⟩
  unfold Session.wallet
  rw [(exec_sameWallets hw hx).1, hu.wallets]
  exact h.2 hf

/-- The session has nothing written and not committed. -/
structure Session.Clean (l : Session) : Prop where
  txns : ∀ t, l.txnWrites t = none
  reqs : ∀ r, l.reqWrites r = none
  wallets : ∀ u, l.walletWrites u = none

/-- COMMIT, then the rest. -/
theorem commit_books {f : Unit → Program α} (h : l.Settled S s)
    (hf : ∀ l' s', l'.Clean → OnTrack S False False l s l' s' → Safe (books S) i Q E (f ()) l' s')
    (hE : ∀ e l' s', OnTrack S False False l s l' s' → E e l' s') :
    Safe (books S) i Q E (Prog.bind (call .commit) f) l s := by
  refine Safe.call_bind fun hg s₁ hh hs c r l' s' hx hg' => ?_
  obtain ⟨hk, ho⟩ := books_commit hh (h.sees hg hs) hx
  have ht : OnTrack S False False l s l' s' := .sees hs
    (exec_track (o := .commit) (K := fun _ => False) hh.session trivial hx ho)
  refine ⟨hk, ?_⟩
  rcases exec_commit hx with ⟨⟨e, rfl⟩, -⟩ | ⟨-, -, ⟨rfl, rfl⟩ | ⟨⟨e, rfl⟩, -⟩⟩
  · exact hE _ _ _ ht
  · exact hf _ s' ⟨fun _ => rfl, fun _ => rfl, fun _ => rfl⟩ ht
  · exact hE _ _ _ ht

/-- SELECT .. FOR UPDATE of a wallet, then the rest. -/
theorem lockWallet_books {u : Nat} {f : Option Wallet → Program α} (h : l.Owes S owed s)
    (hsome : ∀ w l' s', l'.Owes S owed s' → Holding S i l' s' u w.balanceUctusd → Grows s s' →
      Safe (books S) i Q E (f (some w)) l' s')
    (hnone : ∀ l' s', l'.Owes S owed s' → (s.wallets u).isSome ≠ true →
      Safe (books S) i Q E (f none) l' s')
    (hE : ∀ e l' s', E e l' s') : Safe (books S) i Q E (Prog.bind (call (.lockWallet u)) f)
    l s := by
  refine Safe.call_bind fun hg s₁ hh hs c r l' s' hx hg' => ⟨books_keeps hh (by simp) hx, ?_⟩
  have ho := h.sees hg hs
  have ho' : l'.Owes S owed s' := ho.idle (o := .lockWallet u) (K := fun _ => False)
    (G := False) (W := True)
    ⟨hh.world, hh.session⟩ (may_plain .sweepUnpublished _ rfl) trivial (fun _ hf => hf.elim) hh.inv
    (by simp) hx
  rcases exec_lockWallet hx with ⟨⟨e, rfl⟩, -⟩ | ⟨rfl, hn⟩ | ⟨w, rfl, hw, hlock, hfresh⟩
  · exact hE _ _ _
  · refine hnone l' s' ho' fun hsome => ?_
    -- a wallet that was there is there still
    have hst : (s₁.wallets u).isSome = true := hs.moves.others.wallets u hsome
    rw [(Option.or_eq_none_iff.mp hn).2] at hst
    cases hst
  · refine hsome w l' s' ho' ⟨hlock, fun hf => ?_⟩ (hs.moves.grows.trans (exec_grows hh.session hx))
    have hview : l'.wallet s' u = l.wallet s₁ u := by
      unfold Session.wallet
      rw [(exec_sameWallets rfl hx).1, (exec_uncommitted (by simp) hx).wallets]
      rfl
    rw [hview]
    rcases ho with hfail | ⟨-, hgap⟩
    · obtain ⟨e, he, -⟩ := exec_failed rfl hfail hx
      cases he
    · -- the copy holds the stored balance, and the session has not changed it
      have hg := hgap hf u
      have hcopy := hfresh hf
      unfold Session.gap at hg
      unfold Session.identify at hw
      unfold Session.freshCopy at hcopy
      cases hc : l.walletCopy u with
      | none =>
        rw [hc, Option.none_or] at hw
        rw [hw]
        rfl
      | some w' =>
        rw [hc, Option.some_or] at hw
        obtain rfl : w' = w := Option.some.inj hw
        rw [hc] at hcopy
        have hst : (s₁.wallets u).map (·.balanceUctusd) = some w'.balanceUctusd := by
          simpa using hcopy
        have hbal : balanceOf (s₁.wallets u) = w'.balanceUctusd := by
          obtain ⟨w₁, hw₁, hb⟩ := Option.map_eq_some_iff.mp hst
          rw [hw₁]
          exact hb
        omega

/-- The balance statement that is owed, then the rest. -/
theorem setBalance_books {u : Nat} {b amount balance : Int} {move : Move} {f : Unit → Program α}
    (h : l.Owes S [⟨move, some u, amount⟩] s) (hold : Holding S i l s u b)
    (hbalance : balance = b + amount)
    (hf : ∀ l' s', l'.Settled S s' → Grows s s' → Safe (books S) i Q E (f ()) l' s')
    (hE : ∀ e l' s', E e l' s') :
    Safe (books S) i Q E (Prog.bind (call (.setBalance u balance move)) f) l s := by
  refine Safe.call_bind fun hg s₁ hh hs c r l' s' hx hg' => ⟨books_keeps hh (by simp) hx, ?_⟩
  have ho := h.sees hg hs
  have hold' := hold.sees hs
  rcases exec_setBalance hx with ⟨⟨e, rfl⟩, -⟩ | ⟨rfl, hnf, w, hw, hwrite, hmoves⟩
  · exact hE _ _ _
  · refine hf l' s' ?_ (hs.moves.grows.trans (exec_grows hh.session hx))
    have hu := exec_uncommitted (by simp) hx
    rcases ho with hfail | ⟨hb, -⟩
    · rw [hnf] at hfail; cases hfail
    · right
      have hview : l.wallet s' u = some w := by
        unfold Session.wallet
        rw [hu.wallets]
        exact hw
      have htxns := exec_sameTxns rfl hx
      refine (hb.frame hh.session.locked hu.undisturbed).setBalance hview (fun hf => ?_)
        ⟨htxns.1, htxns.2.1⟩ (exec_sameReqs rfl hx) hwrite hmoves
      have hbal := hold'.2 hf
      rw [hw] at hbal
      rw [hbalance, hbal]
      rfl

/-- Row `t` is stored on the terms of `txn`. -/
def World.HasTxn (s : World) (t : Nat) (txn : Txn) : Prop :=
  ∃ x, s.txns t = some x ∧ txn.SameTerms x

def World.HasReq (s : World) (r : Nat) (req : CashOutRequest) : Prop :=
  ∃ q, s.reqs r = some q ∧ req.SameTerms q

theorem World.HasTxn.grows {t : Nat} {txn : Txn} (h : s.HasTxn t txn) (hg : Grows s s') :
    s'.HasTxn t txn := by
  obtain ⟨x, hx, ht⟩ := h
  obtain ⟨x', hx', ht'⟩ := hg.terms.txn t x hx
  exact ⟨x', hx', ht.trans ht'⟩

theorem World.HasReq.grows {r : Nat} {req : CashOutRequest} (h : s.HasReq r req)
    (hg : Grows s s') : s'.HasReq r req := by
  obtain ⟨q, hq, ht⟩ := h
  obtain ⟨q', hq', ht'⟩ := hg.terms.req r q hq
  exact ⟨q', hq', ht.trans ht'⟩

theorem World.HasPayee.grows {t : Nat} (h : s.HasPayee t) (hg : Grows s s') : s'.HasPayee t :=
  h.mono hg.terms hg.wallets

/-- An idle call, then the rest. -/
theorem idle_books (W : Prop) {f : o.Res → Program α} (he : e.may o)
    (hi : o.Idle (fun _ => False) False W) (h : l.Owes S [] s)
    (hf : ∀ a l' s', OnTrack S False W l s l' s' → Safe (books S) i Q E (f a) l' s')
    (hE : ∀ e l' s', OnTrack S False W l s l' s' → E e l' s') :
    Safe (books S) i Q E (Prog.bind (call o) f) l s := by
  refine Safe.call_bind fun hg s₁ hh hs c r l' s' hx hg' => ?_
  obtain ⟨hk, ho⟩ := books_step hh he hi (fun _ hf => hf.elim) (h.sees hg hs) hx
  have ht : OnTrack S False W l s l' s' := .sees hs (exec_track hh.session hi hx ho)
  refine ⟨hk, ?_⟩
  cases r with
  | ok a => exact hf a l' s' ht
  | error x => exact hE x l' s' ht

/-- A row read by a session that has written none is a stored one. -/
theorem selectTxn_books {t : Nat} {f : Option Txn → Program α} (h : l.Owes S [] s) (hc : l.Clean)
    (hf : ∀ found l' s', OnTrack S False False l s l' s' →
      (∀ txn, found = some txn → s'.HasTxn t txn ∧
        (txn.xrplTxHash.isSome = true → s'.HasPayee t)) → Safe (books S) i Q E (f found) l' s')
    (hE : ∀ e l' s', OnTrack S False False l s l' s' → E e l' s') :
    Safe (books S) i Q E (Prog.bind (call (.selectTxn t)) f) l s := by
  refine Safe.call_bind fun hg s₁ hh hs c r l' s' hx hg' => ?_
  obtain ⟨hk, ho⟩ := books_step (K := fun _ => False) (G := False) (W := False) hh
    (may_plain .sweepUnpublished (.selectTxn t) rfl) trivial (fun _ hf => hf.elim) (h.sees hg hs) hx
  have hgrow := exec_grows hh.session hx
  have ht : OnTrack S False False l s l' s' := .sees hs
    (exec_track (o := .selectTxn t) (K := fun _ => False) hh.session trivial hx ho)
  refine ⟨hk, ?_⟩
  rcases exec_selectTxn hx with ⟨e, rfl⟩ | ⟨rfl, -, -⟩
  · exact hE _ _ _ ht
  · refine hf _ l' s' ht fun txn hfound => ?_
    have hst : s₁.txns t = some txn := by
      rw [← hfound]
      simp [Session.txn, hc.txns t]
    exact ⟨World.HasTxn.grows ⟨txn, hst, .refl txn⟩ hgrow,
      fun hh' => (hh.inv.payee t txn hst hh').grows hgrow⟩

theorem selectReq_books {k : Nat} {f : Option CashOutRequest → Program α} (h : l.Owes S [] s)
    (hc : l.Clean)
    (hf : ∀ found l' s', OnTrack S False False l s l' s' →
      (∀ req, found = some req → s'.HasReq k req) → Safe (books S) i Q E (f found) l' s')
    (hE : ∀ e l' s', OnTrack S False False l s l' s' → E e l' s') :
    Safe (books S) i Q E (Prog.bind (call (.selectReq k)) f) l s := by
  refine Safe.call_bind fun hg s₁ hh hs c r l' s' hx hg' => ?_
  obtain ⟨hk, ho⟩ := books_step (K := fun _ => False) (G := False) (W := False) hh
    (may_plain .sweepUnpublished (.selectReq k) rfl) trivial (fun _ hf => hf.elim) (h.sees hg hs) hx
  have hgrow := exec_grows hh.session hx
  have ht : OnTrack S False False l s l' s' := .sees hs
    (exec_track (o := .selectReq k) (K := fun _ => False) hh.session trivial hx ho)
  refine ⟨hk, ?_⟩
  rcases exec_selectReq hx with ⟨e, rfl⟩ | ⟨rfl, -, -⟩
  · exact hE _ _ _ ht
  · refine hf _ l' s' ht fun req hfound => ?_
    have hst : s₁.reqs k = some req := by
      rw [← hfound]
      simp [Session.req, hc.reqs k]
    exact World.HasReq.grows ⟨req, hst, .refl req⟩ hgrow

/-- **SETTLEMENT CREDITS ONCE**: the row's completion and the credit commit together. -/
theorem completeSettlement_books {t : Nat} {txn : Txn} {txHash : Option Nat}
    {fromStatuses : List SettlementStatus}
    (he : TxnUpdate e t (SettlementWorker.isIn fromStatuses) (SettlementWorker.completed txHash))
    (hfrom : SettlementStatus.completed ∉ fromStatuses) (h : l.Owes S [] s) (hp : s.HasPayee t)
    (ht : s.HasTxn t txn) :
    Safe (books S) i (fun _ l' s' => l'.Owes S [] s') (fun _ _ _ => True)
      (SettlementWorker.completeSettlement t txn txHash fromStatuses) l s := by
  unfold SettlementWorker.completeSettlement
  refine Safe.call_bind fun hg s₁ hh hs c r l₁ s' hx hg' => ⟨books_keeps hh (by simp) hx, ?_⟩
  have hgr := hs.moves.grows
  have hend := hgr.trans (exec_grows hh.session hx)
  rcases (h.sees hg hs).updateTxn ⟨hh.world, hh.session⟩ he (fun _ _ _ _ _ => hp.grows hgr) hx with
    ⟨⟨e, rfl⟩, -⟩ | ⟨rfl, ho⟩ | ⟨x, now, rfl, hc, hxt, ho⟩
  · trivial
  · exact commit_books ho.settled (fun l' s' _ ht => safe_ret fun _ => ht.owes)
      fun _ _ _ _ => trivial
  · -- the row has the terms `txn` was read with, and its recipient a wallet
    have hnot : x.settlementStatus ≠ .completed := fun hcomp =>
      hfrom (hcomp ▸ isIn_iff.mp hc)
    obtain ⟨y, hy, hterms⟩ := ht.grows hgr
    obtain ⟨y', u, hy', hu, hwallet⟩ := hp.grows hgr
    obtain rfl : y = y' := Option.some.inj (hy.symm.trans hy')
    have hx' := hh.session.read_txnTerms hxt hy
    have hrecipient : txn.recipientUserId = some u := hterms.recipient.symm.trans hu
    -- what the write owes is one credit, of the amount and to the recipient of the row
    have hdues : (SettlementWorker.completed txHash now x).dues t (some x)
        = [⟨.credit t, some u, txn.uctusdAmount⟩] := by
      have hamount : x.uctusdAmount = txn.uctusdAmount :=
        congrArg Quote.uctusdAmount (hx'.quote.trans hterms.quote)
      have hxu : x.recipientUserId = some u := hx'.recipient.trans hu
      simp only [Txn.dues, SettlementWorker.completed, Option.map_some]
      rw [if_pos ⟨trivial, fun h => hnot (Option.some.inj h)⟩, ← hamount, hxu]
      rfl
    rw [hdues, List.append_nil] at ho
    show Safe (books S) i _ _ (Prog.bind (SettlementWorker.lockRecipientWallet txn) _) l₁ s'
    unfold SettlementWorker.lockRecipientWallet
    rw [hrecipient]
    refine Safe.bind (lockWallet_books ho (fun w l₂ s₂ ho₂ hold _ => ?_) (fun l₂ s₂ _ hn => ?_)
      fun _ _ _ => trivial) (R := fun found l₂ s₂ => ∃ w, found = some (u, w) ∧
        l₂.Owes S [⟨.credit t, some u, txn.uctusdAmount⟩] s₂ ∧
        Holding S i l₂ s₂ u w.balanceUctusd) ?_
    · exact safe_ret fun _ => ⟨w, rfl, ho₂, hold⟩
    -- the recipient has a wallet
    · exact absurd ((exec_grows hh.session hx).wallets u hwallet) hn
    · rintro found l₂ s₂ ⟨w, rfl, ho₂, hold⟩
      refine setBalance_books ho₂ hold rfl (fun l₃ s₃ ho₃ _ => ?_) fun _ _ _ => trivial
      refine commit_books ho₃ (fun l₄ s₄ _ ht₄ => ?_) fun _ _ _ _ => trivial
      exact idle_books False (e := e) trivial trivial ht₄.owes
        (fun _ l₅ s₅ ht₅ => safe_ret fun _ => ht₅.owes) fun _ _ _ _ => trivial

/-- **A FAILED BURN IS RESTORED ONCE**, inside the transition of its row. -/
theorem failAndRestore_books {r : Nat} {req : CashOutRequest} {reason : String}
    {txHash : Option Nat}
    (he : ReqUpdate e r CashoutWorker.isApproved (CashoutWorker.failed reason txHash))
    (h : l.Owes S [] s) (hr : s.HasReq r req) :
    Safe (books S) i (fun _ l' s' => l'.Owes S [] s') (fun _ _ _ => True)
      (CashoutWorker.failAndRestore r req reason txHash) l s := by
  unfold CashoutWorker.failAndRestore
  refine Safe.call_bind fun hg s₁ hh hs c ans l₁ s' hx hg' => ⟨books_keeps hh (by simp) hx, ?_⟩
  rcases (h.sees hg hs).updateReq ⟨hh.world, hh.session⟩ he hx with
    ⟨⟨e, rfl⟩, -⟩ | ⟨rfl, ho⟩ | ⟨q, now, rfl, hc, hq, ho⟩
  · trivial
  · exact commit_books ho.settled (fun l' s' _ ht => safe_ret fun _ => ht.owes)
      fun _ _ _ _ => trivial
  · have happroved : q.status = .approved := by simpa [CashoutWorker.isApproved] using hc
    obtain ⟨y, hy, hterms⟩ := hr.grows hs.moves.grows
    have hq' := hh.session.read_reqTerms hq hy
    have hdues : (CashoutWorker.failed reason txHash now q).dues r (some q)
        = [⟨.restore r, some req.walletId, req.uctusdAmount⟩] := by
      have hamount : q.uctusdAmount = req.uctusdAmount :=
        congrArg CashOutPricing.uctusdAmount (hq'.pricing.trans hterms.pricing)
      have hwallet : q.walletId = req.walletId := hq'.wallet.trans hterms.wallet
      simp only [CashOutRequest.dues, CashoutWorker.failed, Option.map_some, happroved]
      rw [if_neg (by simp), if_pos ⟨trivial, trivial⟩, ← hamount, hwallet]
      rfl
    rw [hdues, List.append_nil] at ho
    refine lockWallet_books ho (fun w l₂ s₂ ho₂ hold _ => ?_) (fun _ _ _ _ => ?_)
      fun _ _ _ => trivial
    · refine setBalance_books ho₂ hold rfl (fun l₃ s₃ ho₃ _ => ?_) fun _ _ _ => trivial
      refine commit_books ho₃ (fun l₄ s₄ _ ht₄ => ?_) fun _ _ _ _ => trivial
      exact idle_books False (e := e) trivial trivial ht₄.owes
        (fun _ l₅ s₅ ht₅ => safe_ret fun _ => ht₅.owes) fun _ _ _ _ => trivial
    · exact safe_raise fun _ => trivial

theorem burnPublish_books (admin : Nat) {r : Nat} {req : CashOutRequest} (h : l.Owes S [] s)
    (hr : s.HasReq r req) :
    Safe (books S) i (fun _ _ _ => True) (fun _ _ _ => True) (CashoutService.publish r req)
      l s := by
  unfold CashoutService.publish
  refine Safe.attempt_bind (R := fun _ l' s' => OnTrack S False True l s l' s')
    (X := fun _ l' s' => OnTrack S False True l s l' s')
    (books_of_uses (e := .approve r admin) (K := fun _ => False)
      (Prog.uses_call (may_idle_plain _ _ False (.enqueue (.burn r)) rfl)) (fun _ hf => hf.elim) h)
    ?_ ?_
  · exact fun _ _ _ _ => safe_ret fun _ => trivial
  · intro exc l' s' ht
    exact Safe.bind (failAndRestore_books (.unpublished r admin _) ht.owes (hr.grows ht.grows))
      fun _ _ _ _ => safe_ret fun _ => trivial

/-- **APPROVAL DEBITS ONCE**: lock, re-check, claim, debit, commit. -/
theorem approve_books {r admin : Nat} {req : CashOutRequest} (h : l.Owes S [] s)
    (hr : s.HasReq r req) :
    Safe (books S) i (fun _ _ _ => True) (fun _ _ _ => True) (CashoutService.approve r req admin)
      l s := by
  unfold CashoutService.approve
  refine lockWallet_books h (fun w l₁ s₁ ho₁ hold₁ hgr₁ => ?_) (fun _ _ _ _ => ?_)
    fun _ _ _ => trivial
  swap
  · exact safe_raise fun _ => trivial
  show Safe (books S) i _ _ (if w.balanceUctusd < req.uctusdAmount then _ else _) l₁ s₁
  split
  · exact safe_raise fun _ => trivial
  refine Safe.call_bind fun hg s₂ hh hs c ans l₂ s' hx hg' => ⟨books_keeps hh (by simp) hx, ?_⟩
  have hold₂ := (hold₁.sees hs).exec (by simp) rfl hx
  have hr₂ := (hr.grows hgr₁).grows hs.moves.grows
  have hr' := hr₂.grows (exec_grows hh.session hx)
  rcases (ho₁.sees hg hs).updateReq ⟨hh.world, hh.session⟩ (ReqUpdate.approve r admin) hx with
    ⟨⟨e, rfl⟩, -⟩ | ⟨rfl, ho⟩ | ⟨q, now, rfl, hc, hq, ho⟩
  · trivial
  · exact commit_books ho.settled (fun _ _ _ _ => safe_raise fun _ => trivial)
      fun _ _ _ _ => trivial
  · have hrequested : q.status = .requested := by simpa [CashoutService.isRequested] using hc
    obtain ⟨y, hy, hterms⟩ := hr₂
    have hq' := hh.session.read_reqTerms hq hy
    have hdues : (CashoutService.approved admin now q).dues r (some q)
        = [⟨.debit r, some req.walletId, -req.uctusdAmount⟩] := by
      have hamount : q.uctusdAmount = req.uctusdAmount :=
        congrArg CashOutPricing.uctusdAmount (hq'.pricing.trans hterms.pricing)
      have hwallet : q.walletId = req.walletId := hq'.wallet.trans hterms.wallet
      simp only [CashOutRequest.dues, CashoutService.approved, Option.map_some, hrequested]
      rw [if_pos ⟨trivial, by simp⟩, ← hamount, hwallet]
      rfl
    rw [hdues, List.append_nil] at ho
    refine setBalance_books ho hold₂ (by omega) (fun l₃ s₃ ho₃ hgr₃ => ?_) fun _ _ _ => trivial
    refine commit_books ho₃ (fun l₄ s₄ _ ht₄ => ?_) fun _ _ _ _ => trivial
    refine idle_books False (e := .approve r admin) trivial trivial ht₄.owes (fun _ l₅ s₅ ht₅ => ?_)
      fun _ _ _ _ => trivial
    exact burnPublish_books admin ht₅.owes
      (((hr'.grows hgr₃).grows ht₄.grows).grows ht₅.grows)

theorem reconcile_books {r : Nat} {req : CashOutRequest} (h : l.Owes S [] s)
    (hr : s.HasReq r req) :
    Safe (books S) i (fun _ _ _ => True) (fun _ _ _ => True) (CashoutService.reconcile r req)
      l s := by
  have hP := may_idle_plain (.reconcile r) (fun _ => False) False
  unfold CashoutService.reconcile
  split
  · exact safe_raise fun _ => trivial
  split
  next txHash _ _ =>
    refine Safe.bind (R := fun _ l' s' => OnTrack S False True l s l' s')
      ((books_of_uses (uses_burnConsultLedger hP ⟨trivial, trivial⟩) (fun _ hf => hf.elim) h).mono
        (fun _ _ _ _ ht => ht) fun _ _ _ _ _ => trivial) fun verdict l' s' ht => ?_
    cases verdict with
    | succeeded =>
      refine Safe.bind (R := fun _ _ _ => True) ((books_of_uses (e := .reconcile r)
        (K := fun _ => False) (G := False) (W := True) (uses_completeBurn hP fun stamp =>
          ⟨ReqUpdate.reconcileComplete r txHash stamp, fun _ _ _ => ⟨(fun h => by cases h),
            (fun h => by cases h)⟩⟩) (fun _ hf => hf.elim) ht.owes).mono (fun _ _ _ _ _ => trivial)
        fun _ _ _ _ _ => trivial) fun _ _ _ _ => safe_ret fun _ => trivial
    | rejected code =>
      exact Safe.bind (failAndRestore_books (.reconcileFail r txHash _) ht.owes (hr.grows ht.grows))
        fun _ _ _ _ => safe_ret fun _ => trivial
    | expired lastLedger =>
      exact Safe.bind (failAndRestore_books (.reconcileFail r txHash _) ht.owes (hr.grows ht.grows))
        fun _ _ _ _ => safe_ret fun _ => trivial
    | unresolved => exact safe_ret fun _ => trivial
  · exact safe_raise fun _ => trivial

/-- An idle program to its end. -/
theorem idle_end {K : Nat → Prop} {G : Prop} {β : Type} {p : Program β}
    (hu : Prog.Uses (fun o : Op => e.may o ∧ o.Idle K G True) p)
    (hknown : ∀ t, K t → s.HasPayee t) (h : l.Owes S [] s) :
    Safe (books S) i (fun _ _ _ => True) (fun _ _ _ => True) p l s :=
  (books_of_uses hu hknown h).mono (fun _ _ _ _ _ => trivial) fun _ _ _ _ _ => trivial

/-- A write that leaves the status alone calls for nothing. -/
theorem idle_sameStatus {K : Nat → Prop} {G W : Prop} {k : Nat}
    {cond : CashOutRequest → Bool} {values : Nat → CashOutRequest → CashOutRequest}
    (hs : ∀ now q, (values now q).status = q.status) :
    (Op.updateReq k cond values).Idle K G W := fun now q _ => by
  rw [hs]
  exact ⟨id, fun hf ha => by rw [hf] at ha; cases ha⟩

theorem burnClaim_books {r : Nat} (h : l.Owes S [] s) :
    Safe (books S) i
      (fun claimed l' s' => OnTrack S False False l s l' s' ∧
        ∀ req, claimed = some req → s'.HasReq r req)
      (fun _ _ _ => True) (CashoutWorker.claim r) l s := by
  unfold CashoutWorker.claim
  refine idle_books False (e := .burn r) trivial trivial h (fun asked l₁ s₁ ht₁ => ?_)
    fun _ _ _ _ => trivial
  refine idle_books False (ReqUpdate.claim r asked) (idle_sameStatus fun _ _ => rfl) ht₁.owes
    (fun hit l₂ s₂ ht₂ => ?_) fun _ _ _ _ => trivial
  refine commit_books ht₂.owes.settled (fun l₃ s₃ hc₃ ht₃ => ?_) fun _ _ _ _ => trivial
  have ht := (ht₁.trans ht₂).trans ht₃
  cases hit with
  | false => exact safe_ret fun _ => ⟨ht, fun req hr => by cases hr⟩
  | true =>
    refine Safe.bind (R := fun req l' s' => OnTrack S False False l s l' s' ∧ s'.HasReq r req) ?_
      fun req l₄ s₄ h₄ => safe_ret fun _ => ⟨h₄.1, fun req' hr => Option.some.inj hr ▸ h₄.2⟩
    unfold CashoutWorker.reload
    refine selectReq_books ht₃.owes hc₃ (fun found l₄ s₄ ht₄ hr => ?_) fun _ _ _ _ => trivial
    cases found with
    | none => exact safe_raise fun _ => trivial
    | some req => exact safe_ret fun _ => ⟨ht.trans ht₄, hr req rfl⟩

theorem processBurn_books {r : Nat} (h : l.Owes S [] s) :
    Safe (books S) i (fun _ _ _ => True) (fun _ _ _ => True) (CashoutWorker.processBurn r) l s := by
  have hP := may_idle_plain (.burn r) (fun _ => False) True
  -- the ways out of a burn; only the first gives the tokens back, and of a request it has read
  have hfail : ∀ {β : Type} (req : CashOutRequest) (reason : String) (txHash : Option Nat) (b : β)
      (l : Session) (s : World), l.Owes S [] s → s.HasReq r req →
      Safe (books S) i (fun _ _ _ => True) (fun _ _ _ => True)
        (Prog.bind (CashoutWorker.failAndRestore r req reason txHash) fun _ => .ret b) l s :=
    fun req reason txHash b l s ho hr => Safe.bind (failAndRestore_books (.fail r _ _) ho hr)
      fun _ _ _ _ => safe_ret fun _ => trivial
  have hhold : ∀ (reason : String) (l : Session) (s : World), l.Owes S [] s →
      Safe (books S) i (fun _ _ _ => True) (fun _ _ _ => True)
        (Prog.bind (CashoutWorker.holdUnknown r reason) fun _ => .ret CashoutWorker.Outcome.unknown)
        l s := fun reason l s ho =>
    idle_end (Prog.uses_bind (uses_holdUnknown hP fun reason =>
      ⟨ReqUpdate.hold r reason, idle_sameStatus fun _ _ => rfl⟩) fun _ => trivial)
      (fun _ hf => hf.elim) ho
  have hretry : ∀ (req : CashOutRequest) (reason : String) (l : Session) (s : World),
      l.Owes S [] s → s.HasReq r req →
      Safe (books S) i (fun _ _ _ => True) (fun _ _ _ => True)
        (CashoutWorker.retryOrFail r req reason) l s := by
    intro req reason l s ho hr
    unfold CashoutWorker.retryOrFail
    split
    · exact hfail _ _ _ _ l s ho hr
    · exact idle_end (Prog.uses_bind (uses_releaseClaim hP
        ⟨ReqUpdate.release r, idle_sameStatus fun _ _ => rfl⟩) fun _ =>
          Prog.uses_bind (Prog.uses_call ⟨trivial, trivial⟩) fun _ => trivial)
            (fun _ hf => hf.elim) ho
  unfold CashoutWorker.processBurn
  refine Safe.bind (burnClaim_books h) fun claimed l₁ s₁ ⟨ht₁, hr₁⟩ => ?_
  cases claimed with
  | none => exact safe_ret fun _ => trivial
  | some req =>
    refine idle_books True (e := .burn r) trivial trivial ht₁.owes (fun wallet l₂ s₂ ht₂ => ?_)
      fun _ _ _ _ => trivial
    -- the claimed request is still stored under its terms
    have hr₂ := (hr₁ req rfl).grows ht₂.grows
    cases wallet with
    | none => exact hfail _ _ _ _ l₂ s₂ ht₂.owes hr₂
    | some w =>
      refine Safe.attempt_bind (R := fun _ l' s' => OnTrack S True True l₂ s₂ l' s')
        (X := fun _ l' s' => OnTrack S True True l₂ s₂ l' s')
        (books_of_uses (uses_burnToIssuer hP ⟨.burn r _ _ _, trivial⟩ (fun _ => ⟨rfl, trivial⟩)
          (fun _ => ⟨trivial, trivial⟩) fun signed =>
          uses_burnRememberSigned hP ⟨ReqUpdate.remember r signed, idle_sameStatus fun _ _ => rfl⟩
            fun _ => ⟨trivial, trivial⟩) (fun _ hf => hf.elim) ht₂.owes) ?_ ?_
      · intro result l₃ s₃ ht₃
        show Safe (books S) i _ _ (CashoutWorker.onResult r req result) l₃ s₃
        unfold CashoutWorker.onResult
        split
        · exact idle_end (Prog.uses_bind (uses_completeBurn hP fun stamp =>
            ⟨ReqUpdate.complete r _ stamp,
              fun _ _ _ => ⟨(fun h => by cases h), (fun h => by cases h)⟩⟩)
            fun _ => trivial) (fun _ hf => hf.elim) ht₃.owes
        · exact hretry _ _ l₃ s₃ ht₃.owes (hr₂.grows ht₃.grows)
        · exact hhold _ l₃ s₃ ht₃.owes
        · exact hfail _ _ _ _ l₃ s₃ ht₃.owes (hr₂.grows ht₃.grows)
      · intro exc l₃ s₃ ht₃
        show Safe (books S) i _ _ (CashoutWorker.onException r req exc) l₃ s₃
        have hr₃ := hr₂.grows ht₃.grows
        unfold CashoutWorker.onException
        split
        · exact hfail _ _ _ _ l₃ s₃ ht₃.owes hr₃
        · refine idle_books False (e := .burn r) trivial trivial ht₃.owes
            (fun signed l₄ s₄ ht₄ => ?_)
            fun _ _ _ _ => trivial
          cases signed with
          | some h => exact hhold _ l₄ s₄ ht₄.owes
          | none => exact hretry _ _ l₄ s₄ ht₄.owes (hr₃.grows ht₄.grows)

/-- A read of a wallet of which the session has neither an object nor a write. -/
theorem readWallet_books {u : Nat} {f : Option Wallet → Program α} (h : l.Owes S [] s)
    (hcopy : l.walletCopy u = none) (hwrite : l.walletWrites u = none)
    (hf : ∀ found l' s', OnTrack S False True l s l' s' →
      (found.isSome = true → (s'.wallets u).isSome = true) →
      Safe (books S) i Q E (f found) l' s')
    (hE : ∀ e l' s', OnTrack S False True l s l' s' → E e l' s') :
    Safe (books S) i Q E (Prog.bind (call (.selectWallet u)) f) l s := by
  refine Safe.call_bind fun hg s₁ hh hs c r l' s' hx hg' => ?_
  obtain ⟨hk, ho⟩ := books_step (K := fun _ => False) (G := False) (W := True) hh
    (may_plain .sweepUnpublished (.selectWallet u) rfl) trivial (fun _ hf => hf.elim)
    (h.sees hg hs) hx
  have ht : OnTrack S False True l s l' s' := .sees hs
    (exec_track (o := .selectWallet u) (K := fun _ => False) hh.session trivial hx ho)
  refine ⟨hk, ?_⟩
  rcases exec_selectWallet hx with ⟨e, rfl⟩ | ⟨rfl, rfl⟩
  · exact hE _ _ _ ht
  · refine hf _ l' _ ht fun hfound => ?_
    simpa [Session.identify, Session.wallet, hcopy, hwrite] using hfound

theorem refreshWallet_books {u : Nat} (h : l.Owes S [] s) (hwrite : l.walletWrites u = none) :
    Safe (books S) i
      (fun _ l' s' => OnTrack S False True l s l' s' ∧ (s'.wallets u).isSome = true)
      (fun _ l' s' => OnTrack S False True l s l' s') (XrplService.refreshWallet u) l s := by
  unfold XrplService.refreshWallet
  refine Safe.call_bind fun hg s₁ hh hs c r l' s' hx hg' => ?_
  obtain ⟨hk, ho⟩ := books_step (K := fun _ => False) (G := False) (W := True) hh
    (may_plain .sweepUnpublished (.loadWallet u) rfl) trivial (fun _ hf => hf.elim)
    (h.sees hg hs) hx
  have ht : OnTrack S False True l s l' s' := .sees hs
    (exec_track (o := .loadWallet u) (K := fun _ => False) hh.session trivial hx ho)
  refine ⟨hk, ?_⟩
  rcases exec_loadWallet hx with ⟨e, rfl⟩ | ⟨rfl, rfl⟩
  · exact ht
  · have hview : l.wallet s₁ u = s₁.wallets u := by simp [Session.wallet, hwrite]
    rw [hview]
    cases hw : s₁.wallets u with
    | none =>
      unfold onAnswer
      exact safe_raise fun _ => ht
    | some w =>
      unfold onAnswer
      refine safe_ret fun _ => ⟨ht, ?_⟩
      show (s₁.wallets u).isSome = true
      rw [hw]
      rfl

/-- **A WALLET IS THERE BEFORE ANYTHING IS SIGNED.** -/
theorem findOrFund_books {t u : Nat} (h : l.Owes S [] s) (hcopy : l.walletCopy u = none)
    (hwrite : l.walletWrites u = none) :
    Safe (books S) i
      (fun _ l' s' => OnTrack S False True l s l' s' ∧ (s'.wallets u).isSome = true)
      (fun _ l' s' => OnTrack S False True l s l' s') (XrplService.findOrFund u) l s := by
  unfold XrplService.findOrFund
  refine readWallet_books h hcopy hwrite (fun found l₁ s₁ ht₁ hfound => ?_) fun _ _ _ ht => ht
  cases found with
  | some w => exact safe_ret fun _ => ⟨ht₁, hfound rfl⟩
  | none =>
    refine idle_books True (e := .settle t) trivial trivial ht₁.owes (fun address l₂ s₂ ht₂ => ?_)
      fun _ _ _ ht => ht₁.trans ht
    refine idle_books True (e := .settle t) ⟨t, address, rfl, rfl⟩ trivial ht₂.owes
      (fun _ l₃ s₃ ht₃ => ?_) fun _ _ _ ht => (ht₁.trans ht₂).trans ht
    have hpast := (ht₁.trans ht₂).trans ht₃
    refine commit_books ht₃.owes.settled (fun l₄ s₄ hc₄ ht₄ => ?_)
      fun _ _ _ ht => hpast.trans ht.weaken
    exact (refreshWallet_books ht₄.owes (hc₄.wallets u)).mono
      (fun _ _ _ _ h => ⟨(hpast.trans ht₄.weaken).trans h.1, h.2⟩)
      fun _ _ _ _ ht => (hpast.trans ht₄.weaken).trans ht

/-- What is known once the recipient's wallet is there. -/
theorem pay_books {t u : Nat} {txn : Txn} (h : l.Owes S [] s) (hsigned : l.signedHash = none)
    (hcopy : l.walletCopy u = none) (hwrite : l.walletWrites u = none) (ht : s.HasTxn t txn)
    (hu : txn.recipientUserId = some u) :
    Safe (books S) i (fun _ l' s' => (l'.Owes S [] s' ∧ Grows s s') ∧ s'.HasPayee t)
      (fun _ l' s' => (l'.Owes S [] s' ∧ Grows s s') ∧
        (l'.signedHash.isSome = true → s'.HasPayee t))
      (SettlementWorker.pay t u txn) l s := by
  have hP := may_idle_plain (.settle t) (fun t' => t' = t) True
  have hafter : ∀ {β : Type} {p : Program β} {l' : Session} {s' : World},
      Prog.Uses (fun o : Op => Entry.may (.settle t) o ∧ o.Idle (fun t' => t' = t) True True) p →
      (l'.Owes S [] s' ∧ Grows s s') ∧ s'.HasPayee t →
      Safe (books S) i (fun _ l' s' => (l'.Owes S [] s' ∧ Grows s s') ∧ s'.HasPayee t)
        (fun _ l' s' => (l'.Owes S [] s' ∧ Grows s s') ∧
          (l'.signedHash.isSome = true → s'.HasPayee t)) p l' s' := fun huses ⟨⟨ho, hgr⟩, hp⟩ =>
    (books_of_uses huses (fun t' ht' => ht' ▸ hp) ho).mono
      (fun _ _ _ _ h => ⟨⟨h.owes, hgr.trans h.grows⟩, hp.grows h.grows⟩)
      fun _ _ _ _ h => ⟨⟨h.owes, hgr.trans h.grows⟩, fun _ => hp.grows h.grows⟩
  unfold SettlementWorker.pay
  refine Safe.bind (R := fun _ l' s' => (l'.Owes S [] s' ∧ Grows s s') ∧ s'.HasPayee t) ?_
    fun wallet l' s' h' => ?_
  · unfold XrplService.provisionWallet
    refine Safe.bind ((findOrFund_books (t := t) h hcopy hwrite).mono
      (fun _ l' s' _ hq => hq) fun _ l' s' _ htr => ?_) fun wallet l' s' ⟨htr, hw⟩ => ?_
    · refine ⟨⟨htr.owes, htr.grows⟩, fun hs => ?_⟩
      rw [htr.signed.resolve_right id, hsigned] at hs
      cases hs
    · obtain ⟨x, hx, hterms⟩ := ht.grows htr.grows
      refine hafter (Prog.uses_bind (uses_ensureTrustLine hP ⟨⟨t, rfl⟩, trivial⟩
        ⟨.trustSet t u _, trivial⟩
        (fun _ => ⟨rfl, trivial⟩) fun _ => ⟨trivial, trivial⟩) fun _ => trivial)
          ⟨⟨htr.owes, htr.grows⟩, ?_⟩
      exact ⟨x, u, hx, hterms.recipient.trans hu, hw⟩
  · split
    · refine hafter (uses_withTreasuryLock hP (uses_sendFromTreasury hP
        ⟨.payment t _ _, trivial⟩
        (fun _ => ⟨rfl, trivial⟩) (fun _ => ⟨trivial, trivial⟩) fun signed => uses_rememberSigned hP
          ⟨TxnUpdate.remember t signed, fun _ _ _ => ⟨id, fun _ => .inr rfl⟩⟩
          fun _ => ⟨trivial, trivial⟩)) h'
    · exact safe_raise fun _ => ⟨h'.1, fun _ => h'.2⟩

theorem settleClaim_books {t : Nat} (h : l.Owes S [] s) :
    Safe (books S) i
      (fun claimed l' s' => OnTrack S False False l s l' s' ∧
        ∀ txn, claimed = some txn → s'.HasTxn t txn)
      (fun _ _ _ => True) (SettlementWorker.claim t) l s := by
  unfold SettlementWorker.claim
  refine idle_books False (TxnUpdate.claim t) (fun _ _ _ => ⟨(fun h => by cases h), .inl⟩) h
    (fun hit l₂ s₂ ht₂ => ?_) fun _ _ _ _ => trivial
  refine commit_books ht₂.owes.settled (fun l₃ s₃ hc₃ ht₃ => ?_) fun _ _ _ _ => trivial
  have ht := ht₂.trans ht₃
  cases hit with
  | false => exact safe_ret fun _ => ⟨ht, fun txn hr => by cases hr⟩
  | true =>
    refine Safe.bind (R := fun txn l' s' => OnTrack S False False l s l' s' ∧ s'.HasTxn t txn) ?_
      fun txn l₄ s₄ h₄ => safe_ret fun _ => ⟨h₄.1, fun txn' hr => Option.some.inj hr ▸ h₄.2⟩
    unfold SettlementWorker.reload
    refine selectTxn_books ht₃.owes hc₃ (fun found l₄ s₄ ht₄ hr => ?_) fun _ _ _ _ => trivial
    cases found with
    | none => exact safe_raise fun _ => trivial
    | some txn => exact safe_ret fun _ => ⟨ht.trans ht₄, (hr txn rfl).1⟩

theorem getRecipient_books {t : Nat} {txn : Txn} (h : l.Owes S [] s) :
    Safe (books S) i
      (fun found l' s' => OnTrack S False False l s l' s' ∧
        ∀ u, found = some u → txn.recipientUserId = some u)
      (fun _ _ _ => True) (SettlementWorker.getRecipient txn) l s := by
  unfold SettlementWorker.getRecipient
  cases hr : txn.recipientUserId with
  | none => exact safe_ret fun _ => ⟨.refl h, fun u hu => by cases hu⟩
  | some u =>
    refine idle_books False (e := .settle t) trivial trivial h (fun found l' s' ht => ?_)
      fun _ _ _ _ => trivial
    refine safe_ret fun _ => ⟨ht, fun u' hu => ?_⟩
    cases found with
    | false => cases hu
    | true => exact hu

/-- Failing or handing back a settlement calls for nothing; a hash is only written for a
transaction whose recipient is known to have a wallet. -/
theorem idle_failed {t : Nat} {statuses : List SettlementStatus} {reason : String}
    {txHash : Option Nat} {K : Nat → Prop} {G W : Prop}
    (h : txHash = none ∨ K t) :
    (Op.updateTxn t (SettlementWorker.isIn statuses)
      (SettlementWorker.failed reason txHash)).Idle K G W := fun now x _ => by
  refine ⟨(fun hc => by cases hc), fun hh => ?_⟩
  rcases h with rfl | hk
  · exact .inl hh
  · exact .inr hk

theorem idle_requeued {t : Nat} {statuses : List SettlementStatus} {reason : String}
    {K : Nat → Prop} {G W : Prop} :
    (Op.updateTxn t (SettlementWorker.isIn statuses)
      (SettlementWorker.requeued reason)).Idle K G W := fun _ _ _ =>
  ⟨(fun hc => by cases hc), .inl⟩

theorem processSettlement_books {t : Nat} (h : l.Owes S [] s) (hsigned : l.signedHash = none)
    (hcopy : ∀ u, l.walletCopy u = none) (hwrite : ∀ u, l.walletWrites u = none) :
    Safe (books S) i (fun _ _ _ => True) (fun _ _ _ => True)
      (SettlementWorker.processSettlement t) l s := by
  have hP := fun K => may_idle_plain (.settle t) K True
  -- a failure keeps a hash only where the payee is registered
  have hfail : ∀ {β : Type} (reason : String) (txHash : Option Nat) (b : β) (l : Session)
    (s : World),
      l.Owes S [] s → (txHash = none ∨ s.HasPayee t) →
      Safe (books S) i (fun _ _ _ => True) (fun _ _ _ => True)
        (Prog.bind (SettlementWorker.failSettlement t reason txHash [.processing])
          fun _ => .ret b) l s := by
    intro β reason txHash b l s ho hk
    refine idle_end (K := fun t' => t' = t ∧ s.HasPayee t) (G := True)
      (Prog.uses_bind (uses_failSettlement (hP _) ⟨TxnUpdate.fail t reason txHash, ?_⟩)
        fun _ => trivial) (fun t' ht' => ht'.1 ▸ ht'.2) ho
    exact idle_failed (hk.imp id fun hp => ⟨rfl, hp⟩)
  have hretry : ∀ (txn : Txn) (reason : String) (l : Session) (s : World), l.Owes S [] s →
      Safe (books S) i (fun _ _ _ => True) (fun _ _ _ => True)
        (SettlementWorker.retryOrFail t txn reason) l s := fun txn reason l s ho =>
    idle_end (K := fun _ => False) (G := True) (uses_retryOrFail (hP _)
      (fun reason => ⟨TxnUpdate.fail t reason none, idle_failed (.inl rfl)⟩)
      ⟨TxnUpdate.requeue t reason, idle_requeued⟩ fun _ => ⟨trivial, trivial⟩)
      (fun _ hf => hf.elim) ho
  unfold SettlementWorker.processSettlement
  refine Safe.bind (settleClaim_books h) fun claimed l₁ s₁ ⟨ht₁, hr₁⟩ => ?_
  cases claimed with
  | none => exact safe_ret fun _ => trivial
  | some txn =>
    refine Safe.bind (getRecipient_books (t := t) ht₁.owes) fun recipient l₂ s₂ ⟨ht₂, hr₂⟩ => ?_
    cases recipient with
    | none => exact hfail _ _ _ l₂ s₂ ht₂.owes (.inl rfl)
    | some u =>
      have ht := ht₁.trans ht₂
      have hcopies := ht.copies.resolve_right id
      have htxn := (hr₁ txn rfl).grows ht₂.grows
      -- the payment: whatever comes of it, a hash in the session has a payee
      refine Safe.attempt_bind (pay_books ht₂.owes ((ht.signed.resolve_right id).trans hsigned)
        (by rw [hcopies.copies]; exact hcopy u) (hcopies.writes u (hwrite u)) htxn (hr₂ u rfl)) ?_
          ?_
      · rintro result l₃ s₃ ⟨⟨ho₃, hgr₃⟩, hp₃⟩
        show Safe (books S) i _ _ (SettlementWorker.onResult t txn result) l₃ s₃
        unfold SettlementWorker.onResult
        split
        · exact Safe.bind ((completeSettlement_books (TxnUpdate.complete t _) (by decide) ho₃ hp₃
            (htxn.grows hgr₃)).mono (fun _ _ _ _ _ => trivial) fun _ _ _ _ _ => trivial)
            (R := fun _ _ _ => True) fun _ _ _ _ => safe_ret fun _ => trivial
        · exact hretry _ _ l₃ s₃ ho₃
        · exact hfail _ _ _ l₃ s₃ ho₃ (.inr hp₃)
        · exact hfail _ _ _ l₃ s₃ ho₃ (.inr hp₃)
      · rintro exc l₃ s₃ ⟨⟨ho₃, -⟩, hp₃⟩
        show Safe (books S) i _ _ (SettlementWorker.onException t txn exc) l₃ s₃
        unfold SettlementWorker.onException
        split
        · exact hfail _ _ _ l₃ s₃ ho₃ (.inl rfl)
        · refine Safe.call_bind fun hg s₄ hh hs c r l' s' hx hg' => ?_
          obtain ⟨hk, ho'⟩ := books_step (K := fun _ => False) (G := False) (W := False)
            (e := .settle t) (o := .getSignedHash) hh trivial trivial (fun _ hf => hf.elim)
            (ho₃.sees hg hs) hx
          have hgrow := hs.moves.grows.trans (exec_grows hh.session hx)
          refine ⟨hk, ?_⟩
          rcases exec_getSignedHash hx with ⟨rfl, -⟩
          cases hsig : l₃.signedHash with
          | some h => exact hfail _ _ _ l' s' ho' (.inr ((hp₃ (by rw [hsig]; rfl)).grows hgrow))
          | none => exact hretry _ _ l' s' ho'

theorem settlementRetry_books {t : Nat} (h : l.Owes S [] s) (hc : l.Clean) :
    Safe (books S) i (fun _ _ _ => True) (fun _ _ _ => True) (CashinService.settlementRetry t)
      l s := by
  have hP := may_idle_plain (.settlementRetry t) (fun _ => False) True
  have hpublish : Prog.Uses (fun o : Op => Entry.may (.settlementRetry t) o ∧
      o.Idle (fun _ => False) True True) (CashinService.publish t) :=
    uses_publish hP fun reason => ⟨TxnUpdate.unpublishedRetry t reason, idle_failed (.inl rfl)⟩
  have hrequeue : ∀ (txn : Txn) (l : Session) (s : World), l.Owes S [] s →
      txn.settlementStatus = .failed ∨ txn.settlementStatus = .processing →
      Safe (books S) i (fun _ _ _ => True) (fun _ _ _ => True) (CashinService.requeue t txn) l s :=
    fun txn l s ho hst => idle_end (uses_requeue hP ⟨TxnUpdate.retire t txn hst,
      fun _ _ _ => ⟨(fun h => by cases h), fun h => by cases h⟩⟩
      fun reason => ⟨TxnUpdate.unpublishedRetry t reason, idle_failed (.inl rfl)⟩)
      (fun _ hf => hf.elim) ho
  -- the branch that completes: its payee was registered when the hash was stored
  have hreconcile : ∀ (txn : Txn) (l : Session) (s : World), l.Owes S [] s → s.HasTxn t txn →
      (txn.xrplTxHash.isSome = true → s.HasPayee t) →
      txn.settlementStatus = .failed ∨ txn.settlementStatus = .processing →
      Safe (books S) i (fun _ _ _ => True) (fun _ _ _ => True)
        (CashinService.reconcileOrRequeue t txn) l s := by
    intro txn l s ho htxn hp hst
    unfold CashinService.reconcileOrRequeue
    split
    · exact hrequeue txn l s ho hst
    next txHash hhash =>
      refine Safe.bind (R := fun _ l' s' => OnTrack S True True l s l' s')
        ((books_of_uses (uses_consultLedger hP ⟨trivial, trivial⟩) (fun _ hf => hf.elim) ho).mono
          (fun _ _ _ _ ht => ht) fun _ _ _ _ _ => trivial) fun code l' s' ht => ?_
      split
      · refine Safe.bind (R := fun _ _ _ => True) ((completeSettlement_books
          (TxnUpdate.reconcile t txHash _ hst) ?_ ht.owes ?_ (htxn.grows ht.grows)).mono
          (fun _ _ _ _ _ => trivial) fun _ _ _ _ _ => trivial)
          fun _ _ _ _ => safe_ret fun _ => trivial
        · rcases hst with hs | hs <;> rw [hs] <;> decide
        · exact (hp (by rw [hhash]; rfl)).grows ht.grows
      · exact hrequeue txn l' s' ht.owes hst
  unfold CashinService.settlementRetry CashinService.onTransaction
  refine selectTxn_books h hc (fun found l₁ s₁ ht₁ hfound => ?_) fun _ _ _ _ => trivial
  cases found with
  | none => exact safe_ret fun _ => trivial
  | some txn =>
    obtain ⟨htxn, hp⟩ := hfound txn rfl
    dsimp only
    split
    · exact idle_end hpublish (fun _ hf => hf.elim) ht₁.owes
    · refine Safe.bind (R := fun _ _ _ => True) ?_ fun _ _ _ _ => safe_ret fun _ => trivial
      unfold CashinService.retrySettlement
      -- a row is retried from `failed`, or from `processing` once its worker is dead
      refine Safe.bind (R := fun retryable l' s' => OnTrack S True True l₁ s₁ l' s' ∧
        (retryable = true → txn.settlementStatus = .failed ∨ txn.settlementStatus = .processing))
        ?_ fun retryable l₂ s₂ ⟨ht₂, hst⟩ => ?_
      · unfold CashinService.retryable
        cases hst : txn.settlementStatus with
        | failed => exact safe_ret fun _ => ⟨.refl ht₁.owes, fun _ => .inl rfl⟩
        | processing =>
          refine idle_books True (e := .settlementRetry t) trivial trivial ht₁.owes
            (fun now l' s' ht => ?_) fun _ _ _ _ => trivial
          exact safe_ret fun _ => ⟨⟨ht.owes, ht.grows, .inr trivial, .inr trivial⟩,
            fun _ => .inr rfl⟩
        | notQueued | queued | completed =>
          exact safe_ret fun _ => ⟨.refl ht₁.owes, fun h => by cases h⟩
      · split
        next hb =>
          rw [Bool.and_eq_true] at hb
          exact hreconcile txn l₂ s₂ ht₂.owes (htxn.grows ht₂.grows)
            (fun hh => (hp hh).grows ht₂.grows) (hst hb.1)
        · exact safe_raise fun _ => trivial

end Programs

/-! ## §8. Every reachable state. -/

/-- Programs whose every statement is idle. -/
def Entry.isQuiet : Entry → Bool
  | .settle _ | .burn _ | .settlementRetry _ | .approve _ _ | .reconcile _ => false
  | _ => true

theorem may_idle (hq : e.isQuiet = true) (he : e.may o) : o.Idle (fun _ => False) True True := by
  cases o with
  | updateTxn t cond values =>
    cases he with
    | receive => exact fun _ _ _ => ⟨(fun h => by cases h), .inl⟩
    | unpublished => exact idle_failed (.inl rfl)
    | refuse | flag => exact fun _ _ _ => ⟨id, .inl⟩
    | _ => cases hq
  | updateReq k cond values =>
    cases he with
    | reject =>
      intro now q hc
      have hr : q.status = .requested := by simpa [CashoutService.isRequested] using hc
      exact ⟨(fun h => by cases h), fun _ => by rw [hr]; decide⟩
    | _ => cases hq
  | setBalance u balance move =>
    have hm : e.moves move := he
    cases e <;> cases move <;> first | exact absurd hm id | cases hq
  | _ => trivial

theorem Books.of_eq (h : Orbyt.Books S s) (ht : s'.txns = s.txns) (hr : s'.reqs = s.reqs)
    (hw : s'.wallets = s.wallets) (hn : s'.nextId = s.nextId) (hm : s'.moves = s.moves)
    (h₁ : s'.settlementLog = s.settlementLog) (h₂ : s'.statusLog = s.statusLog) :
    Orbyt.Books S s' where
  moves := by rw [hm, h₁, h₂]; exact h.moves
  payee := fun t x hx hh => (h.payee t x (ht ▸ hx) hh).mono (.of_eq ht hr) (fun u hu => hw ▸ hu)
  money := fun hf u => by
    unfold World.credited World.reserved
    rw [ht, hr, hw, hn]
    exact h.money hf u

theorem Books.initial (S : Setting) (clock validated : Nat) (held : Nat → Bool) :
    Orbyt.Books S (World.initial clock validated held) where
  moves := by intro m; cases m <;> rfl
  payee := by intro t x hx; cases hx
  money := fun _ _ => rfl

theorem books_sound (S : Setting) : (books S).Sound where
  spawn := fun s hi => ⟨hi.of_eq rfl rfl rfl rfl rfl rfl rfl, fun _ => trivial⟩
  close := fun i s hi => ⟨hi.of_eq rfl rfl rfl rfl rfl rfl rfl, fun _ _ => trivial⟩
  env := fun v s s' _ _ hi hx => by
    refine ⟨?_, fun _ => trivial⟩
    rw [(env_eq hx).1]
    exact hi.of_eq rfl rfl rfl rfl rfl rfl rfl
  body := fun s e hi => by
    have ho : (Session.start e).Owes S [] { s with nextTid := s.nextTid + 1 } :=
      Session.Owes.committed S (Session.start e) _
    have hc : (Session.start e).Clean := ⟨fun _ => rfl, fun _ => rfl, fun _ => rfl⟩
    by_cases hq : e.isQuiet = true
    · have huses : Prog.Uses (fun o : Op => e.may o ∧ o.Idle (fun _ => False) True True)
          (body S e) := (body_uses S e).mono fun o ho => ⟨ho, may_idle hq ho⟩
      exact idle_end huses (fun _ hf => hf.elim) ho
    · cases e with
      | settle t =>
        exact Safe.bind (processSettlement_books ho rfl (fun _ => rfl) fun _ => rfl)
          fun _ _ _ _ => safe_ret fun _ => trivial
      | burn r => exact Safe.bind (processBurn_books ho) fun _ _ _ _ => safe_ret fun _ => trivial
      | settlementRetry t => exact settlementRetry_books ho hc
      | approve r admin =>
        refine selectReq_books ho hc (fun found l₁ s₁ ht₁ hr => ?_) fun _ _ _ _ => trivial
        cases found with
        | none => exact safe_ret fun _ => trivial
        | some req =>
          refine idle_books True (e := .approve r admin) trivial trivial ht₁.owes
            (fun _ l₂ s₂ ht₂ => ?_) fun _ _ _ _ => trivial
          exact approve_books ht₂.owes ((hr req rfl).grows ht₂.grows)
      | reconcile r =>
        refine selectReq_books ho hc (fun found l₁ s₁ ht₁ hr => ?_) fun _ _ _ _ => trivial
        cases found with
        | none => exact safe_ret fun _ => trivial
        | some req =>
          refine idle_books True (e := .reconcile r) trivial trivial ht₁.owes
            (fun _ l₂ s₂ ht₂ => ?_) fun _ _ _ _ => trivial
          exact reconcile_books ht₂.owes ((hr req rfl).grows ht₂.grows)
      | _ => exact absurd rfl hq

/-- **THE BOOKS ARE KEPT**, in every reachable state. -/
theorem books_reach {w : World} (hw : w.Orderly) (hb : Orbyt.Books S w) {k : Config (platform S)}
    (h : Reach (M := platform S) w k) : Orbyt.Books S k.world :=
  (books_sound S).reach (rules_kept S) hw hb (fun _ _ => trivial) h

end Orbyt
