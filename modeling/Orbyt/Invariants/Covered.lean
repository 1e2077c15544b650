/-
  Orbyt.Invariants.Covered — what cash-outs may still ask of a balance

  A cash-out lays claim to its amount from the request on: while it waits, the amount is still
  in the balance; once it is approved, the amount has left it.  So all the claims on a wallet
  together are covered as long as they are no more than what was ever credited to it, whatever
  becomes of the single requests.  Only a new request adds a claim, and the lock on the wallet
  carries the check that it is covered to the commit.

  Assumed of a run: `price_cashout` prices the amount it was asked to price, and no wallet is
  locked through a stale copy.

  Main results:
    * `World.outstanding_le` — claims only shrink while no request is added;
    * `covering_reach`       — in every reachable state every claim is covered;
    * `covering_promises`    — an approval is refused for lack of balance only where the
      request is waiting no longer.
-/
import Mathlib.Algebra.BigOperators.Ring.Finset
import Mathlib.Algebra.Order.Ring.Int
import Orbyt.Invariants.Books
import Orbyt.Lib.Outcomes
import Orbyt.Lib.Restrict

namespace Orbyt

open Interleave
open Tables
open Trails
open Function (update)

variable {S : Setting} {i j u : Nat} {o : Op} {c : Choice} {l l' : Session} {s s' : World}

/-! ## §1. Claims. -/

/-- What a cash-out claims of the wallet of `u`: its amount, unless it has failed. -/
def CashOutRequest.claimOn (u : Nat) (q : CashOutRequest) : Int :=
  if q.walletId = u ∧ q.status ≠ .failed then q.uctusdAmount else 0

/-- The part of it that is still in the balance. -/
def CashOutRequest.waitingOn (u : Nat) (q : CashOutRequest) : Int :=
  if q.walletId = u ∧ q.status = .requested then q.uctusdAmount else 0

def World.outstanding (s : World) (u : Nat) : Int :=
  total (CashOutRequest.claimOn u) s.reqs s.nextId

def World.waiting (s : World) (u : Nat) : Int :=
  total (CashOutRequest.waitingOn u) s.reqs s.nextId

/-- A claim waits in the balance, or has been reserved from it. -/
theorem World.outstanding_eq (s : World) (u : Nat) :
    s.outstanding u = s.waiting u + s.reserved u := by
  unfold World.outstanding World.waiting World.reserved total
  rw [← Finset.sum_add_distrib]
  refine Finset.sum_congr rfl fun r _ => ?_
  cases s.reqs r with
  | none => rfl
  | some q =>
    show q.claimOn u = q.waitingOn u + q.reservedFrom u
    unfold CashOutRequest.claimOn CashOutRequest.waitingOn CashOutRequest.reservedFrom
    by_cases hw : q.walletId = u
    · cases hs : q.status <;> simp [hw]
    · simp [hw]

theorem CashOutRequest.waitingOn_nonneg (q : CashOutRequest) : 0 ≤ q.waitingOn u := by
  unfold CashOutRequest.waitingOn
  split <;> omega

/-- A request that waits is part of what waits. -/
theorem World.waiting_ge {r : Nat} {q : CashOutRequest} (hr : r < s.nextId)
    (hq : s.reqs r = some q) (hw : q.walletId = u) (hst : q.status = .requested) :
    (q.uctusdAmount : Int) ≤ s.waiting u := by
  have hterm : worth (CashOutRequest.waitingOn u) (s.reqs r) = q.uctusdAmount := by
    rw [hq]
    exact if_pos ⟨hw, hst⟩
  rw [← hterm]
  refine Finset.single_le_sum (f := fun r => worth (CashOutRequest.waitingOn u) (s.reqs r))
    (fun k _ => ?_) (Finset.mem_range.mpr hr)
  show 0 ≤ worth (CashOutRequest.waitingOn u) (s.reqs k)
  cases s.reqs k with
  | none => exact Int.le_refl 0
  | some q => exact q.waitingOn_nonneg

/-- The request is on its recipient's own wallet, which is there. -/
def CashOutRequest.OnOwn (q : CashOutRequest) (s : World) : Prop :=
  q.recipientUserId = q.walletId ∧ (s.wallets q.walletId).isSome = true

def World.OwnWallets (s : World) : Prop := ∀ r q, s.reqs r = some q → q.OnOwn s

/-- The sum that `held_for_requests` reads. -/
theorem sumRequested_waiting (h : s.OwnWallets) :
    (sumRequested s.reqs s.nextId u : Int) = s.waiting u := by
  unfold sumRequested World.waiting total
  rw [Nat.cast_sum]
  refine Finset.sum_congr rfl fun r _ => ?_
  cases hr : s.reqs r with
  | none => rfl
  | some q =>
    show ((if q.recipientUserId = u ∧ q.status = .requested then q.uctusdAmount else 0 : Nat) : Int)
      = q.waitingOn u
    unfold CashOutRequest.waitingOn
    rw [(h r q hr).1]
    split <;> rfl

/-! ## §2. What becomes of a request. -/

/-- Still the same request: one that has failed stays so, and one that waits has always waited. -/
structure CashOutRequest.Follows (q q' : CashOutRequest) : Prop where
  terms : q.SameTerms q'
  failed : q.status = .failed → q'.status = .failed
  waited : q'.status = .requested → q.status = .requested

theorem CashOutRequest.Follows.refl (q : CashOutRequest) : q.Follows q := ⟨.refl q, id, id⟩

theorem CashOutRequest.Follows.trans {q q' q'' : CashOutRequest} (h : q.Follows q')
    (h' : q'.Follows q'') : q.Follows q'' :=
  ⟨h.terms.trans h'.terms, fun hf => h'.failed (h.failed hf), fun hw => h.waited (h'.waited hw)⟩

theorem CashOutRequest.Follows.claim_le {q q' : CashOutRequest} (h : q.Follows q') :
    q'.claimOn u ≤ q.claimOn u := by
  have hamount : q'.uctusdAmount = q.uctusdAmount :=
    congrArg CashOutPricing.uctusdAmount h.terms.pricing
  unfold CashOutRequest.claimOn
  rw [h.terms.wallet, hamount]
  split
  next hc => rw [if_pos ⟨hc.1, fun hf => hc.2 (h.failed hf)⟩]
  · split <;> omega

/-- A history that ends in `requested` has nothing before it. -/
theorem requested_trail {log : List CashOutStatus}
    (h : Trail CashOutStatus.Edge (· = .requested) log) (hhead : log.head? = some .requested) :
    log = [.requested] := by
  cases h with
  | start hs =>
    obtain rfl : _ = CashOutStatus.requested := hs
    rfl
  | step htr he =>
    obtain rfl : _ = CashOutStatus.requested := by simpa using hhead
    cases he

/-- What a session has written over a stored request follows it. -/
theorem Session.LogsWrites.follows (h : l.LogsWrites i s) (hs : Lifecycle s) {r : Nat}
    {q q' : CashOutRequest} (hq : s.reqs r = some q) (hw : l.reqWrites r = some q') :
    q.Follows q' := by
  have hnew := h.req r q' hw
  have hold := hs.req r q hq
  refine ⟨h.reqTerms r q' hw q hq, fun hf => ?_, fun hwait => ?_⟩
  · have hmem : CashOutStatus.failed ∈ l.statusLog r ++ s.statusLog r := by
      have hhead := hold.head
      rw [hf] at hhead
      exact List.mem_append_right _ (Trail.head_mem hhead)
    by_contra hne
    exact hnew.not_failed hne hmem
  · -- nothing but `requested` is in the new history, so neither in the old one
    have hhead := hnew.head
    rw [hwait] at hhead
    have hlog := requested_trail hnew.trail hhead
    have hmem : q.status ∈ l.statusLog r ++ s.statusLog r :=
      List.mem_append_right _ (Trail.head_mem hold.head)
    rw [hlog] at hmem
    exact List.mem_singleton.mp hmem

/-- What every move leaves of the requests and of the credits. -/
structure Continues (s s' : World) : Prop where
  nextId : s.nextId ≤ s'.nextId
  row : ∀ r q, s.reqs r = some q → ∃ q', s'.reqs r = some q' ∧ q.Follows q'
  credited : ∀ u, s.credited u ≤ s'.credited u
  wallets : ∀ u, (s.wallets u).isSome = true → (s'.wallets u).isSome = true

theorem Continues.of_eq (hs : s.Regular) (ht : s'.txns = s.txns) (hr : s'.reqs = s.reqs)
    (hn : s.nextId ≤ s'.nextId) (hw : s'.wallets = s.wallets) : Continues s s' where
  nextId := hn
  wallets := fun u hu => hw ▸ hu
  row := fun r q hq => ⟨q, by rw [hr]; exact hq, .refl q⟩
  credited := fun u => by
    have he : s'.credited u = s.credited u := by
      unfold World.credited
      rw [ht]
      exact total_extend hn hs.txnIds
    exact Int.le_of_eq he.symm

theorem Continues.trans {s'' : World} (h : Continues s s') (h' : Continues s' s'') :
    Continues s s'' where
  nextId := Nat.le_trans h.nextId h'.nextId
  row := fun r q hq => by
    obtain ⟨q', hq', hf⟩ := h.row r q hq
    obtain ⟨q'', hq'', hf'⟩ := h'.row r q' hq'
    exact ⟨q'', hq'', hf.trans hf'⟩
  credited := fun u => Int.le_trans (h.credited u) (h'.credited u)
  wallets := fun u hu => h'.wallets u (h.wallets u hu)

theorem CashOutRequest.OnOwn.continues {q : CashOutRequest} (h : q.OnOwn s) (hc : Continues s s') :
    q.OnOwn s' := ⟨h.1, hc.wallets _ h.2⟩

/-- What is credited stays credited: `completed` is absorbing. -/
theorem credited_commit (h : l.LogsWrites i s) (hs : Lifecycle s) :
    s.credited u ≤ (s.commit i l).credited u := by
  refine total_mono fun t => ?_
  show worth (Txn.creditTo u) (s.txns t) ≤ worth (Txn.creditTo u) (l.txn s t)
  cases hx : s.txns t with
  | none =>
    cases l.txn s t with
    | none => exact Int.le_refl 0
    | some x' =>
      show 0 ≤ x'.creditTo u
      unfold Txn.creditTo
      split <;> omega
  | some x =>
    cases hw : l.txnWrites t with
    | none =>
      have hsame : l.txn s t = some x := by simp [Session.txn, hw, hx]
      rw [hsame]
    | some x' =>
      have hread : l.txn s t = some x' := by simp [Session.txn, hw]
      have hterms := h.txnTerms t x' hw x hx
      have hamount : x'.uctusdAmount = x.uctusdAmount := congrArg Quote.uctusdAmount hterms.quote
      rw [hread]
      show x.creditTo u ≤ x'.creditTo u
      unfold Txn.creditTo
      rw [hterms.recipient, hamount]
      split
      next hc =>
        have hmem : SettlementStatus.completed ∈ l.settlementLog t ++ s.settlementLog t := by
          have hhead := (hs.txn t x hx).settlementHead
          rw [hc.1] at hhead
          exact List.mem_append_right _ (Trail.head_mem hhead)
        rw [if_pos ⟨(h.txn t x' hw).completed_iff.mp hmem, hc.2⟩]
      · split <;> omega

theorem Continues.commit (h : l.LogsWrites i s) (hs : Lifecycle s) :
    Continues s (s.commit i l) where
  nextId := Nat.le_refl _
  row := fun r q hq => by
    show ∃ q', l.req s r = some q' ∧ q.Follows q'
    cases hw : l.reqWrites r with
    | none => exact ⟨q, by simp [Session.req, hw, hq], .refl q⟩
    | some q' => exact ⟨q', by simp [Session.req, hw], h.follows hs hq hw⟩
  credited := fun _ => credited_commit h hs
  wallets := fun u hu => by
    show ((l.walletWrites u).or (s.wallets u)).isSome = true
    cases l.walletWrites u with
    | none => exact hu
    | some w => rfl

theorem tick_continues (hs : s.Regular) : Continues s (s.tick S c) :=
  .of_eq hs rfl rfl (Nat.le_refl _) rfl

theorem exec_continues (h : l.LogsWrites i s) (hs : s.Orderly) {r : Except Exn o.Res}
    (hx : exec S i o c l s = some (r, l', s')) : Continues s s' := by
  by_cases ho : o = .commit
  · subst ho
    rcases exec_commit hx with ⟨-, -, rfl⟩ | ⟨-, rfl, -⟩
    · exact tick_continues hs.regular
    · exact (tick_continues hs.regular).trans (.commit (h.of_others Others.tick)
        (hs.lifecycle.of_uncommitted (Uncommitted.refl i _)))
  · have hu := exec_uncommitted ho hx
    exact .of_eq hs.regular hu.txns hu.reqs hu.nextId hu.wallets

/-- No request on the wallet of `u` is new. -/
def NoNewOn (u : Nat) (s s' : World) : Prop :=
  ∀ r q', s'.reqs r = some q' → q'.walletId = u → (s.reqs r).isSome = true

theorem NoNewOn.of_eq (h : s'.reqs = s.reqs) : NoNewOn u s s' := fun r q' hq' _ => by
  rw [← h, hq']
  rfl

theorem NoNewOn.trans {s'' : World} (h : NoNewOn u s s') (h' : NoNewOn u s' s'')
    (hc : Continues s' s'') : NoNewOn u s s'' := fun r q'' hq'' hu => by
  obtain ⟨q', hq'⟩ := Option.isSome_iff_exists.mp (h' r q'' hq'' hu)
  obtain ⟨y, hy, hf⟩ := hc.row r q' hq'
  obtain rfl : q'' = y := Option.some.inj (hq''.symm.trans hy)
  exact h r q' hq' (hf.terms.wallet.symm.trans hu)

/-- **CLAIMS ONLY SHRINK** while no request is added. -/
theorem World.outstanding_le (hs : s.Regular) (hc : Continues s s') (hn : NoNewOn u s s') :
    s'.outstanding u ≤ s.outstanding u := by
  calc s'.outstanding u
      ≤ total (CashOutRequest.claimOn u) s.reqs s'.nextId := by
        refine total_mono fun r => ?_
        cases hq' : s'.reqs r with
        | none =>
          cases s.reqs r with
          | none => exact Int.le_refl 0
          | some q =>
            show 0 ≤ q.claimOn u
            unfold CashOutRequest.claimOn
            split <;> omega
        | some q' =>
          show q'.claimOn u ≤ _
          by_cases hu : q'.walletId = u
          · obtain ⟨q, hq⟩ := Option.isSome_iff_exists.mp (hn r q' hq' hu)
            obtain ⟨y, hy, hf⟩ := hc.row r q hq
            obtain rfl : q' = y := Option.some.inj (hq'.symm.trans hy)
            rw [hq]
            exact hf.claim_le
          · have hzero : q'.claimOn u = 0 := if_neg fun hcl => hu hcl.1
            rw [hzero]
            cases s.reqs r with
            | none => exact Int.le_refl 0
            | some q =>
              show 0 ≤ q.claimOn u
              unfold CashOutRequest.claimOn
              split <;> omega
    _ = s.outstanding u := total_extend hc.nextId hs.reqIds

/-! ## §3. The protocol. -/

/-- `price_cashout` prices the amount it was asked to price. -/
def pricesAsked : Op → Choice → Bool
  | .priceCashout amount _, ⟨_, _, .pricing p⟩ => p.uctusdAmount == amount
  | _, _ => true

/-- The platform where it does. -/
@[reducible] def pricedPlatform (S : Setting) : Machine := (platform S).restrict pricesAsked

/-- Every claim is covered by what was credited. -/
structure World.Covered (s : World) : Prop where
  own : s.OwnWallets
  claims : ∀ u, s.outstanding u ≤ s.credited u

theorem World.Covered.continues (h : s.Covered) (hs : s.Regular) (hc : Continues s s')
    (hn : ∀ u, NoNewOn u s s') (hown : s'.OwnWallets) : s'.Covered where
  own := hown
  claims := fun u => by
    have hle := World.outstanding_le hs hc (hn u)
    have hcovered := h.claims u
    have hcredited := hc.credited u
    omega

theorem World.Covered.of_eq (h : s.Covered) (hs : s.Regular) (ht : s'.txns = s.txns)
    (hr : s'.reqs = s.reqs) (hn : s.nextId ≤ s'.nextId) (hw : s'.wallets = s.wallets) :
    s'.Covered := by
  have hc : Continues s s' := .of_eq hs ht hr hn hw
  exact h.continues hs hc (fun _ => .of_eq hr) fun r q hq => (h.own r q (hr ▸ hq)).continues hc

theorem World.Covered.initial (clock validated : Nat) (held : Nat → Bool) :
    (World.initial clock validated held).Covered where
  own := fun r q hq => by cases hq
  claims := fun _ => Int.le_refl 0

/-- **THE BALANCE COVERS WHAT WAITS.** -/
theorem World.Covered.waiting_le (h : s.Covered) (hb : Books S s) (hf : S.freshLock = true)
    (u : Nat) : s.waiting u ≤ balanceOf (s.wallets u) := by
  have hclaims := h.claims u
  have hsplit := s.outstanding_eq u
  have hmoney := hb.money hf u
  omega

/-- What is relied on: requests only move on, and nobody opens one on a wallet that `j` has
locked. -/
structure Leaves (j : Nat) (s s' : World) : Prop where
  others : Others j s s'
  continues : Continues s s'
  spared : ∀ u, s.walletLock u = some j → NoNewOn u s s'


@[reducible] def covering (S : Setting) : Protocol ((rules S).restrict pricesAsked) where
  known := Books S
  inv := World.Covered
  rely := Leaves
  refl := fun j s => ⟨.refl j s,
    ⟨Nat.le_refl _, fun _ q hq => ⟨q, hq, .refl q⟩, fun _ => Int.le_refl _, fun _ h => h⟩,
    fun _ _ => .of_eq rfl⟩
  trans := fun h h' => ⟨h.others.trans h'.others, h.continues.trans h'.continues, fun u hu =>
    (h.spared u hu).trans (h'.spared u (h.others.walletLock u hu).1) h'.continues⟩

/-- A call of the platform with its answers as asked is a call of the platform. -/
theorem pricedPlatform_exec {r : Except Exn o.Res}
    (hx : (pricedPlatform S).exec i o c l s = some (r, l', s')) :
    pricesAsked o c = true ∧ exec S i o c l s = some (r, l', s') :=
  restrict_exec (M := platform S) hx

/-- A move that adds no request keeps the protocol. -/
theorem keeps_of_none (hh : (covering S).Here i l s) (hc : Continues s s')
    (hn : ∀ u, NoNewOn u s s') (hown : s'.OwnWallets) (ho : ∀ j, j ≠ i → Others j s s') :
    (covering S).keeps i s s' :=
  ⟨hh.inv.continues hh.world.regular hc hn hown, fun j hj => ⟨ho j hj, hc, fun u _ => hn u⟩⟩

/-- A call that does not commit stores nothing. -/
theorem keeps_uncommitted (hh : (covering S).Here i l s) (ho : o ≠ .commit) {r : Except Exn o.Res}
    (hx : exec S i o c l s = some (r, l', s')) : (covering S).keeps i s s' := by
  have hu := exec_uncommitted ho hx
  have hc := exec_continues hh.session hh.world hx
  refine keeps_of_none hh hc (fun _ => .of_eq hu.reqs) (fun r q hq => ?_)
    fun j hj => exec_others hh.session.locked hx hj
  rw [hu.reqs] at hq
  exact (hh.inv.own r q hq).continues hc

/-! ## §4. Sessions that write over stored requests only. -/

/-- Whatever requests the session has written are stored ones, on their recipient's wallet. -/
structure Session.OverRequests (l : Session) (s : World) : Prop where
  stored : ∀ r q, l.reqWrites r = some q → (s.reqs r).isSome = true
  own : ∀ r q, l.reqWrites r = some q → q.OnOwn s

theorem Session.OverRequests.empty (h : ∀ r, l.reqWrites r = none) : l.OverRequests s where
  stored := fun r q hq => by
    rw [h r] at hq
    cases hq
  own := fun r q hq => by
    rw [h r] at hq
    cases hq

theorem Session.OverRequests.continues (h : l.OverRequests s) (hc : Continues s s') :
    l.OverRequests s' where
  stored := fun r q hq => by
    obtain ⟨y, hy⟩ := Option.isSome_iff_exists.mp (h.stored r q hq)
    obtain ⟨y', hy', -⟩ := hc.row r y hy
    rw [hy']
    rfl
  own := fun r q hq => (h.own r q hq).continues hc

theorem Session.OverRequests.same (h : l.OverRequests s) (hr : l'.reqWrites = l.reqWrites) :
    l'.OverRequests s := ⟨by rw [hr]; exact h.stored, by rw [hr]; exact h.own⟩

theorem Session.OverRequests.commit (h : l.OverRequests s) : NoNewOn u s (s.commit i l) := by
  intro r q' hq' _
  rcases Session.req_cases hq' with hw | ⟨-, hq⟩
  · exact h.stored r q' hw
  · rw [hq]
    rfl

theorem OwnWallets.commit (h : s.OwnWallets) (hl : l.OverRequests s)
    (hc : Continues s (s.commit i l)) : (s.commit i l).OwnWallets := by
  intro r q hq
  rcases Session.req_cases hq with hw | ⟨-, hst⟩
  · exact (hl.own r q hw).continues hc
  · exact (h r q hst).continues hc

/-- UPDATEs leave whose request it is. -/
theorem ReqUpdate.own {e : Entry} {r : Nat} {cond : CashOutRequest → Bool}
    {values : Nat → CashOutRequest → CashOutRequest} (h : ReqUpdate e r cond values) (now : Nat)
    {q : CashOutRequest} (hq : q.OnOwn s) : (values now q).OnOwn s := by
  cases h <;> exact hq

/-- An entry point that opens no request. -/
def Entry.opensNothing (e : Entry) : Prop := ∀ form, e ≠ .createRequest form

theorem overRequests_call {e : Entry} (he : e.opensNothing) (hm : e.may o)
    (hh : (covering S).Here i l s) (h : l.OverRequests s) {r : Except Exn o.Res}
    (hx : exec S i o c l s = some (r, l', s')) :
    (covering S).keeps i s s' ∧ l'.OverRequests s' := by
  have hcont := exec_continues hh.session hh.world hx
  by_cases ho : o = .commit
  · subst ho
    have hothers : ∀ j, j ≠ i → Others j s s' := fun j hj => exec_others hh.session.locked hx hj
    rcases exec_commit hx with ⟨-, rfl, rfl⟩ | ⟨-, rfl, hl'⟩
    · exact ⟨keeps_of_none hh hcont (fun _ => .of_eq rfl) hh.inv.own hothers,
        (h.continues hcont).same rfl⟩
    · have htick : l.OverRequests (s.tick S c) := ⟨h.stored, h.own⟩
      have hcommit : Continues (s.tick S c) ((s.tick S c).commit i l) :=
        .commit (hh.session.of_others Others.tick)
          (hh.world.lifecycle.of_uncommitted (Uncommitted.refl i _))
      refine ⟨keeps_of_none hh hcont (fun u => ?_)
        (OwnWallets.commit (s := s.tick S c) hh.inv.own htick hcommit) hothers, ?_⟩
      · exact htick.commit
      · rcases hl' with ⟨-, rfl⟩ | ⟨-, rfl⟩ <;> exact .empty fun _ => rfl
  · refine ⟨keeps_uncommitted hh ho hx, ?_⟩
    have h' := h.continues hcont
    cases o with
    | commit => exact absurd rfl ho
    | updateReq k cond values =>
      rcases exec_updateReq hx with ⟨-, -, rfl⟩ | ⟨-, rfl, -⟩ | ⟨q, -, -, hq, -, rfl, -⟩
      · exact h'.same rfl
      · exact h'
      · -- the row that was read is the session's own or a stored one
        have hown : q.OnOwn s' := by
          rcases Session.req_cases hq with hw | ⟨-, hst⟩
          · exact h'.own k q hw
          · exact (hh.inv.own k q hst).continues hcont
        have hstored : (s'.reqs k).isSome = true := by
          rcases Session.req_cases hq with hw | ⟨-, hst⟩
          · exact h'.stored k q hw
          · obtain ⟨y, hy, -⟩ := hcont.row k q hst
            rw [hy]
            rfl
        constructor
        · intro r q' hq'
          by_cases hr : r = k
          · rw [hr]
            exact hstored
          · exact h'.stored r q' (by simpa [Session.writeReq, update, hr] using hq')
        · intro r q' hq'
          by_cases hr : r = k
          · subst hr
            obtain rfl : values s'.clock q = q' := by simpa [Session.writeReq] using hq'
            exact hm.own _ hown
          · exact h'.own r q' (by simpa [Session.writeReq, update, hr] using hq')
    | insertReq row =>
      obtain ⟨form, -, rfl, -⟩ := hm
      -- only the cash-out form inserts
      exact absurd rfl (he form)
    | _ => exact h'.same (exec_sameReqs rfl hx).1

/-- Programs that open no request keep the claims covered. -/
theorem safe_opensNothing {e : Entry} (he : e.opensNothing) {α : Type} {p : Program α}
    (hu : Prog.Uses e.may p) (h : l.OverRequests s) :
    Safe (covering S) i (fun _ _ _ => True) (fun _ _ _ => True) p l s := by
  refine (Safe.of_uses (P := covering S) (F := e.may)
    (A := fun (l' : Session) (s' : World) => l'.OverRequests s') ?_ ?_ hu h).mono
      (fun _ _ _ _ _ => trivial) fun _ _ _ _ _ => trivial
  · intro (l₁ : Session) (s₁ : World) (s₂ : World) ha hg _ hs
    exact ha.continues hs.rely.continues
  · intro (o : Op) hm (l₁ : Session) (s₁ : World) ha hh c r l' s' hx _
    exact overRequests_call he hm hh ha (pricedPlatform_exec hx).2

/-! ## §5. From the check to the insert. -/

/-- No request is written yet, and the wallet of `u` is locked with the balance `b`. -/
structure WalletHeld (i u : Nat) (b : Int) (l : Session) (s : World) : Prop where
  noReqs : ∀ r, l.reqWrites r = none
  lock : s.walletLock u = some i
  balance : balanceOf (s.wallets u) = b
  there : (s.wallets u).isSome = true

/-- What happens while the wallet is locked. -/
structure Undivided (u : Nat) (s s' : World) : Prop where
  regular : s.Regular
  continues : Continues s s'
  noNew : NoNewOn u s s'

theorem Undivided.trans {s'' : World} (h : Undivided u s s') (h' : Undivided u s' s'') :
    Undivided u s s'' :=
  ⟨h.regular, h.continues.trans h'.continues, h.noNew.trans h'.noNew h'.continues⟩

/-- `amount` more would be covered. -/
def World.HasRoom (s : World) (u amount : Nat) : Prop :=
  s.outstanding u + amount ≤ s.credited u

theorem World.HasRoom.undivided {amount : Nat} (h : s.HasRoom u amount) (hm : Undivided u s s') :
    s'.HasRoom u amount := by
  have hle := World.outstanding_le hm.regular hm.continues hm.noNew
  have hcredited := hm.continues.credited u
  unfold World.HasRoom at h ⊢
  omega

theorem exec_undivided (hl : l.LogsWrites i s) (hs : s.Orderly) (ho : o ≠ .commit)
    {r : Except Exn o.Res} (hx : exec S i o c l s = some (r, l', s')) : Undivided u s s' :=
  ⟨hs.regular, exec_continues hl hs hx, .of_eq (exec_uncommitted ho hx).reqs⟩

theorem WalletHeld.sees {b : Int} (h : WalletHeld i u b l s) (hg : (covering S).Given i l s)
    (hs : (covering S).Sees i s s') : WalletHeld i u b l s' ∧ Undivided u s s' := by
  obtain ⟨hlock, hsame⟩ := hs.rely.others.walletLock u h.lock
  exact ⟨⟨h.noReqs, hlock, by rw [hsame]; exact h.balance, by rw [hsame]; exact h.there⟩,
    ⟨hg.world.regular, hs.rely.continues, hs.rely.spared u h.lock⟩⟩

section Steps

variable {α : Type} {Q : α → Session → World → Prop} {b : Int}

/-- A call that writes no row, then the rest. -/
theorem walletHeld_bind {f : o.Res → Program α} (ho : o ≠ .commit) (hw : o.writesReqs = false)
    (h : WalletHeld i u b l s)
    (hf : ∀ s₁ c a l' s', (covering S).Here i l s₁ → pricesAsked o c = true →
      exec S i o c l s₁ = some (.ok a, l', s') → WalletHeld i u b l s₁ → WalletHeld i u b l' s' →
      Undivided u s s₁ → Undivided u s₁ s' →
        Safe (covering S) i Q (fun _ _ _ => True) (f a) l' s') :
    Safe (covering S) i Q (fun _ _ _ => True) (Prog.bind (call o) f) l s := by
  refine Safe.call_bind fun hg s₁ hh hs c r l' s' hx hg' => ?_
  obtain ⟨hasked, hx⟩ := pricedPlatform_exec hx
  have hu := exec_uncommitted ho hx
  obtain ⟨h₁, hm₁⟩ := h.sees hg hs
  refine ⟨keeps_uncommitted hh ho hx, ?_⟩
  cases r with
  | error e => exact trivial
  | ok a =>
    have h' : WalletHeld i u b l' s' :=
      ⟨by rw [(exec_sameReqs hw hx).1]; exact h₁.noReqs, hu.walletLock.keeps h₁.lock,
        by rw [hu.wallets]; exact h₁.balance, by rw [hu.wallets]; exact h₁.there⟩
    exact hf s₁ c a l' s' hh hasked hx h₁ h' hm₁ (exec_undivided hh.session hh.world ho hx)

theorem exec_sumRequested {held : Nat} (hn : ∀ r, l.reqWrites r = none)
    (hx : exec S i (.sumRequested u) c l s = some (.ok held, l', s')) :
    held = sumRequested s.reqs s.nextId u := by
  rcases exec_plain rfl hx with ⟨e, he, -⟩ | ⟨-, hp⟩
  · cases he
  · simp only [perform] at hp
    cases hp
    have hread : l.req (s.tick S c) = (s.tick S c).reqs := by
      funext r
      unfold Session.req
      rw [hn r]
      rfl
    rw [hread]
    rfl

theorem exec_priceCashout {amount : Nat} {currency : PayoutCurrency} {p : CashOutPricing}
    (ha : pricesAsked (.priceCashout amount currency) c = true)
    (hx : exec S i (.priceCashout amount currency) c l s = some (.ok p, l', s')) :
    p.uctusdAmount = amount := by
  rcases exec_plain rfl hx with ⟨e, he, -⟩ | ⟨-, hp⟩
  · cases he
  · obtain ⟨dt, mode, value⟩ := c
    cases value with
    | pricing p' =>
      simp only [perform] at hp
      cases hp
      simpa [pricesAsked] using ha
    | _ =>
      simp only [perform] at hp
      cases hp

/-- **THE CHECK**: what is available covers the amount. -/
theorem hasRoom_of_check {held amount : Nat} (hf : S.freshLock = true)
    (hh : (covering S).Here i l s) (h : WalletHeld i u b l s)
    (hheld : held = sumRequested s.reqs s.nextId u) (hcheck : ¬ b - held < amount) :
    s.HasRoom u amount := by
  have hmoney := hh.known.money hf u
  have hsplit := s.outstanding_eq u
  have hwaits := sumRequested_waiting (u := u) hh.inv.own
  have hbalance := h.balance
  unfold World.HasRoom
  rw [← hheld] at hwaits
  omega

end Steps

/-! ## §6. The insert and its commit. -/

/-- One new request on the locked wallet is written, and there is room for it. -/
structure Requesting (i u r : Nat) (q : CashOutRequest) (l : Session) (s : World) : Prop where
  writes : l.reqWrites = update (fun _ => none) r (some q)
  new : s.reqs r = none
  below : r < s.nextId
  lockReq : s.reqLock r = some i
  lock : s.walletLock u = some i
  wallet : q.walletId = u
  own : q.OnOwn s
  room : s.HasRoom u q.uctusdAmount

variable {r : Nat} {q : CashOutRequest}

theorem Requesting.sees (h : Requesting i u r q l s) (ho : Others i s s') (hm : Undivided u s s') :
    Requesting i u r q l s' where
  writes := h.writes
  new := ((ho.reqLock r h.lockReq).2.1).trans h.new
  below := Nat.lt_of_lt_of_le h.below hm.continues.nextId
  lockReq := (ho.reqLock r h.lockReq).1
  lock := (ho.walletLock u h.lock).1
  wallet := h.wallet
  own := h.own.continues hm.continues
  room := h.room.undivided hm

theorem Requesting.reqs_commit (h : Requesting i u r q l s) :
    (s.commit i l).reqs = update s.reqs r (some q) := by
  funext k
  show (l.reqWrites k).or (s.reqs k) = _
  rw [h.writes]
  by_cases hk : k = r
  · subst hk
    rw [Function.update_self, Function.update_self]
    rfl
  · rw [Function.update_of_ne hk, Function.update_of_ne hk]
    rfl

/-- **A REQUEST'S COMMIT** leaves every claim covered. -/
theorem Requesting.covered (h : Requesting i u r q l s) (hs : s.Covered) (hl : l.LogsWrites i s)
    (hlife : Lifecycle s) : (s.commit i l).Covered where
  own := fun k q' hq' => by
    have hc := Continues.commit hl hlife
    rw [h.reqs_commit] at hq'
    by_cases hk : k = r
    · subst hk
      rw [Function.update_self] at hq'
      exact Option.some.inj hq' ▸ h.own.continues hc
    · rw [Function.update_of_ne hk] at hq'
      exact (hs.own k q' hq').continues hc
  claims := fun v => by
    have hclaims := hs.claims v
    have hcredited := (Continues.commit hl hlife).credited v
    have hsum : (s.commit i l).outstanding v = s.outstanding v + q.claimOn v := by
      unfold World.outstanding
      rw [h.reqs_commit]
      exact total_insert h.below h.new q
    have hroom := h.room
    unfold World.HasRoom at hroom
    have hclaim : q.claimOn v ≤ if v = u then (q.uctusdAmount : Int) else 0 := by
      unfold CashOutRequest.claimOn
      rw [h.wallet]
      by_cases hv : v = u
      · subst hv
        rw [if_pos rfl]
        split <;> omega
      · rw [if_neg hv, if_neg fun hc => hv hc.1.symm]
    by_cases hv : v = u
    · subst hv
      rw [if_pos rfl] at hclaim
      omega
    · rw [if_neg hv] at hclaim
      omega

theorem Requesting.noNewOn {v : Nat} (h : Requesting i u r q l s) (hv : v ≠ u) :
    NoNewOn v s (s.commit i l) := by
  intro k q' hq' hw
  rw [h.reqs_commit] at hq'
  by_cases hk : k = r
  · subst hk
    rw [Function.update_self] at hq'
    obtain rfl : q = q' := Option.some.inj hq'
    exact absurd (hw.symm.trans h.wallet) hv
  · rw [Function.update_of_ne hk] at hq'
    rw [hq']
    rfl

/-- The INSERT, COMMIT, and what follows. -/
theorem safe_insertReq {form : CashOutForm} {pricing : CashOutPricing} {b : Int}
    (h : WalletHeld i form.recipientId b l s)
    (hroom : s.HasRoom form.recipientId pricing.uctusdAmount) :
    Safe (covering S) i (fun _ _ _ => True) (fun _ _ _ => True) (do
      let r ← call (.insertReq (CashoutService.newRequest form pricing))
      call .commit
      call .refresh
      return r) l s := by
  rw [Prog.bind_eq]
  refine Safe.call_bind fun hg s₁ hh hs c r l' s' hx hg' => ?_
  obtain ⟨-, hx⟩ := pricedPlatform_exec hx
  have hnot : Op.insertReq (CashoutService.newRequest form pricing) ≠ .commit := nofun
  have hu := exec_uncommitted hnot hx
  obtain ⟨h₁, hm₁⟩ := h.sees hg hs
  have hm : Undivided form.recipientId s s' :=
    hm₁.trans (exec_undivided hh.session hh.world hnot hx)
  refine ⟨keeps_uncommitted hh hnot hx, ?_⟩
  rcases exec_insertReq hx with ⟨⟨e, rfl⟩, -⟩ | ⟨rfl, -, hnone, rfl, hlock, hnext⟩
  · exact trivial
  -- the balance that was checked still has the room: its row is locked
  obtain ⟨-, hnew⟩ := Option.or_eq_none_iff.mp hnone
  have hrequesting : Requesting i form.recipientId s₁.nextId
      (CashoutService.newRequest form pricing s₁.nextId s'.clock)
      (l.writeReq s'.clock s₁.nextId none
        (CashoutService.newRequest form pricing s₁.nextId s'.clock)) s' :=
    { writes := by
        show update l.reqWrites s₁.nextId _ = _
        rw [funext h.noReqs]
      new := by rw [hu.reqs]; exact hnew
      below := by omega
      lockReq := hlock
      lock := hu.walletLock.keeps h₁.lock
      wallet := rfl
      own := ⟨rfl, by rw [hu.wallets]; exact h₁.there⟩
      room := hroom.undivided hm }
  show Safe (covering S) i _ _ (Prog.bind (call .commit) _) _ s'
  refine Safe.call_bind fun hg₂ s₂ hh₂ hs₂ c₂ r₂ l₂ s₂' hx₂ _ => ?_
  obtain ⟨-, hx₂⟩ := pricedPlatform_exec hx₂
  have hrequesting₂ := hrequesting.sees hs₂.rely.others
    ⟨hg₂.world.regular, hs₂.rely.continues, hs₂.rely.spared _ hrequesting.lock⟩
  have hothers : ∀ j, j ≠ i → Others j s₂ s₂' :=
    fun j hj => exec_others hh₂.session.locked hx₂ hj
  have hcont := exec_continues hh₂.session hh₂.world hx₂
  -- after COMMIT only the refresh is left
  have hrest : l₂.OverRequests s₂' → Safe (covering S) i (fun _ _ _ => True) (fun _ _ _ => True)
      (do call .refresh; return s₁.nextId) l₂ s₂' := fun hl₂ =>
    safe_opensNothing (e := .sweepUnpublished) nofun
      (Prog.uses_bind (Prog.uses_call trivial) fun _ => trivial) hl₂
  -- COMMIT fails and stores nothing, or stores the request with its room
  rcases exec_commit hx₂ with ⟨⟨e, rfl⟩, -, rfl⟩ | ⟨-, rfl, hl₂⟩
  · exact ⟨keeps_of_none hh₂ hcont (fun _ => .of_eq rfl) hh₂.inv.own hothers, trivial⟩
  · have htick : Requesting i form.recipientId s₁.nextId _ _ (s₂.tick S c₂) :=
      hrequesting₂.sees Others.tick
        ⟨hh₂.world.regular, tick_continues hh₂.world.regular, .of_eq rfl⟩
    have hcovered : (s₂.tick S c₂).Covered :=
      hh₂.inv.of_eq hh₂.world.regular rfl rfl (Nat.le_refl _) rfl
    have hstored := htick.covered hcovered (hh₂.session.of_others Others.tick)
      (hh₂.world.lifecycle.of_uncommitted (Uncommitted.refl i _))
    refine ⟨⟨hstored, fun j hj => ⟨hothers j hj, hcont, fun v hv => ?_⟩⟩, ?_⟩
    -- another session holds another wallet, against which the request is not
    · have hne : v ≠ form.recipientId := by
        rintro rfl
        rw [hrequesting₂.lock] at hv
        cases hv
        exact hj rfl
      exact htick.noNewOn hne
    · rcases hl₂ with ⟨rfl, rfl⟩ | ⟨⟨e, rfl⟩, rfl⟩
      · exact hrest (.empty fun _ => rfl)
      · exact trivial

/-! ## §7. Every program keeps the claims covered. -/

/-- Whoever locks a wallet, with nothing of its own written to it, reads what is stored. -/
theorem exec_lockWallet_stored {w : Wallet} (hf : S.freshLock = true)
    (hn : l.walletWrites u = none)
    (hx : exec S i (.lockWallet u) c l s = some (.ok (some w), l', s')) :
    s'.walletLock u = some i ∧ (s.wallets u).isSome = true ∧
      balanceOf (s.wallets u) = w.balanceUctusd := by
  rcases exec_lockWallet hx with ⟨⟨e, he⟩, -⟩ | ⟨he, -⟩ | ⟨w', he, hw, hlock, hfresh⟩
  · cases he
  · cases he
  · cases he
    refine ⟨hlock, ?_⟩
    have hcopy := hfresh hf
    unfold Session.identify Session.wallet at hw
    rw [hn, Option.none_or] at hw
    unfold Session.freshCopy at hcopy
    cases hc : l.walletCopy u with
    | none =>
      rw [hc, Option.none_or] at hw
      rw [hw]
      exact ⟨rfl, rfl⟩
    | some w₁ =>
      rw [hc] at hw hcopy
      obtain rfl : w₁ = w := Option.some.inj hw
      obtain ⟨w₂, hw₂, hb⟩ := Option.map_eq_some_iff.mp (beq_iff_eq.mp hcopy)
      rw [hw₂]
      exact ⟨rfl, hb⟩

/-- A session that has written nothing to a wallet. -/
def Session.NoWallets (l : Session) : Prop := ∀ u, l.walletWrites u = none

/-- The lock is the first statement, so nothing has been written when it is taken. -/
theorem safe_createRequest {form : CashOutForm} (hf : S.freshLock = true)
    (hn : ∀ r, l.reqWrites r = none) (hw : l.NoWallets) :
    Safe (covering S) i (fun _ _ _ => True) (fun _ _ _ => True)
      (CashoutService.createRequest form) l s := by
  unfold CashoutService.createRequest
  rw [Prog.bind_eq]
  refine Safe.call_bind fun _ s₁ hh _ c r l' s' hx _ => ?_
  obtain ⟨-, hx⟩ := pricedPlatform_exec hx
  have hnot : Op.lockWallet form.recipientId ≠ .commit := nofun
  have hu := exec_uncommitted hnot hx
  refine ⟨keeps_uncommitted hh hnot hx, ?_⟩
  cases r with
  | error e => exact trivial
  | ok found =>
    cases found with
    | none => exact fun _ => trivial
    | some wallet =>
      obtain ⟨hlock, hthere, hbalance⟩ := exec_lockWallet_stored hf (hw _) hx
      have hheld : WalletHeld i form.recipientId wallet.balanceUctusd l' s' :=
        ⟨fun r => by rw [(exec_sameReqs rfl hx).1]; exact hn r, hlock,
          by rw [hu.wallets]; exact hbalance, by rw [hu.wallets]; exact hthere⟩
      show Safe (covering S) i _ _ (Prog.bind (call (.sumRequested form.recipientId)) _) l' s'
      refine walletHeld_bind nofun rfl hheld fun s₂ c₂ held l₂ s₃ hh₂ _ hx₂ h₂ h₃ _ hm₃ => ?_
      dsimp only
      split
      · exact safe_raise fun _ => trivial
      next hcheck =>
        have hroom :=
          (hasRoom_of_check hf hh₂ h₂ (exec_sumRequested h₂.noReqs hx₂) hcheck).undivided hm₃
        refine walletHeld_bind nofun rfl h₃ fun s₄ c₄ pricing l₄ s₅ _ ha hx₄ _ h₅ hm₄ hm₅ => ?_
        split
        · refine safe_insertReq h₅ ?_
          rw [exec_priceCashout ha hx₄]
          exact (hroom.undivided hm₄).undivided hm₅
        · exact safe_raise fun _ => trivial

theorem covering_sound (hf : S.freshLock = true) : (covering S).Sound where
  spawn := fun s h => by
    have hc : ∀ s : World, Continues s { s with nextTid := s.nextTid + 1 } := fun s =>
      ⟨Nat.le_refl _, fun _ q hq => ⟨q, hq, .refl q⟩, fun _ => Int.le_refl _, fun _ h => h⟩
    exact ⟨⟨h.own, h.claims⟩, fun _ => ⟨spawn_others, hc s, fun _ _ => .of_eq rfl⟩⟩
  body := fun s e _ => by
    by_cases he : e.opensNothing
    · exact safe_opensNothing he (body_uses S e) (.empty fun _ => rfl)
    · obtain ⟨form, hform⟩ := Classical.not_forall.mp he
      obtain rfl : e = .createRequest form := Classical.not_not.mp hform
      exact Safe.bind (Q := fun _ _ _ => True) (safe_createRequest hf (fun _ => rfl) fun _ => rfl)
        fun _ _ _ _ => safe_ret fun _ => trivial
  close := fun i s h => by
    have hc : Continues s (s.releaseAll i) :=
      ⟨Nat.le_refl _, fun _ q hq => ⟨q, hq, .refl q⟩, fun _ => Int.le_refl _, fun _ h => h⟩
    exact ⟨⟨h.own, h.claims⟩, fun j hj => ⟨releaseAll_others hj, hc, fun _ _ => .of_eq rfl⟩⟩
  env := fun v s s' hs _ h hx => by
    obtain ⟨he, -, -⟩ := env_eq hx
    have hc : Continues s s' := by
      rw [he]
      exact ⟨Nat.le_refl _, fun _ q hq => ⟨q, hq, .refl q⟩, fun _ => Int.le_refl _, fun _ h => h⟩
    refine ⟨?_, fun j => ⟨env_others hx, hc, fun _ _ => ?_⟩⟩
    · rw [he]
      exact ⟨h.own, h.claims⟩
    · rw [he]
      exact .of_eq rfl

theorem pricedPlatform_books {w : World} (hw : w.Orderly) (hb : Books S w)
    {k : Config (pricedPlatform S)} (h : Reach (M := pricedPlatform S) w k) : Books S k.world :=
  books_reach (S := S) hw hb h.unrestrict

/-- **EVERY CLAIM IS COVERED**, in every reachable state. -/
theorem covering_reach (hf : S.freshLock = true) {w : World} (hw : w.Orderly) (hb : Books S w)
    (hi : w.Covered) {k : Config (pricedPlatform S)} (h : Reach (M := pricedPlatform S) w k) :
    k.world.Covered :=
  (covering_sound hf).reach (rules_kept S).restrict hw hi
    (fun _ hc => pricedPlatform_books hw hb hc) h

/-! ## §8. Why an approval is refused. -/

/-- Only pricing refuses a cash-out on its own. -/
theorem exec_cashOut {text : String} (ho : ∀ amount currency, o ≠ .priceCashout amount currency)
    {e : Exn} (hx : exec S i o c l s = some (.error e, l', s')) : e ≠ .cashOut text := by
  rintro rfl
  have hmay : o.mayRaise (.cashOut text) = false := by
    cases o with
    | priceCashout amount currency => exact absurd rfl (ho amount currency)
    | _ => rfl
  rcases exec_error hx with ha | hm
  · unfold afterRaises at ha
    split at ha
    · cases ha
    · rw [hmay] at ha
      cases ha
  · rw [hmay] at hm
    cases hm

/-- The request `r` is there and waits no longer. -/
def World.Actioned (s : World) (r : Nat) : Prop :=
  ∃ q, s.reqs r = some q ∧ q.status ≠ .requested

theorem World.Actioned.continues {r : Nat} (h : s.Actioned r) (hc : Continues s s') :
    s'.Actioned r := by
  obtain ⟨q, hq, hst⟩ := h
  obtain ⟨q', hq', hf⟩ := hc.row r q hq
  exact ⟨q', hq', fun hw => hst (hf.waited hw)⟩

/-- A refusal is due to the request having been actioned. -/
def DueRefusal (r : Nat) (e : Exn) (s : World) : Prop := ∀ text, e = .cashOut text → s.Actioned r

theorem dueRefusal_of_call {r : Nat} {e : Exn}
    (ho : ∀ amount currency, o ≠ .priceCashout amount currency)
    (hx : exec S i o c l s = some (.error e, l', s')) : DueRefusal r e s' :=
  fun _ he => absurd he (exec_cashOut ho hx)

section Approvals

variable {α : Type} {Q : α → Session → World → Prop} {r : Nat} {req : CashOutRequest}

/-- A call that writes nothing, then the rest. -/
theorem clean_bind {f : o.Res → Program α} (ho : o ≠ .commit)
    (hprice : ∀ amount currency, o ≠ .priceCashout amount currency)
    (ht : o.writesTxns = false) (hr : o.writesReqs = false) (hw : o.writesWallets = false)
    (h : l.Clean)
    (hf : ∀ s₁ c a l' s', (covering S).Here i l s₁ → Continues s s₁ →
      exec S i o c l s₁ = some (.ok a, l', s') → l'.Clean → Continues s₁ s' →
      Safe (covering S) i Q (fun e _ s => DueRefusal r e s) (f a) l' s') :
    Safe (covering S) i Q (fun e _ s => DueRefusal r e s) (Prog.bind (call o) f) l s := by
  refine Safe.call_bind fun _ s₁ hh hs c a l' s' hx _ => ?_
  obtain ⟨-, hx⟩ := pricedPlatform_exec hx
  refine ⟨keeps_uncommitted hh ho hx, ?_⟩
  cases a with
  | error e => exact dueRefusal_of_call hprice hx
  | ok a =>
    have hclean : l'.Clean :=
      ⟨by rw [(exec_sameTxns ht hx).1]; exact h.txns, by rw [(exec_sameReqs hr hx).1]; exact h.reqs,
        by rw [(exec_sameWallets hw hx).1]; exact h.wallets⟩
    exact hf s₁ c a l' s' hh hs.rely.continues hx hclean (exec_continues hh.session hh.world hx)

theorem World.HasReq.continues (h : s.HasReq r req) (hc : Continues s s') : s'.HasReq r req := by
  obtain ⟨q, hq, ht⟩ := h
  obtain ⟨q', hq', hf⟩ := hc.row r q hq
  exact ⟨q', hq', ht.trans hf.terms⟩

/-- **ENOUGH FOR WHAT WAITS**: a stored balance that does not do for a request means that the
request waits no longer. -/
theorem actioned_of_short (hf : S.freshLock = true) (hh : (covering S).Here i l s)
    (hreq : s.HasReq r req) {b : Int} (hb : balanceOf (s.wallets req.walletId) = b)
    (hshort : b < req.uctusdAmount) : s.Actioned r := by
  obtain ⟨q, hq, hterms⟩ := hreq
  refine ⟨q, hq, fun hwait => ?_⟩
  have hamount : q.uctusdAmount = req.uctusdAmount :=
    congrArg CashOutPricing.uctusdAmount hterms.pricing
  have hpart := World.waiting_ge (hh.world.regular.reqIds r q hq) hq hterms.wallet hwait
  have hwhole := hh.inv.waiting_le hh.known hf req.walletId
  rw [hamount] at hpart
  omega

/-- What follows the approving UPDATE raises no refusal of its own. -/
theorem tame_publish {X : Exn → Prop} (hX : ∀ cls text, X (.db cls text)) :
    Prog.Tame X (CashoutService.publish r req) := by
  unfold CashoutService.publish
  refine Prog.tame_bind Prog.tame_attempt fun answer => ?_
  cases answer with
  | ok a => exact trivial
  | error exc =>
    refine Prog.tame_bind ?_ fun _ => trivial
    unfold CashoutWorker.failAndRestore
    refine Prog.tame_bind Prog.tame_call fun hit => ?_
    split
    · refine Prog.tame_bind Prog.tame_call fun found => ?_
      cases found with
      | none => exact hX _ _
      | some wallet =>
        exact Prog.tame_bind Prog.tame_call fun _ => Prog.tame_bind Prog.tame_call fun _ =>
          Prog.tame_bind Prog.tame_call fun _ => trivial
    · exact Prog.tame_bind Prog.tame_call fun _ => trivial

/-- The calls of a burn's publication, none of which prices anything. -/
theorem uses_publishBurn {P : Op → Prop} (he : P (.enqueue (.burn r))) (hc : P .commit)
    (hr : P .refresh) (hl : ∀ u, P (.lockWallet u))
    (hu : ∀ reason, P (.updateReq r CashoutWorker.isApproved (CashoutWorker.failed reason none)))
    (hm : ∀ u balance, P (.setBalance u balance (.restore r))) :
    Prog.Uses P (CashoutService.publish r req) := by
  unfold CashoutService.publish
  refine Prog.uses_bind (Prog.uses_attempt (Prog.uses_call he)) fun answer => ?_
  cases answer with
  | ok a => exact trivial
  | error exc =>
    refine Prog.uses_bind ?_ fun _ => trivial
    unfold CashoutWorker.failAndRestore
    refine Prog.uses_bind (Prog.uses_call (hu _)) fun hit => ?_
    split
    · refine Prog.uses_bind (Prog.uses_call (hl _)) fun found => ?_
      cases found with
      | none => exact trivial
      | some wallet =>
        exact Prog.uses_bind (Prog.uses_call (hm _ _)) fun _ => Prog.uses_bind (Prog.uses_call hc)
          fun _ => Prog.uses_bind (Prog.uses_call hr) fun _ => trivial
    · exact Prog.uses_bind (Prog.uses_call hc) fun _ => trivial

/-- From the approving UPDATE on, nothing that escapes is a refusal. -/
theorem reserve_refuses (admin : Nat) {balance : Int} (h : l.OverRequests s) :
    Safe (covering S) i (fun _ _ _ => True) (fun e _ s => DueRefusal r e s) (do
      call (.setBalance req.walletId balance (.debit r))
      call .commit
      call .refresh
      CashoutService.publish r req) l s := by
  have hmay : ∀ {o : Op}, (Entry.approve r admin).may o →
      (∀ amount currency, o ≠ .priceCashout amount currency) →
      (Entry.approve r admin).may o ∧ ∀ amount currency, o ≠ .priceCashout amount currency :=
    fun ho hp => ⟨ho, hp⟩
  have huses : Prog.Uses (fun o : Op => (Entry.approve r admin).may o ∧
      ∀ amount currency, o ≠ .priceCashout amount currency) (do
        call (.setBalance req.walletId balance (.debit r))
        call .commit
        call .refresh
        CashoutService.publish r req : Program Unit) := by
    refine Prog.uses_bind (Prog.uses_call (hmay rfl nofun)) fun _ => ?_
    refine Prog.uses_bind (Prog.uses_call (hmay trivial nofun)) fun _ => ?_
    refine Prog.uses_bind (Prog.uses_call (hmay trivial nofun)) fun _ => ?_
    exact uses_publishBurn (hmay trivial nofun) (hmay trivial nofun) (hmay trivial nofun)
      (fun _ => hmay trivial nofun) (fun _ => hmay (ReqUpdate.unpublished r admin _) nofun)
      fun _ _ => hmay rfl nofun
  have htame : Prog.Tame (fun e : Exn => ∀ text, e ≠ .cashOut text) (do
        call (.setBalance req.walletId balance (.debit r))
        call .commit
        call .refresh
        CashoutService.publish r req : Program Unit) :=
    Prog.tame_bind Prog.tame_call fun _ => Prog.tame_bind Prog.tame_call fun _ =>
      Prog.tame_bind Prog.tame_call fun _ => tame_publish fun _ _ _ he => by cases he
  have hsafe := safe_opensNothing (S := S) (i := i) (e := .approve r admin) nofun
    (huses.mono fun _ ho => ho.1) h
  refine (Safe.tame (P := covering S) ?_ huses htame hsafe).mono (fun _ _ _ _ _ => trivial)
    fun e _ _ _ he text htext => absurd htext (he.2 text)
  intro (o : Op) c (l : Session) (s : World) e l' s' ho hx text
  exact exec_cashOut ho.2 (pricedPlatform_exec hx).2

/-- **AN APPROVAL** is refused only where the request waits no longer. -/
theorem approve_refuses {admin : Nat} (hf : S.freshLock = true) (h : l.Clean)
    (hreq : s.HasReq r req) :
    Safe (covering S) i (fun _ _ _ => True) (fun e _ s => DueRefusal r e s)
      (CashoutService.approve r req admin) l s := by
  unfold CashoutService.approve
  rw [Prog.bind_eq]
  refine clean_bind nofun nofun rfl rfl rfl h fun s₁ c₁ found l₂ s₂ hh₁ hm₁ hx₁ h₂ hm₂ => ?_
  have hreq₁ := hreq.continues hm₁
  have hclean₁ : l.walletWrites req.walletId = none := h.wallets _
  cases found with
  | none =>
    -- the wallet of a stored request is there
    obtain ⟨q, hq, hterms⟩ := hreq₁
    have hthere := (hh₁.inv.own r q hq).2
    rw [hterms.wallet] at hthere
    rcases exec_lockWallet hx₁ with ⟨⟨e, he⟩, -⟩ | ⟨-, hn⟩ | ⟨w, he, -⟩
    · cases he
    · rw [(Option.or_eq_none_iff.mp hn).2] at hthere
      cases hthere
    · cases he
  | some wallet =>
    obtain ⟨-, -, hbalance⟩ := exec_lockWallet_stored hf hclean₁ hx₁
    dsimp only
    split
    next hshort =>
      exact safe_raise fun _ _ _ => (actioned_of_short hf hh₁ hreq₁ hbalance hshort).continues hm₂
    · rw [Prog.bind_eq]
      refine Safe.call_bind fun _ s₃ hh₃ hs₃ c₃ hit l₄ s₄ hx₃ _ => ?_
      obtain ⟨-, hx₃⟩ := pricedPlatform_exec hx₃
      have hempty : l₂.OverRequests s₃ := .empty h₂.reqs
      obtain ⟨hkeep, hover⟩ := overRequests_call (e := .approve r admin)
        (o := .updateReq r CashoutService.isRequested (CashoutService.approved admin)) nofun
        (ReqUpdate.approve r admin) hh₃ hempty hx₃
      refine ⟨hkeep, ?_⟩
      rcases exec_updateReq hx₃ with ⟨⟨e, rfl⟩, -⟩ | ⟨rfl, rfl, hmiss⟩ | ⟨q, rfl, -⟩
      · exact dueRefusal_of_call (o := .updateReq r CashoutService.isRequested
          (CashoutService.approved admin)) nofun hx₃
      · -- the row is not `requested`, whoever has taken it further
        obtain ⟨q, hq, -⟩ := (hreq₁.continues hm₂).continues hs₃.rely.continues
        have hread : l₄.req s₃ r = some q := by
          unfold Session.req
          rw [h₂.reqs r, Option.none_or]
          exact hq
        have hacted : s₄.Actioned r := by
          refine World.Actioned.continues ⟨q, hq, fun hw => ?_⟩
            (exec_continues hh₃.session hh₃.world hx₃)
          have hno := hmiss q hread
          unfold CashoutService.isRequested at hno
          rw [hw] at hno
          cases hno
        show Safe (covering S) i _ _ (Prog.bind (call .commit) fun _ => .raise _) l₄ s₄
        refine Safe.call_bind fun _ s₅ hh₅ hs₅ c₅ done l₆ s₆ hx₅ _ => ?_
        obtain ⟨-, hx₅⟩ := pricedPlatform_exec hx₅
        have hcont := exec_continues hh₅.session hh₅.world hx₅
        refine ⟨(overRequests_call (e := .approve r admin) (o := .commit) nofun trivial hh₅
          (.empty h₂.reqs) hx₅).1, ?_⟩
        cases done with
        | error e => exact dueRefusal_of_call (o := .commit) nofun hx₅
        | ok _ =>
          exact fun _ _ _ => (hacted.continues hs₅.rely.continues).continues hcont
      · exact reserve_refuses admin hover

/-- From the start of the request: what it has read of the row is still on its terms. -/
theorem approveBody_refuses {admin : Nat} (hf : S.freshLock = true) (h : l.Clean) :
    Safe (covering S) i (fun _ _ _ => True) (fun e _ s => DueRefusal r e s)
      (body S (.approve r admin)) l s := by
  show Safe (covering S) i _ _ (CashoutService.onRequest r fun req =>
    CashoutService.approve r req admin) l s
  unfold CashoutService.onRequest
  rw [Prog.bind_eq]
  refine clean_bind nofun nofun rfl rfl rfl h fun s₁ c₁ found l₂ s₂ _ _ hx₁ h₂ hm₂ => ?_
  cases found with
  | none => exact safe_ret fun _ => trivial
  | some req =>
    have hreq : s₁.HasReq r req := by
      rcases exec_selectReq hx₁ with ⟨e, he⟩ | ⟨he, -⟩
      · cases he
      · have hread : l.req s₁ r = some req := (Except.ok.inj he).symm
        unfold Session.req at hread
        rw [h.reqs r, Option.none_or] at hread
        exact ⟨req, hread, .refl req⟩
    dsimp only
    rw [Prog.bind_eq]
    refine clean_bind nofun nofun rfl rfl rfl h₂ fun s₃ c₃ _ l₄ s₄ _ hm₃ _ h₄ hm₄ => ?_
    exact approve_refuses hf h₄ (((hreq.continues hm₂).continues hm₃).continues hm₄)

end Approvals

/-- **WHAT APPROVALS PROMISE**: whoever is refused has come too late. -/
theorem covering_promises (hf : S.freshLock = true) :
    (covering S).Promises (fun _ _ => True)
      (fun e l s => ∀ r admin, l.entry = .approve r admin → DueRefusal r e s) where
  body := fun w e hw => by
    refine Safe.tracking (A := fun l : Session => l.entry = e)
      (fun o c l w r l' w' hx hl => ?_) rfl ?_
    · exact (exec_sameEntry (pricedPlatform_exec hx).2).trans hl
    · by_cases he : ∃ r admin, e = .approve r admin
      · obtain ⟨r, admin, rfl⟩ := he
        refine (approveBody_refuses hf ⟨fun _ => rfl, fun _ => rfl, fun _ => rfl⟩).mono
          (fun _ _ _ _ _ _ => trivial) fun e l' s' _ hdue hl r' admin' he' => ?_
        rw [hl] at he'
        cases he'
        exact hdue
      · refine Safe.mono ((covering_sound hf).body w e hw) (fun _ _ _ _ _ _ => trivial)
          fun x l' s' _ _ hl r admin hr => ?_
        exact absurd ⟨r, admin, hl.symm.trans hr⟩ he
  returned := fun _ _ _ _ _ _ _ => trivial
  raised := fun i e l w w' _ hs h r admin hr text ht =>
    (h r admin hr text ht).continues hs.rely.continues

end Orbyt
