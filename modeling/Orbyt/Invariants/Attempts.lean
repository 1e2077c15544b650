/-
  Orbyt.Invariants.Attempts — how often a settlement is taken up

  A row goes round a retry loop: a claim counts an attempt, a worker hands it back while
  attempts are left, and an admin's retry starts the count again.  The worker hands back
  what it has read, not what is stored: that the two agree is where its time limit comes in.

  What a program has come to is a typestate: whether it has written a row, and what of its
  own claim a worker has read.  Nothing is assumed of ledger, queue or database; workers are
  punctual.

  Main results:
    * `body_attempting` — every program follows the typestate;
    * `attempting_reach` — in every reachable state what is queued has an attempt left;
    * `round_step` — each step takes a row along the loop, or is an admin's retry.
-/
import Orbyt.Invariants.Lifecycle
import Orbyt.Invariants.Retrying
import Orbyt.Lib.RetryLoop
import Orbyt.Lib.Typestate

namespace Orbyt

open Interleave
open Interleave.Prog
open RetryLoop
open Function (update)
open SettlementWorker (claimable claimed isIn completed failed requeued remembered maxAttempts
  retryDelays)
open CashinService (isPending received cashinFailed isStale expired isUntouched retired flaggedAs)

variable {S : Setting} {i k t T n : Nat} {o : Op} {c : Choice} {l l' : Session} {s s' : World}
  {e : Entry} {x x' : Txn}

/-! ## §1. Rounds. -/

def SettlementStatus.phase : SettlementStatus → Phase
  | .notQueued => .idle
  | .queued => .queued
  | .processing => .running
  | .completed => .completed
  | .failed => .failed

/-- Where a row stands on the loop. -/
def Txn.round (x : Txn) : RetryLoop.State := ⟨x.settlementStatus.phase, x.settlementAttempts⟩

def roundOf : Option Txn → RetryLoop.State
  | none => ⟨.absent, 0⟩
  | some x => x.round

theorem phase_inj {a b : SettlementStatus} (h : a.phase = b.phase) : a = b := by
  cases a <;> cases b <;> first | rfl | cases h

theorem Txn.round_mk {a : SettlementStatus} (hs : x.settlementStatus = a)
    (hn : x.settlementAttempts = n) : x.round = ⟨a.phase, n⟩ := by
  unfold Txn.round
  rw [hs, hn]

theorem Txn.round_status {a : SettlementStatus} (h : x.round = ⟨a.phase, n⟩) :
    x.settlementStatus = a := phase_inj (congrArg State.phase h)

theorem Txn.same_status (h : x'.round = x.round) : x'.settlementStatus = x.settlementStatus :=
  phase_inj (congrArg State.phase h)

/-- What may be made of a row by someone who does not hold it: whoever does is not taken its
row from, unless it is settled. -/
def Txn.Nudged (x x' : Txn) : Prop :=
  x'.round = x.round ∨
    (Step maxAttempts x.round x'.round ∧ x'.settlementStatus ≠ .processing ∧
      (x.settlementStatus = .processing → x'.settlementStatus = .completed))

/-- Whoever holds the row keeps it. -/
theorem Txn.Nudged.spares (hn : x.Nudged x')
    (hrunning : x.round = ⟨.running, n⟩ ∨ x.settlementStatus = .completed) :
    x'.round = ⟨.running, n⟩ ∨ x'.settlementStatus = .completed := by
  rcases hn with hround | ⟨hstep, -, hsettles⟩
  · rw [hround, Txn.same_status hround]
    exact hrunning
  · rcases hrunning with hrunning | hdone
    · exact .inr (hsettles (Txn.round_status (a := .processing) hrunning))
    · rw [Txn.round_mk hdone rfl] at hstep
      cases hstep

theorem failed_nudged {reason : String} {txHash : Option Nat} {now : Nat}
    (h : isIn [.queued] x = true) : x.Nudged (failed reason txHash now x) := by
  have hs : x.settlementStatus = .queued := by simpa using isIn_iff.mp h
  refine .inr ⟨?_, nofun, fun hp => ?_⟩
  · rw [Txn.round_mk hs rfl]
    exact .drop _
  · rw [hs] at hp
    cases hp

theorem received_nudged {reviewer : Option Nat} {now : Nat} (hp : x.Paired)
    (h : isPending x = true) : x.Nudged (received reviewer now x) := by
  have hpending : x.cashinStatus = .pending := by simpa [isPending] using h
  have hs : x.settlementStatus = .notQueued := hp.notQueued (by rw [hpending]; decide)
  refine .inr ⟨?_, (by intro hq; cases hq), fun hp => ?_⟩
  · rw [Txn.round_mk hs rfl]
    exact .enter _
  · rw [hs] at hp
    cases hp

/-- Recording what the ledger has paid. -/
theorem reconciled_nudged {status : SettlementStatus} {txHash : Option Nat} {now : Nat}
    (hst : status = .failed ∨ status = .processing) (h : isIn [status] x = true) :
    x.Nudged (completed txHash now x) := by
  have hs : x.settlementStatus = status := by simpa using isIn_iff.mp h
  refine .inr ⟨?_, nofun, fun _ => rfl⟩
  rw [Txn.round_mk hs rfl]
  rcases hst with rfl | rfl
  · exact .reconcile _
  · exact .complete _

/-! ## §2. What every stored row satisfies. -/

/-- The row of `t` is under the claim of `i` at `T`, in its `n`-th attempt. -/
def World.InHand (s : World) (i T t n : Nat) : Prop :=
  s.txnOwner t = some (i, T) ∧ ∃ x, s.txns t = some x ∧ x.round = ⟨.running, n⟩

/-- The same, or it has been settled by a reconciliation meanwhile. -/
def World.Kept (s : World) (i T t n : Nat) : Prop :=
  s.InHand i T t n ∨ ∃ x, s.txns t = some x ∧ x.settlementStatus = .completed

/-- A claim is not younger than its row. -/
structure Txn.Counted (s : World) (t : Nat) (x : Txn) : Prop where
  stamp : x.updatedAt ≤ s.clock
  ok : x.round.Ok maxAttempts
  owner : ∀ k T, s.txnOwner t = some (k, T) → x.settlementStatus = .processing ∧ T ≤ x.updatedAt

def World.Counted (s : World) : Prop := ∀ t x, s.txns t = some x → x.Counted s t

theorem World.Counted.of_same (h : s.Counted) (hclock : s.clock ≤ s'.clock)
    (ht : s'.txns = s.txns) (ho : s'.txnOwner = s.txnOwner) : s'.Counted := by
  intro t x hx
  rw [ht] at hx
  have hc := h t x hx
  refine ⟨Nat.le_trans hc.stamp hclock, hc.ok, ?_⟩
  rw [ho]
  exact hc.owner

theorem World.Counted.roundOk (h : s.Counted) (t : Nat) : (roundOf (s.txns t)).Ok maxAttempts := by
  cases hx : s.txns t with
  | none => exact State.Ok.start (by decide)
  | some x => exact (h t x hx).ok

theorem World.Kept.of_eq (h : s.Kept i T t n) (ht : s'.txns t = s.txns t)
    (ho : s'.txnOwner t = s.txnOwner t) : s'.Kept i T t n := by
  unfold World.Kept World.InHand
  rw [ht, ho]
  exact h

/-! ## §3. What a session has written. -/

/-- The row `x'` that `i` has written over `t`: it is further along the loop, or an admin's
retry has started it again, and whoever holds the row keeps it. -/
structure Session.Turn (i : Nat) (l : Session) (s : World) (t : Nat) (x' : Txn) : Prop where
  stamp : x'.updatedAt ≤ s.clock
  later : ∀ x, s.txns t = some x → x.updatedAt ≤ x'.updatedAt
  moves : Run maxAttempts (roundOf (s.txns t)) ((l.settlementLog t).map (·.phase)) x'.round ∨
    (l.entry = .settlementRetry t ∧ x'.round = ⟨.queued, 0⟩ ∧
      ∃ x, s.txns t = some x ∧ (x.settlementStatus = .failed ∨ x.settlementStatus = .processing))
  spares : ∀ k T n, k ≠ i → s.InHand k T t n → s.clock ≤ T + jobTimeout →
    x'.round = ⟨.running, n⟩ ∨ x'.settlementStatus = .completed

/-- Everything a session has written. -/
def Session.Turns (i : Nat) (l : Session) (s : World) : Prop :=
  ∀ t x', l.txnWrites t = some x' → l.Turn i s t x'

theorem Session.Turn.of_same (h : l.Turn i s t x') (hclock : s.clock ≤ s'.clock)
    (ht : s'.txns t = s.txns t) (ho : s'.txnOwner t = s.txnOwner t) : l.Turn i s' t x' where
  stamp := Nat.le_trans h.stamp hclock
  later := by rw [ht]; exact h.later
  moves := by rw [ht]; exact h.moves
  spares := fun k T n hk hhand hle => by
    have hhand' : s.InHand k T t n := by
      unfold World.InHand at hhand ⊢
      rw [ht, ho] at hhand
      exact hhand
    exact h.spares k T n hk hhand' (Nat.le_trans hclock hle)

/-- The rows it has written are locked. -/
theorem Session.Turns.of_others (h : l.Turns i s) (hl : l.Locked i s) (ho : Others i s s') :
    l.Turns i s' := by
  intro t x' hw
  obtain ⟨-, ht, -, -, howner⟩ := ho.txnLock t (hl.txns t x' hw).1
  exact (h t x' hw).of_same ho.clock ht howner

theorem Session.Turns.none (h : ∀ t, l.txnWrites t = none) : l.Turns i s := by
  intro t x' hw
  rw [h t] at hw
  cases hw

/-- What is settled stays so. -/
theorem Run.of_completed {log : List Phase} {b : RetryLoop.State}
    (h : Run maxAttempts ⟨.completed, n⟩ log b) : b = ⟨.completed, n⟩ := by
  induction h with
  | refl => rfl
  | step _ hs ih =>
    subst ih
    cases hs

theorem Session.Turn.completed (h : l.Turn i s t x') (hx : s.txns t = some x)
    (hc : x.settlementStatus = .completed) : x'.settlementStatus = .completed := by
  rcases h.moves with hrun | ⟨-, -, y, hy, hst⟩
  · rw [hx] at hrun
    have hstart : roundOf (some x) = ⟨.completed, x.settlementAttempts⟩ := Txn.round_mk hc rfl
    rw [hstart] at hrun
    exact Txn.round_status (a := .completed) (Run.of_completed hrun)
  · obtain rfl : x = y := Option.some.inj (hx.symm.trans hy)
    rw [hc] at hst
    rcases hst with hst | hst <;> cases hst

/-- A row stays in hand past a COMMIT that leaves it there, or settles it. -/
theorem World.Kept.commit_of (hkept : s.Kept k T t n)
    (hw : ∀ x', l.txnWrites t = some x' →
      (s.InHand k T t n → x'.round = ⟨.running, n⟩ ∨ x'.settlementStatus = .completed) ∧
      ∀ x, s.txns t = some x → x.settlementStatus = .completed → x'.settlementStatus = .completed) :
    (s.commit i l).Kept k T t n := by
  cases hwt : l.txnWrites t with
  | none =>
    refine hkept.of_eq ?_ (commit_txnOwner hwt)
    show (l.txnWrites t).or (s.txns t) = s.txns t
    rw [hwt]
    rfl
  | some x' =>
    obtain ⟨hspares, hsettled⟩ := hw x' hwt
    have hstored : (s.commit i l).txns t = some x' := by
      show (l.txnWrites t).or (s.txns t) = some x'
      rw [hwt]
      rfl
    rcases hkept with hhand | ⟨x, hx, hc⟩
    · rcases hspares hhand with hround | hc
      · obtain ⟨howner, x, hx, hrunning⟩ := hhand
        have hp : x.settlementStatus = .processing := Txn.round_status (a := .processing) hrunning
        have hp' : x'.settlementStatus = .processing := Txn.round_status (a := .processing) hround
        refine .inl ⟨?_, x', hstored, hround⟩
        have hold : (some x).map (·.settlementStatus) = some .processing := congrArg some hp
        rw [commit_txnOwner_written hwt, hx]
        unfold ownerAfter
        rw [if_pos hp', if_pos hold]
        exact howner
      · exact .inr ⟨x', hstored, hc⟩
    · exact .inr ⟨x', hstored, hsettled x hx hc⟩

section Commit

variable (h : s.Counted) (hw : l.Turns i s)

include h hw

/-- **COMMIT** stores rows that have an attempt left where they are queued. -/
theorem World.Counted.commit : (s.commit i l).Counted := by
  intro t y hy
  cases hwt : l.txnWrites t with
  | none =>
    have hst : s.txns t = some y := by
      rcases Session.txn_cases (show l.txn s t = some y from hy) with hw' | ⟨-, hst⟩
      · rw [hwt] at hw'
        cases hw'
      · exact hst
    have hc := h t y hst
    refine ⟨hc.stamp, hc.ok, ?_⟩
    rw [commit_txnOwner hwt]
    exact hc.owner
  | some x' =>
    obtain rfl : x' = y := by
      have hread : l.txn s t = some y := hy
      unfold Session.txn at hread
      rw [hwt] at hread
      exact Option.some.inj hread
    have hturn := hw t x' hwt
    refine ⟨hturn.stamp, ?_, ?_⟩
    · rcases hturn.moves with hrun | ⟨-, hround, -⟩
      · exact hrun.ok (h.roundOk t)
      · rw [hround]
        exact ⟨fun _ => by decide, Nat.zero_le _⟩
    · rw [commit_txnOwner_written hwt]
      unfold ownerAfter
      intro k T hT
      split at hT
      next hp =>
        refine ⟨hp, ?_⟩
        split at hT
        next hold =>
          -- whoever held the row holds it on
          cases hst : s.txns t with
          | none => rw [hst] at hold; cases hold
          | some x => exact Nat.le_trans ((h t x hst).owner k T hT).2 (hturn.later x hst)
        next =>
          cases hT
          exact Nat.le_refl _
      next => cases hT

omit h in
/-- **THE OTHERS KEEP THEIR ROWS**. -/
theorem World.Kept.commit (hk : k ≠ i) (hkept : s.Kept k T t n) (hle : s.clock ≤ T + jobTimeout) :
    (s.commit i l).Kept k T t n :=
  hkept.commit_of fun x' hwt =>
    ⟨fun hhand => (hw t x' hwt).spares k T n hk hhand hle,
      fun _ hx hc => (hw t x' hwt).completed hx hc⟩

end Commit

/-! ## §4. What a program has come to. -/

inductive Hold where
  /-- Nothing is written. -/
  | free
  /-- A settlement's claim has matched and is not committed. -/
  | hit
  | taken
  /-- The claimed row has been read, in this attempt; what is written since leaves it there. -/
  | read (attempts : Nat)
  /-- Something is written that is to be committed next. -/
  | wrote
  deriving Repr, DecidableEq

structure Lap where
  entry : Entry
  life : Life
  /-- The last clock read. -/
  clock : Nat
  hold : Hold

def Lap.initial (e : Entry) : Lap := ⟨e, .live, 0, .free⟩

/-- Only a settlement's first write is a claim. -/
def Entry.firstWrite : Entry → Hold
  | .settle _ => .hit
  | _ => .wrote

theorem Entry.firstWrite_wrote (he : ∀ t, e ≠ .settle t) : e.firstWrite = .wrote := by
  cases e with
  | settle t => exact absurd rfl (he t)
  | _ => rfl

/-- The write leaves every row where it is on the loop. -/
def StaysPut (values : Nat → Txn → Txn) : Prop := ∀ now x, (values now x).round = x.round

open Classical in
noncomputable def Lap.holdAfter (q : Lap) : (o : Op) → Except Exn o.Res → Hold
  | .updateTxn _ _ values, .ok true =>
      match q.hold with
      | .free => q.entry.firstWrite
      | .read n => if StaysPut values then .read n else .wrote
      | h => h
  | .updateTxns _ _, .ok _ | .insertTxn _, .ok _ => .wrote
  | .commit, .ok _ =>
      match q.hold with
      | .hit => .taken
      | .wrote => .free
      | h => h
  | .selectTxn t, .ok (some txn) =>
      match q.hold with
      | .taken => if q.entry = .settle t then .read txn.settlementAttempts else .taken
      | h => h
  | _, _ => q.hold

def Lap.clockAfter (q : Lap) : (o : Op) → Except Exn o.Res → Nat
  | .now, .ok n => max q.clock n
  | _, _ => q.clock

theorem Lap.holdAfter_select {t : Nat} (q : Lap) (r : Except Exn (Option Txn))
    (hq : q.hold ≠ .taken) : q.holdAfter (.selectTxn t) r = q.hold := by
  cases r with
  | error e => rfl
  | ok found =>
    cases found with
    | none => rfl
    | some txn =>
      cases hh : q.hold with
      | taken => exact absurd hh hq
      | free | hit | read n | wrote => simp only [Lap.holdAfter, hh]

noncomputable def Lap.next (q : Lap) (o : Op) (r : Except Exn o.Res) : Lap where
  entry := q.entry
  life := q.life.next o r
  clock := q.clockAfter o r
  hold := q.holdAfter o r

/-- An admin's retry is due: the row had failed, or was old at a time that has been read. -/
def Txn.Ripe (txn : Txn) (asked : Nat) : Prop :=
  txn.settlementStatus = .failed ∨
    (txn.settlementStatus = .processing ∧ txn.updatedAt + CashinService.stuckAfter ≤ asked)

theorem Txn.Ripe.later {txn : Txn} {asked asked' : Nat} (h : txn.Ripe asked)
    (hle : asked ≤ asked') :
    txn.Ripe asked' :=
  h.imp id fun ⟨hs, ht⟩ => ⟨hs, Nat.le_trans ht hle⟩

/-- The UPDATEs that a program makes where it has come to. -/
inductive Lap.Writes (q : Lap) (t : Nat) (cond : Txn → Bool) (values : Nat → Txn → Txn) :
    Prop where
  | claim (he : q.entry = .settle t) (hq : q.hold = .free) (hc : cond = claimable)
      (hv : values = claimed)
  | stay {n : Nat} (he : q.entry = .settle t) (hq : q.hold = .read n) (hv : StaysPut values)
  | leave {n : Nat} (he : q.entry = .settle t) (hq : q.hold = .read n)
      (hc : cond = isIn [.processing])
      (hv : ∀ now x, x.round = ⟨.running, n⟩ → Step maxAttempts x.round (values now x).round)
  | nudge (he : ∀ t, q.entry ≠ .settle t) (hq : q.hold = .free)
      (hv : ∀ now x, x.Paired → cond x = true → x.Nudged (values now x))
  | retire {txn : Txn} (he : q.entry = .settlementRetry t) (hq : q.hold = .free)
      (hc : cond = isUntouched txn) (hv : values = retired txn) (hr : txn.Ripe q.clock)

/-- A settlement publishes its retry with the delay of its attempt. -/
def Delayed (delays : List Nat) (delay : Nat) : Prop :=
  ∃ n, n < maxAttempts ∧ delays[max n 1 - 1]? = some delay

def Lap.orderly (q : Lap) : Op → Prop
  | .updateTxn t cond values =>
      q.Writes t cond values ∧ ∀ now x, (values now x).updatedAt = now
  | .updateTxns cond values =>
      q.hold = .free ∧ (∀ t, q.entry ≠ .settle t) ∧
        ∀ now x, x.Paired → cond x = true → x.Nudged (values now x) ∧ (values now x).updatedAt = now
  | .insertTxn row =>
      (q.hold = .free ∨ q.hold = .wrote) ∧ (∀ t, q.entry ≠ .settle t) ∧
        ∀ key now, (row key now).round = ⟨.idle, 0⟩ ∧ (row key now).updatedAt = now
  | .updateReq _ _ _ | .insertReq _ => ∀ t, q.entry ≠ .settle t
  | .enqueueIn delay _ => ∀ t, q.entry = .settle t → Delayed retryDelays delay
  | _ => True

/-- A settlement whose session has failed publishes no retry: the row is handed back first. -/
def Lap.allows (q : Lap) (o : Op) : Prop :=
  match q.life with
  | .live => q.orderly o
  | .failed => ∀ t, q.entry = .settle t → o.isDelayed = false
  | .void => True

noncomputable def attempting : Typestate calls Exn := ⟨Lap, Lap.allows, Lap.next⟩

/-! ## §5. Every program follows it. -/

variable {q : Lap} {h H : Hold} {asked : Nat} {α β : Type} {p : Program α}

theorem Lap.clock_le (q : Lap) (o : Op) (r : Except Exn o.Res) : q.clock ≤ q.clockAfter o r := by
  unfold Lap.clockAfter
  split
  · exact Nat.le_max_left _ _
  · exact Nat.le_refl _

/-- A program of `e` has come to `h`, past the clock reading `asked`, unless it has failed. -/
structure Lap.At (q : Lap) (e : Entry) (h : Hold) (asked : Nat) : Prop where
  entry : q.entry = e
  hold : q.life = .live → q.hold = h
  clock : q.life = .live → asked ≤ q.clock

theorem Lap.At.initial (e : Entry) : (Lap.initial e).At e .free 0 :=
  ⟨rfl, fun _ => rfl, fun _ => Nat.zero_le _⟩

theorem Lap.At.moves (hq : q.At e h asked) {r : Except Exn o.Res}
    (hh : q.entry = e → q.hold = h → q.holdAfter o r = H) : (q.next o r).At e H asked where
  entry := hq.entry
  hold := fun hl => hh hq.entry (hq.hold (Life.next_live hl))
  clock := fun hl => Nat.le_trans (hq.clock (Life.next_live hl)) (q.clock_le o r)

theorem Lap.At.allowed (hq : q.At e h asked) (hd : o.isDelayed = false ∨ ∀ t, e ≠ .settle t)
    (ho : q.entry = e → q.hold = h → asked ≤ q.clock → q.orderly o) : q.allows o := by
  unfold Lap.allows
  split
  next hl => exact ho hq.entry (hq.hold hl) (hq.clock hl)
  next =>
    intro t he
    rcases hd with hd | hd
    · exact hd
    · exact absurd (hq.entry.symm.trans he) (hd t)
  next => trivial

/-- The calls that write no send and no cash-out, and publish no retry. -/
def Op.Quiet : Op → Prop
  | .updateTxn _ _ _ | .updateTxns _ _ | .insertTxn _ | .updateReq _ _ _ | .insertReq _
  | .enqueueIn _ _ => False
  | _ => True

theorem basic_quiet : ∀ o : Op, o.isBasic = true → o.Quiet := by
  intro o ho
  cases o <;> trivial

theorem Op.Quiet.orderly (ho : o.Quiet) (q : Lap) : q.orderly o := by
  cases o <;> trivial

theorem Op.Quiet.notDelayed (ho : o.Quiet) : o.isDelayed = false := by
  cases o <;> first | rfl | exact ho.elim

/-- The states that quiet calls leave as they are. -/
def Hold.Steady (h : Hold) : Prop := h = .free ∨ ∃ n, h = .read n

theorem Op.Quiet.stays (ho : o.Quiet) (hs : h.Steady) (hh : q.hold = h) (r : Except Exn o.Res) :
    q.holdAfter o r = h := by
  cases o <;> first | exact ho.elim | skip
  case commit =>
    cases r with
    | error e => exact hh
    | ok _ =>
      rcases hs with rfl | ⟨n, rfl⟩
      · simp only [Lap.holdAfter, hh]
      · simp only [Lap.holdAfter, hh]
  case selectTxn t =>
    refine (q.holdAfter_select r ?_).trans hh
    rw [hh]
    rcases hs with rfl | ⟨n, rfl⟩ <;> nofun
  all_goals exact hh

/-- What is written goes with COMMIT. -/
theorem Op.Quiet.afterWrote (ho : o.Quiet) (hh : q.hold = .wrote) (r : Except Exn o.Res) :
    q.holdAfter o r = .free ∨ q.holdAfter o r = .wrote := by
  cases o <;> first | exact ho.elim | skip
  case commit =>
    cases r with
    | error e => exact .inr hh
    | ok _ => exact .inl (by simp only [Lap.holdAfter, hh])
  case selectTxn t =>
    refine .inr ((q.holdAfter_select r ?_).trans hh)
    rw [hh]
    nofun
  all_goals exact .inr hh

theorem quiet_at (ho : o.Quiet) (hs : h.Steady) (hq : q.At e h asked) :
    q.allows o ∧ ∀ r, (q.next o r).At e h asked :=
  ⟨hq.allowed (.inl ho.notDelayed) fun _ _ _ => ho.orderly q,
    fun r => hq.moves fun _ hh => ho.stays hs hh r⟩

theorem quiet_follows (hu : Uses Op.Quiet p) (hs : h.Steady) (hq : q.At e h asked) :
    Follows attempting (fun _ q' => q'.At e h asked) (fun _ q' => q'.At e h asked) p q :=
  Follows.of_uses (A := attempting) (F := Op.Quiet) (I := fun q => q.At e h asked)
    (fun _ _ ho hq => quiet_at ho hs hq) hu hq

theorem quiet_end (hu : Uses Op.Quiet p) : FollowsEnd attempting p q := by
  refine Follows.of_uses (A := attempting) (F := Op.Quiet) (I := fun _ => True) ?_ hu trivial
  intro o q ho _
  refine ⟨?_, fun _ => trivial⟩
  show q.allows o
  unfold Lap.allows
  split
  · exact ho.orderly q
  · exact fun _ _ => ho.notDelayed
  · trivial

/-- A write, and whatever quiet calls follow it. -/
theorem write_end {t : Nat} {cond : Txn → Bool} {values : Nat → Txn → Txn} {f : Bool → Program α}
    (hq : q.At e h asked)
    (hw : q.entry = e → q.hold = h → asked ≤ q.clock → q.Writes t cond values)
    (hv : ∀ now x, (values now x).updatedAt = now) (hf : ∀ hit, Uses Op.Quiet (f hit)) :
    FollowsEnd attempting (Prog.bind (call (.updateTxn t cond values)) f) q := by
  refine Follows.call_bind (A := attempting) ?_ (fun hit => quiet_end (hf hit)) fun _ => trivial
  exact hq.allowed (.inl rfl) fun he hh hc => ⟨hw he hh hc, hv⟩

theorem failSettlement_end {t : Nat} {reason : String} {txHash : Option Nat}
    {statuses : List SettlementStatus} {f : Bool → Program α} (hq : q.At e h asked)
    (hw : q.entry = e → q.hold = h → asked ≤ q.clock →
      q.Writes t (isIn statuses) (failed reason txHash)) (hf : ∀ done, Uses Op.Quiet (f done)) :
    FollowsEnd attempting
      (Prog.bind (SettlementWorker.failSettlement t reason txHash statuses) f) q := by
  unfold SettlementWorker.failSettlement
  simp only [Prog.bind_eq, Prog.bind_assoc]
  refine write_end hq hw (fun _ _ => rfl) fun hit => uses_bind ?_ hf
  split
  · exact uses_bind (uses_call trivial) fun _ => uses_bind (uses_call trivial) fun _ => trivial
  · exact uses_bind (uses_call trivial) fun _ => trivial

theorem completeSettlement_end {t : Nat} {txn : Txn} {txHash : Option Nat}
    {statuses : List SettlementStatus} {f : Bool → Program α} (hq : q.At e h asked)
    (hw : q.entry = e → q.hold = h → asked ≤ q.clock →
      q.Writes t (isIn statuses) (completed txHash)) (hf : ∀ done, Uses Op.Quiet (f done)) :
    FollowsEnd attempting
      (Prog.bind (SettlementWorker.completeSettlement t txn txHash statuses) f) q := by
  unfold SettlementWorker.completeSettlement
  simp only [Prog.bind_eq, Prog.bind_assoc]
  refine write_end hq hw (fun _ _ => rfl) fun hit => uses_bind ?_ hf
  split
  · refine uses_bind (uses_lockRecipientWallet basic_quiet) fun wallet => uses_bind ?_ fun _ =>
      uses_bind (uses_call trivial) fun _ => uses_bind (uses_call trivial) fun _ => trivial
    cases wallet with
    | none => trivial
    | some w => exact uses_call trivial
  · exact uses_bind (uses_call trivial) fun _ => trivial

/-! ### The settlement worker. -/

section Worker

variable {t : Nat} {txn : Txn}

/-- The claimed row, once it is read. -/
theorem claim_follows (hq : q.At (.settle t) .free 0) :
    Follows attempting
      (fun found q' => ∀ txn, found = some txn →
        q'.At (.settle t) (.read txn.settlementAttempts) 0)
      (fun _ _ => True) (SettlementWorker.claim t) q := by
  unfold SettlementWorker.claim
  refine Follows.call_bind (A := attempting) ?_ (fun hit => ?_) fun _ => trivial
  · exact hq.allowed (.inl rfl) fun he hh _ => ⟨.claim he hh rfl rfl, fun _ _ => rfl⟩
  cases hit with
  | false =>
    have hfree : (attempting.next q (.updateTxn t claimable claimed) (.ok false)).At (.settle t)
        .free 0 := hq.moves fun _ hh => hh
    refine Follows.call_bind (A := attempting) ?_ (fun _ txn hf => ?_) fun _ => trivial
    · exact hfree.allowed (.inl rfl) fun _ _ _ => trivial
    · cases hf
  | true =>
    have hhit : (attempting.next q (.updateTxn t claimable claimed) (.ok true)).At (.settle t)
      .hit 0 :=
      hq.moves fun he hh => by simp only [Lap.holdAfter, hh, he, Entry.firstWrite]
    refine Follows.call_bind (A := attempting) ?_ (fun _ => ?_) fun _ => trivial
    · exact hhit.allowed (.inl rfl) fun _ _ _ => trivial
    have htaken := hhit.moves (o := .commit) (r := .ok ()) (H := .taken)
      fun _ hh => by simp only [Lap.holdAfter, hh]
    unfold SettlementWorker.reload
    refine Follows.bind (R := fun txn (q' : Lap) =>
      q'.At (.settle t) (.read txn.settlementAttempts) 0) ?_ fun txn q' hread => ?_
    · refine Follows.call_bind (A := attempting) ?_ (fun found => ?_) fun _ => trivial
      · exact htaken.allowed (.inl rfl) fun _ _ _ => trivial
      cases found with
      | none => exact trivial
      | some txn => exact htaken.moves fun he hh => by simp only [Lap.holdAfter, hh, he, if_true]
    · intro txn' he
      cases he
      exact hread

/-- The worker signs, stores and submits for the row as it has read it. -/
theorem pay_follows {u n : Nat} (hq : q.At (.settle t) (.read n) 0) :
    Follows attempting (fun _ q' => q'.At (.settle t) (.read n) 0)
      (fun _ q' => q'.At (.settle t) (.read n) 0) (SettlementWorker.pay t u txn) q := by
  refine Follows.of_uses (A := attempting)
    (F := fun o => o.Quiet ∨ ∃ signed, o = .updateTxn t (fun _ => true) (remembered signed))
    (I := fun q => q.At (.settle t) (.read n) 0) (fun o q ho hq => ?_)
    (uses_pay (fun o ho => .inl (basic_quiet o ho)) (fun signed => .inr ⟨signed, rfl⟩)
      fun o hw hd hmay => .inl ?_) hq
  · rcases ho with ho | ⟨signed, rfl⟩
    · exact quiet_at ho (.inr ⟨n, rfl⟩) hq
    · have hstay : StaysPut (remembered signed) := fun _ _ => rfl
      refine ⟨hq.allowed (.inl rfl) fun he hh _ => ⟨.stay he hh hstay, fun _ _ => rfl⟩, fun r => ?_⟩
      refine hq.moves fun _ hh => ?_
      cases r with
      | error e => exact hh
      | ok hit =>
        cases hit with
        | false => exact hh
        | true => simp only [Lap.holdAfter, hh, if_pos hstay]
  · cases o with
    | updateTxn t' cond values => cases hw
    | updateTxns cond values => cases hw
    | insertTxn row => cases hw
    | enqueueIn delay m => cases hd
    | updateReq r cond values =>
      have hreq : ReqUpdate (.settle t) r cond values := hmay
      cases hreq
    | insertReq row =>
      obtain ⟨form, pricing, he, -⟩ := hmay
      cases he
    | _ => trivial

theorem Lap.At.leaves {n : Nat} {values : Nat → Txn → Txn}
    (hv : ∀ now x, x.round = ⟨.running, n⟩ → Step maxAttempts x.round (values now x).round) :
    q.entry = .settle t → q.hold = .read n → 0 ≤ q.clock → q.Writes t (isIn [.processing]) values :=
  fun he hh _ => .leave he hh rfl hv

/-- Failing ends an attempt. -/
theorem failSettlement_leaves {n : Nat} {reason : String} {txHash : Option Nat}
    {f : Bool → Program α}
    (hq : q.At (.settle t) (.read n) 0) (hf : ∀ done, Uses Op.Quiet (f done)) :
    FollowsEnd attempting
      (Prog.bind (SettlementWorker.failSettlement t reason txHash [.processing]) f) q := by
  refine failSettlement_end hq (Lap.At.leaves fun now x hx => ?_) hf
  rw [hx]
  have hn : x.settlementAttempts = n := congrArg State.attempts hx
  rw [Txn.round_mk (x := failed reason txHash now x) rfl hn]
  exact .fail n

/-- While attempts are left the delay is that of the attempt. -/
theorem delayed_of_lt {n : Nat} (hn : n < maxAttempts) :
    Delayed retryDelays (retryDelays.getD (min (max n 1 - 1) 2) 0) := by
  have hcases : n = 0 ∨ n = 1 ∨ n = 2 := by
    have hlt : n < 3 := hn
    omega
  rcases hcases with rfl | rfl | rfl <;> exact ⟨_, hn, rfl⟩

/-- **HANDING BACK**: only with an attempt left, and with the delay of this attempt. -/
theorem retryOrFail_end {reason : String}
    (hq : q.At (.settle t) (.read txn.settlementAttempts) 0) :
    FollowsEnd attempting (SettlementWorker.retryOrFail t txn reason) q := by
  unfold SettlementWorker.retryOrFail
  split
  · exact failSettlement_leaves hq fun _ => trivial
  next hleft =>
    have hlt : txn.settlementAttempts < maxAttempts := Nat.lt_of_not_le hleft
    refine Follows.call_bind (A := attempting) ?_ (fun hit => ?_) fun _ => trivial
    · refine hq.allowed (.inl rfl) fun he hh hc => ⟨Lap.At.leaves (fun now x hx => ?_) he hh hc,
        fun _ _ => rfl⟩
      rw [hx]
      have hn : x.settlementAttempts = txn.settlementAttempts := congrArg State.attempts hx
      rw [Txn.round_mk (x := requeued reason now x) rfl hn]
      exact .handBack _ hlt
    split
    · -- COMMIT has answered by the time the retry is published
      refine Follows.call_bind (A := attempting) ?_ (fun _ => ?_) fun _ => trivial
      · exact (hq.moves (H := _) fun _ _ => rfl).allowed (.inl rfl) fun _ _ _ => trivial
      refine Follows.call_bind (A := attempting) ?_ (fun _ => ?_) fun _ => trivial
      · exact ((hq.moves (H := _) fun _ _ => rfl).moves (H := _) fun _ _ => rfl).allowed (.inl rfl)
          fun _ _ _ => trivial
      refine Follows.call_bind (A := attempting) ?_ (fun _ => trivial) fun _ => trivial
      show Lap.allows _ _
      unfold Lap.allows
      split
      · exact fun _ _ => delayed_of_lt hlt
      next hlife => exact absurd hlife (Life.answered rfl)
      · trivial
    · exact quiet_end (uses_bind (uses_call trivial) fun _ => trivial)

theorem settleClaimed_attempting (hq : q.At (.settle t) (.read txn.settlementAttempts) 0) :
    FollowsEnd attempting (SettlementWorker.settleClaimed t txn) q := by
  unfold SettlementWorker.settleClaimed
  refine Follows.bind ((quiet_follows (uses_getRecipient basic_quiet) (.inr ⟨_, rfl⟩) hq).mono
    (fun _ _ h => h) fun _ _ _ => trivial) fun recipient q₁ hq₁ => ?_
  cases recipient with
  | none => exact failSettlement_leaves hq₁ fun _ => trivial
  | some u =>
    refine Follows.attempt_bind (A := attempting) (pay_follows hq₁) ?_ ?_
    · intro result q₂ hq₂
      show FollowsEnd attempting (SettlementWorker.onResult t txn result) q₂
      unfold SettlementWorker.onResult
      cases result.resolution with
      | succeeded =>
        refine completeSettlement_end hq₂ (Lap.At.leaves fun now x hx => ?_) fun _ => trivial
        rw [hx]
        have hn : x.settlementAttempts = txn.settlementAttempts := congrArg State.attempts hx
        rw [Txn.round_mk (x := completed result.txHash now x) rfl hn]
        exact .complete _
      | notSubmitted => exact retryOrFail_end hq₂
      | unknown | failed => exact failSettlement_leaves hq₂ fun _ => trivial
    · intro exc q₂ hq₂
      show FollowsEnd attempting (SettlementWorker.onException t txn exc) q₂
      unfold SettlementWorker.onException
      split
      · exact failSettlement_leaves hq₂ fun _ => trivial
      · refine Follows.call_bind (A := attempting) ?_ (fun signed => ?_) fun _ => trivial
        · exact hq₂.allowed (.inl rfl) fun _ _ _ => trivial
        have hq₃ : (attempting.next q₂ .getSignedHash (.ok signed)).At (.settle t)
            (.read txn.settlementAttempts) 0 := hq₂.moves fun _ hh => hh
        cases signed with
        | some k => exact failSettlement_leaves hq₃ fun _ => trivial
        | none => exact retryOrFail_end hq₃

theorem processSettlement_end :
    FollowsEnd attempting (SettlementWorker.processSettlement t) (Lap.initial (.settle t)) := by
  rw [processSettlement_eq]
  refine Follows.bind (claim_follows (Lap.At.initial _)) fun found q₁ hq₁ => ?_
  cases found with
  | none => exact trivial
  | some txn => exact settleClaimed_attempting (hq₁ txn rfl)

end Worker

/-! ### The requests. -/

section Requests

variable {t : Nat}

/-- An UPDATE, its COMMIT, and what depends on whether it has matched. -/
theorem write_commit_end {cond : Txn → Bool} {values : Nat → Txn → Txn} {f : Bool → Program α}
    (hs : ∀ t, e ≠ .settle t) (hq : q.At e .free asked)
    (hw : q.entry = e → q.hold = .free → asked ≤ q.clock → q.Writes t cond values)
    (hv : ∀ now x, (values now x).updatedAt = now)
    (hf : ∀ hit q', q'.At e .free asked → FollowsEnd attempting (f hit) q') :
    FollowsEnd attempting (Prog.bind (call (.updateTxn t cond values)) fun hit =>
      Prog.bind (call .commit) fun _ => f hit) q := by
  refine Follows.call_bind (A := attempting) ?_ (fun hit => ?_) fun _ => trivial
  · exact hq.allowed (.inl rfl) fun he hh hc => ⟨hw he hh hc, hv⟩
  have hfirst := Entry.firstWrite_wrote hs
  cases hit with
  | false =>
    have hfree : (attempting.next q (.updateTxn t cond values) (.ok false)).At e .free asked :=
      hq.moves fun _ hh => hh
    obtain ⟨ha, hn⟩ := quiet_at (o := .commit) trivial (.inl rfl) hfree
    exact Follows.call_bind (A := attempting) ha (fun _ => hf _ _ (hn _)) fun _ => trivial
  | true =>
    have hwrote : (attempting.next q (.updateTxn t cond values) (.ok true)).At e .wrote asked :=
      hq.moves fun he hh => by simp only [Lap.holdAfter, hh, he, hfirst]
    refine Follows.call_bind (A := attempting) ?_ (fun _ => hf _ _ ?_) fun _ => trivial
    · exact hwrote.allowed (.inl rfl) fun _ _ _ => trivial
    · exact hwrote.moves fun _ hh => by simp only [Lap.holdAfter, hh]

theorem publish_end (hs : ∀ t, e ≠ .settle t) (hq : q.At e .free asked) :
    FollowsEnd attempting (CashinService.publish t) q := by
  unfold CashinService.publish
  refine Follows.attempt_bind (A := attempting)
    (quiet_follows (p := call (.enqueue (.settle t))) (uses_call trivial) (.inl rfl) hq)
    (fun _ _ _ => trivial) fun exc q' hq' => ?_
  refine failSettlement_end hq' (fun he hh _ => .nudge (he ▸ hs) hh ?_) fun _ => trivial
  intro now x _ hc
  exact failed_nudged hc

/-- The request has loaded its row. -/
theorem onTransaction_end {act : Txn → Program Unit} (hq : q.At e .free 0)
    (hact : ∀ txn q', q'.At e .free 0 → FollowsEnd attempting (act txn) q') :
    FollowsEnd attempting (CashinService.onTransaction t act) q := by
  unfold CashinService.onTransaction
  obtain ⟨ha, hn⟩ := quiet_at (o := .selectTxn t) trivial (.inl rfl) hq
  refine Follows.call_bind (A := attempting) ha (fun found => ?_) fun _ => trivial
  cases found with
  | none => exact trivial
  | some txn => exact hact txn _ (hn _)

theorem markCashinReceived_end {reviewer : Option Nat} (hs : ∀ t, e ≠ .settle t)
    (hq : q.At e .free 0) :
    FollowsEnd attempting (CashinService.markCashinReceived t reviewer) q := by
  unfold CashinService.markCashinReceived
  refine write_commit_end hs hq (fun he hh _ => .nudge (he ▸ hs) hh fun _ _ hp hc =>
    received_nudged hp hc) (fun _ _ => rfl) fun hit q' hq' => ?_
  cases hit with
  | false => exact trivial
  | true =>
    obtain ⟨ha, hn⟩ := quiet_at (o := .refresh) trivial (.inl rfl) hq'
    exact Follows.call_bind (A := attempting) ha (fun _ => publish_end hs (hn _)) fun _ => trivial

theorem unmoved_nudged {values : Nat → Txn → Txn} (hv : StaysPut values) (now : Nat) (x : Txn) :
    x.Nudged (values now x) := .inl (hv now x)

theorem markCashinFailed_end {reviewer : Option Nat} {reason : String} (hs : ∀ t, e ≠ .settle t)
    (hq : q.At e .free 0) :
    FollowsEnd attempting (CashinService.markCashinFailed t reviewer reason) q := by
  unfold CashinService.markCashinFailed
  refine write_commit_end hs hq (fun he hh _ => .nudge (he ▸ hs) hh fun now x _ _ =>
    unmoved_nudged (fun _ _ => rfl) now x) (fun _ _ => rfl) fun hit q' hq' => ?_
  cases hit with
  | false => exact trivial
  | true => exact quiet_end (uses_call trivial)

theorem setAmlFlag_end {flagged : Bool} (hs : ∀ t, e ≠ .settle t) (hq : q.At e .free 0) :
    FollowsEnd attempting (CashinService.setAmlFlag t flagged) q := by
  unfold CashinService.setAmlFlag
  refine onTransaction_end hq fun txn q' hq' => ?_
  unfold CashinService.flushFlag
  have hrest : Uses Op.Quiet
      (Prog.bind (call .commit) fun _ => (call .refresh : Program Unit)) :=
    uses_bind (uses_call trivial) fun _ => uses_call trivial
  split
  · exact quiet_end hrest
  · simp only [Prog.bind_eq, Prog.bind_assoc]
    exact write_end hq' (fun he hh _ => .nudge (he ▸ hs) hh fun now x _ _ =>
      unmoved_nudged (fun _ _ => rfl) now x) (fun _ _ => rfl) fun _ => hrest

theorem expireStaleCashins_end (hs : ∀ t, e ≠ .settle t) (hq : q.At e .free 0) :
    FollowsEnd attempting CashinService.expireStaleCashins q := by
  unfold CashinService.expireStaleCashins
  obtain ⟨ha, hn⟩ := quiet_at (o := .now) trivial (.inl rfl) hq
  refine Follows.call_bind (A := attempting) ha (fun asked => ?_) fun _ => trivial
  refine Follows.call_bind (A := attempting) ?_
    (fun _ => quiet_end (uses_call trivial)) fun _ => trivial
  exact (hn (.ok asked)).allowed (.inl rfl) fun he hh _ => ⟨hh, fun t => he ▸ hs t,
    fun now x _ _ => ⟨unmoved_nudged (fun _ _ => rfl) now x, rfl⟩⟩

/-- Only a row that is due is retried. -/
theorem retryable_follows {txn : Txn} (hq : q.At e .free 0) :
    Follows attempting
      (fun b q' => b = true → ∃ asked, q'.At e .free asked ∧ txn.Ripe asked ∧
        (txn.settlementStatus = .failed ∨ txn.settlementStatus = .processing))
      (fun _ _ => True) (CashinService.retryable txn) q := by
  unfold CashinService.retryable
  cases hst : txn.settlementStatus with
  | failed => exact fun _ => ⟨0, hq, .inl hst, .inl rfl⟩
  | processing =>
    refine Follows.call_bind (A := attempting) (quiet_at (o := .now) trivial (.inl rfl) hq).1
      (fun now => ?_) fun _ => trivial
    intro hold
    refine ⟨now, ⟨hq.entry, fun hl => hq.hold (Life.next_live hl), fun _ => ?_⟩,
      .inr ⟨hst, of_decide_eq_true hold⟩, .inr rfl⟩
    exact Nat.le_max_right _ _
  | _ => exact fun hb => by cases hb

theorem retry_ne (t : Nat) : ∀ t', Entry.settlementRetry t ≠ .settle t' := by
  intro t' he
  cases he

theorem requeue_end {txn : Txn} (hq : q.At (.settlementRetry t) .free asked)
    (hr : txn.Ripe asked) : FollowsEnd attempting (CashinService.requeue t txn) q := by
  unfold CashinService.requeue
  refine write_commit_end (retry_ne t) hq (fun he hh hc => .retire he hh rfl rfl (hr.later hc))
    (fun _ _ => rfl) fun hit q' hq' => ?_
  cases hit with
  | false => exact trivial
  | true =>
    obtain ⟨ha, hn⟩ := quiet_at (o := .refresh) trivial (.inl rfl) hq'
    refine Follows.call_bind (A := attempting) ha (fun _ => ?_) fun _ => trivial
    exact Follows.bind (publish_end (retry_ne t) (hn _)) fun _ _ _ => trivial

theorem settlementRetry_end :
    FollowsEnd attempting (CashinService.settlementRetry t) (Lap.initial (.settlementRetry t)) := by
  unfold CashinService.settlementRetry
  refine onTransaction_end (Lap.At.initial _) fun txn q' hq' => ?_
  split
  · exact publish_end (retry_ne t) hq'
  · refine Follows.bind (R := fun _ _ => True) ?_ fun _ _ _ => trivial
    unfold CashinService.retrySettlement
    refine Follows.bind (retryable_follows hq') fun retryable q₁ hripe => ?_
    split
    next hand =>
      obtain ⟨asked, hq₁, hr, hst⟩ := hripe (Bool.and_eq_true_iff.mp hand).1
      unfold CashinService.reconcileOrRequeue
      split
      · exact requeue_end hq₁ hr
      next txHash _ =>
        refine Follows.bind ((quiet_follows (uses_consultLedger basic_quiet trivial) (.inl rfl)
          hq₁).mono (fun _ _ h => h) fun _ _ _ => trivial) fun code q₂ hq₂ => ?_
        split
        · exact completeSettlement_end hq₂ (fun he hh _ => .nudge (he ▸ retry_ne t) hh
            fun _ _ _ hc => reconciled_nudged hst hc) fun _ => trivial
        · exact requeue_end hq₂ hr
    · exact trivial

/-- The programs that write sends. -/
def Entry.writesSends : Entry → Bool
  | .burn _ | .createRequest _ | .approve _ _ | .reject _ _ _ | .reconcile _ | .sweepUnpublished
  | .office _ => false
  | _ => true

def Op.WritesSends : Op → Prop
  | .updateTxn _ _ _ | .updateTxns _ _ | .insertTxn _ => True
  | _ => False

theorem may_writesSends (he : e.writesSends = false) (ho : e.may o) : ¬ o.WritesSends := by
  cases o <;> try exact id
  case updateTxn t cond values =>
    have hu : TxnUpdate e t cond values := ho
    cases hu <;> cases he
  case updateTxns cond values =>
    obtain ⟨rfl, -⟩ := ho
    cases he
  case insertTxn row =>
    obtain ⟨form, _, _, _, _, rfl, -⟩ := ho
    cases he

/-- A new send is on no loop yet. -/
theorem createRemittance_end {form : SendForm} :
    FollowsEnd attempting (CashinService.createRemittance S form)
      (Lap.initial (.createRemittance form)) := by
  refine Follows.toEnd (Follows.of_uses (A := attempting)
    (F := fun o => o.Quiet ∨ ∃ recipientId quote last4 declined,
      o = .insertTxn (CashinService.newTransaction form recipientId quote last4 declined))
    (I := fun (q : Lap) => q.entry = .createRemittance form ∧
      (q.life = .live → q.hold = .free ∨ q.hold = .wrote)) (fun o q ho hq => ?_)
    (uses_createRemittance (fun o ho => .inl (basic_quiet o ho))
      fun recipientId quote last4 declined _ => .inr ⟨recipientId, quote, last4, declined, rfl⟩)
    ⟨rfl, fun _ => .inl rfl⟩)
  obtain ⟨hentry, hhold⟩ := hq
  have hns : ∀ t, q.entry ≠ .settle t := by
    intro t he
    rw [hentry] at he
    cases he
  refine ⟨?_, fun r => ⟨hentry, fun hl => ?_⟩⟩
  · show q.allows o
    unfold Lap.allows
    split
    next hlife =>
      rcases ho with ho | ⟨recipientId, quote, last4, declined, rfl⟩
      · exact ho.orderly q
      · exact ⟨hhold hlife, hns, fun _ _ => ⟨rfl, rfl⟩⟩
    · exact fun t he => absurd he (hns t)
    · trivial
  · have hh := hhold (Life.next_live hl)
    show q.holdAfter o r = .free ∨ q.holdAfter o r = .wrote
    rcases ho with ho | ⟨recipientId, quote, last4, declined, rfl⟩
    · rcases hh with hh | hh
      · exact .inl (ho.stays (.inl rfl) hh r)
      · exact ho.afterWrote hh r
    · cases r with
      | error e => exact hh
      | ok _ => exact .inr rfl

/-- The programs that write no send. -/
theorem writesNone_end (hs : e.writesSends = false) {p : Program α} (hu : Uses e.may p) :
    FollowsEnd attempting p (Lap.initial e) := by
  refine Follows.toEnd (Follows.of_uses (A := attempting) (F := e.may)
    (I := fun (q : Lap) => q.entry = e) (fun o q ho hq => ?_) hu rfl)
  subst hq
  have hns : ∀ t, q.entry ≠ .settle t := by
    intro t he
    rw [he] at hs
    cases hs
  refine ⟨?_, fun _ => rfl⟩
  show q.allows o
  unfold Lap.allows
  split
  · have hnone := may_writesSends hs ho
    cases o <;> first
      | exact (hnone trivial).elim
      | trivial
      | exact hns
      | exact fun t he => absurd he (hns t)
  · exact fun t he => absurd he (hns t)
  · trivial

end Requests

/-- **EVERY PROGRAM** follows the typestate. -/
theorem body_attempting : ∀ e, FollowsEnd attempting (body S e) (Lap.initial e)
  | .settle _ => Follows.bind processSettlement_end fun _ _ _ => trivial
  | .createRemittance _ => Follows.bind createRemittance_end fun _ _ _ => trivial
  | .cashinReceived _ _ => onTransaction_end (Lap.At.initial _) fun _ _ hq =>
      markCashinReceived_end (by intro t he; cases he) hq
  | .cashinFailed _ _ _ => onTransaction_end (Lap.At.initial _) fun _ _ hq =>
      markCashinFailed_end (by intro t he; cases he) hq
  | .expireStaleCashins => expireStaleCashins_end (by intro t he; cases he) (Lap.At.initial _)
  | .settlementRetry _ => settlementRetry_end
  | .amlFlag _ _ => setAmlFlag_end (by intro t he; cases he) (Lap.At.initial _)
  | .burn _ | .createRequest _ | .approve _ _ | .reject _ _ _ | .reconcile _ | .sweepUnpublished
  | .office _ => writesNone_end rfl (body_uses S _)

/-! ## §6. What a program has come to holds. -/

/-- Time has passed, and no row has been stored. -/
structure World.SameRows (s s' : World) : Prop where
  clock : s.clock ≤ s'.clock
  txns : s'.txns = s.txns
  txnOwner : s'.txnOwner = s.txnOwner

theorem World.SameRows.tick : s.SameRows (s.tick S c) where
  clock := Nat.le_add_right _ _ |>.trans (Nat.le_add_right _ _)
  txns := rfl
  txnOwner := rfl

theorem Uncommitted.sameRows (h : Uncommitted i (s.tick S c) s') : s.SameRows s' :=
  ⟨Nat.le_trans World.SameRows.tick.clock (Nat.le_of_eq h.clock.symm), h.txns, h.txnOwner⟩

theorem exec_sameRows {r : Except Exn o.Res} (ho : o ≠ .commit)
    (hx : exec S i o c l s = some (r, l', s')) : s.SameRows s' :=
  (exec_uncommitted ho hx).sameRows

theorem World.Kept.later (h : s.Kept i T t n) (hsame : s.SameRows s') : s'.Kept i T t n :=
  h.of_eq (congrFun hsame.txns t) (congrFun hsame.txnOwner t)

theorem Session.Turns.later (h : l.Turns i s) (hsame : s.SameRows s') : l.Turns i s' :=
  fun t x' hw => (h t x' hw).of_same hsame.clock (congrFun hsame.txns t)
    (congrFun hsame.txnOwner t)

/-- What a hold says of the session and of the stored rows. -/
def Hold.Means (e : Entry) (i : Nat) (l : Session) (s : World) : Hold → Prop
  | .free => ∀ t, l.txnWrites t = none
  | .hit => ∃ t x', e = .settle t ∧ l.txnWrites t = some x' ∧
      x'.settlementStatus = .processing ∧ l.claimedAt = some x'.updatedAt ∧
      (s.txns t).map (·.settlementStatus) ≠ some .processing
  | .taken => (∀ t, l.txnWrites t = none) ∧ ∃ t T n, e = .settle t ∧ l.claimedAt = some T ∧
      (s.clock ≤ T + jobTimeout → s.Kept i T t n)
  | .read n => ∃ t T, e = .settle t ∧ l.claimedAt = some T ∧
      (s.clock ≤ T + jobTimeout → s.Kept i T t n) ∧
      ∀ x', l.txnWrites t = some x' → x'.round = roundOf (s.txns t)
  | .wrote => True

/-- A session that has failed stores nothing more. -/
structure Lap.Means (i : Nat) (q : Lap) (l : Session) (s : World) : Prop where
  entry : l.entry = q.entry
  life : q.life.Means l
  clock : q.clock ≤ s.clock
  turns : l.failed = false → l.Turns i s
  hold : l.failed = false → q.hold.Means q.entry i l s

theorem Lap.Means.start (e : Entry) : (Lap.initial e).Means i (Session.start e) s where
  entry := rfl
  life := rfl
  clock := Nat.zero_le _
  turns := fun _ => .none fun _ => rfl
  hold := fun _ _ => rfl

/-- A session that writes no row, in a world where none is stored. -/
theorem Hold.Means.same (hm : h.Means e i l s) (hsame : s.SameRows s')
    (hw : l'.txnWrites = l.txnWrites)
    (hclaim : (∃ t, e = .settle t) → l'.claimedAt = l.claimedAt) : h.Means e i l' s' := by
  cases h with
  | free =>
    show ∀ t, l'.txnWrites t = none
    rw [hw]
    exact hm
  | hit =>
    obtain ⟨t, x', he, hx', hp, hc, hst⟩ := hm
    refine ⟨t, x', he, ?_, hp, ?_, ?_⟩
    · rw [hw]; exact hx'
    · rw [hclaim ⟨t, he⟩]; exact hc
    · rw [hsame.txns]; exact hst
  | taken =>
    obtain ⟨hnone, t, T, n, he, hc, hkept⟩ := hm
    refine ⟨?_, t, T, n, he, ?_, fun hle => (hkept (Nat.le_trans hsame.clock hle)).later hsame⟩
    · rw [hw]; exact hnone
    · rw [hclaim ⟨t, he⟩]; exact hc
  | read n =>
    obtain ⟨t, T, he, hc, hkept, hown⟩ := hm
    refine ⟨t, T, he, ?_, fun hle => (hkept (Nat.le_trans hsame.clock hle)).later hsame, ?_⟩
    · rw [hclaim ⟨t, he⟩]; exact hc
    · rw [hw, hsame.txns]; exact hown
  | wrote => trivial

/-- The history grows by the phase that is entered. -/
theorem Run.write {a : RetryLoop.State} {log : List SettlementStatus}
    (hrun : Run maxAttempts a (log.map (·.phase)) x.round)
    (hmove : x'.round = x.round ∨ Step maxAttempts x.round x'.round) :
    Run maxAttempts a
      ((logStatus (some x.settlementStatus) x'.settlementStatus log).map (·.phase)) x'.round := by
  unfold logStatus
  rcases hmove with hsame | hstep
  · have hst : x.settlementStatus = x'.settlementStatus := (Txn.same_status hsame).symm
    rw [if_pos (congrArg some hst), hsame]
    exact hrun
  · have hne : some x.settlementStatus ≠ some x'.settlementStatus := by
      intro hst
      exact hstep.phase_ne (congrArg SettlementStatus.phase (Option.some.inj hst))
    rw [if_neg hne, List.map_cons]
    exact hrun.step hstep

section Write

variable (hcounted : s.Counted) (hlocked : l.Locked i s) (hturns : l.Turns i s)
  (hsame : s.SameRows s') (hx : l.txn s t = some x)

include hcounted hlocked hturns hsame hx

/-- **ONE UPDATE**: a move of the row the session reads, which it may itself have written. -/
theorem Session.Turn.write (he : l'.entry = l.entry)
    (hlog : l'.settlementLog t =
      logStatus (some x.settlementStatus) x'.settlementStatus (l.settlementLog t))
    (hstamp : x'.updatedAt = s'.clock)
    (hmove : (x'.round = x.round ∨ Step maxAttempts x.round x'.round) ∨
      (l.txnWrites t = none ∧ l.entry = .settlementRetry t ∧ x'.round = ⟨.queued, 0⟩ ∧
        (x.settlementStatus = .failed ∨ x.settlementStatus = .processing)))
    (hretry : (∃ x', l.txnWrites t = some x') → ∀ t, l.entry ≠ .settlementRetry t)
    (hspares : ∀ k T n, k ≠ i → s.InHand k T t n → s'.clock ≤ T + jobTimeout →
      x.round = ⟨.running, n⟩ ∨ x.settlementStatus = .completed →
      x'.round = ⟨.running, n⟩ ∨ x'.settlementStatus = .completed) : l'.Turn i s' t x' where
  stamp := Nat.le_of_eq hstamp
  later := fun y hy => by
    rw [hsame.txns] at hy
    rw [hstamp]
    exact Nat.le_trans (hcounted t y hy).stamp hsame.clock
  moves := by
    rw [hlog, he, hsame.txns]
    -- what it has written so far
    have hsofar : Run maxAttempts (roundOf (s.txns t)) ((l.settlementLog t).map (·.phase))
      x.round := by
      rcases Session.txn_cases hx with hw | ⟨hw, hst⟩
      · rcases (hturns t x hw).moves with hrun | ⟨hentry, -⟩
        · exact hrun
        · exact absurd hentry (hretry ⟨x, hw⟩ t)
      · rw [hlocked.settlementLog t hw, hst]
        exact .refl
    rcases hmove with hmove | ⟨hw, hentry, hround, hst⟩
    · exact .inl (Run.write hsofar hmove)
    · have hstored : s.txns t = some x := by
        rcases Session.txn_cases hx with hw' | ⟨-, hst⟩
        · rw [hw] at hw'
          cases hw'
        · exact hst
      exact .inr ⟨hentry, hround, x, hstored, hst⟩
  spares := fun k T n hk hhand hle => by
    have hhand' : s.InHand k T t n := by
      unfold World.InHand at hhand ⊢
      rw [hsame.txns, hsame.txnOwner] at hhand
      exact hhand
    refine hspares k T n hk hhand' hle ?_
    rcases Session.txn_cases hx with hw | ⟨-, hst⟩
    · exact (hturns t x hw).spares k T n hk hhand' (Nat.le_trans hsame.clock hle)
    · obtain ⟨-, y, hy, hrunning⟩ := hhand'
      obtain rfl : x = y := Option.some.inj (hst.symm.trans hy)
      exact .inl hrunning

end Write

/-! ### The calls. -/

theorem Session.Turn.of_log (h : l.Turn i s t x') (hsame : s.SameRows s')
    (hlog : l'.settlementLog t = l.settlementLog t) (he : l'.entry = l.entry) :
    l'.Turn i s' t x' := by
  have h' := h.of_same hsame.clock (congrFun hsame.txns t) (congrFun hsame.txnOwner t)
  exact ⟨h'.stamp, h'.later, hlog ▸ he ▸ h'.moves, h'.spares⟩

theorem Session.Turns.of_log (h : l.Turns i s) (hsame : s.SameRows s')
    (hw : l'.txnWrites = l.txnWrites) (hlog : l'.settlementLog = l.settlementLog)
    (he : l'.entry = l.entry) : l'.Turns i s' := by
  intro t x' hx'
  rw [hw] at hx'
  exact (h t x' hx').of_log hsame (congrFun hlog t) he

/-- One more row. -/
theorem Session.Turns.writeTxn {now : Nat} {old : Option Txn} (h : l.Turns i s)
    (hsame : s.SameRows s') (hnew : (l.writeTxn now t old x').Turn i s' t x') :
    (l.writeTxn now t old x').Turns i s' := by
  intro u y hy
  by_cases hu : u = t
  · subst hu
    obtain rfl : x' = y := by simpa [Session.writeTxn] using hy
    exact hnew
  · have hw : l.txnWrites u = some y := by simpa [Session.writeTxn, update, hu] using hy
    exact (h u y hw).of_log hsame (by simp [Session.writeTxn, update, hu]) rfl

/-- A row that is read before anything is written is the stored one. -/
theorem stored_of_free (hfree : ∀ t, l.txnWrites t = none) (hx : l.txn s t = some x) :
    s.txns t = some x := by
  rcases Session.txn_cases hx with hw | ⟨-, hst⟩
  · rw [hfree t] at hw
    cases hw
  · exact hst

section Update

variable (hcounted : s.Counted) (hlogs : l.LogsWrites i s) (hm : q.Means i l s)
  (hlive : l.failed = false) (hsame : s.SameRows s') (hrow : l.txn s t = some x)

include hcounted hlogs hm hlive hsame hrow

theorem claim_means (he : q.entry = .settle t) (hq : q.hold = .free) (hc : claimable x = true) :
    (l.writeTxn s'.clock t (some x) (claimed s'.clock x)).Turns i s' ∧
      Hold.hit.Means q.entry i (l.writeTxn s'.clock t (some x) (claimed s'.clock x)) s' := by
  have hfree := hm.hold hlive
  rw [hq] at hfree
  have hst := stored_of_free hfree hrow
  have hqueued : x.settlementStatus = .queued := by
    simp [claimable] at hc
    exact hc.1.1
  have hne : (some x).map (·.settlementStatus) ≠ some .processing := by
    intro hp
    have hp' : x.settlementStatus = .processing := Option.some.inj hp
    rw [hqueued] at hp'
    cases hp'
  refine ⟨(hm.turns hlive).writeTxn hsame (.write hcounted hlogs.locked (hm.turns hlive) hsame hrow
    rfl (Function.update_self _ _ _) rfl (.inl (.inr ?_)) ?_ ?_), ?_⟩
  · rw [Txn.round_mk hqueued rfl]
    exact .take _
  · rintro ⟨x', hx'⟩
    rw [hfree t] at hx'
    cases hx'
  · intro k T n _ _ _ hrunning
    rcases hrunning with hrunning | hdone
    · have hp : x.settlementStatus = .processing := Txn.round_status (a := .processing) hrunning
      rw [hqueued] at hp
      cases hp
    · rw [hqueued] at hdone
      cases hdone
  · refine ⟨t, claimed s'.clock x, he, Function.update_self _ _ _, rfl, if_pos ⟨rfl, hne⟩, ?_⟩
    rw [hsame.txns, hst]
    exact hne

/-- What the worker writes while it holds the row leaves the row in its hands. -/
theorem stay_means (he : q.entry = .settle t) (hq : q.hold = .read n) (hround : x'.round = x.round)
    (hstamp : x'.updatedAt = s'.clock) :
    (l.writeTxn s'.clock t (some x) x').Turns i s' ∧
      (Hold.read n).Means q.entry i (l.writeTxn s'.clock t (some x) x') s' := by
  have hhold := hm.hold hlive
  rw [hq] at hhold
  obtain ⟨u, T, he', hclaim, hkept, hown⟩ := hhold
  obtain rfl : t = u := by
    rw [he] at he'
    exact Entry.settle.inj he'
  refine ⟨(hm.turns hlive).writeTxn hsame (.write hcounted hlogs.locked (hm.turns hlive) hsame hrow
    rfl (Function.update_self _ _ _) hstamp (.inl (.inl hround)) ?_ ?_), ?_⟩
  · intro _ u hu
    rw [hm.entry, he] at hu
    cases hu
  · intro k T n _ _ _ hrunning
    rw [hround, Txn.same_status hround]
    exact hrunning
  · refine ⟨t, T, he, ?_, fun hle => (hkept (Nat.le_trans hsame.clock hle)).later hsame, ?_⟩
    · refine (if_neg ?_).trans hclaim
      rintro ⟨hp, hnp⟩
      rw [Txn.same_status hround] at hp
      exact hnp (congrArg some hp)
    · intro y hy
      obtain rfl : x' = y := by simpa [Session.writeTxn] using hy
      rw [hround, hsame.txns]
      rcases Session.txn_cases hrow with hw | ⟨-, hst⟩
      · exact hown x hw
      · rw [hst]
        rfl

omit hcounted hlogs in
/-- A worker that is in time still holds the row that it has read. -/
theorem read_inHand (he : q.entry = .settle t) (hq : q.hold = .read n)
    (hintime : ∀ T, l.claimedAt = some T → s'.clock ≤ T + jobTimeout)
    (hp : x.settlementStatus = .processing) :
    x.round = ⟨.running, n⟩ ∧ ∃ T, s.InHand i T t n := by
  have hhold := hm.hold hlive
  rw [hq] at hhold
  obtain ⟨u, T, he', hclaim, hkept, hown⟩ := hhold
  obtain rfl : t = u := by
    rw [he] at he'
    exact Entry.settle.inj he'
  have hreads : roundOf (s.txns t) = x.round := by
    rcases Session.txn_cases hrow with hw | ⟨-, hst⟩
    · exact (hown x hw).symm
    · rw [hst]
      rfl
  have hhand : s.InHand i T t n := by
    rcases hkept (Nat.le_trans hsame.clock (hintime T hclaim)) with hhand | ⟨y, hy, hdone⟩
    · exact hhand
    · rw [hy] at hreads
      have hst := Txn.same_status hreads
      rw [hdone, hp] at hst
      cases hst
  refine ⟨?_, T, hhand⟩
  obtain ⟨-, y, hy, hround⟩ := hhand
  rw [hy] at hreads
  exact hreads.symm.trans hround

/-- Nobody but the holder of a row takes it out of its hands. -/
theorem leave_turns (he : q.entry = .settle t) (hhand : ∃ T, s.InHand i T t n)
    (hstep : Step maxAttempts x.round x'.round) (hstamp : x'.updatedAt = s'.clock) :
    (l.writeTxn s'.clock t (some x) x').Turns i s' := by
  refine (hm.turns hlive).writeTxn hsame (.write hcounted hlogs.locked (hm.turns hlive) hsame hrow
    rfl (Function.update_self _ _ _) hstamp (.inl (.inr hstep)) ?_ ?_)
  · intro _ u hu
    rw [hm.entry, he] at hu
    cases hu
  · intro k T' m hk hhand' _ _
    obtain ⟨T, howner, -⟩ := hhand
    exact absurd (congrArg Prod.fst (Option.some.inj (howner.symm.trans hhand'.1))).symm hk

theorem nudge_turns (hq : q.hold = .free) (hn : x.Nudged x') (hstamp : x'.updatedAt = s'.clock) :
    (l.writeTxn s'.clock t (some x) x').Turns i s' := by
  have hfree := hm.hold hlive
  rw [hq] at hfree
  refine (hm.turns hlive).writeTxn hsame (.write hcounted hlogs.locked (hm.turns hlive) hsame hrow
    rfl (Function.update_self _ _ _) hstamp (.inl (hn.imp id And.left)) ?_
    fun _ _ _ _ _ _ => hn.spares)
  rintro ⟨y, hy⟩
  rw [hfree t] at hy
  cases hy

/-- **NO ROW IS RETRIED UNDER A WORKER** that is in time: it would have to be older than that. -/
theorem retire_turns {txn : Txn} (he : q.entry = .settlementRetry t) (hq : q.hold = .free)
    (hc : isUntouched txn x = true) (hripe : txn.Ripe q.clock) :
    (l.writeTxn s'.clock t (some x) (retired txn s'.clock x)).Turns i s' := by
  have hfree := hm.hold hlive
  rw [hq] at hfree
  have hst := stored_of_free hfree hrow
  obtain ⟨hstatus, hage⟩ : x.settlementStatus = txn.settlementStatus ∧
      x.updatedAt = txn.updatedAt := by simpa [isUntouched] using hc
  refine (hm.turns hlive).writeTxn hsame (.write hcounted hlogs.locked (hm.turns hlive) hsame hrow
    rfl (Function.update_self _ _ _) rfl (.inr ⟨hfree t, hm.entry.trans he, rfl, ?_⟩) ?_ ?_)
  · rw [hstatus]
    exact hripe.imp id And.left
  · rintro ⟨y, hy⟩
    rw [hfree t] at hy
    cases hy
  · intro k T n _ hhand hintime _
    obtain ⟨howner, y, hy, hrunning⟩ := hhand
    obtain rfl : x = y := Option.some.inj (hst.symm.trans hy)
    have hp : x.settlementStatus = .processing := Txn.round_status (a := .processing) hrunning
    rcases hripe with hfailed | ⟨-, hold⟩
    · rw [← hstatus, hp] at hfailed
      cases hfailed
    · have hT := ((hcounted t x hst).owner k T howner).2
      have hclock := Nat.le_trans hm.clock hsame.clock
      have hlt := jobTimeout_lt_stuckAfter
      rw [← hage] at hold
      generalize CashinService.stuckAfter = wait at hold hlt
      generalize jobTimeout = limit at hintime hlt
      omega

end Update

section Call

variable (hpunctual : S.punctual = true) (hcounted : s.Counted) (hlogs : l.LogsWrites i s)
  (hlife : Lifecycle s) (hm : q.Means i l s) (hlive : l.failed = false)

include hpunctual hcounted hlogs hlife hm hlive

/-- **ONE UPDATE OF A SEND**. -/
theorem updateTxn_means {cond : Txn → Bool} {values : Nat → Txn → Txn} {r : Except Exn Bool}
    (hw : q.Writes t cond values) (hv : ∀ now x, (values now x).updatedAt = now)
    (hx : exec S i (.updateTxn t cond values) c l s = some (r, l', s'))
    (hlive' : l'.failed = false) :
    l'.Turns i s' ∧ (q.holdAfter (.updateTxn t cond values) r).Means q.entry i l' s' := by
  have hsame := exec_sameRows (o := .updateTxn t cond values) nofun hx
  rcases exec_updateTxn hx with ⟨-, hf, -⟩ | ⟨rfl, rfl, -⟩ | ⟨x, rfl, -, hrow, hc, rfl, -⟩
  · rw [hlive'] at hf
    cases hf
  · exact ⟨(hm.turns hlive).later hsame, (hm.hold hlive).same hsame rfl fun _ => rfl⟩
  have hfirst : q.hold = .free → q.holdAfter (.updateTxn t cond values) (.ok true) =
      q.entry.firstWrite := by
    intro hq
    simp only [Lap.holdAfter, hq]
  cases hw with
  | claim he hq hcond hvalues =>
    subst hcond hvalues
    have hhit : q.holdAfter (.updateTxn t claimable claimed) (.ok true) = .hit := by
      rw [hfirst hq, he]
      rfl
    rw [hhit]
    exact claim_means hcounted hlogs hm hlive hsame hrow he hq hc
  | @stay n he hq hstay =>
    have hread : q.holdAfter (.updateTxn t cond values) (.ok true) = .read n := by
      simp only [Lap.holdAfter, hq, if_pos hstay]
    rw [hread]
    exact stay_means hcounted hlogs hm hlive hsame hrow he hq (hstay _ _) (hv _ _)
  -- only a worker that has read its row takes it out of `processing`, in time
  | @leave n he hq hcond hstep =>
    subst hcond
    have hp : x.settlementStatus = .processing := by simpa using isIn_iff.mp hc
    obtain ⟨hrunning, hhand⟩ := read_inHand hm hlive hsame hrow he hq
      (fun T hT => exec_punctual hpunctual hx hT) hp
    have hmove := hstep s'.clock x hrunning
    have hleaves : ¬ StaysPut values := by
      intro hstay
      exact hmove.phase_ne (congrArg State.phase (hstay s'.clock x).symm)
    have hwrote : q.holdAfter (.updateTxn t (isIn [.processing]) values) (.ok true) = .wrote := by
      simp only [Lap.holdAfter, hq, if_neg hleaves]
    rw [hwrote]
    exact ⟨leave_turns hcounted hlogs hm hlive hsame hrow he hhand hmove (hv _ _), trivial⟩
  -- what others write leaves the round of a row alone
  | nudge he hq hnudge =>
    rw [hfirst hq, Entry.firstWrite_wrote he]
    exact ⟨nudge_turns hcounted hlogs hm hlive hsame hrow hq
      (hnudge _ x (hlogs.read_txn hlife hrow).paired hc) (hv _ _), trivial⟩
  | retire he hq hcond hvalues hripe =>
    subst hcond hvalues
    rw [hfirst hq, he]
    exact ⟨retire_turns hcounted hlogs hm hlive hsame hrow he hq hc hripe, trivial⟩

omit hpunctual in
theorem updateTxns_turns {cond : Txn → Bool} {values : Nat → Txn → Txn} {r : Except Exn Unit}
    (hq : q.hold = .free)
    (hv : ∀ now x, x.Paired → cond x = true →
      x.Nudged (values now x) ∧ (values now x).updatedAt = now)
    (hx : exec S i (.updateTxns cond values) c l s = some (r, l', s')) : l'.Turns i s' := by
  have hsame := exec_sameRows (o := .updateTxns cond values) nofun hx
  have hclock := (exec_uncommitted (o := .updateTxns cond values) nofun hx).clock
  have hfree := hm.hold hlive
  rw [hq] at hfree
  rcases exec_updateTxns hx with ⟨-, rfl⟩ | ⟨-, rfl, -⟩
  · exact (hm.turns hlive).of_log hsame rfl rfl rfl
  intro t x' hx'
  cases hmatch : l.matching (s.tick S c) cond t with
  | none =>
    have hw : l.txnWrites t = some x' := by simpa [Session.writeTxns, hmatch] using hx'
    rw [hfree t] at hw
    cases hw
  | some x =>
    obtain ⟨-, hrow, hc⟩ := matching_eq_some hmatch
    obtain ⟨hn, hstamp⟩ := hv s'.clock x (hlogs.read_txn hlife hrow).paired hc
    obtain rfl : values s'.clock x = x' := by
      rw [hclock]
      simpa [Session.writeTxns, hmatch] using hx'
    refine .write hcounted hlogs.locked (hm.turns hlive) hsame hrow rfl ?_ hstamp
      (.inl (hn.imp id And.left)) ?_ fun _ _ _ _ _ _ => hn.spares
    · rw [hclock]
      simp only [Session.writeTxns, hmatch]
    · rintro ⟨y, hy⟩
      rw [hfree t] at hy
      cases hy

omit hpunctual hcounted hlife in
theorem insertTxn_turns {row : Nat → Nat → Txn} {r : Except Exn Nat}
    (hv : ∀ key now, (row key now).round = ⟨.idle, 0⟩ ∧ (row key now).updatedAt = now)
    (hx : exec S i (.insertTxn row) c l s = some (r, l', s')) : l'.Turns i s' := by
  have hsame := exec_sameRows (o := .insertTxn row) nofun hx
  rcases exec_insertTxn hx with ⟨-, -, rfl⟩ | ⟨-, -, hnone, rfl, -⟩
  · exact (hm.turns hlive).of_log hsame rfl rfl rfl
  obtain ⟨hround, hstamp⟩ := hv s.nextId s'.clock
  obtain ⟨hw, hst⟩ :=
    Option.or_eq_none_iff.mp (show (l.txnWrites s.nextId).or (s.txns s.nextId) = none
    from hnone)
  have hst' : s'.txns s.nextId = none := by rw [hsame.txns, hst]
  refine (hm.turns hlive).writeTxn hsame ⟨Nat.le_of_eq hstamp, ?_, .inl ?_, ?_⟩
  · intro x hx'
    rw [hst'] at hx'
    cases hx'
  · have hnew : (l.writeTxn s'.clock s.nextId none (row s.nextId s'.clock)).settlementLog s.nextId =
        [(row s.nextId s'.clock).settlementStatus] := by
      simp [Session.writeTxn, logStatus, hlogs.locked.settlementLog _ hw]
    rw [hnew, hst', hround, Txn.round_status (a := .notQueued) hround]
    exact .single .create
  · intro k T n _ hhand
    obtain ⟨-, y, hy, -⟩ := hhand
    rw [hst'] at hy
    cases hy

omit hpunctual hlogs hlife in
/-- **COMMIT**: a claim that is stored is in its worker's hands. -/
theorem commit_means {r : Except Exn Unit}
    (hx : exec S i .commit c l s = some (r, l', s')) :
    s'.Counted ∧ l'.Turns i s' ∧
      (l'.failed = false → (q.holdAfter .commit r).Means q.entry i l' s') := by
  have htick : s.SameRows (s.tick S c) := .tick
  have hcounted' := hcounted.of_same htick.clock htick.txns htick.txnOwner
  have hturns' := (hm.turns hlive).later htick
  rcases exec_commit hx with ⟨⟨e, rfl⟩, rfl, rfl⟩ | ⟨-, rfl, hr⟩
  · exact ⟨hcounted', hturns'.of_log ⟨Nat.le_refl _, rfl, rfl⟩ rfl rfl rfl,
      fun hf => by simp [Session.fail, Op.isStatement] at hf⟩
  refine ⟨hcounted'.commit hturns', ?_⟩
  rcases hr with ⟨rfl, rfl⟩ | ⟨⟨e, rfl⟩, rfl⟩
  · refine ⟨.none fun _ => rfl, fun _ => ?_⟩
    have hhold := hm.hold hlive
    -- by what the worker holds: only what it has hit in this transaction changes hands
    cases hq : q.hold with
    | free =>
      have hnext : q.holdAfter .commit (.ok ()) = .free := by simp only [Lap.holdAfter, hq]
      rw [hnext]
      exact fun _ => rfl
    | hit =>
      rw [hq] at hhold
      -- the claim is written and now stored, under the stamp of this session
      obtain ⟨t, x', he, hw, hp, hclaim, hst⟩ := hhold
      have hnext : q.holdAfter .commit (.ok ()) = .taken := by simp only [Lap.holdAfter, hq]
      rw [hnext]
      refine ⟨fun _ => rfl, t, x'.updatedAt, x'.settlementAttempts, he, hclaim,
        fun _ => .inl ⟨?_, x', ?_, Txn.round_mk hp rfl⟩⟩
      · rw [commit_txnOwner_written hw]
        unfold ownerAfter
        rw [if_pos hp]
        exact if_neg hst
      · show (l.txnWrites t).or _ = some x'
        rw [hw]
        rfl
    | taken =>
      rw [hq] at hhold
      obtain ⟨hnone, t, T, n, he, hclaim, hkept⟩ := hhold
      have hnext : q.holdAfter .commit (.ok ()) = .taken := by simp only [Lap.holdAfter, hq]
      rw [hnext]
      refine ⟨fun _ => rfl, t, T, n, he, hclaim, fun hle => ?_⟩
      -- nothing was written since, so that the row is as it was
      refine World.Kept.commit_of ((hkept (Nat.le_trans htick.clock hle)).later htick)
        fun x' hw => ?_
      rw [hnone t] at hw
      cases hw
    | read n =>
      rw [hq] at hhold
      obtain ⟨t, T, he, hclaim, hkept, hown⟩ := hhold
      have hnext : q.holdAfter .commit (.ok ()) = .read n := by simp only [Lap.holdAfter, hq]
      rw [hnext]
      refine ⟨t, T, he, hclaim, fun hle => ?_, fun x' hw => by cases hw⟩
      -- what was written since keeps the round of the row
      refine World.Kept.commit_of ((hkept (Nat.le_trans htick.clock hle)).later htick)
        fun x' hw => ?_
      have hround : x'.round = roundOf (s.txns t) := hown x' hw
      refine ⟨fun hhand => .inl ?_, fun x hst hdone => ?_⟩
      · obtain ⟨-, y, hy, hrunning⟩ := hhand
        rw [hround, show s.txns t = some y from hy]
        exact hrunning
      · rw [show s.txns t = some x from hst] at hround
        exact (Txn.same_status hround).trans hdone
    | wrote =>
      have hnext : q.holdAfter .commit (.ok ()) = .free := by simp only [Lap.holdAfter, hq]
      rw [hnext]
      exact fun _ => rfl
  · exact ⟨.none fun _ => rfl, fun hf => by simp [Session.fail, Op.isStatement] at hf⟩

omit hpunctual hcounted hlogs hlife in
/-- A call that writes no send. -/
theorem other_means {r : Except Exn o.Res} (ho : o.writesTxns = false)
    (hreq : (∃ t, q.entry = .settle t) → o.writesReqs = false)
    (hx : exec S i o c l s = some (r, l', s')) :
    l'.Turns i s' ∧ q.hold.Means q.entry i l' s' := by
  have hsame := exec_sameRows (by intro hc; subst hc; cases ho) hx
  obtain ⟨hw, hlog, -⟩ := exec_sameTxns ho hx
  exact ⟨(hm.turns hlive).of_log hsame hw hlog (exec_sameEntry hx),
    (hm.hold hlive).same hsame hw fun he => exec_sameClaim ho (hreq he) hx⟩

omit hpunctual hcounted hlogs hlife in
/-- After its COMMIT the worker reads the row that it has claimed. -/
theorem selectTxn_means {r : Except Exn (Option Txn)}
    (hx : exec S i (.selectTxn t) c l s = some (r, l', s')) :
    (q.holdAfter (.selectTxn t) r).Means q.entry i l' s' := by
  have hhold := (other_means hm hlive rfl (fun _ => rfl) hx).2
  by_cases hq : q.hold = .taken
  swap
  · rw [q.holdAfter_select r hq]
    exact hhold
  cases r with
  | error e => exact hhold
  | ok found =>
    cases found with
    | none => exact hhold
    | some txn =>
      by_cases he : q.entry = .settle t
      swap
      · have hnext : q.holdAfter (.selectTxn t) (.ok (some txn)) = q.hold := by
          simp only [Lap.holdAfter, hq, if_neg he]
        rw [hnext]
        exact hhold
      have hnext : q.holdAfter (.selectTxn t) (.ok (some txn)) = .read txn.settlementAttempts := by
        simp only [Lap.holdAfter, hq, if_pos he]
      rw [hnext]
      rcases exec_selectTxn hx with ⟨e, hr⟩ | ⟨hr, rfl, rfl⟩
      · cases hr
      have hrow := Option.some.inj (show some (some txn) = some (l'.txn s t) from
        congrArg Except.toOption hr)
      rw [hq] at hhold
      obtain ⟨hnone, u, T, n, hu, hclaim, hkept⟩ := hhold
      obtain rfl : t = u := by
        rw [he] at hu
        exact Entry.settle.inj hu
      have hst := stored_of_free hnone hrow.symm
      refine ⟨t, T, he, hclaim, fun hle => ?_, fun x' hw => ?_⟩
      · rcases hkept hle with ⟨howner, x, hx', hrunning⟩ | hdone
        · obtain rfl : txn = x := Option.some.inj (hst.symm.trans hx')
          exact .inl
            ⟨howner, txn, hx', Txn.round_mk (Txn.round_status (a := .processing) hrunning) rfl⟩
        · exact .inr hdone
      · rw [hnone t] at hw
        cases hw

end Call

/-- The clock that has been read is not ahead. -/
theorem Lap.clockAfter_le {r : Except Exn o.Res} (hle : q.clock ≤ s.clock)
    (hx : exec S i o c l s = some (r, l', s')) : q.clockAfter o r ≤ s'.clock := by
  have hlater : q.clock ≤ s'.clock := by
    have hclock := exec_clock hx
    omega
  cases o with
  | now =>
    obtain ⟨rfl, -, -⟩ := exec_now hx
    exact Nat.max_le.mpr ⟨hlater, Nat.le_refl _⟩
  | _ => exact hlater

/-- What holds of a live session, and of one that has failed. -/
theorem call_means (hpunctual : S.punctual = true) (hcounted : s.Counted) (hlife : Lifecycle s)
    (hlogs : l.LogsWrites i s) (hm : q.Means i l s) (ha : q.allows o) {r : Except Exn o.Res}
    (hx : exec S i o c l s = some (r, l', s')) :
    s'.Counted ∧ (l'.failed = false → l'.Turns i s' ∧ (q.holdAfter o r).Means q.entry i l' s') := by
  cases hlive : l.failed with
  | true =>
    -- a failed session writes nothing more
    have hf := exec_staysFailed hlive hx
    refine ⟨?_, fun hlive' => by rw [hf] at hlive'; cases hlive'⟩
    by_cases ho : o = .commit
    · subst ho
      obtain ⟨-, -, -, rfl⟩ := exec_failed rfl hlive hx
      exact hcounted.of_same World.SameRows.tick.clock rfl rfl
    · have hsame := exec_sameRows ho hx
      exact hcounted.of_same hsame.clock hsame.txns hsame.txnOwner
  | false =>
    have hl := hm.life.live hlive
    have hord : q.orderly o := by
      unfold Lap.allows at ha
      rw [hl] at ha
      exact ha
    by_cases ho : o = .commit
    · subst ho
      obtain ⟨hc, hturns, hhold⟩ := commit_means hcounted hm hlive hx
      exact ⟨hc, fun hlive' => ⟨hturns, hhold hlive'⟩⟩
    have hsame := exec_sameRows ho hx
    refine ⟨hcounted.of_same hsame.clock hsame.txns hsame.txnOwner, fun hlive' => ?_⟩
    cases o with
    | commit => exact absurd rfl ho
    | updateTxn t cond values =>
      exact updateTxn_means hpunctual hcounted hlogs hlife hm hlive hord.1 hord.2 hx hlive'
    | updateTxns cond values =>
      refine ⟨updateTxns_turns hcounted hlogs hlife hm hlive hord.1 hord.2.2 hx, ?_⟩
      cases r with
      | ok u => trivial
      | error e =>
        rcases exec_updateTxns hx with ⟨-, rfl⟩ | ⟨hr, -⟩
        · simp [Session.fail, Op.isStatement] at hlive'
        · cases hr
    | insertTxn row =>
      refine ⟨insertTxn_turns hlogs hm hlive hord.2.2 hx, ?_⟩
      cases r with
      | ok u => trivial
      | error e =>
        rcases exec_insertTxn hx with ⟨-, hf, -⟩ | ⟨hr, -⟩
        · rw [hf] at hlive'
          cases hlive'
        · cases hr
    | selectTxn t =>
      exact ⟨(other_means hm hlive rfl (fun _ => rfl) hx).1, selectTxn_means hm hlive hx⟩
    | updateReq r cond values | insertReq row =>
      -- requests are no business of a worker of transactions
      refine other_means hm hlive rfl (fun he => ?_) hx
      obtain ⟨t, he⟩ := he
      exact absurd he (hord t)
    | _ => exact other_means hm hlive rfl (fun _ => rfl) hx

/-- What another session does to the rows: it stores none, or those that it has written. -/
theorem exec_rows {r : Except Exn o.Res} (hx : exec S k o c l s = some (r, l', s')) :
    Uncommitted k (s.tick S c) s' ∨ (l.failed = false ∧ s' = (s.tick S c).commit k l) := by
  by_cases ho : o = .commit
  · subst ho
    rcases exec_commit hx with ⟨-, -, rfl⟩ | ⟨hlive, rfl, -⟩
    · exact .inl (Uncommitted.refl k _)
    · exact .inr ⟨hlive, rfl⟩
  · exact .inl (exec_uncommitted ho hx)

/-- **WHAT A HOLD SAYS SURVIVES** the moves of others that spare the rows in hand. -/
theorem Hold.Means.of_others (hm : h.Means e i l s) (hl : l.Locked i s) (ho : Others i s s')
    (hkept : ∀ T t n, s'.clock ≤ T + jobTimeout → s.Kept i T t n → s'.Kept i T t n) :
    h.Means e i l s' := by
  cases h with
  | free => exact hm
  | hit =>
    obtain ⟨t, x', he, hw, hp, hclaim, hst⟩ := hm
    obtain ⟨-, ht, -⟩ := ho.txnLock t (hl.txns t x' hw).1
    refine ⟨t, x', he, hw, hp, hclaim, ?_⟩
    rw [ht]
    exact hst
  | taken =>
    obtain ⟨hnone, t, T, n, he, hclaim, hk⟩ := hm
    exact ⟨hnone, t, T, n, he, hclaim, fun hle =>
      hkept T t n hle (hk (Nat.le_trans ho.clock hle))⟩
  | read n =>
    obtain ⟨t, T, he, hclaim, hk, hown⟩ := hm
    refine ⟨t, T, he, hclaim, fun hle => hkept T t n hle (hk (Nat.le_trans ho.clock hle)), ?_⟩
    intro x' hw
    obtain ⟨-, ht, -⟩ := ho.txnLock t (hl.txns t x' hw).1
    rw [ht]
    exact hown x' hw
  | wrote => trivial

theorem attempting_sound (hpunctual : S.punctual = true) :
    attempting.Sound (rules S) Lap.initial World.Counted Lap.Means where
  body := body_attempting
  spawn := fun e s _ hcounted =>
    ⟨World.Counted.of_same hcounted (Nat.le_refl _) rfl rfl, Lap.Means.start e⟩
  call := fun i q o c l s r l' s' hs hcounted hl hm ha hx => by
    obtain ⟨hcounted', hlive⟩ := call_means hpunctual hcounted hs.lifecycle hl hm ha hx
    exact ⟨hcounted', (exec_sameEntry hx).trans hm.entry, hm.life.next hx,
      Lap.clockAfter_le hm.clock hx, fun hf => (hlive hf).1, fun hf => (hlive hf).2⟩
  close := fun i s _ hcounted => World.Counted.of_same hcounted (Nat.le_refl _) rfl rfl
  env := fun v s s' _ hcounted hx => by
    obtain ⟨heq, hclock, -⟩ := env_eq hx
    refine World.Counted.of_same hcounted hclock ?_ ?_ <;> rw [heq]

/-- **IN EVERY REACHABLE STATE** what is queued has an attempt left. -/
theorem attempting_reach (hpunctual : S.punctual = true) {w : World} (hw : w.Orderly)
    (hcounted : w.Counted) {c : Config (platform S)} (h : Reach (M := platform S) w c) :
    attempting.Holds (M := platform S) World.Counted Lap.Means c := by
  refine (attempting_sound hpunctual).reach_together (rules_kept S) ?_ hw hcounted h
  intro c c' lab hD hA hs i th q hi hth hmoves hm
  have hl : th.session.Locked i c.world := (hD.session i th hth).locked
  have hoth : Others i c.world c'.world := hmoves.others
  -- the others take no row out of hands that are in time
  have hkept : ∀ T t n, c'.world.clock ≤ T + jobTimeout → c.world.Kept i T t n →
      c'.world.Kept i T t n := by
    intro T t n hintime hk
    cases lab with
    | start e =>
      injection hs with hs
      subst hs
      exact hk
    | call j ch =>
      obtain ⟨l, o, k, r, l', w', hj, hx, rfl⟩ := Config.step_call hs
      have hij : i ≠ j := fun he => hi (congrArg some he.symm)
      obtain ⟨q', -, hm'⟩ := hA.threads j _ hj
      rcases exec_rows hx with hu | ⟨hlive, hcommit⟩
      · exact hk.later hu.sameRows
      · have hclock := exec_clock hx
        obtain rfl : w' = (c.world.tick S ch).commit j l := hcommit
        exact (hk.later .tick).commit ((hm'.turns hlive).later .tick) hij hintime
    | stop j =>
      obtain ⟨_, _, rfl⟩ := Option.map_eq_some_iff.mp hs
      exact hk
    | env v =>
      obtain ⟨w', hv, rfl⟩ := Option.map_eq_some_iff.mp hs
      obtain ⟨heq, -, -⟩ := env_eq hv
      refine hk.of_eq ?_ ?_ <;> rw [heq]
  exact ⟨hm.entry, hm.life, Nat.le_trans hm.clock hoth.clock,
    fun hlive => (hm.turns hlive).of_others hl hoth,
      fun hlive => (hm.hold hlive).of_others hl hoth hkept⟩

/-! ## §7. Between two retries. -/

/-- The step is an admin's retry of `t` that puts the row back in the queue. -/
def Readmits (t : Nat) (k : Config (platform S)) (lab : Label (platform S)) : Prop :=
  ∃ i th k', lab.party = some i ∧ k.threads i = some th ∧ th.session.entry = .settlementRetry t ∧
    k.step lab = some k' ∧ (k.world.txns t).map (·.settlementStatus) ≠ some .queued ∧
    (k'.world.txns t).map (·.settlementStatus) = some .queued

/-- The row of `t` has gone along the loop, and its history tells how. -/
def World.Rounds (t : Nat) (s s' : World) : Prop :=
  ∃ new, s'.settlementLog t = new ++ s.settlementLog t ∧
    Run maxAttempts (roundOf (s.txns t)) (new.map (·.phase)) (roundOf (s'.txns t))

theorem World.Rounds.of_eq (ht : s'.txns t = s.txns t)
    (hlog : s'.settlementLog t = s.settlementLog t) : World.Rounds t s s' :=
  ⟨[], hlog, by rw [ht]; exact .refl⟩

theorem World.Rounds.trans {s'' : World} (h : World.Rounds t s s') (h' : World.Rounds t s' s'') :
    World.Rounds t s s'' := by
  obtain ⟨new, hlog, hrun⟩ := h
  obtain ⟨later, hlog', hrun'⟩ := h'
  refine ⟨later ++ new, by rw [hlog', hlog, List.append_assoc], ?_⟩
  rw [List.map_append]
  exact hrun.trans hrun'

variable {w : World} {k k' : Config (platform S)} {lab : Label (platform S)}

/-- **EACH STEP** takes a row along the loop, or is an admin's retry of it. -/
theorem round_step (hpunctual : S.punctual = true) (hw : w.Orderly) (hcounted : w.Counted)
    (h : Reach (M := platform S) w k) (hs : k.step lab = some k') (hno : ¬ Readmits t k lab) :
    World.Rounds t k.world k'.world := by
  have hA := attempting_reach hpunctual hw hcounted h
  have hD := (rules_kept S).reach hw h
  cases lab with
  | start e =>
    injection hs with hs
    subst hs
    exact .of_eq rfl rfl
  | stop j =>
    obtain ⟨_, _, rfl⟩ := Option.map_eq_some_iff.mp hs
    exact .of_eq rfl rfl
  | env v =>
    obtain ⟨w', hv, rfl⟩ := Option.map_eq_some_iff.mp hs
    obtain ⟨heq, -, -⟩ := env_eq hv
    refine .of_eq ?_ ?_ <;> rw [heq]
  | call j ch =>
    obtain ⟨l, o, f, r, l', s', hj, hx, rfl⟩ := Config.step_call hs
    rcases exec_rows hx with hu | ⟨hlive, rfl⟩
    · exact .of_eq (congrFun hu.txns t) (congrFun hu.settlementLog t)
    -- the call is a COMMIT: what it stores is what its worker has written
    obtain ⟨q, -, hm⟩ := hA.threads j _ hj
    have hl : l.Locked j k.world := (hD.session j _ hj).locked
    cases hw' : l.txnWrites t with
    | none =>
      refine .of_eq ?_ ?_
      · show (l.txnWrites t).or (k.world.txns t) = k.world.txns t
        rw [hw']
        rfl
      · show l.settlementLog t ++ k.world.settlementLog t = k.world.settlementLog t
        rw [hl.settlementLog t hw']
        rfl
    | some x' =>
      have hstored : ((k.world.tick S ch).commit j l).txns t = some x' := by
        show (l.txnWrites t).or (k.world.txns t) = some x'
        rw [hw']
        rfl
      rcases (hm.turns hlive t x' hw').moves with hrun | ⟨he, hround, x, hx', hst⟩
      · refine ⟨l.settlementLog t, rfl, ?_⟩
        show Run maxAttempts _ _ (roundOf (((k.world.tick S ch).commit j l).txns t))
        rw [hstored]
        exact hrun
      -- the row is queued again with its attempts at zero, which is an admin's retry
      · refine absurd ⟨j, _, _, rfl, hj, he, hs, ?_, ?_⟩ hno
        · rw [hx']
          intro hq
          have hq' : x.settlementStatus = .queued := Option.some.inj hq
          rw [hq'] at hst
          rcases hst with hst | hst <;> cases hst
        · show (((k.world.tick S ch).commit j l).txns t).map (·.settlementStatus) = some .queued
          rw [hstored]
          exact congrArg some (Txn.round_status (x := x') (a := .queued) hround)

/-- **BETWEEN TWO RETRIES** a row only goes along the loop. -/
theorem rounds_course (hpunctual : S.punctual = true) (hw : w.Orderly) (hcounted : w.Counted)
    (h : Reach (M := platform S) w k) (hc : Course (fun k lab => ¬ Readmits t k lab) k k') :
    World.Rounds t k.world k'.world := by
  induction hc with
  | refl => exact .of_eq rfl rfl
  | step hc' hno hs ih => exact ih.trans (round_step hpunctual hw hcounted (hc'.reach h) hs hno)

/-- A settlement's worker publishes its retry with the delay of an attempt. -/
theorem delayed_reach (hpunctual : S.punctual = true) (hw : w.Orderly) (hcounted : w.Counted)
    (h : Reach (M := platform S) w k) {i delay : Nat} {m : Message} {l : Session}
    {f : Except Exn Unit → Program Unit} (hi : k.threads i = some ⟨l, .op (.enqueueIn delay m) f⟩)
    (he : l.entry = .settle t) : Delayed retryDelays delay := by
  obtain ⟨q, ⟨ha, -⟩, hm⟩ := (attempting_reach hpunctual hw hcounted h).threads i _ hi
  have hentry : q.entry = .settle t := hm.entry.symm.trans he
  have hlife := hm.life
  have hallowed : q.allows (.enqueueIn delay m) := ha
  unfold Lap.allows at hallowed
  cases hl : q.life with
  | live =>
    rw [hl] at hallowed
    exact hallowed t hentry
  | failed =>
    rw [hl] at hallowed
    have hd := hallowed t hentry
    cases hd
  | void =>
    rw [hl] at hlife
    exact hlife.elim

theorem World.Counted.initial (clock validated : Nat) (held : Nat → Bool) :
    (World.initial clock validated held).Counted := by
  intro t x hx
  cases hx

end Orbyt
