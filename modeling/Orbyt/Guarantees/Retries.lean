/-
  Orbyt.Guarantees.Retries — how often work is retried

  Assumed of a run: workers are punctual, so that none takes a step more than `JOB_TIMEOUT` after
  its claim.  Nothing is assumed of the queue, the ledger or the database.

  Main results:
    * `automatic_retries_bounded` — between two retries by an admin a settlement is claimed at
      most `MAX_ATTEMPTS` times and its row comes to rest; a burn is published again at most
      `MAX_ATTEMPTS - 1` times; and every delay is in its table;
    * `attempts_overspent`        — a worker that is late puts back a row which another worker has
      in hand, with no attempt left.
-/
import Orbyt.Guarantees.Workers
import Orbyt.Invariants.Attempts
import Orbyt.Invariants.BurnAttempts

namespace Orbyt

open Interleave

variable {S : Setting} {clock validated : Nat} {held : Nat → Bool} {k k' : Config (platform S)}
  {t : Nat}

/-! ## §1. Between two retries. -/

/-- No step of the course is an admin's retry of `t`. -/
def Unretried (t : Nat) : Config (platform S) → Config (platform S) → Prop :=
  Course (fun k lab => ¬ Readmits t k lab)

/-- A run that never ends, with no retry of `t`. -/
structure Endless (t : Nat) (f : Nat → Config (platform S)) : Prop where
  steps : ∀ n, ∃ lab, (f n).step lab = some (f (n + 1)) ∧ ¬ Readmits t (f n) lab

theorem Endless.course {f : Nat → Config (platform S)} (h : Endless t f) :
    ∀ n, Unretried t (f 0) (f n)
  | 0 => .refl
  | n + 1 => by
      obtain ⟨lab, hs, hno⟩ := h.steps n
      exact Course.step (h.course n) hno hs

theorem count_phases (log : List SettlementStatus) :
    (log.map (·.phase)).count .running = log.count .processing := by
  induction log with
  | nil => rfl
  | cons a log ih =>
    rw [List.map_cons, List.count_cons, List.count_cons, ih]
    cases a <;> rfl

section Between

variable (hp : S.punctual = true)
  (h : Reach (M := platform S) (World.initial clock validated held) k)

include hp h

/-- Between two retries the history of a row grows by a few entries, and by few claims. -/
theorem unretried_log (hc : Unretried t k k') :
    ∃ new, k'.world.settlementLog t = new ++ k.world.settlementLog t ∧
      new.count .processing ≤ SettlementWorker.maxAttempts ∧
      new.length ≤ 2 * SettlementWorker.maxAttempts + 3 := by
  have hw := World.Orderly.initial clock validated held
  have hcounted := World.Counted.initial clock validated held
  obtain ⟨new, hlog, hrun⟩ := rounds_course hp hw hcounted h hc
  have hok := (attempting_reach hp hw hcounted h).world.roundOk t
  refine ⟨new, hlog, ?_, ?_⟩
  -- the claims are the entries into `processing`
  · rw [← count_phases]
    exact hrun.takes_le hok
  · have hlength := hrun.length_le hok
    have hleft := (roundOf (k.world.txns t)).left_le SettlementWorker.maxAttempts
    rw [List.length_map] at hlength
    omega

end Between

/-- **A ROW COMES TO REST**, as long as no admin retries it. -/
theorem endless_settles (hp : S.punctual = true) {f : Nat → Config (platform S)}
    (h₀ : Reach (M := platform S) (World.initial clock validated held) (f 0)) (h : Endless t f) :
    ∃ N, ∀ n, N ≤ n → (f n).world.settlementLog t = (f N).world.settlementLog t := by
  have hw := World.Orderly.initial clock validated held
  have hcounted := World.Counted.initial clock validated held
  have hmost : ∀ n, ((f n).world.settlementLog t).length ≤
      2 * SettlementWorker.maxAttempts + 3 + ((f 0).world.settlementLog t).length := by
    intro n
    obtain ⟨new, hlog, -, hlength⟩ := unretried_log hp h₀ (h.course n)
    rw [hlog, List.length_append]
    omega
  refine RetryLoop.settles (fun n => (f n).world.settlementLog t) (fun n => ?_) hmost
  obtain ⟨lab, hs, hno⟩ := h.steps n
  obtain ⟨new, hlog, -⟩ := round_step hp hw hcounted ((h.course n).reach h₀) hs hno
  exact ⟨new, hlog⟩

/-! ## §2. The bounds. -/

/-- **AUTOMATIC RETRIES ARE BOUNDED**, for every ledger, queue and database and however often
a message is delivered, in every run with no late step of a worker. -/
theorem automatic_retries_bounded (hp : S.punctual = true)
    (h : Reach (M := platform S) (World.initial clock validated held) k) :
    -- what is queued has an attempt left
    (∀ t x, k.world.txns t = some x →
      (x.settlementStatus = .queued → x.settlementAttempts < SettlementWorker.maxAttempts) ∧
      (x.settlementStatus = .processing → x.settlementAttempts ≤ SettlementWorker.maxAttempts)) ∧
    -- from here on, until an admin retries the row
    (∀ t k', Unretried t k k' → ∃ new, k'.world.settlementLog t = new ++ k.world.settlementLog t ∧
      new.count .processing ≤ SettlementWorker.maxAttempts ∧
      new.length ≤ 2 * SettlementWorker.maxAttempts + 3) ∧
    (∀ t f, f 0 = k → Endless t f →
      ∃ N, ∀ n, N ≤ n → (f n).world.settlementLog t = (f N).world.settlementLog t) ∧
    -- the retries of a burn so far, in all
    (∀ r n, Tally (rerunsBurn r) (World.initial clock validated held) k n →
      n ≤ CashoutWorker.maxAttempts - 1) ∧
    -- what is about to be published again
    (∀ i delay m l f, k.threads i = some ⟨l, .op (.enqueueIn delay m) f⟩ →
      (∀ t, l.entry = .settle t → ∃ n, n < SettlementWorker.maxAttempts ∧
        SettlementWorker.retryDelays[max n 1 - 1]? = some delay) ∧
      ∀ r, m = .burn r → ∃ b, 1 ≤ b ∧ b < CashoutWorker.maxAttempts ∧
        CashoutWorker.retryDelays[b - 1]? = some delay) := by
  have hw := World.Orderly.initial clock validated held
  have hcounted := World.Counted.initial clock validated held
  refine ⟨fun t x hx => ?_, fun t k' hc => unretried_log hp h hc, fun t f h₀ hf => ?_,
    fun r n hn => ?_, fun i delay m l f hi => ⟨fun t he => ?_, fun r hm => ?_⟩⟩
  · have hok := ((attempting_reach hp hw hcounted h).world t x hx).ok
    refine ⟨fun hs => hok.ahead ?_, fun _ => hok.most⟩
    show x.settlementStatus.phase.isAhead = true
    rw [hs]
    rfl
  · subst h₀
    exact endless_settles hp h hf
  · obtain ⟨holders, hpermitted⟩ := rerun_tally hw hn
    exact hpermitted.permits.spent_le
  · exact delayed_reach hp hw hcounted h hi he
  · subst hm
    exact reruns_reach hw h hi

/-- The faucet is down; the worker has put the row back and is about to publish its retry. -/
def handingBack : List (Label (platform .usual)) :=
  sending .usual 0 sendToTwo 2 fiveToTwo ++ confirming .usual 1 0
    ++ .start (.settle 0) :: steps .usual 2 5
    ++ raising .usual 2 (.xrpl false "faucet unavailable") ++ steps .usual 2 4

def delayOf (i : Nat) (k : Config (platform S)) : Option Nat :=
  match (k.threads i).bind fun th => nextCall th.rest with
  | some (.enqueueIn delay _) => some delay
  | _ => none

theorem automatic_retries_bounded_handingBack :
    ∃ (k : Config (platform .usual)) (x : Txn), Reach World.empty k ∧
      k.world.txns 0 = some x ∧ x.settlementStatus = .queued ∧ delayOf 2 k = some 10 ∧
      x.settlementAttempts < SettlementWorker.maxAttempts := by
  have hrun : (Config.run handingBack (Config.initial World.empty)).map
      (fun k => ((k.world.txns 0).map (·.settlementStatus), delayOf 2 k))
        = some (some .queued, some 10) := by decide +kernel
  obtain ⟨k, hk, hend⟩ := Reach.of_run_map hrun
  obtain ⟨hstatus, hdelay⟩ := Prod.mk.inj hend
  obtain ⟨x, hx, hqueued⟩ := Option.map_eq_some_iff.mp hstatus
  exact ⟨k, x, hk, hx, hqueued, hdelay, ((automatic_retries_bounded rfl hk).1 0 x hx).1 hqueued⟩

/-- Program `i` claims row 0, and hands it back to the queue. -/
def handingBackAgain (i : Nat) : List (Label (platform .slow)) :=
  .start (.settle 0) :: steps .slow i 5 ++ raising .slow i (.xrpl false "faucet unavailable")
    ++ steps .slow i 5 ++ [.stop i]

/-- Worker 2 claims row 0 and stalls, and an admin retries the row.  Workers 4 and 5 fail and hand
it back, and worker 6 claims it for the third time; then worker 2 goes on, fails, and hands the
row back in its place. -/
def overspending : List (Label (platform .slow)) :=
  claiming ++ takingOver ++ handingBackAgain 4 ++ handingBackAgain 5
    ++ .start (.settle 0) :: steps .slow 6 3
    ++ raising .slow 2 (.xrpl false "faucet unavailable") ++ steps .slow 2 4

theorem attempts_overspent :
    ¬ ∀ k : Config (platform .slow), Reach World.empty k → ∀ t x, k.world.txns t = some x →
      (x.settlementStatus = .queued → x.settlementAttempts < SettlementWorker.maxAttempts) ∧
      (x.settlementStatus = .processing → x.settlementAttempts ≤ SettlementWorker.maxAttempts) := by
  intro hall
  have hrun : (Config.run overspending (Config.initial World.empty)).map
      (fun k => (k.world.txns 0).map (fun x => (x.settlementStatus, x.settlementAttempts)))
        = some (some (.queued, 3)) := by decide +kernel
  obtain ⟨k, hk, hend⟩ := Reach.of_run_map hrun
  obtain ⟨x, hx, hrow⟩ := Option.map_eq_some_iff.mp hend
  obtain ⟨hqueued, hattempts⟩ := Prod.mk.inj hrow
  have hleft := (hall k hk 0 x hx).1 hqueued
  rw [hattempts] at hleft
  exact absurd hleft (by decide)

end Orbyt
