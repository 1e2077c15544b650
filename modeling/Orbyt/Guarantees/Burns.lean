/-
  Orbyt.Guarantees.Burns — what a cash-out's burn may be relied on for

  Main results:
    * `no_double_burn` — at most one burn signed for a cash-out is ever handed over;
    * `restored_not_burned` — where a publish failure is recorded only on a row that no worker
      has taken up, a cash-out whose reserve was restored is never burned;
      `restored_and_burned` is a run in which the publish raises after its delivery.
-/
import Orbyt.Guarantees.Balances
import Orbyt.Invariants.Resolving

namespace Orbyt

open Interleave
open Trails

variable {S : Setting} {clock validated : Nat} {held : Nat → Bool} {k : Config (platform S)}

/-! ## §1. Scripts. -/

/-- Cash-out 1 is opened and approved, up to the publish of its burn. -/
def approving (S : Setting) : List (Label (platform S)) :=
  funding S ++ requesting S 3 ++ [.start (.approve 1 9)] ++ steps S 4 7

/-- A burn job, as program `i`, up to where it signs. -/
def claimingBurn (S : Setting) (i : Nat) : List (Label (platform S)) :=
  .start (.burn 1) :: steps S i 7

/-- Its burn is signed, stored and handed over. -/
def submittingBurn (S : Setting) (i last : Nat) : List (Label (platform S)) :=
  answering S i [.lastLedger (some last)] ++ steps S i 4

/-! ## §2. One burn. -/

/-- **NO DOUBLE BURN**, whatever the deliveries, sweeps, retries and reconciliations. -/
theorem no_double_burn (hp : S.punctual = true)
    (h : Reach (M := platform S) (World.initial clock validated held) k) (r : Nat) :
    ∀ (h₁ h₂ : Nat) (b₁ b₂ : Blob),
      k.world.blobs[h₁]? = some b₁ → b₁.purpose = .burn r → k.world.handed h₁ = true →
      k.world.blobs[h₂]? = some b₂ → b₂.purpose = .burn r → k.world.handed h₂ = true → h₁ = h₂ := by
  intro h₁ h₂ b₁ b₂ hb₁ hp₁ hh₁ hb₂ hp₂ hh₂
  have hburns := burning_reach hp (.initial clock validated held) (.initial clock validated held) h
  obtain ⟨q₁, hq₁, hhash₁⟩ := hburns.recorded h₁ b₁ r hb₁ hp₁ hh₁
  obtain ⟨q₂, hq₂, hhash₂⟩ := hburns.recorded h₂ b₂ r hb₂ hp₂ hh₂
  obtain rfl : q₁ = q₂ := Option.some.inj (hq₁.symm.trans hq₂)
  exact Option.some.inj (hhash₁.symm.trans hhash₂)

/-- A burn is handed over; a duplicate of its message finds nothing to claim. -/
def duplicateMessage : List (Label (platform .usual)) :=
  approving .usual ++ steps .usual 4 1 ++ [.stop 4] ++ claimingBurn .usual 5
    ++ submittingBurn .usual 5 140 ++ .start (.burn 1) :: steps .usual 6 3

theorem no_double_burn_duplicate :
    ∃ k, Reach (M := platform .usual) World.empty k ∧ k.world.handed 2 = true ∧
      ∀ (h : Nat) (b : Blob), k.world.blobs[h]? = some b → b.purpose = .burn 1 →
        k.world.handed h = true → h = 2 := by
  have hrun : (Config.run duplicateMessage (Config.initial World.empty)).map
      (fun k => (k.world.handed 2, (k.world.blobs[2]?).map (·.purpose)))
        = some (true, some (.burn 1)) := by decide +kernel
  obtain ⟨k, hk, hend⟩ := Reach.of_run_map hrun
  obtain ⟨hhanded, hblob⟩ := Prod.mk.inj hend
  obtain ⟨b₂, hb₂, hp₂⟩ := Option.map_eq_some_iff.mp hblob
  exact ⟨k, hk, hhanded, fun h b hb hp hh => no_double_burn rfl hk 1 h 2 b b₂ hb hp hh hb₂
    hp₂ hhanded⟩

/-! ## §3. Restored reserves. -/

/-- No burn signed for `r` is validated with `tesSUCCESS`. -/
def World.Unburned (s : World) (r : Nat) : Prop :=
  ∀ (h : Nat) (b : Blob), s.blobs[h]? = some b → b.purpose = .burn r → ¬ s.Paid h

/-- **WHAT IS RESTORED IS NOT BURNED**, then or later, in every run in which a publish failure
is recorded only on a row that no worker has taken up. -/
theorem restored_not_burned (hp : S.punctual = true) (hv : S.oneLedgerView = true)
    (hq : S.quietPublishFailure = true)
    (h : Reach (M := platform S) (World.initial clock validated held) k) (r : Nat)
    (hr : [.failed, .approved] <:+: k.world.statusLog r) : k.world.Unburned r := by
  intro m b hb hpurpose hpaid
  have hw := World.Orderly.initial clock validated held
  have horderly := ((rules_kept S).reach hw h).world
  have hburns := burning_reach hp hw (.initial clock validated held) h
  -- what is paid was handed over, so it is on the row
  obtain ⟨n, hn⟩ := hpaid
  have hhanded := (horderly.regular.included m _ hn).1
  obtain ⟨q, hrow, hhash⟩ := hburns.recorded m b r hb hpurpose hhanded
  have hlog := horderly.lifecycle.req r q hrow
  have hfailed : q.status = .failed := by
    have hhead := hlog.trail.absorbed (a := .failed) nofun (hr.subset (by simp))
    exact Option.some.inj (hlog.head.symm.trans hhead)
  have hlost := (hburns.rows r q hrow).lost hq hv hfailed m hhash
  exact hlost.not_paid horderly.regular ⟨n, hn⟩

def Setting.quietOutages : Setting := { Setting.usual with quietPublishFailure := true }

/-- A burn that is malformed, so that the worker restores the reserve. -/
def malformedBurn : List (Label (platform .quietOutages)) :=
  approving .quietOutages ++ steps .quietOutages 4 1 ++ [.stop 4] ++ claimingBurn .quietOutages 5
    ++ submittingBurn .quietOutages 5 140
    ++ raising .quietOutages 5 (.xrpl true "temBAD_AMOUNT: bad amount") ++ steps .quietOutages 5 4

theorem restored_not_burned_malformed :
    ∃ k, Reach (M := platform .quietOutages) World.empty k ∧
      k.world.statusLog 1 = [.failed, .approved, .requested] ∧ k.world.handed 2 = true ∧
      k.world.Unburned 1 := by
  have hrun : (Config.run malformedBurn (Config.initial World.empty)).map
      (fun k => (k.world.statusLog 1, k.world.handed 2))
        = some ([.failed, .approved, .requested], true) := by decide +kernel
  obtain ⟨k, hk, hend⟩ := Reach.of_run_map hrun
  obtain ⟨hlog, hhanded⟩ := Prod.mk.inj hend
  refine ⟨k, hk, hlog, hhanded, restored_not_burned rfl rfl rfl hk 1 ?_⟩
  rw [hlog]
  exact ⟨[], [.requested], rfl⟩

/-- The publish raises although the broker has delivered the message; the worker claims the
row, the approval restores the reserve, and the worker signs and burns. -/
def deliveredAndLost : List (Label (platform .usual)) :=
  approving .usual ++ losing .usual 4 (.broker "ConnectionError" "") ++ claimingBurn .usual 5
    ++ steps .usual 4 5 ++ submittingBurn .usual 5 140 ++ closing .usual [(2, .tesSUCCESS)]

theorem restored_and_burned :
    ¬ ∀ k, Reach (M := platform .usual) World.empty k → ∀ r,
      [.failed, .approved] <:+: k.world.statusLog r → k.world.Unburned r := by
  intro hall
  have hrun : (Config.run deliveredAndLost (Config.initial World.empty)).map
      (fun k => (k.world.statusLog 1, (k.world.blobs[2]?).map (·.purpose),
        k.world.ledger.included 2))
        = some ([.failed, .approved, .requested], some (.burn 1), some (103, .tesSUCCESS)) := by
    decide +kernel
  obtain ⟨k, hk, hend⟩ := Reach.of_run_map hrun
  simp only [Prod.mk.injEq] at hend
  obtain ⟨hlog, hblob, hincluded⟩ := hend
  obtain ⟨b, hb, hpurpose⟩ := Option.map_eq_some_iff.mp hblob
  refine hall k hk 1 ?_ 2 b hb hpurpose ⟨103, hincluded⟩
  rw [hlog]
  exact ⟨[], [.requested], rfl⟩

end Orbyt
