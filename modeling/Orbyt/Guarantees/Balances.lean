/-
  Orbyt.Guarantees.Balances — what the wallets and the cash-outs may be relied on for

  Main results:
    * `cashout_lifecycle` — in every run a cash-out moves along its four edges, is
      debited once if it was ever approved, restored once if it went from approved
      to failed, and carries a payout reference exactly when it is completed;
    * `wallet_conserved` — where no wallet is locked through a stale copy, every
      balance is what was credited less what is reserved; `wallet_not_conserved` is
      a run of two approvals in which one of the debits is lost.
-/
import Orbyt.Invariants.Books

namespace Orbyt

open Interleave
open Trails

variable {S : Setting} {clock validated : Nat} {held : Nat → Bool} {k : Config (platform S)}

/-! ## §1. Scripts. -/

/-- A send of five millionths to user 2. -/
def fiveToTwo : Quote := ⟨100, 1, 99, 1, 1, 1, 5⟩

def sendToTwo : SendForm := ⟨1, true, true, 7, 100, ⟨1, 1, 5⟩⟩

/-- User 2 cashes two millionths out. -/
def twoFromTwo : CashOutForm := ⟨2, 2, .USD, none⟩

def twoPricing : CashOutPricing := ⟨2, .USD, 1, 0, 0, 0, 2⟩

/-- Transaction 0 is sent, confirmed and settled, so that user 2 has a wallet. -/
def funding (S : Setting) : List (Label (platform S)) :=
  sending S 0 sendToTwo 2 fiveToTwo ++ confirming S 1 0 ++ settlingFirst S 2 0 1 120
    ++ closing S [(1, .tesSUCCESS)] ++ steps S 2 7 ++ [.stop 2]

/-- User 2 opens a cash-out, as program `i`. -/
def requesting (S : Setting) (i : Nat) : List (Label (platform S)) :=
  .start (.createRequest twoFromTwo) :: steps S i 2 ++ answering S i [.pricing twoPricing]
    ++ steps S i 3 ++ [.stop i]

/-! ## §2. Cash-outs. -/

theorem Move.times_eq {settlementLog : Nat → List SettlementStatus}
    {statusLog : Nat → List CashOutStatus} {m : Move} {p : Prop} [Decidable p]
    (h : m.due settlementLog statusLog = decide p) :
    m.times settlementLog statusLog = if p then 1 else 0 := by
  unfold Move.times
  rw [h]
  by_cases hp : p <;> simp [hp]

/-- **A CASH-OUT MOVES FORWARD, AND ITS MONEY ONCE**: whatever the runs of approvals,
rejections, burns, sweeps and reconciliations on it. -/
theorem cashout_lifecycle
    (h : Reach (M := platform S) (World.initial clock validated held) k) (r : Nat) :
    (∀ a b, [b, a] <:+: k.world.statusLog r → CashOutStatus.Edge a b) ∧
    k.world.moves.count (.debit r) = (if .approved ∈ k.world.statusLog r then 1 else 0) ∧
    k.world.moves.count (.restore r)
      = (if [.failed, .approved] <:+: k.world.statusLog r then 1 else 0) ∧
    ∀ q, k.world.reqs r = some q →
      (k.world.statusLog r).head? = some q.status ∧
      (q.fiatPayoutReference.isSome = true ↔ q.status = .completed) ∧
      (q.status ≠ .failed ∨ .approved ∉ k.world.statusLog r →
        k.world.moves.count (.restore r) = 0) := by
  have hlife := lifecycle_reach (.initial clock validated held) h
  have hbooks := books_reach (.initial clock validated held) (.initial S clock validated held) h
  have hdebit := (hbooks.moves (.debit r)).trans (Move.times_eq rfl)
  have hrestore := (hbooks.moves (.restore r)).trans (Move.times_eq rfl)
  -- the books give the counts, the trail of each row its edges
  refine ⟨fun a b hab => ?_, hdebit, hrestore, fun q hq => ?_⟩
  · cases hr : k.world.reqs r with
    | none =>
      rw [hlife.noReq r hr] at hab
      simp at hab
    | some q => exact (hlife.req r q hr).trail.isEdge hab
  · have hlog := hlife.req r q hq
    refine ⟨hlog.head, hlog.paidOut, fun hnot => ?_⟩
    rw [hrestore, if_neg]
    intro hi
    rcases hnot with hnf | hna
    · exact hlog.not_failed hnf (hi.subset (by simp))
    · exact hna (hi.subset (by simp))

/-- A cash-out whose burn could not be published: debited, and restored. -/
def outage (S : Setting) : List (Label (platform S)) :=
  funding S ++ requesting S 3 ++ [.start (.approve 1 9)] ++ steps S 4 7
    ++ raising S 4 (.broker "ConnectionError" "") ++ steps S 4 5

theorem cashout_lifecycle_outage :
    ∃ k, Reach (M := platform .usual) World.empty k ∧
      k.world.statusLog 1 = [.failed, .approved, .requested] ∧
      k.world.moves.count (.debit 1) = 1 ∧ k.world.moves.count (.restore 1) = 1 := by
  have hrun : (Config.run (outage .usual) (Config.initial World.empty)).map
      (fun k => k.world.statusLog 1) = some [.failed, .approved, .requested] := by decide +kernel
  obtain ⟨k, hk, hlog⟩ := Reach.of_run_map hrun
  obtain ⟨-, hdebit, hrestore, -⟩ := cashout_lifecycle hk 1
  rw [hlog] at hdebit hrestore
  exact ⟨k, hk, hlog, hdebit, hrestore⟩

/-! ## §3. Wallets. -/

/-- Every balance is what settlements have credited less what cash-outs have reserved. -/
def World.Conserved (s : World) : Prop :=
  ∀ u w, s.wallets u = some w → w.balanceUctusd = s.credited u - s.reserved u

/-- **WALLETS ARE CONSERVED** in every run in which no session locks a wallet row of which
it holds a stale copy. -/
theorem wallet_conserved (hf : S.freshLock = true)
    (h : Reach (M := platform S) (World.initial clock validated held) k) :
    k.world.Conserved := by
  intro u w hw
  have hbooks := books_reach (.initial clock validated held) (.initial S clock validated held) h
  have hmoney := hbooks.money hf u
  rw [hw] at hmoney
  exact hmoney

theorem wallet_conserved_outage :
    ∃ k, Reach (M := platform { Setting.usual with freshLock := true }) World.empty k ∧
      k.world.Conserved ∧ (k.world.wallets 2).map (·.balanceUctusd) = some 5 := by
  have hrun : (Config.run (outage { Setting.usual with freshLock := true })
      (Config.initial World.empty)).map (fun k => (k.world.wallets 2).map (·.balanceUctusd))
        = some (some 5) := by decide +kernel
  obtain ⟨k, hk, hw⟩ := Reach.of_run_map hrun
  exact ⟨k, hk, wallet_conserved rfl hk, hw⟩

/-- Two approvals load the wallet, then lock it one after the other: the second debits the
balance it had loaded. -/
def lostDebit : List (Label (platform .usual)) :=
  funding .usual ++ requesting .usual 3 ++ requesting .usual 4
    ++ [.start (.approve 1 9), .start (.approve 2 9)] ++ steps .usual 5 2 ++ steps .usual 6 2
    ++ steps .usual 5 6 ++ steps .usual 6 6

theorem wallet_not_conserved :
    ¬ ∀ k, Reach (M := platform .usual) World.empty k → k.world.Conserved := by
  intro hall
  have hrun : (Config.run lostDebit (Config.initial World.empty)).map
      (fun k => (k.world.wallets 2, k.world.credited 2, k.world.reserved 2))
        = some (some ⟨0, encryptSeed 0, true, 3⟩, 5, 4) := by decide +kernel
  obtain ⟨k, hk, hsums⟩ := Reach.of_run_map hrun
  obtain ⟨hw, hcredited, hreserved⟩ : k.world.wallets 2 = some ⟨0, encryptSeed 0, true, 3⟩ ∧
      k.world.credited 2 = 5 ∧ k.world.reserved 2 = 4 := by simpa using hsums
  have hbal := hall k hk 2 _ hw
  rw [hcredited, hreserved] at hbal
  exact absurd hbal (by decide)

end Orbyt
