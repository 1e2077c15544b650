/-
  Orbyt.Guarantees.Coverage — what a recipient may count on having

  Assumed of a run: `price_cashout` prices the amount it is asked to price, and no wallet is
  locked through a stale copy.

  Main results:
    * `requests_covered`    — all the cash-outs that await approval are covered by the balance,
      so every one of them can be approved, whatever becomes of the others;
    * `approval_refused_late` — an approval is refused only for a request that has been
      actioned already, never for want of a wallet or of balance.
-/
import Orbyt.Guarantees.Balances
import Orbyt.Invariants.Covered

namespace Orbyt

open Interleave

variable {S : Setting} {clock validated : Nat} {held : Nat → Bool}
  {k : Config (pricedPlatform S)}

/-! ## §1. Requests. -/

/-- What `available_balance` comes to in one state. -/
def World.availableBalance (s : World) (u : Nat) : Int :=
  balanceOf (s.wallets u) - sumRequested s.reqs s.nextId u

/-- **REQUESTS ARE COVERED**: in every reachable state what is available to a recipient is not
negative, and the stored balance does for every request that awaits approval. -/
theorem requests_covered (hf : S.freshLock = true)
    (h : Reach (M := pricedPlatform S) (World.initial clock validated held) k) :
    (∀ u, 0 ≤ k.world.availableBalance u) ∧
    ∀ r q, k.world.reqs r = some q → q.status = .requested →
      ∃ w, k.world.wallets q.walletId = some w ∧ (q.uctusdAmount : Int) ≤ w.balanceUctusd := by
  have hw : (World.initial clock validated held).Orderly := .initial clock validated held
  have hb : Books S (World.initial clock validated held) := .initial S clock validated held
  have hcovered := covering_reach hf hw hb (.initial clock validated held) h
  have hbooks := pricedPlatform_books hw hb h
  have hregular := ((rules_kept S).restrict.reach hw h).world.regular
  refine ⟨fun u => ?_, fun r q hq hst => ?_⟩
  -- what waits on a wallet is at most its balance
  · have hwaits := hcovered.waiting_le hbooks hf u
    have hsum := sumRequested_waiting (u := u) hcovered.own
    unfold World.availableBalance
    omega
  · obtain ⟨-, hthere⟩ := hcovered.own r q hq
    obtain ⟨w, hw⟩ := Option.isSome_iff_exists.mp hthere
    -- and each request is part of what waits
    have hpart := World.waiting_ge (hregular.reqIds r q hq) hq rfl hst
    have hwhole := hcovered.waiting_le hbooks hf q.walletId
    rw [hw] at hwhole
    exact ⟨w, hw, Int.le_trans hpart hwhole⟩

/-! ## §2. Scripts. -/

/-- User 2 cashes out all there is, as program 3. -/
def allFromTwo (S : Setting) : List (Label (platform S)) :=
  funding S ++ [.start (.createRequest ⟨2, 5, .USD, none⟩)] ++ steps S 3 2
    ++ answering S 3 [.pricing ⟨5, .USD, 1, 0, 0, 0, 5⟩] ++ steps S 3 3 ++ [.stop 3]

/-- Two administrators approve it, one after the other. -/
def approvedTwice (S : Setting) : List (Label (platform S)) :=
  allFromTwo S ++ [.start (.approve 1 8)] ++ steps S 4 8 ++ [.stop 4, .start (.approve 1 9)]
    ++ steps S 5 3

/-- No session locks a wallet through a stale copy. -/
def Setting.freshLocks : Setting := { Setting.usual with freshLock := true }

theorem requests_covered_all :
    ∃ k, Reach (M := pricedPlatform .freshLocks) World.empty k ∧
      sumRequested k.world.reqs k.world.nextId 2 = 5 ∧ 0 ≤ k.world.availableBalance 2 := by
  have hrun : (Config.run ((allFromTwo .freshLocks).map .restrict)
      (Config.initial (M := pricedPlatform .freshLocks) World.empty)).map
      (fun k => sumRequested k.world.reqs k.world.nextId 2) = some 5 := by decide +kernel
  obtain ⟨k, hk, hsum⟩ := Reach.of_run_map hrun
  exact ⟨k, hk, hsum, (requests_covered rfl hk).1 2⟩

/-! ## §3. Approvals. -/

/-- **APPROVALS ARE REFUSED LATE**: a refused approval is one of a request that has been
actioned by then, whatever its message says of the wallet or the balance. -/
theorem approval_refused_late (hf : S.freshLock = true)
    (h : Reach (M := pricedPlatform S) (World.initial clock validated held) k) {i r admin : Nat}
    {th : Thread (pricedPlatform S)} {text : String} (hth : k.threads i = some th)
    (hentry : th.session.entry = .approve r admin) (hraised : th.raised = some (.cashOut text)) :
    ∃ q, k.world.reqs r = some q ∧ q.status ≠ .requested := by
  have hw : (World.initial clock validated held).Orderly := .initial clock validated held
  have hb : Books S (World.initial clock validated held) := .initial S clock validated held
  have hends := (covering_promises hf).reach (covering_sound hf) (rules_kept S).restrict hw
    (.initial clock validated held) (fun _ hc => pricedPlatform_books hw hb hc) h i th hth
  exact hends.2 _ (Thread.raised_eq hraised) r admin hentry text rfl

/-- The second approval finds that nothing is left. -/
theorem approval_refused_late_twice :
    ∃ k, Reach (M := pricedPlatform .freshLocks) World.empty k ∧
      ∃ q, k.world.reqs 1 = some q ∧ q.status ≠ .requested := by
  have hrun : (Config.run ((approvedTwice .freshLocks).map .restrict)
      (Config.initial (M := pricedPlatform .freshLocks) World.empty)).map
      (fun k => (k.threads 5).map fun th => (th.session.entry, th.raised))
        = some (some (.approve 1 9, some (.cashOut ("Balance is only 0.000000 UCTUSD, not "
          ++ "enough to reserve 0.000005. The recipient may have cashed out since this was "
          ++ "requested.")))) := by decide +kernel
  obtain ⟨k, hk, hend⟩ := Reach.of_run_map hrun
  obtain ⟨th, hth, hth'⟩ := Option.map_eq_some_iff.mp hend
  obtain ⟨hentry, hraised⟩ := Prod.mk.inj hth'
  exact ⟨k, hk, approval_refused_late rfl hk hth hentry hraised⟩

end Orbyt
