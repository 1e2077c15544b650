/-
  Orbyt.Guarantees.Payments — what a settlement may be relied on for

  Main results:
    * `no_double_payment` — at most one payment of a transaction is ever validated with
      `tesSUCCESS`, and the recipient is credited for it, once;
    * `transaction_lifecycle` — the statuses of a transaction and its recorded attempt
      agree, where a retry completes a row only with the hash the row still carries;
      `transaction_not_lifecycle` is a run of two retries in which one of them completes a
      row whose ledger range the other has cleared.
-/
import Orbyt.Guarantees.Balances
import Orbyt.Invariants.Retrying

namespace Orbyt

open Interleave
open Trails

variable {S : Setting} {clock validated : Nat} {held : Nat → Bool} {k : Config (platform S)}

/-! ## §1. Scripts. -/

/-- Transaction 0 is sent, confirmed and paid with the blob 1, and the worker does not learn
the outcome. -/
def unknownOutcome (S : Setting) : List (Label (platform S)) :=
  sending S 0 sendToTwo 2 fiveToTwo ++ confirming S 1 0 ++ settlingFirst S 2 0 1 120
    ++ raising S 2 (.xrpl false "timeout") ++ steps S 2 4 ++ [.stop 2]

/-- A retry, as program `i`, that finds the attempt dead and requeues the row. -/
def retiring (S : Setting) (i : Nat) : List (Label (platform S)) :=
  .start (.settlementRetry 0) :: steps S i 3 ++ answering S i [.flag true] ++ steps S i 3

/-! ## §2. Payments. -/

/-- **NO DOUBLE PAYMENT**, whatever the deliveries, crashes, retries and requeues. -/
theorem no_double_payment (hS : 1 ≤ S.minTick) (hp : S.punctual = true)
    (hv : S.oneLedgerView = true)
    (h : Reach (M := platform S) (World.initial clock validated held) k) (t : Nat) :
    (∀ (h₁ h₂ : Nat) (b₁ b₂ : Blob),
      k.world.blobs[h₁]? = some b₁ → b₁.purpose = .payment t → k.world.Paid h₁ →
      k.world.blobs[h₂]? = some b₂ → b₂.purpose = .payment t → k.world.Paid h₂ → h₁ = h₂) ∧
    k.world.moves.count (.credit t) ≤ 1 ∧
    (0 < k.world.moves.count (.credit t) →
      ∃ (m : Nat) (b : Blob), k.world.blobs[m]? = some b ∧ b.purpose = .payment t ∧
        k.world.Paid m) := by
  have hw := World.Orderly.initial clock validated held
  have horderly := ((rules_kept S).reach hw h).world
  have hset := settlement_reach hS hp (.inl hv) hw (.initial clock validated held) h
  have hbooks := books_reach hw (.initial S clock validated held) h
  have hcredit := (hbooks.moves (.credit t)).trans (Move.times_eq rfl)
  -- what is paid was handed over, so it is on the row, and it is the row's live attempt
  have hlive : ∀ (m : Nat) (b : Blob), k.world.blobs[m]? = some b → b.purpose = .payment t →
      k.world.Paid m → ∃ x, k.world.txns t = some x ∧ x.xrplTxHash = some m := by
    intro m b hb hpurpose hpaid
    obtain ⟨n, hn⟩ := hpaid
    have hhanded := (horderly.regular.included m _ hn).1
    obtain ⟨x, hx, hmem⟩ := hset.recorded m b t hb hpurpose hhanded
    exact ⟨x, hx, (hset.rows t x hx).live_of_paid hv hmem ⟨n, hn⟩⟩
  refine ⟨fun h₁ h₂ b₁ b₂ hb₁ hp₁ hpaid₁ hb₂ hp₂ hpaid₂ => ?_, ?_, fun hpos => ?_⟩
  · obtain ⟨x, hx, hh₁⟩ := hlive h₁ b₁ hb₁ hp₁ hpaid₁
    obtain ⟨y, hy, hh₂⟩ := hlive h₂ b₂ hb₂ hp₂ hpaid₂
    obtain rfl : x = y := Option.some.inj (hx.symm.trans hy)
    exact Option.some.inj (hh₁.symm.trans hh₂)
  · rw [hcredit]
    split <;> omega
  · have hdone : .completed ∈ k.world.settlementLog t := by
      by_contra hn
      rw [hcredit, if_neg hn] at hpos
      omega
    cases hx : k.world.txns t with
    | none =>
      rw [(horderly.lifecycle.noTxn t hx).1] at hdone
      cases hdone
    | some x =>
      have hcompleted := (horderly.lifecycle.txn t x hx).completed_iff.mp hdone
      obtain ⟨-, m, hm, hpaid⟩ := (hset.rows t x hx).paid hcompleted
      obtain ⟨b, hb, hpurpose, -⟩ := ((hset.rows t x hx).live m hm).blob
      exact ⟨m, b, hb, hpurpose, hpaid⟩

/-- The first payment is never included, an admin retries, and the second is paid. -/
def secondAttempt : List (Label (platform .usual)) :=
  unknownOutcome .usual ++ idling .usual 20 ++ retiring .usual 3 ++ steps .usual 3 1 ++ [.stop 3]
    ++ .start (.settle 0) :: steps .usual 4 8 ++ answering .usual 4 [.lastLedger (some 140)]
    ++ steps .usual 4 4 ++ closing .usual [(2, .tesSUCCESS)] ++ steps .usual 4 7

theorem no_double_payment_second :
    ∃ k, Reach (M := platform .usual) World.empty k ∧ k.world.moves.count (.credit 0) = 1 ∧
      ∃ (m : Nat) (b : Blob), k.world.blobs[m]? = some b ∧ b.purpose = .payment 0 ∧
        k.world.Paid m := by
  have hrun : (Config.run secondAttempt (Config.initial World.empty)).map
      (fun k => k.world.moves) = some [.credit 0] := by decide +kernel
  obtain ⟨k, hk, hmoves⟩ := Reach.of_run_map hrun
  have hcount : k.world.moves.count (.credit 0) = 1 := by
    rw [hmoves]
    rfl
  obtain ⟨-, -, hpaid⟩ := no_double_payment (by decide) rfl rfl hk 0
  exact ⟨k, hk, hcount, hpaid (by omega)⟩

/-! ## §3. Statuses. -/

/-- What the statuses of a row, its hash and its ledger range say of each other. -/
structure Txn.Consistent (x : Txn) : Prop where
  received : x.settlementStatus ≠ .notQueued ↔ x.cashinStatus = .received
  queued : x.settlementStatus = .queued → x.xrplTxHash = none ∧
    x.settlementLastLedgerSequence = none ∧ x.settlementSubmittedLedgerIndex = none
  completed : x.settlementStatus = .completed →
    x.xrplTxHash.isSome = true ∧ x.settledAt.isSome = true
  ranged : x.xrplTxHash.isSome = true →
    x.settlementLastLedgerSequence.isSome = true ∧ x.settlementSubmittedLedgerIndex.isSome = true

/-- The row of `t` is consistent, has moved along edges only, and is in an absorbing status
once it has been in one. -/
structure World.InOrder (s : World) (t : Nat) : Prop where
  row : ∀ x, s.txns t = some x → x.Consistent ∧
    (s.settlementLog t).head? = some x.settlementStatus ∧
    (s.cashinLog t).head? = some x.cashinStatus
  edges : ∀ a b, [b, a] <:+: s.settlementLog t → SettlementStatus.Edge a b
  received : .received ∈ s.cashinLog t → (s.cashinLog t).head? = some .received
  refused : .failed ∈ s.cashinLog t → (s.cashinLog t).head? = some .failed
  completed : .completed ∈ s.settlementLog t → (s.settlementLog t).head? = some .completed

/-- **TRANSACTIONS STAY IN ORDER** in every run in which a retry completes a row only with
the hash the row still carries. -/
theorem transaction_lifecycle (hS : 1 ≤ S.minTick) (hp : S.punctual = true)
    (hc : S.carriesLastLedger = true) (hsame : S.sameHashReconcile = true)
    (h : Reach (M := platform S) (World.initial clock validated held) k) (t : Nat) :
    k.world.InOrder t := by
  have hw := World.Orderly.initial clock validated held
  have hlife := lifecycle_reach hw h
  have hset := settlement_reach hS hp (.inr hsame) hw (.initial clock validated held) h
  cases hx : k.world.txns t with
  | none =>
    -- no row, no history
    obtain ⟨hs, hcash⟩ := hlife.noTxn t hx
    refine ⟨fun x hx' => ?_, fun a b hab => ?_, fun hm => ?_, fun hm => ?_, fun hm => ?_⟩
    · rw [hx] at hx'
      cases hx'
    · rw [hs] at hab
      simp at hab
    · rw [hcash] at hm
      cases hm
    · rw [hcash] at hm
      cases hm
    · rw [hs] at hm
      cases hm
  | some x =>
    have hlog := hlife.txn t x hx
    have hkept := hset.rows t x hx
    refine ⟨fun y hy => ?_, fun a b hab => hlog.settlementTrail.isEdge hab,
      hlog.cashinTrail.absorbed nofun, hlog.cashinTrail.absorbed nofun,
      hlog.settlementTrail.absorbed nofun⟩
    obtain rfl : x = y := Option.some.inj (hx.symm.trans hy)
    refine ⟨⟨hlog.paired, fun hqueued => ?_, fun hcompleted => ?_, fun hhash => ?_⟩,
      hlog.settlementHead, hlog.cashinHead⟩
    -- what is queued has not been signed
    · have hnone := hkept.unsigned (.inl hqueued)
      exact ⟨hnone, hkept.noRange hnone⟩
    · obtain ⟨hsettled, m, hm, -⟩ := hkept.paid hcompleted
      exact ⟨by rw [hm]; rfl, hsettled⟩
    · obtain ⟨m, hm⟩ := Option.isSome_iff_exists.mp hhash
      exact (hkept.live m hm).range hc

def Setting.sameHash : Setting := { Setting.usual with sameHashReconcile := true }

/-- An attempt that has never been included is retired. -/
def retiredAttempt : List (Label (platform .sameHash)) :=
  unknownOutcome .sameHash ++ idling .sameHash 20 ++ retiring .sameHash 3

theorem transaction_lifecycle_retired :
    ∃ k, Reach (M := platform .sameHash) World.empty k ∧ k.world.InOrder 0 ∧
      k.world.settlementLog 0 = [.queued, .failed, .processing, .queued, .notQueued] := by
  have hrun : (Config.run retiredAttempt (Config.initial World.empty)).map
      (fun k => k.world.settlementLog 0)
        = some [.queued, .failed, .processing, .queued, .notQueued] := by decide +kernel
  obtain ⟨k, hk, hlog⟩ := Reach.of_run_map hrun
  exact ⟨k, hk, transaction_lifecycle (by decide) rfl rfl rfl hk 0, hlog⟩

/-- Each read of one request sees the ledger as it is by then. -/
def Setting.driftingLedger : Setting := { Setting.usual with oneLedgerView := false }

/-- Two retries read the failed row.  The second looks its hash up just before the ledger
includes it, so it retires a payment that has succeeded, and cannot publish the row; then
the first finds the payment and completes the row, whose range is gone. -/
def clearedRange : List (Label (platform .driftingLedger)) :=
  unknownOutcome .driftingLedger
    ++ .start (.settlementRetry 0) :: .start (.settlementRetry 0) :: steps .driftingLedger 3 1
    ++ steps .driftingLedger 4 2 ++ closing .driftingLedger [(1, .tesSUCCESS)]
    ++ idling .driftingLedger 20 ++ steps .driftingLedger 4 1
    ++ answering .driftingLedger 4 [.flag true] ++ steps .driftingLedger 4 3
    ++ raising .driftingLedger 4 (.broker "ConnectionError" "") ++ steps .driftingLedger 4 3
    ++ steps .driftingLedger 3 5

theorem transaction_not_lifecycle :
    ¬ ∀ k, Reach (M := platform .driftingLedger) World.empty k → ∀ t, k.world.InOrder t := by
  intro hall
  have hrun : (Config.run clearedRange (Config.initial World.empty)).map
      (fun k => (k.world.txns 0).map (fun x =>
        (x.settlementStatus, x.xrplTxHash, x.settlementLastLedgerSequence)))
        = some (some (.completed, some 1, none)) := by decide +kernel
  obtain ⟨k, hk, hrow⟩ := Reach.of_run_map hrun
  obtain ⟨x, hx, hfields⟩ := Option.map_eq_some_iff.mp hrow
  simp only [Prod.mk.injEq] at hfields
  obtain ⟨-, hhash, hlast⟩ := hfields
  obtain ⟨hconsistent, -⟩ := (hall k hk 0).row x hx
  obtain ⟨hranged, -⟩ := hconsistent.ranged (by rw [hhash]; rfl)
  rw [hlast] at hranged
  cases hranged

end Orbyt
