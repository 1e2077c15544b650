/-
  Orbyt.Guarantees.Records — nothing is forgotten, and nothing is rewritten

  Main results:
    * `snapshots_kept` — rows keep the figures they were created with, and what is signed for
      one carries its amount to where its row says;
    * `World.Remembers` holds in every reachable state (`handed_remembered`), where a retry
      completes a row only with the hash the row still carries; `handed_forgotten` is a run in
      which a retry completes a row over the hash of a newer payment.
-/
import Orbyt.Guarantees.Burns
import Orbyt.Guarantees.Payments
import Orbyt.Invariants.Priced

namespace Orbyt

open Interleave

variable {S : Setting} {clock validated : Nat} {held : Nat → Bool} {k : Config (platform S)}

/-! ## §1. Records. -/

/-- Both ends of the ledger range of `b`. -/
def Blob.HasRange (b : Blob) (last submitted : Option Nat) : Prop :=
  last.isSome = true ∧ last = b.lastLedgerSequence ∧ ∃ n, submitted = some n ∧ n ≤ b.signedIndex

theorem World.Signed.hasRange {s : World} {purpose : Purpose} {h : Nat}
    {last submitted : Option Nat}
    {b : Blob} (hs : s.Signed S purpose h last submitted) (hc : S.carriesLastLedger = true)
    (hb : s.blobs[h]? = some b) : b.HasRange last submitted := by
  obtain ⟨b', hb', -, hlast, hn⟩ := hs.blob
  obtain rfl : b' = b := Option.some.inj (hb'.symm.trans hb)
  exact ⟨(hs.range hc).1, hlast, hn⟩

/-- The row names the payment `h` once, in the live fields or as a retired attempt, with its
ledger range, and its attempts are in the order in which they were signed. -/
structure Txn.Remembers (x : Txn) (h : Nat) (b : Blob) : Prop where
  once : x.hashes.count h = 1
  order : x.hashes.Pairwise (· < ·)
  range : (x.xrplTxHash = some h ∧
      b.HasRange x.settlementLastLedgerSequence x.settlementSubmittedLedgerIndex) ∨
    ∃ a ∈ x.settlementPreviousAttempts, a.txHash = h ∧
      b.HasRange a.lastLedgerSequence a.submittedLedgerIndex

/-- Every payment and every burn that was handed over is on its own row. -/
structure World.Remembers (s : World) : Prop where
  payment : ∀ (h : Nat) (b : Blob) (t : Nat), s.blobs[h]? = some b → b.purpose = .payment t →
    s.handed h = true → ∃ x, s.txns t = some x ∧ x.Remembers h b
  burn : ∀ (h : Nat) (b : Blob) (r : Nat), s.blobs[h]? = some b → b.purpose = .burn r →
    s.handed h = true → ∃ q, s.reqs r = some q ∧ q.xrplBurnTxHash = some h ∧
      b.HasRange q.burnLastLedgerSequence q.burnSubmittedLedgerIndex

/-- Attempts that are in order are on the row once. -/
theorem Txn.Kept.remembers {s : World} {t h : Nat} {owner : Option (Nat × Nat)} {x : Txn} {b : Blob}
    (hk : x.Kept S s t owner) (hc : S.carriesLastLedger = true) (hm : h ∈ x.hashes)
    (hb : s.blobs[h]? = some b) : x.Remembers h b where
  once := List.count_eq_one_of_mem (hk.order.imp Nat.ne_of_lt) hm
  order := hk.order
  range := by
    unfold Txn.hashes at hm
    rcases List.mem_append.mp hm with hold | hlive
    · obtain ⟨a, ha, rfl⟩ := List.mem_map.mp hold
      exact .inr ⟨a, ha, rfl, (hk.previous a ha).hasRange hc hb⟩
    · have hhash := Option.mem_toList.mp hlive
      exact .inl ⟨hhash, (hk.live h hhash).hasRange hc hb⟩

/-! ## §2. Every reachable state. -/

/-- **WHAT IS HANDED OVER IS ON ITS ROW**, then and in every later state, in every run in which
a retry completes a row only with the hash the row still carries. -/
theorem handed_remembered (hS : 1 ≤ S.minTick) (hp : S.punctual = true)
    (hc : S.carriesLastLedger = true) (hsame : S.sameHashReconcile = true)
    (h : Reach (M := platform S) (World.initial clock validated held) k) : k.world.Remembers := by
  have hw := World.Orderly.initial clock validated held
  have hset := settlement_reach hS hp (.inr hsame) hw (.initial clock validated held) h
  have hburns := burning_reach hp hw (.initial clock validated held) h
  constructor
  · intro m b t hb hpurpose hhanded
    obtain ⟨x, hx, hmem⟩ := hset.recorded m b t hb hpurpose hhanded
    exact ⟨x, hx, (hset.rows t x hx).remembers hc hmem hb⟩
  · intro m b r hb hpurpose hhanded
    obtain ⟨q, hq, hhash⟩ := hburns.recorded m b r hb hpurpose hhanded
    exact ⟨q, hq, hhash, ((hburns.rows r q hq).live m hhash).hasRange hc hb⟩

theorem handed_remembered_retired :
    ∃ k, Reach (M := platform .sameHash) World.empty k ∧ k.world.Remembers ∧
      k.world.handed 1 = true ∧
      (k.world.txns 0).map (fun x => (x.xrplTxHash, x.hashes)) = some (none, [1]) := by
  have hrun : (Config.run retiredAttempt (Config.initial World.empty)).map
      (fun k => (k.world.handed 1, (k.world.txns 0).map (fun x => (x.xrplTxHash, x.hashes))))
        = some (true, some (none, [1])) := by decide +kernel
  obtain ⟨k, hk, hend⟩ := Reach.of_run_map hrun
  obtain ⟨hhanded, hrow⟩ := Prod.mk.inj hend
  exact ⟨k, hk, handed_remembered (by decide) rfl rfl rfl hk, hhanded, hrow⟩

/-- Two retries read the failed row.  The second looks its hash up just before the ledger
includes it, retires the payment and requeues the row; a worker signs and hands over another
payment and does not learn the outcome; then the first retry finds the old payment, and
completes the row with it. -/
def overwrittenHash : List (Label (platform .driftingLedger)) :=
  unknownOutcome .driftingLedger
    ++ .start (.settlementRetry 0) :: .start (.settlementRetry 0) :: steps .driftingLedger 3 1
    ++ steps .driftingLedger 4 2 ++ closing .driftingLedger [(1, .tesSUCCESS)]
    ++ idling .driftingLedger 20 ++ steps .driftingLedger 4 1
    ++ answering .driftingLedger 4 [.flag true] ++ steps .driftingLedger 4 4
    ++ .start (.settle 0) :: steps .driftingLedger 5 8
    ++ answering .driftingLedger 5 [.lastLedger (some 140)] ++ steps .driftingLedger 5 4
    ++ raising .driftingLedger 5 (.xrpl false "timeout") ++ steps .driftingLedger 5 4
    ++ steps .driftingLedger 3 5

theorem handed_forgotten :
    ¬ ∀ k, Reach (M := platform .driftingLedger) World.empty k → k.world.Remembers := by
  intro hall
  have hrun : (Config.run overwrittenHash (Config.initial World.empty)).map
      (fun k => ((k.world.blobs[2]?).map (·.purpose), k.world.handed 2,
        (k.world.txns 0).map (fun x => x.hashes)))
        = some (some (.payment 0), true, some [1, 1]) := by decide +kernel
  obtain ⟨k, hk, hend⟩ := Reach.of_run_map hrun
  simp only [Prod.mk.injEq] at hend
  obtain ⟨hblob, hhanded, hrow⟩ := hend
  obtain ⟨b, hb, hpurpose⟩ := Option.map_eq_some_iff.mp hblob
  obtain ⟨x, hx, hhashes⟩ := Option.map_eq_some_iff.mp hrow
  obtain ⟨y, hy, hremembers⟩ := (hall k hk).payment 2 b 0 hb hpurpose hhanded
  obtain rfl : x = y := Option.some.inj (hx.symm.trans hy)
  have honce := hremembers.once
  rw [hhashes] at honce
  revert honce
  decide

/-! ## §3. Snapshots. -/

/-- **SNAPSHOTS ARE NEVER REWRITTEN**, by no step of any program, edits of fees, tiers, profiles
and beneficiaries among them, and what was signed by then is what was priced. -/
theorem snapshots_kept (h : Reach (M := platform S) (World.initial clock validated held) k) :
    (∀ labs k', k.run labs = some k' → TermsKept k.world k'.world) ∧ k.world.Priced := by
  have hw := World.Orderly.initial clock validated held
  refine ⟨fun labs k' hr => (stays_run hw h hr).terms, priced_reach hw ?_ h⟩
  intro m b hb
  cases hb

/-- A request on the office's tables, as program `i`, from start to end. -/
def asking (i n : Nat) (e : Office.Entry) : List (Label (platform .usual)) :=
  .start (.office e) :: steps .usual i n ++ [.stop i]

/-- Thandi and Sipho register, he saves her, she changes her email, and he deletes her. -/
def comingAndGoing : List (Label (platform .usual)) :=
  asking 2 6 (.account (.register ⟨"Thandi M".toList, "thandi@example.com".toList,
      "+27821234567".toList, "password".toList, "password".toList⟩) rfl)
    ++ asking 3 6 (.account (.register ⟨"Sipho D".toList, "sipho@example.com".toList,
      "+27837654321".toList, "password".toList, "password".toList⟩) rfl)
    ++ .env (.office (.review 1 true)) :: asking 4 6 (.account (.create 1
      ⟨"Thandi".toList, "thandi@example.com".toList, [], "USD".toList⟩) rfl)
    ++ asking 5 5 (.account (.profileUpdate 0
      ⟨"thandi@example.org".toList, "+27821234567".toList, none⟩) rfl)
    ++ asking 6 5 (.account (.delete 1 2) rfl)

/-- The fees go up, and so do the limits of the tier that users have. -/
def repricing : List (Label (platform .usual)) :=
  asking 7 4 (.updateFees ⟨"30.00".toList, "0.02".toList, "0.02".toList, "0.01".toList, "1".toList,
      "19.00".toList, "60.00".toList⟩)
    ++ asking 8 4 (.updateTierLimits 1 ⟨"20000".toList, "90000".toList⟩)

theorem snapshots_kept_settling :
    ∃ k k' : Config (platform .usual), Reach World.empty k ∧
      k.run (comingAndGoing ++ repricing ++ settlingFirst .usual 9 0 1 120) = some k' ∧
      TermsKept k.world k'.world ∧ k'.world.Priced ∧
      (k'.world.office.directory.users 0).map (·.email == "thandi@example.org".toList) = some true ∧
      (k'.world.office.directory.beneficiaries 2).map (·.isActive) = some false ∧
      k'.world.office.fees.map (·.marketRateZarPerUsd.units) = some 19000000 ∧
      (k'.world.office.tiers 1).map (·.limits.dailyLimitZar.units) = some 2000000 ∧
      (k'.world.blobs[1]?).map (·.tx)
        = some (.payment .treasury (.address 0) fiveToTwo.uctusdAmount) := by
  have hrun : ((Config.run (sending .usual 0 sendToTwo 2 fiveToTwo ++ confirming .usual 1 0)
      (Config.initial World.empty)).bind (fun k =>
        (k.run (comingAndGoing ++ repricing ++ settlingFirst .usual 9 0 1 120)).map (fun k' =>
          ((k'.world.office.directory.users 0).map (·.email == "thandi@example.org".toList),
            (k'.world.office.directory.beneficiaries 2).map (·.isActive),
            k'.world.office.fees.map (·.marketRateZarPerUsd.units),
            (k'.world.office.tiers 1).map (·.limits.dailyLimitZar.units),
            (k'.world.blobs[1]?).map (·.tx)))))
      = some (some true, some false, some 19000000, some 2000000,
          some (.payment .treasury (.address 0) fiveToTwo.uctusdAmount)) := by decide +kernel
  obtain ⟨k, hk, hrun⟩ := Option.bind_eq_some_iff.mp hrun
  obtain ⟨k', hk', hread⟩ := Option.map_eq_some_iff.mp hrun
  simp only [Prod.mk.injEq] at hread
  obtain ⟨hemail, hactive, hrate, hlimits, htx⟩ := hread
  have hreach : Reach World.empty k := Reach.run .initial hk
  exact ⟨k, k', hreach, hk', (snapshots_kept hreach).1 _ k' hk',
    (snapshots_kept (Reach.run hreach hk')).2, hemail, hactive, hrate, hlimits, htx⟩

end Orbyt
