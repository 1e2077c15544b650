/-
  Orbyt.Guarantees.Provisioning — one account for each recipient, opened before it is paid

  Main results:
    * `wallets_provisioned` — in any run, with whatever crashes and whatever becomes of the
      TrustSets: a wallet that is committed stays, with its address, its key and the trust line
      it records; every recorded trust line is validated; and the treasury has only ever signed
      payments to committed wallets that had one.
-/
import Orbyt.Guarantees.Balances
import Orbyt.Invariants.Provisioned

namespace Orbyt

open Interleave

variable {S : Setting} {clock validated : Nat} {held : Nat → Bool} {k : Config (platform S)}

/-- **PROVISIONING IS UNIQUE, STABLE AND PRECEDES PAYMENT.**  A wallet is named by its owner, so
a second row of one user would be another account in the first one's place. -/
theorem wallets_provisioned (h : Reach (M := platform S) (World.initial clock validated held) k) :
    (∀ labs k', k.run labs = some k' → ∀ u w, k.world.wallets u = some w →
      ∃ w', k'.world.wallets u = some w' ∧ w'.xrplAddress = w.xrplAddress ∧
        w'.encryptedPrivateKey = w.encryptedPrivateKey ∧
        (w.trustSetComplete = true → w'.trustSetComplete = true)) ∧
    (∀ u w, k.world.wallets u = some w → w.trustSetComplete = true →
      k.world.Trusted u w.xrplAddress) ∧
    ∀ (m : Nat) (b : Blob), k.world.blobs[m]? = some b → b.tx.account = .treasury →
      k.world.PaysOpened b.tx b.signedIndex := by
  have hw := World.Orderly.initial clock validated held
  have hp := provisioned_reach hw (.initial clock validated held) h
  refine ⟨fun labs k' hr u w hst => ?_, hp.wallets, hp.payments⟩
  obtain ⟨w', hw', hsame⟩ := (stays_run hw h hr).accounts u w hst
  exact ⟨w', hw', hsame.address, hsame.key, hsame.trustLine⟩

/-- Two remittances to user 2.  The first worker funds the account, and its TrustSet fails on
the ledger; the second finds the wallet, sets its trust line and pays. -/
def openedByTheSecond : List (Label (platform .usual)) :=
  sending .usual 0 sendToTwo 2 fiveToTwo ++ sending .usual 1 sendToTwo 2 fiveToTwo
    ++ confirming .usual 2 0 ++ confirming .usual 3 1
    ++ .start (.settle 0) :: steps .usual 4 5 ++ answering .usual 4 [.nat 7] ++ steps .usual 4 4
    ++ answering .usual 4 [.lastLedger (some 120), .unit]
    ++ closing .usual [(0, .other "tecNO_LINE_INSUF_RESERVE")] ++ steps .usual 4 6 ++ [.stop 4]

def payingTheFirst : List (Label (platform .usual)) :=
  .start (.settle 1) :: steps .usual 5 6 ++ answering .usual 5 [.lastLedger (some 130), .unit]
    ++ closing .usual [(1, .tesSUCCESS)] ++ steps .usual 5 6
    ++ answering .usual 5 [.lastLedger (some 140)]

theorem wallets_provisioned_second :
    ∃ k k' : Config (platform .usual), Reach World.empty k ∧ k.run payingTheFirst = some k' ∧
      (∃ w', k'.world.wallets 2 = some w' ∧ w'.xrplAddress = 7 ∧
        w'.encryptedPrivateKey = encryptSeed 7 ∧ w'.trustSetComplete = true) ∧
      k'.world.Trusted 2 7 ∧
      ∃ b : Blob, k'.world.blobs[2]? = some b ∧ b.tx = .payment .treasury (.address 7) 5 ∧
        k'.world.PaysOpened b.tx b.signedIndex := by
  have hrun : ((Config.run openedByTheSecond (Config.initial World.empty)).bind (fun k =>
      (k.run payingTheFirst).map (fun k' => (k.world.wallets 2,
        (k'.world.wallets 2).map (·.trustSetComplete), (k'.world.blobs[2]?).map (·.tx)))))
      = some (some ⟨7, encryptSeed 7, false, 0⟩, some true,
        some (.payment .treasury (.address 7) 5)) := by decide +kernel
  obtain ⟨k, hk, hrun⟩ := Option.bind_eq_some_iff.mp hrun
  obtain ⟨k', hk', hread⟩ := Option.map_eq_some_iff.mp hrun
  simp only [Prod.mk.injEq] at hread
  obtain ⟨hfirst, hset, hblob⟩ := hread
  have hreach : Reach World.empty k := Reach.run .initial hk
  -- the account that the first worker funded is the one the second opens
  obtain ⟨w', hw', haddress, hkey, -⟩ := (wallets_provisioned hreach).1 _ k' hk' 2 _ hfirst
  obtain ⟨-, htrusted, hpaid⟩ := wallets_provisioned (Reach.run hreach hk')
  have htrue : w'.trustSetComplete = true := by
    rw [hw'] at hset
    exact Option.some.inj hset
  obtain ⟨b, hb, htx⟩ := Option.map_eq_some_iff.mp hblob
  refine ⟨k, k', hreach, hk', ⟨w', hw', haddress, hkey, htrue⟩, ?_, b, hb, htx, hpaid 2 b hb ?_⟩
  · have ht := htrusted 2 w' hw' htrue
    rw [haddress] at ht
    exact ht
  · rw [htx]
    rfl

end Orbyt
