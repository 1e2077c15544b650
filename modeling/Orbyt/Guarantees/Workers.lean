/-
  Orbyt.Guarantees.Workers — what a settlement worker may be relied on for

  Main results:
    * `lost_row_untouched` — a worker that has lost its row changes nothing of it, as long
      as it stores no signature on it and its guarded UPDATEs do not run while another
      worker has it in hand; `lost_row_signed` is a run in which a slow worker stores a
      signature on a row that an admin has queued again.
-/
import Orbyt.Guarantees.Balances
import Orbyt.Invariants.LostClaims

namespace Orbyt

open Interleave
open SettlementWorker (remembered requeued isIn)

variable {S : Setting} {clock validated : Nat} {held : Nat → Bool}
  {k₁ k₂ k₃ : Config (platform S)}

/-! ## §1. Lost claims. -/

/-- Status, hash, ledger range and error reason. -/
def Txn.record (x : Txn) :
    SettlementStatus × Option Nat × Option Nat × Option Nat × Option String :=
  (x.settlementStatus, x.xrplTxHash, x.settlementLastLedgerSequence,
    x.settlementSubmittedLedgerIndex, x.xrplErrorReason)

/-- **A LOST ROW IS LEFT ALONE**: worker `i` has had row `t` under its claim and has it no
more, whoever has taken it up since and however late `i` moves. -/
theorem lost_row_untouched
    (h : Reach (M := platform S) (World.initial clock validated held) k₁) {i t T : Nat}
    (hclaim : k₁.world.txnOwner t = some (i, T)) (hcourse : Course (Fenced i t) k₁ k₂)
    (hlost : ∀ T', k₂.world.txnOwner t ≠ some (i, T')) {lab : Label (platform S)}
    (hi : lab.party = some i) (hs : k₂.step lab = some k₃) :
    (k₃.world.txns t).map Txn.record = (k₂.world.txns t).map Txn.record := by
  have hclaims := claims_reach (.initial clock validated held) (fun _ => rfl) h
  have hstray : Stray i t k₁ := ⟨hclaims.born t i T hclaim, fun th hth =>
    ⟨(hclaims.working t i T th hclaim hth).1, (hclaims.working t i T th hclaim hth).2,
      .inl ⟨T, hclaim⟩⟩⟩
  have hstray₂ := hstray.course (.initial clock validated held) h hcourse
  rw [hstray₂.keeps hlost hi hs]

/-- Workers may be arbitrarily slow. -/
def Setting.slow : Setting := { Setting.usual with punctual := false }

/-- Program 2 claims row 0 and looks its recipient up. -/
def claiming : List (Label (platform .slow)) :=
  sending .slow 0 sendToTwo 2 fiveToTwo ++ confirming .slow 1 0
    ++ .start (.settle 0) :: steps .slow 2 5

/-- Ten minutes later an admin retries the row, as program 3. -/
def takingOver : List (Label (platform .slow)) :=
  waiting .slow (seconds 600) ++ .start (.settlementRetry 0) :: steps .slow 3 6

/-- The faucet is down, so that worker 2 is about to put the row back in the queue. -/
def givingUp : List (Label (platform .slow)) :=
  claiming ++ raising .slow 2 (.xrpl false "faucet unavailable") ++ steps .slow 2 1

/-- The next call of program 2 answers. -/
def nextOfTwo : Label (platform .slow) := .call 2 ⟨0, .returns, .unit⟩

/-- The status that the UPDATE which program `i` is about to issue gives the row `x`. -/
def givesStatus (i : Nat) (x : Txn) (k : Config (platform S)) : Option SettlementStatus :=
  match k.threads i with
  | some ⟨_, .op (.updateTxn _ _ values) _⟩ => some (values 0 x).settlementStatus
  | _ => none

theorem Fenced.of_party {i t : Nat} {k : Config (platform S)} {lab : Label (platform S)}
    (h : lab.party ≠ some i) : Fenced i t k lab := by
  rintro ch l cond values f rfl
  exact absurd rfl h

def inHand : Txn :=
  { CashinService.newTransaction sendToTwo 2 fiveToTwo "4242" false 0 0 with
    cashinStatus := .received, settlementStatus := .processing }

def readyToCommit (i : Nat) (k : Config (platform S)) : Bool :=
  match k.threads i with
  | some ⟨_, .op .commit _⟩ => true
  | _ => false

/-- An UPDATE that puts a row back is no UPDATE that stores a signature. -/
theorem Fenced.of_requeue {i t : Nat} {k : Config (platform S)} {lab : Label (platform S)}
    (hgives : givesStatus i inHand k = some .queued)
    (hrow : ∀ x, k.world.txns t = some x → x.settlementStatus ≠ .processing) :
    Fenced i t k lab := by
  intro ch l cond values f _ hth _
  refine ⟨fun signed hvalues => ?_, hrow⟩
  simp only [givesStatus, hth, hvalues] at hgives
  -- the status of a row that only gets a signature stays
  have hkept : some SettlementStatus.processing = some .queued := hgives
  cases hkept

/-- Worker 2 issues its UPDATE on the row that it has lost, and commits. -/
theorem lost_row_untouched_givingUp :
    ∃ k₁ k₂ k₃ k₄ : Config (platform .slow), Reach World.empty k₁ ∧
      k₁.world.txnOwner 0 = some (2, 18) ∧ Course (Fenced 2 0) k₁ k₂ ∧
      k₂.world.txnOwner 0 = none ∧ givesStatus 2 inHand k₂ = some .queued ∧
      k₂.step nextOfTwo = some k₃ ∧ readyToCommit 2 k₃ = true ∧
      k₃.step nextOfTwo = some k₄ ∧ readyToCommit 2 k₄ = false ∧
      (k₃.world.txns 0).map Txn.record = (k₂.world.txns 0).map Txn.record ∧
      (k₄.world.txns 0).map Txn.record = (k₃.world.txns 0).map Txn.record := by
  have hrun : ((Config.run givingUp (Config.initial World.empty)).bind (fun k₁ =>
      (k₁.run takingOver).bind (fun k₂ => (k₂.step nextOfTwo).bind (fun k₃ =>
        (k₃.step nextOfTwo).map (fun k₄ =>
          decide (k₁.world.txnOwner 0 = some (2, 18) ∧ k₂.world.txnOwner 0 = none ∧
            k₃.world.txnOwner 0 = none ∧ givesStatus 2 inHand k₂ = some .queued ∧
            (k₂.world.txns 0).map (·.settlementStatus) = some .queued ∧
            readyToCommit 2 k₃ = true ∧ readyToCommit 2 k₄ = false))))))
      = some true := by
    decide +kernel
  obtain ⟨k₁, hk₁, hrun⟩ := Option.bind_eq_some_iff.mp hrun
  obtain ⟨k₂, hk₂, hrun⟩ := Option.bind_eq_some_iff.mp hrun
  obtain ⟨k₃, hk₃, hrun⟩ := Option.bind_eq_some_iff.mp hrun
  obtain ⟨k₄, hk₄, hread⟩ := Option.map_eq_some_iff.mp hrun
  obtain ⟨hclaim, hlost, hlost₃, hgives, hstatus, hready, hdone⟩ := of_decide_eq_true hread
  -- on the way there only the other worker and the admin act
  have hothers : takingOver.all (fun lab => lab.party != some 2) = true := by decide
  have hreach : Reach World.empty k₁ := Reach.run .initial hk₁
  have hcourse : Course (Fenced 2 0) k₁ k₂ := Course.run .refl
    (fun lab hl _ => .of_party (by simpa using List.all_eq_true.mp hothers lab hl)) hk₂
  have hqueued : ∀ x, k₂.world.txns 0 = some x → x.settlementStatus ≠ .processing := by
    intro x hx
    simp only [hx, Option.map_some, Option.some.injEq] at hstatus
    simp [hstatus]
  have hcourse₃ : Course (Fenced 2 0) k₁ k₃ := hcourse.step (.of_requeue hgives hqueued) hk₃
  exact ⟨k₁, k₂, k₃, k₄, hreach, hclaim, hcourse, hlost, hgives, hk₃, hready, hk₄, hdone,
    lost_row_untouched hreach hclaim hcourse (by simp [hlost]) rfl hk₃,
    lost_row_untouched hreach hclaim hcourse₃ (by simp [hlost₃]) rfl hk₄⟩

/-- A slow worker goes on to its signature on the row that has been queued again. -/
def signingLate : List (Label (platform .slow)) :=
  takingOver ++ answering .slow 2 [.nat 0] ++ steps .slow 2 4
    ++ answering .slow 2 [.lastLedger (some 120), .unit] ++ closing .slow [(0, .tesSUCCESS)]
    ++ steps .slow 2 6 ++ answering .slow 2 [.lastLedger (some 120)] ++ steps .slow 2 1

theorem lost_row_signed :
    ¬ ∀ (k₁ k₂ k₃ : Config (platform .slow)) (i t T : Nat) (lab : Label (platform .slow)),
      Reach World.empty k₁ → k₁.world.txnOwner t = some (i, T) →
      Course (fun _ _ => True) k₁ k₂ → (∀ T', k₂.world.txnOwner t ≠ some (i, T')) →
      lab.party = some i → k₂.step lab = some k₃ →
        (k₃.world.txns t).map Txn.record = (k₂.world.txns t).map Txn.record := by
  intro hall
  have hrun : ((Config.run claiming (Config.initial World.empty)).bind (fun k₁ =>
      (k₁.run signingLate).bind (fun k₂ => (k₂.step nextOfTwo).map (fun k₃ =>
        (k₁.world.txnOwner 0, k₂.world.txnOwner 0, (k₂.world.txns 0).map (·.xrplTxHash),
          (k₃.world.txns 0).map (·.xrplTxHash))))))
      = some (some (2, 18), none, some none, some (some 1)) := by decide +kernel
  obtain ⟨k₁, hk₁, hrun⟩ := Option.bind_eq_some_iff.mp hrun
  obtain ⟨k₂, hk₂, hrun⟩ := Option.bind_eq_some_iff.mp hrun
  obtain ⟨k₃, hk₃, hread⟩ := Option.map_eq_some_iff.mp hrun
  simp only [Prod.mk.injEq] at hread
  obtain ⟨hclaim, hlost, hbefore, hafter⟩ := hread
  have hsame := hall k₁ k₂ k₃ 2 0 18 nextOfTwo (Reach.run .initial hk₁) hclaim
    (Course.run .refl (fun _ _ _ => trivial) hk₂) (by simp [hlost]) rfl hk₃
  -- the hash is part of the record, and it has changed
  have hhash : (k₃.world.txns 0).map (·.xrplTxHash) = (k₂.world.txns 0).map (·.xrplTxHash) := by
    simpa [Txn.record, Function.comp_def] using congrArg (Option.map (fun x => x.2.1)) hsame
  rw [hbefore, hafter] at hhash
  cases hhash

end Orbyt
