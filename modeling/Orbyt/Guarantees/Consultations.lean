/-
  Orbyt.Guarantees.Consultations — when a verdict of "provably dead" is right

  A reconciliation and a retry decide from three reads of the ledger, in this order: the
  hash, the validated index, the history.  Ledgers close between the reads.

  Main results:
    * `dead_verdict_sound` — the verdict is right unless the reads add up to it although the
      transaction has been included between the first read and the second;
    * `dead_verdict_overtaken` — a run in which one has: the reserve of a validated burn is
      restored as "expired".
-/
import Orbyt.Guarantees.Burns
import Orbyt.Guarantees.Payments

namespace Orbyt

open Interleave
open ValidatedLedger

variable {S : Setting} {i h low last : Nat} {l : Session} {α : Type} {p : Program α} {a : α}

/-! ## §1. One consultation while ledgers close. -/

/-- The worlds in which the three reads of a consultation about `h` are made.  The range that
is recorded for `h` ends after `low` and at `last`, and `h` is included in it or not at all. -/
structure Consultation (h low last : Nat) where
  atLookup : World
  atIndex : World
  atRange : World
  respects : atLookup.ledger.respects h ⟨low, some last⟩
  indexing : Evolves h ⟨low, some last⟩ atLookup.ledger atIndex.ledger
  ranging : Evolves h ⟨low, some last⟩ atIndex.ledger atRange.ledger

/-- `p` may end with `a`, when its reads are those of the consultation. -/
def Consultation.Ends (R : Consultation h low last) (S : Setting) (i : Nat) (l : Session)
    (p : Program α) (a : α) : Prop :=
  ∃ c₁ c₂ c₃ l', follow (M := platform S) i
    [(c₁, R.atLookup), (c₂, R.atIndex), (c₃, R.atRange)] p l = some (.ok a, l')

/-- No validated ledger has `h`, at the end of the consultation or at any later moment. -/
def Consultation.Dead (R : Consultation h low last) : Prop :=
  ∀ L, Evolves h ⟨low, some last⟩ R.atRange.ledger L → L.included h = none

/-- What the reads show when they add up to the verdict. -/
structure Consultation.Condemns (R : Consultation h low last) : Prop where
  missed : R.atLookup.ledger.lookup h = none
  past : last < R.atIndex.ledger.validated
  held : R.atRange.ledger.holds low last

/-- The reads add up to the verdict, although `h` has been included when the index is read. -/
structure Consultation.Overtaken (R : Consultation h low last) : Prop extends R.Condemns where
  included : (R.atIndex.ledger.included h).isSome = true

/-- With the window past at the second read, only what is included by then ever is. -/
theorem Consultation.dead_iff {R : Consultation h low last}
    (hpast : last < R.atIndex.ledger.validated) :
    R.Dead ↔ R.atIndex.ledger.included h = none := by
  constructor
  · intro hdead
    have hend := hdead _ (.refl h _ _)
    cases hi : R.atIndex.ledger.included h with
    | none => rfl
    | some n =>
      rw [R.ranging.stays n hi] at hend
      cases hend
  · intro hnone L hL
    have hclosed : R.atIndex.ledger.closed ⟨low, some last⟩ := ⟨last, rfl, Nat.le_of_lt hpast⟩
    exact Evolves.never_included hnone hclosed (R.ranging.trans hL)

/-! ## §2. What the two consultations read. -/

theorem consulted_none (hv : l.view = none) (s : World) : l.consulted s = s.ledger := by
  unfold Session.consulted
  rw [hv]
  rfl

/-- An admin's request holds no claim, so nothing keeps its reads from answering. -/
theorem exec_read {o : Op} {c : Choice} {s : World} (hc : l.claimedAt = none)
    (ho : permitted S l (s.tick S c) o = (!S.punctual || l.claimedAt.all
      (fun T => decide ((s.tick S c).clock ≤ T + jobTimeout))))
    (hs : o.isStatement = false) (hm : c.mode = .returns) :
    exec S i o c l s = perform S i l (s.tick S c) c.value o := by
  unfold exec answer
  rw [ho, hc, hm]
  simp [hs]

theorem lookup_reads {c : Choice} {s s' : World} {l' : Session} {code : Option TxCode}
    (hS : S.oneLedgerView = false) (hv : l.view = none)
    (hx : exec S i (.lookup h) c l s = some (.ok code, l', s')) :
    code = s.ledger.lookup h ∧ l'.view = none := by
  rcases exec_lookup hx with ⟨e, he⟩ | ⟨hr, -, rfl⟩
  · cases he
  · rw [consulted_none hv] at hr
    refine ⟨Except.ok.inj hr, ?_⟩
    show (if S.oneLedgerView then some (l.consulted s) else none) = none
    simp [hS]

theorem latestValidated_reads {c : Choice} {s s' : World} {l' : Session} {latest : Nat}
    (hv : l.view = none) (hx : exec S i .latestValidated c l s = some (.ok latest, l', s')) :
    latest = s.ledger.validated ∧ l'.view = none := by
  rcases exec_latestValidated hx with ⟨e, he⟩ | hr
  · cases he
  · rw [consulted_none hv] at hr
    exact ⟨Except.ok.inj hr, (exec_sameView rfl hx).trans hv⟩

theorem completeRange_reads {c : Choice} {s s' : World} {l' : Session} {low high : Nat}
    (hv : l.view = none)
    (hx : exec S i (.completeRange low high) c l s = some (.ok true, l', s')) :
    s.ledger.holds low high := by
  rcases exec_completeRange hx with ⟨e, he⟩ | ⟨b, hr, hheld⟩
  · cases he
  · cases hr
    rw [consulted_none hv] at hheld
    exact hheld rfl

/-- What answers a read, or a read that answers `true`. -/
def answers (v : Value) : Choice := ⟨0, .returns, v⟩

theorem lookup_answers {s : World} (hS : S.oneLedgerView = false) (hv : l.view = none)
    (hc : l.claimedAt = none) :
    exec S i (.lookup h) (answers .unit) l s
      = some (.ok (s.ledger.lookup h), l, s.tick S (answers .unit)) := by
  rw [exec_read hc (by simp [permitted]) rfl rfl]
  have hl : { l with view := none } = l := by rw [← hv]
  simp [perform, consulted_none hv, hS, hl, tick_ledger]

theorem latestValidated_answers {s : World} (hv : l.view = none) (hc : l.claimedAt = none) :
    exec S i .latestValidated (answers .unit) l s
      = some (.ok s.ledger.validated, l, s.tick S (answers .unit)) := by
  rw [exec_read hc (by simp [permitted]) rfl rfl]
  simp [perform, consulted_none hv, tick_ledger]

theorem completeRange_answers {s : World} {low high : Nat} (hv : l.view = none)
    (hc : l.claimedAt = none) (hheld : s.ledger.holds low high) :
    exec S i (.completeRange low high) (answers (.flag true)) l s
      = some (.ok true, l, s.tick S (answers (.flag true))) := by
  rw [exec_read hc (by simp [permitted]) rfl rfl]
  refine perform_completeRange.mpr ?_
  rw [consulted_none hv, tick_ledger]
  exact hheld

/-! ## §3. The two verdicts. -/

variable {R : Consultation h low last}

theorem expired_iff (req : CashOutRequest) (hS : S.oneLedgerView = false) (hv : l.view = none)
    (hc : l.claimedAt = none) (hlast : req.burnLastLedgerSequence = some last)
    (hlow : req.burnSubmittedLedgerIndex = some low) :
    R.Ends S i l (CashoutService.consultLedger req h) (.expired last) ↔ R.Condemns := by
  unfold Consultation.Ends CashoutService.consultLedger
  rw [hlast, hlow]
  simp only [Prog.bind_eq]
  constructor
  · rintro ⟨c₁, c₂, c₃, l', hend⟩
    -- the three answers in turn, and what each says of the ledger it was read from
    obtain ⟨code, l₁, w₁, hx₁, hend⟩ := follow_call_bind.mp hend
    obtain ⟨rfl, hv₁⟩ := lookup_reads hS hv hx₁
    cases hmissed : R.atLookup.ledger.lookup h with
    | some code =>
      rw [hmissed] at hend
      cases code with
      | tesSUCCESS => cases (follow_ret.mp hend).1
      | other name => cases (follow_ret.mp hend).1
    | none =>
      rw [hmissed] at hend
      obtain ⟨latest, l₂, w₂, hx₂, hend⟩ := follow_call_bind.mp hend
      obtain ⟨rfl, hv₂⟩ := latestValidated_reads hv₁ hx₂
      split at hend
      · cases (follow_ret.mp hend).1
      next hpast =>
        obtain ⟨complete, l₃, w₃, hx₃, hend⟩ := follow_call_bind.mp hend
        cases complete with
        | false => cases (follow_ret.mp hend).1
        | true => exact ⟨hmissed, Nat.lt_of_not_le hpast, completeRange_reads hv₂ hx₃⟩
  · rintro ⟨hmissed, hpast, hheld⟩
    -- and the other way round, the answers that a ledger condemning it gives
    refine ⟨answers .unit, answers .unit, answers (.flag true), l, ?_⟩
    refine follow_call_bind.mpr ⟨none, l, _, hmissed ▸ lookup_answers hS hv hc, ?_⟩
    refine follow_call_bind.mpr ⟨_, l, _, latestValidated_answers hv hc, ?_⟩
    rw [if_neg (Nat.not_le_of_lt hpast)]
    refine follow_call_bind.mpr ⟨true, l, _, completeRange_answers hv hc hheld, ?_⟩
    exact follow_ret.mpr ⟨rfl, rfl⟩

theorem provablyDead_iff (txn : Txn) (hS : S.oneLedgerView = false) (hv : l.view = none)
    (hc : l.claimedAt = none) (hlast : txn.settlementLastLedgerSequence = some last)
    (hlow : txn.settlementSubmittedLedgerIndex = some low) :
    R.Ends S i l (CashinService.consultLedger txn h) none ↔ R.Condemns := by
  unfold Consultation.Ends CashinService.consultLedger CashinService.refuseUnlessProvablyDead
  rw [hlast, hlow]
  simp only [Prog.bind_eq, Prog.bind_assoc]
  constructor
  · rintro ⟨c₁, c₂, c₃, l', hend⟩
    -- the three answers in turn, and what each says of the ledger it was read from
    obtain ⟨code, l₁, w₁, hx₁, hend⟩ := follow_call_bind.mp hend
    obtain ⟨rfl, hv₁⟩ := lookup_reads hS hv hx₁
    cases hmissed : R.atLookup.ledger.lookup h with
    | some code =>
      rw [hmissed] at hend
      cases (follow_ret.mp hend).1
    | none =>
      rw [hmissed] at hend
      obtain ⟨latest, l₂, w₂, hx₂, hend⟩ := follow_call_bind.mp hend
      obtain ⟨rfl, hv₂⟩ := latestValidated_reads hv₁ hx₂
      split at hend
      · cases (follow_raise.mp hend).1
      next hpast =>
        rw [Prog.bind_assoc] at hend
        obtain ⟨complete, l₃, w₃, hx₃, hend⟩ := follow_call_bind.mp hend
        cases complete with
        | false => cases (follow_raise.mp hend).1
        | true => exact ⟨hmissed, Nat.lt_of_not_le hpast, completeRange_reads hv₂ hx₃⟩
  · rintro ⟨hmissed, hpast, hheld⟩
    -- and the other way round, the answers that a ledger condemning it gives
    refine ⟨answers .unit, answers .unit, answers (.flag true), l, ?_⟩
    refine follow_call_bind.mpr ⟨none, l, _, hmissed ▸ lookup_answers hS hv hc, ?_⟩
    refine follow_call_bind.mpr ⟨_, l, _, latestValidated_answers hv hc, ?_⟩
    rw [if_neg (Nat.not_le_of_lt hpast), Prog.bind_assoc]
    refine follow_call_bind.mpr ⟨true, l, _, completeRange_answers hv hc hheld, ?_⟩
    exact follow_ret.mpr ⟨rfl, rfl⟩

/-- A verdict that the reads add up to is right unless they have been overtaken. -/
theorem Consultation.verdict_iff {verdict : Prop} (hverdict : verdict ↔ R.Condemns) :
    (verdict → R.Dead) ↔ ¬ R.Overtaken := by
  rw [hverdict]
  constructor
  · intro hdead hover
    have hnone := (Consultation.dead_iff hover.past).mp (hdead hover.toCondemns)
    have hsome := hover.included
    rw [hnone] at hsome
    cases hsome
  · intro hnot hcond
    rw [Consultation.dead_iff hcond.past]
    cases hi : R.atIndex.ledger.included h with
    | none => rfl
    | some n => exact absurd ⟨hcond, by rw [hi]; rfl⟩ hnot

/-- **WHEN "PROVABLY DEAD" IS RIGHT**: for every hash, recorded range and way the ledger moves
between the reads, exactly unless these have been overtaken: the lookup misses the transaction,
the index is past its range and the history is complete, but a ledger that includes it has
come up between the lookup and the read of the index. -/
theorem dead_verdict_sound (hS : S.oneLedgerView = false) (R : Consultation h low last)
    (hv : l.view = none) (hc : l.claimedAt = none) (req : CashOutRequest)
    (hreq : req.burnLastLedgerSequence = some last ∧ req.burnSubmittedLedgerIndex = some low)
    (txn : Txn) (htxn : txn.settlementLastLedgerSequence = some last ∧
      txn.settlementSubmittedLedgerIndex = some low) :
    ((R.Ends S i l (CashoutService.consultLedger req h) (.expired last) → R.Dead)
      ↔ ¬ R.Overtaken) ∧
    ((R.Ends S i l (CashinService.consultLedger txn h) none → R.Dead) ↔ ¬ R.Overtaken) :=
  ⟨Consultation.verdict_iff (expired_iff req hS hv hc hreq.1 hreq.2),
    Consultation.verdict_iff (provablyDead_iff txn hS hv hc htxn.1 htxn.2)⟩

/-- Nothing is ever included, and 20 ledgers close before the index is read. -/
def uneventful : Consultation 7 100 120 where
  atLookup := World.initial 0 101 (fun _ => true)
  atIndex := World.initial 0 121 (fun _ => true)
  atRange := World.initial 0 121 (fun _ => true)
  respects := fun _ _ hs => by cases hs
  indexing := ⟨by decide, fun _ hr => (by cases hr), fun _ _ _ hs => (by cases hs)⟩
  ranging := .refl _ _ _

/-- A row whose recorded range is (100, 120]. -/
def heldBurn : CashOutRequest where
  __ := CashoutService.newRequest twoFromTwo twoPricing 0 0
  status := .approved
  xrplBurnTxHash := some 7
  burnLastLedgerSequence := some 120
  burnSubmittedLedgerIndex := some 100

def unknownPayment : Txn where
  __ := CashinService.newTransaction sendToTwo 2 fiveToTwo "4242" false 0 0
  cashinStatus := .received
  settlementStatus := .failed
  xrplTxHash := some 7
  settlementLastLedgerSequence := some 120
  settlementSubmittedLedgerIndex := some 100

theorem dead_verdict_sound_uneventful :
    (uneventful.Ends .driftingLedger 3 (Session.start (.reconcile 1))
      (CashoutService.consultLedger heldBurn 7) (.expired 120)) ∧ uneventful.Dead := by
  have hcond : uneventful.Condemns := ⟨rfl, by decide, fun _ _ _ => rfl⟩
  have hend := (expired_iff (R := uneventful) (S := .driftingLedger) (i := 3)
    (l := Session.start (.reconcile 1)) heldBurn rfl rfl rfl rfl rfl).mpr hcond
  have hsound := dead_verdict_sound (S := .driftingLedger) (i := 3) rfl uneventful
    (l := Session.start (.reconcile 1)) rfl rfl heldBurn ⟨rfl, rfl⟩ unknownPayment ⟨rfl, rfl⟩
  refine ⟨hend, hsound.1.mpr (fun hover => ?_) hend⟩
  have hsome := hover.included
  cases hsome

/-! ## §4. A consultation that is overtaken. -/

/-- The burn 2 is handed over and its outcome is not learned.  A reconciliation looks it up,
and does not find it; the next ledger has it, and twenty more close; then the index is past
the window and the history is complete. -/
def overtakenReconcile : List (Label (platform .driftingLedger)) :=
  approving .driftingLedger ++ steps .driftingLedger 4 1 ++ [.stop 4]
    ++ claimingBurn .driftingLedger 5 ++ submittingBurn .driftingLedger 5 120
    ++ raising .driftingLedger 5 (.xrpl false "timeout") ++ steps .driftingLedger 5 3 ++ [.stop 5]
    ++ .start (.reconcile 1) :: steps .driftingLedger 6 3
    ++ closing .driftingLedger [(2, .tesSUCCESS)] ++ idling .driftingLedger 20
    ++ steps .driftingLedger 6 1 ++ answering .driftingLedger 6 [.flag true]
    ++ steps .driftingLedger 6 4

/-- What a reconciliation writes when the ledger has proved the burn dead. -/
def expiredReason (last : Nat) : String :=
  "expired: not validated by ledger " ++ toString last ++ "; the burn can never be included"

/-- Restored as expired, and burned. -/
theorem dead_verdict_overtaken :
    ¬ ∀ k, Reach (M := platform .driftingLedger) World.empty k → ∀ (r : Nat) (q : CashOutRequest)
      (m last : Nat), k.world.reqs r = some q → q.xrplBurnTxHash = some m →
        q.failureReason = some (expiredReason last) → k.world.ledger.included m = none := by
  intro hall
  have hrun : (Config.run overtakenReconcile (Config.initial World.empty)).map
      (fun k => ((k.world.reqs 1).map (fun q => (q.xrplBurnTxHash, q.failureReason)),
        k.world.ledger.included 2))
        = some (some (some 2, some (expiredReason 120)), some (103, .tesSUCCESS)) := by
    decide +kernel
  obtain ⟨k, hk, hend⟩ := Reach.of_run_map hrun
  obtain ⟨hrow, hincluded⟩ := Prod.mk.inj hend
  obtain ⟨q, hq, hfields⟩ := Option.map_eq_some_iff.mp hrow
  obtain ⟨hhash, hreason⟩ := Prod.mk.inj hfields
  have hnone := hall k hk 1 q 2 120 hq hhash hreason
  rw [hincluded] at hnone
  cases hnone

end Orbyt
