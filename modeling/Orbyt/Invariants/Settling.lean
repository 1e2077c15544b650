/-
  Orbyt.Invariants.Settling — the worker keeps the settlement protocol

  `process_settlement` from its claim to its last write.  While the worker is punctual the
  row it has claimed stays in its hands, so what it signs, stores and hands over is the
  row's only live attempt.

  Main result:
    * `processSettlement_working`.
-/
import Orbyt.Invariants.Settlement
import Orbyt.Rules.Submission

namespace Orbyt

open Interleave
open Function (update)
open SettlementWorker (claimable claimed isIn completed failed requeued remembered)

variable {S : Setting} {i : Nat} {o : Op} {c : Choice} {l l' : Session} {s s' : World}
  {t : Nat} {owner : Option (Nat × Nat)} {x x' : Txn} {α : Type}

/-! ## §1. The row in the worker's hands. -/

/-- The worker has claimed `t` at `T`; until it times out the row is in its hands and
carries `hash`.  Of a session that has failed nothing is asked: it writes nothing more. -/
structure Working (S : Setting) (i t T : Nat) (hash : Option Nat) (l : Session) (s : World) :
    Prop where
  clear : l.Clear .transactions
  held : l.failed = false → l.view = none ∧ l.claimedAt = some T ∧
    (s.clock ≤ T + jobTimeout → s.txnOwner t = some (i, T) ∧
      ∃ x, s.txns t = some x ∧ x.xrplTxHash = hash)

variable {T : Nat} {hash : Option Nat}

theorem Working.of_failed (h : l.failed = true) : Working S i t T hash l s :=
  ⟨.inl h, fun hf => by rw [h] at hf; cases hf⟩

theorem Working.along (h : Working S i t T hash l s) (ha : (payments S).Along i l s l' s')
    (hv : l'.view = l.view) : Working S i t T hash l' s' := by
  refine ⟨ha.clear, fun hf => ?_⟩
  have hf₀ : l.failed = false := by
    cases hl : l.failed with
    | false => rfl
    | true => rw [ha.failed hl] at hf; cases hf
  obtain ⟨hview, hclaim, hhand⟩ := h.held hf₀
  refine ⟨hv.trans hview, ha.claimedAt.trans hclaim, fun hle => ?_⟩
  have hclock := ha.rely.clock
  obtain ⟨howner, x, hx, hhash⟩ := hhand (by omega)
  obtain ⟨howner', hsame⟩ := ha.rely.inHand t T howner hle
  obtain ⟨x', hx', -⟩ := ha.rely.rows t x hx
  exact ⟨howner', x', hx', (hsame x x' hx hx').hash.trans hhash⟩

/-- Whenever a punctual worker moves, the row is in its hands. -/
theorem Working.inHand (h : Working S i t T hash l s) (hp : S.punctual = true)
    (hf : l.failed = false) {r : Except Exn o.Res} (hx : exec S i o c l s = some (r, l', s')) :
    s.txnOwner t = some (i, T) ∧ ∃ x, s.txns t = some x ∧ x.xrplTxHash = hash := by
  obtain ⟨-, hclaim, hhand⟩ := h.held hf
  have hle := exec_punctual hp hx hclaim
  have hclock := exec_clock hx
  exact hhand (by omega)

/-! ## §2. Letting go of the row. -/

/-- A write by which the worker lets go of the row. -/
theorem Working.leave (h : Working S i t T hash l s) (hS : 1 ≤ S.minTick)
    (hp : S.punctual = true)
    {cond : Txn → Bool} {values : Nat → Txn → Txn}
    (hsame : ∀ (now : Nat) (x : Txn), x.xrplTxHash = hash → x.SameAttempts (values now x))
    (hstamp : ∀ now x, (values now x).updatedAt = now)
    (hleft : ∀ now x, (values now x).settlementStatus ≠ .processing)
    (hunsigned : ∀ now x, (values now x).settlementStatus = .queued ∨
      (values now x).settlementStatus = .notQueued → hash = none)
    (hpaid : ∀ now x, (values now x).settlementStatus = .completed →
      (values now x).settledAt.isSome = true ∧
        ∃ k, ∃ b : Blob, hash = some k ∧ s.blobs[k]? = some b ∧ s.Paid k) :
    (payments S).WritesOver i t cond values l s := by
  refine payments_writesOver hS fun s₁ c r l' s' x hh ha hx hf hstored hcond hon hlt hkept => ?_
  obtain ⟨howner, y, hy, hhash⟩ := (h.along ha rfl).inHand hp hf hx
  obtain rfl : x = y := Option.some.inj (hstored.symm.trans hy)
  have howner' : s'.txnOwner t = some (i, T) :=
    (congrFun (exec_uncommitted (nofun : Op.updateTxn t cond values ≠ .commit) hx).txnOwner t).trans
      howner
  have hold : x.updatedAt ≤ s₁.clock := (hh.inv.rows t x hstored).stamp
  have hnew : x.updatedAt < (values s'.clock x).updatedAt := by rw [hstamp]; omega
  refine Txn.Replaces.of_kept (hkept.leave (hsame _ x hhash) (Nat.le_of_lt hnew)
    (Nat.le_of_eq (hstamp _ x)) (hleft _ x) (fun hs => hhash.trans (hunsigned _ x hs)) fun hs => ?_)
    (hleft _ x) hnew (fun k hk => ?_) fun k T' hT hk => ?_
  · obtain ⟨hsettled, k, b, hk, hb, hpay⟩ := hpaid _ x hs
    exact ⟨hsettled, k, hhash.trans hk, hpay.onward (ha.onward.trans hon) hb⟩
  · rw [(hsame _ x hhash).hashes]
    exact hk
  · rw [howner'] at hT
    cases hT
    exact absurd rfl hk

theorem failSettlement_tail {hit : Bool} : Prog.Uses Op.Mild
    (if hit = true then Prog.bind (call .commit) fun _ => Prog.bind (call .refresh) fun _ =>
      .ret true
     else Prog.bind (call .commit) fun _ => .ret false : Program Bool) := by
  split
  · exact Prog.uses_bind (Prog.uses_call trivial) fun _ =>
      Prog.uses_bind (Prog.uses_call trivial) fun _ => trivial
  · exact Prog.uses_bind (Prog.uses_call trivial) fun _ => trivial

theorem failSettlement_working {reason : String} {txHash : Option Nat} (hS : 1 ≤ S.minTick)
    (hp : S.punctual = true) (h : Working S i t T hash l s) (htx : txHash = none ∨ txHash = hash) :
    Safe (settlement S) i (fun _ _ _ => True) (fun _ _ _ => True)
      (SettlementWorker.failSettlement t reason txHash [.processing]) l s := by
  unfold SettlementWorker.failSettlement
  refine write_last hS h.clear (h.leave hS hp (fun now x hx => ⟨?_, rfl, rfl, rfl⟩) (fun _ _ => rfl)
    (fun _ _ => nofun) (fun _ _ hs => by rcases hs with hs | hs <;> cases hs)
    fun _ _ hs => by cases hs) fun hit => failSettlement_tail
  show txHash.or x.xrplTxHash = x.xrplTxHash
  rcases htx with rfl | rfl
  · rfl
  · rw [hx]
    cases txHash <;> rfl

theorem completeSettlement_tail {txn : Txn} {hit : Bool} :
    Prog.Uses Op.Mild
      (if hit = true then Prog.bind (SettlementWorker.lockRecipientWallet txn) fun wallet =>
        Prog.bind (SettlementWorker.credit t txn wallet) fun _ => Prog.bind (call .commit) fun _ =>
          Prog.bind (call .refresh) fun _ => .ret true
       else Prog.bind (call .commit) fun _ => .ret false : Program Bool) := by
  split
  · refine Prog.uses_bind (uses_lockRecipientWallet mild_plain) fun wallet =>
      Prog.uses_bind ?_ fun _ => Prog.uses_bind (Prog.uses_call trivial) fun _ =>
        Prog.uses_bind (Prog.uses_call trivial) fun _ => trivial
    cases wallet with
    | none => trivial
    | some w => exact Prog.uses_call trivial
  · exact Prog.uses_bind (Prog.uses_call trivial) fun _ => trivial

theorem completeSettlement_working {txn : Txn} {k : Nat} {b : Blob} (hS : 1 ≤ S.minTick)
    (hp : S.punctual = true) (h : Working S i t T (some k) l s) (hb : s.blobs[k]? = some b)
    (hpaid : s.Paid k) :
    Safe (settlement S) i (fun _ _ _ => True) (fun _ _ _ => True)
      (SettlementWorker.completeSettlement t txn (some k) [.processing]) l s := by
  unfold SettlementWorker.completeSettlement
  exact write_last hS h.clear (h.leave hS hp (fun now x hx => ⟨hx.symm, rfl, rfl, rfl⟩)
    (fun _ _ => rfl)
    (fun _ _ => nofun) (fun _ _ hs => by rcases hs with hs | hs <;> cases hs)
    fun _ _ _ => ⟨rfl, k, b, rfl, hb, hpaid⟩) fun hit => completeSettlement_tail

theorem retryOrFail_working {txn : Txn} {reason : String} (hS : 1 ≤ S.minTick)
    (hp : S.punctual = true) (h : Working S i t T none l s) :
    Safe (settlement S) i (fun _ _ _ => True) (fun _ _ _ => True)
      (SettlementWorker.retryOrFail t txn reason) l s := by
  unfold SettlementWorker.retryOrFail
  split
  · exact Safe.bind (R := fun _ _ _ => True) (failSettlement_working hS hp h (.inl rfl))
      fun _ _ _ _ => safe_ret fun _ => trivial
  · refine write_last hS h.clear (h.leave hS hp (fun now x hx => ⟨rfl, rfl, rfl, rfl⟩)
      (fun _ _ => rfl)
      (fun _ _ => nofun) (fun _ _ _ => rfl) fun _ _ hs => by cases hs) fun hit => ?_
    split
    · exact Prog.uses_bind (Prog.uses_call trivial) fun _ =>
        Prog.uses_bind (Prog.uses_call trivial) fun _ =>
          Prog.uses_bind (Prog.uses_call trivial) fun _ => trivial
    · exact Prog.uses_bind (Prog.uses_call trivial) fun _ => trivial

/-! ## §3. The claim. -/

/-- Taking a row up is what makes a claim. -/
theorem Session.writeTxn_takes {now : Nat} {x : Option Txn} {x' : Txn}
    (h : x.map (·.settlementStatus) ≠ some .processing) (h' : x'.settlementStatus = .processing) :
    (l.writeTxn now t x x').claimedAt = some now := if_pos ⟨h', h⟩

theorem Session.writeTxn_holds {now : Nat} {x : Option Txn} {x' : Txn}
    (h : x.map (·.settlementStatus) = some .processing) :
    (l.writeTxn now t x x').claimedAt = l.claimedAt := if_neg fun hp => hp.2 h

theorem claim_working (hS : 1 ≤ S.minTick) (hc : l.Clear .transactions) (hv : l.view = none) :
    Safe (settlement S) i
      (fun claimed l' s' => l'.Clear .transactions ∧ l'.signedHash = l.signedHash ∧
        ∀ txn, claimed = some txn → ∃ T, Working S i t T none l' s')
      (fun _ _ _ => True) (SettlementWorker.claim t) l s := by
  unfold SettlementWorker.claim
  refine Guard.write_commit_bind (G := payments S) hc ?_
    (fun s₁ c _ l₀ s₀ x l₁ s₂ hh ha hx hf hstored hcond hw => ?_)
    (fun _ _ _ _ _ l₁ s₂ _ _ _ _ _ ha _ =>
      safe_ret fun _ => ⟨ha.clear, ha.signed, fun txn hr => by cases hr⟩)
    fun _ _ _ _ _ => trivial
  -- the claim takes a queued row that carries no hash, which nobody holds
  · refine payments_writesOver hS fun s₁ c r l' s' x hh ha hx hf hstored hcond hon hlt hkept => ?_
    simp only [SettlementWorker.claimable, Bool.and_eq_true, beq_iff_eq,
      Option.isNone_iff_eq_none] at hcond
    obtain ⟨⟨hqueued, -⟩, hnone⟩ := hcond
    have hx₀ : (some x).map (·.settlementStatus) ≠ some .processing := by simp [hqueued]
    have hold : x.updatedAt ≤ s₁.clock := (hh.inv.rows t x hstored).stamp
    exact
      { kept := by
          rw [ownerAfter_taken hx₀ rfl]
          exact hkept.take ⟨rfl, rfl, rfl, rfl⟩ hnone (Nat.le_refl _) rfl
        taken := fun _ => .inr hnone
        later := fun y hy => by
          cases hy
          exact ⟨by show x.updatedAt ≤ s'.clock; omega,
            fun he => absurd (show s'.clock = x.updatedAt from he) (by omega), fun k hk => hk⟩
        spares := fun k T hT _ => by
          have hp := hkept.inHand.mp (by rw [hT]; rfl)
          rw [hqueued] at hp
          cases hp }
  · simp only [SettlementWorker.claimable, Bool.and_eq_true, beq_iff_eq,
      Option.isNone_iff_eq_none] at hcond
    obtain ⟨⟨hqueued, -⟩, hnone⟩ := hcond
    have hx₀ : (some x).map (·.settlementStatus) ≠ some .processing := by simp [hqueued]
    -- stored: the row is this worker's, and unsigned
    have hwork : Working S i t s₀.clock none l₁ s₂ := by
      refine ⟨hw.clear, fun _ => ⟨hw.view.trans hv, ?_, fun _ => ⟨?_, _, hw.row, hnone⟩⟩⟩
      · rw [hw.claimedAt]
        exact Session.writeTxn_takes hx₀ rfl
      · exact hw.owner.trans (ownerAfter_taken hx₀ rfl)
    refine Safe.bind (R := fun _ l' s' => l'.Clear .transactions ∧ l'.signedHash = l.signedHash ∧
      Working S i t s₀.clock none l' s') ?_ fun txn l' s' h =>
        safe_ret fun _ => ⟨h.1, h.2.1, fun _ _ => ⟨s₀.clock, h.2.2⟩⟩
    unfold SettlementWorker.reload
    refine Guard.calm_bind (payments S) rfl hw.clear (fun s₃ c found l' s' _ _ _ hal hview => ?_)
      fun _ _ _ _ _ _ _ _ => trivial
    cases found with
    | none => exact safe_raise fun _ => trivial
    | some txn =>
      exact safe_ret fun _ => ⟨hal.clear, hal.signed.trans hw.signed, hwork.along hal (hview rfl)⟩

/-- Calm calls leave the row in the worker's hands. -/
theorem Working.of_uses {p : Program α} (h : Working S i t T hash l s)
    (hu : Prog.Uses (fun o : Op => o.isCalm = true ∧ o.looksUp = false) p) :
    Safe (settlement S) i
      (fun _ l' s' => Working S i t T hash l' s' ∧ l'.signedHash = l.signedHash ∧ Onward s s')
      (fun _ l' s' => Working S i t T hash l' s' ∧ l'.signedHash = l.signedHash ∧ Onward s s')
      p l s :=
  (Guard.calm_of_uses (payments S) hu h.clear).mono
    (fun _ _ _ _ ⟨ha, hv⟩ => ⟨h.along ha hv, ha.signed, ha.onward⟩)
    fun _ _ _ _ ⟨ha, hv⟩ => ⟨h.along ha hv, ha.signed, ha.onward⟩

/-! ## §4. Sign, store, submit. -/

/-- The worker has just signed `k` for the row in its hands: it is newer than all of the
row's hashes. -/
structure Signing (S : Setting) (i t T k n : Nat) (b : Blob) (l : Session) (s : World) : Prop
    extends Working S i t T none l s where
  new : NewSignature S (.payment t) n k b l s
  since : l.failed = false → T ≤ b.signedAt
  fresh : l.failed = false → s.clock ≤ T + jobTimeout →
    ∀ x, s.txns t = some x → ∀ m ∈ x.hashes, m < k

theorem Signing.along {k n : Nat} {b : Blob} (h : Signing S i t T k n b l s)
    (ha : (payments S).Along i l s l s') : Signing S i t T k n b l s' where
  toWorking := h.toWorking.along ha rfl
  new := h.new.onward ha.onward
  since := h.since
  fresh := fun hf hle x' hx' m hm => by
    have hclock := ha.rely.clock
    obtain ⟨-, -, hhand⟩ := h.held hf
    obtain ⟨howner, x, hx, -⟩ := hhand (by omega)
    obtain ⟨-, hsame⟩ := ha.rely.inHand t T howner hle
    rw [(hsame x x' hx hx').hashes] at hm
    exact h.fresh hf (by omega) x hx m hm

/-- Storing the new hash and its range on the row. -/
theorem Signing.writes {k n : Nat} {b : Blob} (h : Signing S i t T k n b l s)
    (hS : 1 ≤ S.minTick) (hp : S.punctual = true) :
    (payments S).WritesOver i t (fun _ => true) (remembered ⟨k, b.lastLedgerSequence, some n⟩)
      l s := by
  refine payments_writesOver hS fun s₁ c r l' s' x hh ha hx hf hstored _ hon hlt hkept => ?_
  have h₁ := h.along (show (payments S).Along i l s l s₁ from
    ⟨h.clear, rfl, rfl, rfl, id, ha.rely, ha.onward⟩)
  obtain ⟨howner, y, hy, hnone⟩ := h₁.toWorking.inHand hp hf hx
  obtain rfl : x = y := Option.some.inj (hstored.symm.trans hy)
  have howner' : s'.txnOwner t = some (i, T) :=
    (congrFun (exec_uncommitted
      (nofun : Op.updateTxn t (fun _ => true)
        (remembered ⟨k, b.lastLedgerSequence, some n⟩) ≠ .commit)
      hx).txnOwner t).trans howner
  rw [howner'] at hkept
  have hproc : x.settlementStatus = .processing := hkept.inHand.mp rfl
  have hold : x.updatedAt ≤ s₁.clock := (hh.inv.rows t x hstored).stamp
  obtain ⟨-, hclaim, -⟩ := h₁.held hf
  have hle := exec_punctual hp hx hclaim
  have hbefore := h₁.new.signedAt
  have hnew := hkept.remember hnone (Nat.le_refl _) (hon.blobs k b h₁.new.blob) h.new.purpose
    (h.new.index hf) h.new.expires (h.since hf) (by omega) (h₁.fresh hf (by omega) x hstored)
  exact
    { kept := by
        rw [howner',
          ownerAfter_held hproc (show (remembered _ _ x).settlementStatus = _ from hproc)]
        exact hnew
      taken := fun _ => .inl (congrArg some hproc)
      later := fun y hy => by
        cases hy
        refine ⟨by show x.updatedAt ≤ s'.clock; omega,
          fun he => absurd (show s'.clock = x.updatedAt from he) (by omega), fun m hm => ?_⟩
        rw [Txn.hashes_unsigned hnone] at hm
        exact List.mem_append_left _ hm
      spares := fun k' T' hT' hne => by
        rw [howner'] at hT'
        cases hT'
        exact absurd rfl hne }

theorem rememberSigned_working {k n : Nat} {b : Blob} (hS : 1 ≤ S.minTick)
    (hp : S.punctual = true) (h : Signing S i t T k n b l s) (hsig : l.signedHash = none) :
    Safe (settlement S) i
      (fun _ l' s' => Working S i t T (some k) l' s' ∧ l'.failed = false ∧
        l'.signedHash = some k ∧ s'.blobs[k]? = some b)
      (fun _ l' _ => l'.failed = true ∧ l'.signedHash = none)
      (SettlementWorker.rememberSigned t ⟨k, b.lastLedgerSequence, some n⟩) l s := by
  unfold SettlementWorker.rememberSigned
  refine Guard.write_commit_bind (G := payments S) h.clear (h.writes hS hp)
    (fun s₁ c _ l₁ s₂ x l' s' hh ha hx hf hstored _ hw => ?_)
    (fun s₁ c _ l₁ s₂ l' s' hh ha hx hf hno _ _ => ?_) fun _ l' _ hf hs => ⟨hf, hs.trans hsig⟩
  · have h₁ := h.along (show (payments S).Along i l s l s₁ from
      ⟨h.clear, rfl, rfl, rfl, id, ha.rely, ha.onward⟩)
    obtain ⟨howner, -⟩ := h₁.toWorking.inHand hp hf hx
    have hproc : x.settlementStatus = .processing :=
      (hh.inv.rows t x hstored).inHand.mp (by rw [howner]; rfl)
    obtain ⟨hview, hclaim, -⟩ := h.held hf
    have hwork : Working S i t T (some k) l' s' := by
      refine ⟨hw.clear, fun _ => ⟨hw.view.trans hview, ?_, fun _ => ⟨?_, _, hw.row, rfl⟩⟩⟩
      · have hmap : (some x).map (·.settlementStatus) = some .processing := congrArg some hproc
        exact (hw.claimedAt.trans (Session.writeTxn_holds hmap)).trans hclaim
      · exact (hw.owner.trans
          (ownerAfter_held hproc (show (remembered _ _ x).settlementStatus = _ from hproc))).trans
            howner
    have hblob : s'.blobs[k]? = some b := hw.onward.blobs k b h₁.new.blob
    refine safe_call fun hg s₃ hh₃ hs₃ c r l₄ s₄ hx₄ hg₄ => ?_
    obtain ⟨rfl, rfl, rfl⟩ := exec_setSignedHash hx₄
    have hon : Onward s₃ (s₃.tick S c) := exec_onward hh₃.session.locked hx₄
    refine ⟨settlement_keeps (o := .setSignedHash k) hh₃ nofun hx₄ nofun, ?_, hw.failed, rfl,
      hon.blobs k b (hs₃.moves.others.onward.blobs k b hblob)⟩
    have hsees : Working S i t T (some k) l' s₃ := hwork.along (.of_sees hw.clear hs₃) rfl
    refine ⟨hsees.clear, fun hf' => ?_⟩
    obtain ⟨hv, hc, hhand⟩ := hsees.held hf'
    refine ⟨hv, hc, fun hle => hhand ?_⟩
    have hclock := hon.clock
    omega
  · -- the row is in the worker's hands, so the write has found it
    have h₁ := h.along (show (payments S).Along i l s l s₁ from
      ⟨h.clear, rfl, rfl, rfl, id, ha.rely, ha.onward⟩)
    obtain ⟨-, x, hx', -⟩ := h₁.toWorking.inHand hp hf hx
    exact absurd (hno x hx') (by decide)

/-- Handing over the payment that is on the row. -/
theorem handOver_call {k : Nat} (hp : S.punctual = true) (h : Working S i t T (some k) l s)
    (hf : l.failed = false) (hh : (settlement S).Here i l s) {r : Except Exn Unit}
    (hx : exec S i (.handOver (.payment t) k) c l s = some (r, l', s')) :
    (settlement S).keeps i s s' ∧ (payments S).Along i l s l' s' ∧ l'.view = l.view := by
  obtain ⟨-, x, hx', hhash⟩ := h.inHand hp hf hx
  have ho : Op.handOver (.payment t) k ≠ .commit := nofun
  have hu := exec_uncommitted ho hx
  have hon : Onward s s' := exec_onward hh.session.locked hx
  refine ⟨settlement_keeps hh ho hx fun t' k' he => ?_,
    ⟨h.clear.call rfl hx, exec_sameClaim rfl rfl hx, exec_sameSigned rfl hx, exec_sameEntry hx,
      fun hf => exec_staysFailed hf hx, .of_same hon.clock hu.txns hu.txnOwner, hon⟩,
    exec_sameView rfl hx⟩
  cases he
  refine ⟨x, hx', List.mem_append_right _ ?_⟩
  rw [hhash]
  exact List.mem_singleton.mpr rfl

/-- The row in a punctual worker's hands is what it holds while it pays. -/
def paying (hp : S.punctual = true) (i t T : Nat) : Custody (payments S) i (.payment t) where
  Holds := Working S i t T
  clear := Working.clear
  along := Working.along
  handOver := fun h hf hh hx => handOver_call hp h hf hh hx
  failed := Working.of_failed

theorem submit_working {n : Nat} {tx : XRPLTransaction} (hS : 1 ≤ S.minTick)
    (hp : S.punctual = true)
    (h : Working S i t T none l s) (hsig : l.signedHash = none)
    (hn : l.failed = false → n ≤ s.ledger.validated) :
    Safe (settlement S) i (fun result l' s' => (paying hp i t T).Submitted result l' s')
      (fun _ l' s' => Working S i t T l'.signedHash l' s')
      (XrplService.submit (.payment t) tx (SettlementWorker.rememberSigned t) (some n)) l s := by
  refine Safe.mono (Custody.submit_custody (W := paying hp i t T)
    (N := fun (k : Nat) (b : Blob) (l : Session) (s : World) => Signing S i t T k n b l s) h hsig hn
    (fun s₁ c b l' s' hh hg' ha hw hnew hat hx => ?_)
    fun k b l s hs hsigning => rememberSigned_working hS hp hsigning hs)
    (fun _ _ _ _ hq => hq) fun _ _ _ _ he => he.holds
  have hu := exec_uncommitted (nofun : Op.autofillAndSign (.payment t) tx ≠ .commit) hx
  refine ⟨hw, hnew, fun hf => ?_, fun hf hle x hx' m hm => ?_⟩
  · obtain ⟨-, hclaim, -⟩ := Working.held hw hf
    rw [hat]
    exact hg'.session.locked.claimedAt T hclaim
  · rw [show s'.txns t = s₁.txns t from congrFun hu.txns t] at hx'
    exact (hh.inv.rows t x hx').hash_lt hm

theorem sendFromTreasury_working {destination amount : Nat} (hS : 1 ≤ S.minTick)
    (hp : S.punctual = true)
    (h : Working S i t T none l s) (hsig : l.signedHash = none) :
    Safe (settlement S) i (fun result l' s' => (paying hp i t T).Submitted result l' s')
      (fun _ l' s' => Working S i t T l'.signedHash l' s')
      (XrplService.sendFromTreasury t destination amount (SettlementWorker.rememberSigned t))
        l s := by
  have hstill : ∀ l' s', (payments S).Along i l s l' s' → l'.view = l.view →
      Working S i t T none l' s' ∧ l'.signedHash = none := fun l' s' ha hv =>
    ⟨h.along ha hv, ha.signed.trans hsig⟩
  have herr : ∀ l' s', (payments S).Along i l s l' s' → l'.view = l.view →
      Working S i t T l'.signedHash l' s' := fun l' s' ha hv => by
    rw [(hstill l' s' ha hv).2]
    exact (hstill l' s' ha hv).1
  unfold XrplService.sendFromTreasury
  refine Guard.calm_bind (payments S) rfl h.clear (fun _ _ _ l₁ s₁ _ _ _ ha₁ hv₁ => ?_)
    fun _ _ _ l' s' _ ha hv => herr l' s' ha (hv rfl)
  refine Guard.calm_bind (payments S) rfl ha₁.clear (fun s₂ c n l₃ s₃ hh ha₂ hx ha₃ hv₃ => ?_)
    fun _ _ _ l' s' _ ha hv => herr l' s' (ha₁.trans ha) ((hv rfl).trans (hv₁ rfl))
  have ha := ha₁.trans ha₃
  have hv := (hv₃ rfl).trans (hv₁ rfl)
  obtain ⟨hw, hs⟩ := hstill l₃ s₃ ha hv
  have hn : l₃.failed = false → n ≤ s₃.ledger.validated := fun hf => by
    rcases exec_latestValidated hx with ⟨e, he⟩ | hr
    · cases he
    · -- nothing has been looked up, so the index is that of the ledger itself
      have hview : l₁.view = none := (hv₃ rfl).symm.trans (hw.held hf).1
      have hle := (exec_onward hh.session.locked hx).validated
      cases hr
      unfold Session.consulted
      rw [hview]
      exact hle
  unfold XrplService.uctusd
  split
  · exact safe_raise fun _ => herr l₃ s₃ ha hv
  · exact submit_working hS hp hw hs hn

/-! ## §5. One message. -/

theorem withTreasuryLock_working {p : Program XrplService.XRPLResult} (hp : S.punctual = true)
    (h : Working S i t T none l s) (hsig : l.signedHash = none)
    (hbody : ∀ l' s', Working S i t T none l' s' → l'.signedHash = none →
      Safe (settlement S) i (fun result l' s' => (paying hp i t T).Submitted result l' s')
        (fun _ l' s' => Working S i t T l'.signedHash l' s') p l' s') :
    Safe (settlement S) i (fun result l' s' => (paying hp i t T).Submitted result l' s')
      (fun _ l' s' => Working S i t T l'.signedHash l' s')
      (SettlementWorker.withTreasuryLock p) l s := by
  have hstill : ∀ {l s l' s'}, Working S i t T l.signedHash l s → (payments S).Along i l s l' s' →
      l'.view = l.view → Working S i t T l'.signedHash l' s' := fun hw ha hv => by
    rw [ha.signed]
    exact hw.along ha hv
  have h₀ : Working S i t T l.signedHash l s := by rw [hsig]; exact h
  unfold SettlementWorker.withTreasuryLock
  refine Guard.calm_bind (payments S) rfl h.clear (fun _ _ _ l₁ s₁ _ _ _ ha₁ hv₁ => ?_)
    fun _ _ e l' s' _ ha hv => hstill h₀ ha (hv rfl)
  refine Safe.attempt_bind (hbody l₁ s₁ (h.along ha₁ (hv₁ rfl)) (ha₁.signed.trans hsig)) ?_ ?_
  · intro result l₂ s₂ hpay
    refine Guard.calm_bind (payments S) rfl hpay.holds.clear (fun _ _ _ l₃ s₃ _ _ _ ha₃ hv₃ => ?_)
      fun _ _ e l' s' _ ha hv => hstill (Custody.Submitted.holds hpay) ha (hv rfl)
    exact safe_ret fun _ => hpay.along ha₃ (hv₃ rfl)
  · intro e l₂ s₂ hw₂
    refine Guard.calm_bind (payments S) rfl hw₂.clear (fun _ _ _ l₃ s₃ _ _ _ ha₃ hv₃ => ?_)
      fun _ _ e l' s' _ ha hv => hstill hw₂ ha (hv rfl)
    exact safe_raise fun _ => hstill hw₂ ha₃ (hv₃ rfl)

theorem pay_working {u : Nat} {txn : Txn} (hS : 1 ≤ S.minTick) (hp : S.punctual = true)
    (h : Working S i t T none l s) (hsig : l.signedHash = none) :
    Safe (settlement S) i (fun result l' s' => (paying hp i t T).Submitted result l' s')
      (fun _ l' s' => Working S i t T l'.signedHash l' s')
      (SettlementWorker.pay t u txn) l s := by
  have hprovision : Prog.Uses (fun o : Op => o.isCalm = true ∧ o.looksUp = false)
      (XrplService.provisionWallet t u) := by
    unfold XrplService.provisionWallet
    exact Prog.uses_bind (uses_findOrFund calm_plain_view fun _ => ⟨rfl, rfl⟩) fun wallet =>
      Prog.uses_bind (uses_ensureTrustLine calm_plain_view ⟨rfl, rfl⟩ ⟨rfl, rfl⟩
        (fun _ => ⟨rfl, rfl⟩) fun _ => ⟨rfl, rfl⟩) fun _ => trivial
  unfold SettlementWorker.pay
  refine Safe.bind (R := fun _ l' s' => Working S i t T none l' s' ∧ l'.signedHash = none)
    ((h.of_uses hprovision).mono (fun _ l' s' _ ⟨hw, hs, _⟩ => ⟨hw, hs.trans hsig⟩)
      fun _ l' s' _ ⟨hw, hs, _⟩ => by rw [hs, hsig]; exact hw) ?_
  rintro wallet l₁ s₁ ⟨hw₁, hs₁⟩
  split
  · exact withTreasuryLock_working hp hw₁ hs₁ fun l' s' hw hs =>
      sendFromTreasury_working hS hp hw hs
  · exact safe_raise fun _ => by rw [hs₁]; exact hw₁

theorem processSettlement_working (hS : 1 ≤ S.minTick) (hp : S.punctual = true)
    (hc : l.Clear .transactions)
    (hv : l.view = none) (hsig : l.signedHash = none) :
    Safe (settlement S) i (fun _ _ _ => True) (fun _ _ _ => True)
      (SettlementWorker.processSettlement t) l s := by
  have hfail : ∀ {β : Type} (b : β) (T : Nat) (hash txHash : Option Nat) (reason : String) l s,
      Working S i t T hash l s → (txHash = none ∨ txHash = hash) →
      Safe (settlement S) i (fun _ _ _ => True) (fun _ _ _ => True)
        (Prog.bind (SettlementWorker.failSettlement t reason txHash [.processing])
          fun _ => .ret b) l s := fun b T hash txHash reason l s hw htx =>
    Safe.bind (R := fun _ _ _ => True) (failSettlement_working hS hp hw htx)
      fun _ _ _ _ => safe_ret fun _ => trivial
  unfold SettlementWorker.processSettlement
  refine Safe.bind (claim_working hS hc hv) ?_
  rintro claimed l₁ s₁ ⟨hc₁, hs₁, hwork⟩
  cases claimed with
  | none => exact safe_ret fun _ => trivial
  | some txn =>
    obtain ⟨T, hw₁⟩ := hwork txn rfl
    refine Safe.bind (R := fun _ l' s' => Working S i t T none l' s' ∧ l'.signedHash = none)
      ((hw₁.of_uses (uses_getRecipient calm_plain_view)).mono
        (fun _ l' s' _ ⟨hw, hs, _⟩ => ⟨hw, (hs.trans hs₁).trans hsig⟩)
        fun _ _ _ _ _ => trivial) ?_
    rintro recipient l₂ s₂ ⟨hw₂, hs₂⟩
    cases recipient with
    | none => exact hfail _ T none none _ l₂ s₂ hw₂ (.inl rfl)
    | some u =>
      -- the result says which hash the row carries: the one signed, or none if nothing was sent
      refine Safe.attempt_bind (pay_working hS hp hw₂ hs₂) ?_ ?_
      · intro result l₃ s₃ hpay
        show Safe (settlement S) i _ _ (SettlementWorker.onResult t txn result) l₃ s₃
        unfold SettlementWorker.onResult
        cases hres : result.resolution with
        | succeeded =>
          obtain ⟨k, b, hk, hb, hpaid⟩ := hpay.paid hres
          have hw := hpay.holds
          rw [← hpay.signed (by rw [hres]; decide), hk] at hw
          dsimp only
          rw [hk]
          exact Safe.bind (R := fun _ _ _ => True) (completeSettlement_working hS hp hw hb hpaid)
            fun _ _ _ _ => safe_ret fun _ => trivial
        | notSubmitted =>
          have hw := hpay.holds
          rw [hpay.unsigned hres] at hw
          exact retryOrFail_working hS hp hw
        | unknown | failed =>
          exact hfail _ T _ _ _ l₃ s₃ hpay.holds (.inr (hpay.signed (by rw [hres]; decide)))
      · intro exc l₃ s₃ hw₃
        show Safe (settlement S) i _ _ (SettlementWorker.onException t txn exc) l₃ s₃
        unfold SettlementWorker.onException
        split
        · exact hfail _ T _ none _ l₃ s₃ hw₃ (.inl rfl)
        -- after any other exception it is the session that knows whether something was signed
        · refine Guard.calm_bind (payments S) rfl hw₃.clear
            (fun s₄ c signed l₅ s₅ _ _ hx ha hv => ?_)
            fun _ _ _ _ _ _ _ _ => trivial
          obtain ⟨hr, -⟩ := exec_getSignedHash hx
          have hw := hw₃.along ha (hv rfl)
          rw [← Except.ok.inj hr] at hw
          cases signed with
          | some k => exact hfail _ T _ (some k) _ l₅ s₅ hw (.inr rfl)
          | none => exact retryOrFail_working hS hp hw

end Orbyt
