/-
  Orbyt.Invariants.Retrying — every program keeps the settlement protocol

  The admin's retry consults the ledger before it retires an attempt or completes a row
  with it; everything else the platform does is harmless to payments.

  Main result:
    * `settlement_reach` — `Settlements` in every reachable state.
-/
import Orbyt.Invariants.Settling

namespace Orbyt

open Interleave
open ValidatedLedger
open SettlementWorker (isIn completed failed)
open CashinService (isPending received cashinFailed isStale expired isUntouched retired flaggedAs)

variable {S : Setting} {i : Nat} {o : Op} {c : Choice} {l l' : Session} {s s' : World}
  {t : Nat} {owner : Option (Nat × Nat)} {x x' : Txn}

/-! ## §1. A row read some time ago. -/

/-- `txn` is a stored version of the row, read some time ago. -/
structure Seen (S : Setting) (t : Nat) (txn : Txn) (s : World) : Prop where
  row : ∃ x, s.txns t = some x ∧ txn.Later x
  kept : ∃ owner, txn.Kept S s t owner

variable {txn : Txn}

theorem Seen.along (h : Seen S t txn s) (ha : (payments S).Along i l s l' s') :
    Seen S t txn s' := by
  obtain ⟨⟨x, hx, hlater⟩, owner, hkept⟩ := h
  obtain ⟨x', hx', hlater'⟩ := ha.rely.rows t x hx
  exact ⟨⟨x', hx', hlater.trans hlater'⟩, owner, hkept.onward ha.onward⟩

/-- It had failed, or had been processing without a sign of life for `stuckAfter`. -/
def Txn.Stale (txn : Txn) (s : World) : Prop :=
  txn.settlementStatus = .failed ∨
    (txn.settlementStatus = .processing ∧ txn.updatedAt + CashinService.stuckAfter ≤ s.clock)

theorem Txn.Stale.onward (h : txn.Stale s) (ho : Onward s s') : txn.Stale s' :=
  h.imp id fun ⟨hp, hle⟩ => ⟨hp, Nat.le_trans hle ho.clock⟩

theorem jobTimeout_lt_stuckAfter : jobTimeout < CashinService.stuckAfter := by decide

theorem retired_hashes {now : Nat} : (retired txn now x).hashes = txn.hashes := by
  show (CashinService.archivedAttempts txn now).map (·.txHash) ++ [] = txn.hashes
  unfold CashinService.archivedAttempts Txn.hashes
  cases txn.xrplTxHash with
  | none => rfl
  | some k => simp

/-- A row whose live attempt is retired. -/
theorem Txn.Kept.retire {now : Nat} (h : txn.Kept S s t owner) (hclock : now ≤ s.clock)
    (hdead : S.oneLedgerView = true → ∀ k, txn.xrplTxHash = some k → s.Dead k) :
    (retired txn now x).Kept S s t none := by
  have harchived : ∀ a ∈ CashinService.archivedAttempts txn now,
      a ∈ txn.settlementPreviousAttempts ∨ (txn.xrplTxHash = some a.txHash ∧
        a.lastLedgerSequence = txn.settlementLastLedgerSequence ∧
        a.submittedLedgerIndex = txn.settlementSubmittedLedgerIndex) := by
    intro a ha
    unfold CashinService.archivedAttempts at ha
    cases hk : txn.xrplTxHash with
    | none =>
      rw [hk] at ha
      exact .inl ha
    | some k =>
      rw [hk] at ha
      rcases List.mem_append.mp ha with hold | hnew
      · exact .inl hold
      · rw [List.mem_singleton.mp hnew]
        exact .inr ⟨rfl, rfl, rfl⟩
  exact
    { stamp := hclock
      unsigned := fun _ => rfl
      noRange := fun _ => ⟨rfl, rfl⟩
      live := nofun
      signedBefore := nofun
      previous := fun a ha => by
        rcases harchived a ha with hold | ⟨hk, hl, hs⟩
        · exact h.previous a hold
        · rw [hl, hs]
          exact h.live a.txHash hk
      order := by rw [retired_hashes]; exact h.order
      dead := fun hS a ha => by
        rcases harchived a ha with hold | ⟨hk, -⟩
        · exact h.dead hS a hold
        · exact hdead hS a.txHash hk
      paid := nofun
      inHand := ⟨nofun, nofun⟩
      claim := nofun }

/-- Retiring the attempt of a row that nothing has touched since it was read. -/
theorem Seen.retires (hS : 1 ≤ S.minTick) (h : Seen S t txn s) (hst : txn.Stale s)
    (hdead : S.oneLedgerView = true → ∀ k, txn.xrplTxHash = some k → s.Dead k) :
    (payments S).WritesOver i t (isUntouched txn) (retired txn) l s := by
  refine payments_writesOver hS fun s₁ c r l' s' x hh ha hx hf hstored hcond hon hlt hkept => ?_
  obtain ⟨⟨y, hy, hlater⟩, -⟩ := h.along ha
  obtain rfl : x = y := Option.some.inj (hstored.symm.trans hy)
  simp only [CashinService.isUntouched, Bool.and_eq_true, beq_iff_eq] at hcond
  obtain rfl : x = txn := hlater.same hcond.2
  have hall := ha.onward.trans hon
  have hdead' : S.oneLedgerView = true → ∀ k, x.xrplTxHash = some k → s'.Dead k := by
    intro hS k hk
    obtain ⟨owner, hk₀⟩ := h.kept
    obtain ⟨b, hb, -⟩ := (hk₀.live k hk).blob
    exact (hdead hS k hk).onward hall hb
  have hold : x.updatedAt ≤ s₁.clock := (hh.inv.rows t x hstored).stamp
  refine Txn.Replaces.of_kept (hkept.retire (Nat.le_refl _) hdead') (fun he => by cases he)
    (by show x.updatedAt < s'.clock; omega)
    (fun k hk => by rw [retired_hashes]; exact hk) fun k T hT _ => ?_
  -- whoever has the row in hand claimed it before the row was last stamped
  have hproc : x.settlementStatus = .processing := hkept.inHand.mp (by rw [hT]; rfl)
  have hclaim := (hkept.claim k T hT).1
  have hlt' := jobTimeout_lt_stuckAfter
  rcases hst.onward hall with hfailed | ⟨-, hle⟩
  · rw [hproc] at hfailed
    cases hfailed
  · omega

/-- Completing the row with a hash that is paid. -/
theorem Seen.completes {k : Nat} (hmin : 1 ≤ S.minTick) (h : Seen S t txn s) (hst : txn.Stale s)
    (hS : S.oneLedgerView = true ∨ S.sameHashReconcile = true)
    (hentry : l.entry.isSettlementRetry = true) (hc : l.Clear .transactions)
    (hk : txn.xrplTxHash = some k) (hpaid : s.Paid k) :
    (payments S).WritesOver i t (isIn [txn.settlementStatus]) (completed (some k)) l s := by
  refine payments_writesOver hmin fun s₁ c r l' s' x hh ha hx hf hstored hcond hon hlt hkept => ?_
  obtain ⟨⟨y, hy, hlater⟩, owner, hseen⟩ := h.along ha
  obtain rfl : x = y := Option.some.inj (hstored.symm.trans hy)
  have hstatus : x.settlementStatus = txn.settlementStatus := by
    simpa using isIn_iff.mp hcond
  obtain ⟨b, hb, -⟩ := (hseen.live k hk).blob
  obtain ⟨owner₀, hseen₀⟩ := h.kept
  obtain ⟨b₀, hb₀, -⟩ := (hseen₀.live k hk).blob
  have hpaid₁ : s₁.Paid k := hpaid.onward ha.onward hb₀
  have hhash : x.xrplTxHash = some k := by
    rcases hS with hview | hsame
    · refine (hh.inv.rows t x hstored).live_of_paid hview (hlater.hashes k ?_) hpaid₁
      exact List.mem_append_right _ (by rw [hk]; exact List.mem_singleton.mpr rfl)
    · have hread : l.txn s₁ t = some x := (hc.txn hf).trans hstored
      exact (exec_sameHash hsame hentry hx hread hcond rfl).symm
  have hold : x.updatedAt ≤ s₁.clock := (hh.inv.rows t x hstored).stamp
  have hnew : x.updatedAt < s'.clock := by omega
  refine Txn.Replaces.of_kept (hkept.leave ⟨hhash.symm, rfl, rfl, rfl⟩ (Nat.le_of_lt hnew)
    (Nat.le_refl _) (by exact nofun) (fun hs => by rcases hs with hs | hs <;> cases hs)
    fun _ => ⟨rfl, k, hhash, hpaid₁.onward hon hb⟩) (by exact nofun) hnew (fun m hm => ?_)
    fun k' T hT _ => ?_
  · unfold Txn.hashes at hm ⊢
    rw [hhash] at hm
    exact hm
  · -- whoever has the row in hand signed `k`, and did so before the row was read
    have hproc : x.settlementStatus = .processing := hkept.inHand.mp (by rw [hT]; rfl)
    have hsince := (hkept.claim k' T hT).2 k b hhash (hon.blobs k b hb)
    have hbefore := hseen.signedBefore k b hk hb
    have hlt' := jobTimeout_lt_stuckAfter
    have hclock := (ha.onward.trans hon).clock
    rcases hst with hfailed | ⟨-, hle⟩
    · rw [← hstatus, hproc] at hfailed
      cases hfailed
    · omega

/-! ## §2. The consultation. -/

/-- What the consultation about the attempt `k` has found out. -/
structure Consulted (S : Setting) (k : Nat) (code : Option TxCode) (s : World) : Prop where
  included : ∀ r, code = some r → ∃ n, s.ledger.included k = some (n, r)
  dead : code = none → S.oneLedgerView = true → s.Dead k

theorem refuseUnlessProvablyDead_seen {k : Nat} (hc : l.Clear .transactions) (h : Seen S t txn s)
    (hk : txn.xrplTxHash = some k) (hm : S.oneLedgerView = true → l.Missed s k) :
    Safe (settlement S) i
      (fun _ l' s' => (payments S).Along i l s l' s' ∧ (S.oneLedgerView = true → s'.Dead k))
      (fun _ _ _ => True) (CashinService.refuseUnlessProvablyDead txn) l s := by
  unfold CashinService.refuseUnlessProvablyDead
  split
  next lastLedger submittedAt hlast hsubmitted =>
    refine Guard.calm_bind (payments S) rfl hc (fun s₁ c₁ latest l₂ s₂ _ ha₁ hx₁ ha₂ hv₂ => ?_)
      fun _ _ _ _ _ _ _ _ => trivial
    split
    · exact safe_raise fun _ => trivial
    next hpast =>
      refine Guard.calm_bind (payments S) rfl ha₂.clear
        (fun s₃ c₃ complete l₄ s₄ _ ha₃ hx₃ ha₄ _ => ?_)
        fun _ _ _ _ _ _ _ _ => trivial
      split
      next hcomplete =>
        refine safe_ret fun _ => ⟨ha₂.trans ha₄, fun hS => ?_⟩
        obtain ⟨owner, hkept⟩ := h.kept
        have hsigned := hkept.live k hk
        rw [hlast, hsubmitted] at hsigned
        obtain ⟨b, hb, -⟩ := hsigned.blob
        have hlatest : latest = (l.consulted s).validated := by
          rcases exec_latestValidated hx₁ with ⟨e, he⟩ | hr
          · cases he
          · rw [← (hm hS).consulted s₁ rfl]
            exact Except.ok.inj hr
        have hheld : (l.consulted s).holds submittedAt lastLedger := by
          rcases exec_completeRange hx₃ with ⟨e, he⟩ | ⟨b, hr, hheld⟩
          · cases he
          · cases hr
            rw [← (hm hS).consulted s₃ (hv₂ rfl)]
            exact hheld hcomplete
        rw [hlatest] at hpast
        have hdead : s.Dead k := (hm hS).dead hsigned (Nat.lt_of_not_le hpast) hheld
        exact hdead.onward (ha₂.trans ha₄).onward hb
      · exact safe_raise fun _ => trivial
  · exact safe_raise fun _ => trivial

/-- **ONE CONSULTATION**: a code is the validated one, and no code means that the attempt is
dead, where the three reads see one ledger. -/
theorem consultLedger_seen {k : Nat} (hc : l.Clear .transactions) (hv : l.view = none)
    (h : Seen S t txn s)
    (hk : txn.xrplTxHash = some k) :
    Safe (settlement S) i (fun code l' s' => (payments S).Along i l s l' s' ∧ Consulted S k code s')
      (fun _ _ _ => True) (CashinService.consultLedger txn k) l s := by
  unfold CashinService.consultLedger
  refine Guard.calm_bind (payments S) rfl hc (fun s₁ c₁ code l₂ s₂ hh ha₁ hx ha₂ _ => ?_)
    fun _ _ _ _ _ _ _ _ => trivial
  rcases exec_lookup_first hh.world.regular hv hx with ⟨e, he⟩ | ⟨r, n, hr, hn⟩ | ⟨hr, hm⟩
  · cases he
  · cases hr
    exact safe_ret fun _ => ⟨ha₂, fun r' he => by cases he; exact ⟨n, hn⟩, nofun⟩
  · cases hr
    refine Safe.bind (refuseUnlessProvablyDead_seen ha₂.clear (h.along ha₂) hk hm) ?_
    rintro - l₃ s₃ ⟨ha₃, hdead⟩
    exact safe_ret fun _ => ⟨ha₂.trans ha₃, nofun, fun _ => hdead⟩

/-! ## §3. The retry. -/

/-- Recording that a row could not be published. -/
theorem unpublished_mild {reason : String} :
    Op.Mild (.updateTxn t (isIn [.queued]) (failed reason none)) := by
  intro now x _ hc
  have hqueued : x.settlementStatus = .queued := by simpa using isIn_iff.mp hc
  exact ⟨⟨⟨rfl, rfl, rfl, rfl⟩, .inr ⟨.inl hqueued, .inr rfl⟩⟩, rfl⟩

theorem publish_mild : Prog.Uses Op.Mild (CashinService.publish t) :=
  uses_publish mild_plain fun _ => unpublished_mild

theorem requeue_seen (hS : 1 ≤ S.minTick) (hc : l.Clear .transactions) (h : Seen S t txn s)
    (hst : txn.Stale s) (hdead : S.oneLedgerView = true → ∀ k, txn.xrplTxHash = some k → s.Dead k) :
    Safe (settlement S) i (fun _ _ _ => True) (fun _ _ _ => True)
      (CashinService.requeue t txn) l s := by
  unfold CashinService.requeue
  refine write_last hS hc (h.retires hS hst hdead) fun hit => ?_
  refine Prog.uses_bind (Prog.uses_call trivial) fun _ => ?_
  split
  · exact Prog.uses_bind (Prog.uses_call trivial) fun _ =>
      Prog.uses_bind publish_mild fun _ => trivial
  · trivial

theorem reconcileOrRequeue_seen (hS : 1 ≤ S.minTick)
    (hview : S.oneLedgerView = true ∨ S.sameHashReconcile = true)
    (hentry : l.entry.isSettlementRetry = true) (hc : l.Clear .transactions) (hv : l.view = none)
    (h : Seen S t txn s) (hst : txn.Stale s) :
    Safe (settlement S) i (fun _ _ _ => True) (fun _ _ _ => True)
      (CashinService.reconcileOrRequeue t txn) l s := by
  unfold CashinService.reconcileOrRequeue
  split
  next hnone =>
    refine requeue_seen hS hc h hst fun _ k hk => ?_
    rw [hnone] at hk
    cases hk
  next k hk =>
    refine Safe.bind (consultLedger_seen hc hv h hk) ?_
    rintro code l₁ s₁ ⟨ha, hcode⟩
    have hentry₁ : l₁.entry.isSettlementRetry = true := by rw [ha.entry]; exact hentry
    split
    · unfold SettlementWorker.completeSettlement
      exact Safe.bind (R := fun _ _ _ => True)
        (write_last hS ha.clear ((h.along ha).completes hS (hst.onward ha.onward) hview
          hentry₁ ha.clear
          hk (hcode.included _ rfl)) fun hit => completeSettlement_tail)
        fun _ _ _ _ => safe_ret fun _ => trivial
    next hne =>
      refine requeue_seen hS ha.clear (h.along ha) (hst.onward ha.onward) fun hS' m hm => ?_
      obtain rfl : k = m := Option.some.inj (hk.symm.trans hm)
      cases code with
      | none => exact hcode.dead rfl hS'
      | some r =>
        obtain ⟨n, hn⟩ := hcode.included r rfl
        exact .inl ⟨n, r, hn, fun he => hne (congrArg some he)⟩

theorem retryable_seen (hc : l.Clear .transactions) :
    Safe (settlement S) i
      (fun ok l' s' => (payments S).Along i l s l' s' ∧ l'.view = l.view ∧
        (ok = true → txn.Stale s'))
      (fun _ _ _ => True) (CashinService.retryable txn) l s := by
  unfold CashinService.retryable
  split
  next hst => exact safe_ret fun _ => ⟨.refl hc, rfl, fun _ => .inl hst⟩
  next hst =>
    refine Guard.calm_bind (payments S) rfl hc (fun s₁ c now l₂ s₂ _ _ hx ha hv => ?_)
      fun _ _ _ _ _ _ _ _ => trivial
    obtain ⟨hr, -⟩ := exec_now hx
    cases hr
    exact safe_ret fun _ => ⟨ha, hv rfl, fun hle => .inr ⟨hst, of_decide_eq_true hle⟩⟩
  · exact safe_ret fun _ => ⟨.refl hc, rfl, nofun⟩

theorem retrySettlement_seen (hS : 1 ≤ S.minTick)
    (hview : S.oneLedgerView = true ∨ S.sameHashReconcile = true)
    (hentry : l.entry.isSettlementRetry = true) (hc : l.Clear .transactions) (hv : l.view = none)
    (h : Seen S t txn s) :
    Safe (settlement S) i (fun _ _ _ => True) (fun _ _ _ => True)
      (CashinService.retrySettlement t txn) l s := by
  unfold CashinService.retrySettlement
  refine Safe.bind (retryable_seen hc) ?_
  rintro ok l₁ s₁ ⟨ha, hv₁, hst⟩
  split
  next hok =>
    rw [Bool.and_eq_true] at hok
    have hentry₁ : l₁.entry.isSettlementRetry = true := by rw [ha.entry]; exact hentry
    exact reconcileOrRequeue_seen hS hview hentry₁ ha.clear (hv₁.trans hv) (h.along ha) (hst hok.1)
  · exact safe_raise fun _ => trivial

/-- **THE RETRY** keeps the protocol: what it writes over the row is what it has read, or is
backed by what the ledger has said. -/
theorem settlementRetry_safe (hS : 1 ≤ S.minTick)
    (hview : S.oneLedgerView = true ∨ S.sameHashReconcile = true)
    (hentry : l.entry.isSettlementRetry = true) (hc : l.Clear .transactions) (hv : l.view = none) :
    Safe (settlement S) i (fun _ _ _ => True) (fun _ _ _ => True)
      (CashinService.settlementRetry t) l s := by
  unfold CashinService.settlementRetry CashinService.onTransaction
  refine Guard.calm_bind (payments S) rfl hc (fun s₁ c found l₂ s₂ hh ha₁ hx ha hv₂ => ?_)
    fun _ _ _ _ _ _ _ _ => trivial
  cases found with
  | none => exact safe_ret fun _ => trivial
  | some txn =>
    have hseen : Seen S t txn s₂ := by
      rcases exec_selectTxn hx with ⟨e, he⟩ | ⟨hr, -, rfl⟩
      · cases he
      · have hf : l.failed = false := by
          cases hf : l.failed with
          | false => rfl
          | true =>
            obtain ⟨e, he, -⟩ := exec_failed rfl hf hx
            cases he
        have hrow : s₁.txns t = some txn := (hc.txn hf).symm.trans (Except.ok.inj hr).symm
        have hon : Onward s₁ (s₁.tick S c) := exec_onward hh.session.locked hx
        exact ⟨⟨txn, hrow, .refl txn⟩, _, (hh.inv.rows t txn hrow).onward hon⟩
    dsimp only
    split
    · exact mild_of_uses hS publish_mild ha.clear
    · have hentry₂ : l₂.entry.isSettlementRetry = true := by rw [ha.entry]; exact hentry
      exact Safe.bind (R := fun _ _ _ => True)
        (retrySettlement_seen hS hview hentry₂ ha.clear ((hv₂ rfl).trans hv) hseen)
        fun _ _ _ _ => safe_ret fun _ => trivial

/-! ## §4. All other programs. -/

/-- What any other entry point can call is harmless. -/
theorem may_mild {e : Entry} (hsettle : ∀ t, e ≠ .settle t) (hretry : ∀ t, e ≠ .settlementRetry t)
    (o : Op) (h : e.may o) : o.Mild := by
  cases o with
  | updateTxn t cond values =>
    intro now x hpaired hc
    have hu : TxnUpdate e t cond values := h
    cases hu with
    | claim | remember | complete | fail | requeue => exact absurd rfl (hsettle t)
    | reconcile | retire | unpublishedRetry => exact absurd rfl (hretry t)
    | receive =>
      have hpending : x.cashinStatus = .pending := by simpa [isPending] using hc
      have hn : x.settlementStatus = .notQueued := hpaired.notQueued (by rw [hpending]; decide)
      exact ⟨⟨⟨rfl, rfl, rfl, rfl⟩, .inr ⟨.inr hn, .inl rfl⟩⟩, rfl⟩
    | unpublished => exact unpublished_mild (t := t) now x hpaired hc
    | refuse | flag => exact ⟨⟨⟨rfl, rfl, rfl, rfl⟩, .inl ⟨rfl, rfl⟩⟩, rfl⟩
  | updateTxns cond values =>
    obtain ⟨-, asked, rfl, rfl⟩ := h
    exact fun now x _ _ => ⟨⟨⟨rfl, rfl, rfl, rfl⟩, .inl ⟨rfl, rfl⟩⟩, rfl⟩
  | insertTxn row =>
    obtain ⟨form, recipientId, quote, last4, declined, -, rfl⟩ := h
    exact fun key now => ⟨⟨rfl, rfl, rfl, rfl, rfl⟩, rfl⟩
  | handOver purpose k =>
    have hs : e.signs purpose := h
    cases purpose with
    | payment t' =>
      cases e with
      | settle t => exact absurd rfl (hsettle t)
      | _ => exact hs
    | _ => trivial
  | _ => trivial

theorem Settlements.initial (clock validated : Nat) (held : Nat → Bool) :
    Settlements S (World.initial clock validated held) where
  rows := by intro t x hx; cases hx
  free := fun _ _ => rfl
  recorded := by intro k b t hb; cases hb

theorem settlement_sound (hS : 1 ≤ S.minTick) (hp : S.punctual = true)
    (hview : S.oneLedgerView = true ∨ S.sameHashReconcile = true) : (settlement S).Sound where
  spawn := fun s h => by
    have hon : Onward s { s with nextTid := s.nextTid + 1 } := (spawn_others (j := 0)).onward
    exact ⟨h.of_same hon rfl rfl fun k b t hb _ hk => .inl ⟨hb, hk⟩,
      fun j => .of_same (Nat.le_refl _) rfl rfl⟩
  body := fun s e _ => by
    have hclear : (Session.start e).Clear .transactions := .inr fun _ => rfl
    have hother : (∀ t, e ≠ .settle t) → (∀ t, e ≠ .settlementRetry t) →
        SafeEnd (settlement S) s.nextTid (body S e) (Session.start e)
          { s with nextTid := s.nextTid + 1 } := fun hsettle hretry =>
      mild_of_uses hS ((body_uses S e).mono (may_mild hsettle hretry)) hclear
    cases e with
    | settle t =>
      exact Safe.bind (R := fun _ _ _ => True) (processSettlement_working hS hp hclear rfl rfl)
        fun _ _ _ _ => safe_ret fun _ => trivial
    | settlementRetry t => exact settlementRetry_safe hS hview rfl hclear rfl
    | _ => exact hother nofun nofun
  close := fun i s h => by
    have hon : Onward s (s.releaseAll i) := (releaseAll_others (Nat.succ_ne_self i)).onward
    exact ⟨h.of_same hon rfl rfl fun k b t hb _ hk => .inl ⟨hb, hk⟩,
      fun j _ => .of_same (Nat.le_refl _) rfl rfl⟩
  env := fun v s s' _ _ h hx => by
    have hon : Onward s s' := (env_others (j := 0) hx).onward
    obtain ⟨he, -, -⟩ := env_eq hx
    have hsame : s'.txns = s.txns ∧ s'.txnOwner = s.txnOwner ∧ s'.blobs = s.blobs ∧
        s'.handed = s.handed := by rw [he]; exact ⟨rfl, rfl, rfl, rfl⟩
    obtain ⟨ht, howner, hb, hh⟩ := hsame
    refine ⟨h.of_same hon ht howner fun k b t hb' _ hk => ?_, fun j => .of_same hon.clock ht howner⟩
    rw [hb] at hb'
    rw [hh] at hk
    exact .inl ⟨hb', hk⟩

/-- **EVERY PAYMENT IS ON ITS ROW**, in every reachable state. -/
theorem settlement_reach (hS : 1 ≤ S.minTick) (hp : S.punctual = true)
    (hview : S.oneLedgerView = true ∨ S.sameHashReconcile = true) {w : World} (hw : w.Orderly)
    (hi : Settlements S w) {k : Config (platform S)} (h : Reach (M := platform S) w k) :
    Settlements S k.world :=
  (settlement_sound hS hp hview).reach (rules_kept S) hw hi (fun _ _ => trivial) h

end Orbyt
