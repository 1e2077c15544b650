/-
  Orbyt.Invariants.BurnJobs — the worker keeps the burn protocol

  `process_burn` from its claim to its last write.  The writes of `remember_signed` and
  `release_claim` carry no guard; what makes them safe is that a punctual worker still has
  the row in its hands.

  Main result:
    * `processBurn_safe`.
-/
import Orbyt.Invariants.Burning
import Orbyt.Rules.Submission

namespace Orbyt

open Interleave
open CashoutWorker (claimable claimed isApproved completed failed released remembered held)

variable {S : Setting} {i : Nat} {o : Op} {c : Choice} {l l' : Session} {s s' : World}
  {r T : Nat} {hash : Option Nat} {q q' req : CashOutRequest} {α : Type}

/-! ## §1. The row in the worker's hands. -/

/-- The worker has claimed `r` at `T`; until it times out the row is in its hands and
carries `hash`.  Of a session that has failed nothing is asked. -/
structure AtWork (S : Setting) (i r T : Nat) (hash : Option Nat) (l : Session) (s : World) :
    Prop where
  clear : l.Clear .cashouts
  held : l.failed = false → l.view = none ∧ l.claimedAt = some T ∧
    (s.clock ≤ T + jobTimeout → s.reqOwner r = some i ∧
      ∃ q, s.reqs r = some q ∧ q.burnStartedAt = some T ∧ q.xrplBurnTxHash = hash)

theorem AtWork.of_failed (h : l.failed = true) : AtWork S i r T hash l s :=
  ⟨.inl h, fun hf => by rw [h] at hf; cases hf⟩

theorem AtWork.along (h : AtWork S i r T hash l s) (ha : (burns S).Along i l s l' s')
    (hv : l'.view = l.view) : AtWork S i r T hash l' s' := by
  refine ⟨ha.clear, fun hf => ?_⟩
  obtain ⟨hview, hclaim, hhand⟩ := h.held (ha.live hf)
  refine ⟨hv.trans hview, ha.claimedAt.trans hclaim, fun hle => ?_⟩
  have hclock := ha.rely.clock
  obtain ⟨howner, q, hq, hT, hhash⟩ := hhand (by omega)
  obtain ⟨howner', q', hq', hsame⟩ := ha.rely.inHand r q T howner hq hT hle
  exact ⟨howner', q', hq', hsame.started.trans hT, hsame.hash.trans hhash⟩

/-- Whenever a punctual worker moves, the row is in its hands. -/
theorem AtWork.inHand (h : AtWork S i r T hash l s) (hp : S.punctual = true)
    (hf : l.failed = false) {a : Except Exn o.Res} (hx : exec S i o c l s = some (a, l', s')) :
    s.reqOwner r = some i ∧
      ∃ q, s.reqs r = some q ∧ q.burnStartedAt = some T ∧ q.xrplBurnTxHash = hash := by
  obtain ⟨-, hclaim, hhand⟩ := h.held hf
  have hle := exec_punctual hp hx hclaim
  have hclock := exec_clock hx
  exact hhand (by omega)

/-- A write over the row in the worker's hands. -/
theorem AtWork.writes (h : AtWork S i r T hash l s) (hp : S.punctual = true)
    {cond : CashOutRequest → Bool} {values : Nat → CashOutRequest → CashOutRequest}
    (hnew : ∀ s' q, Onward s s' → s'.clock ≤ T + jobTimeout → q.Kept S s' r (some i) →
      q.burnStartedAt = some T → q.xrplBurnTxHash = hash → cond q = true →
      (values s'.clock q).Kept S s' r (reqOwnerAfter i (some q) (values s'.clock q) (some i)) ∧
        q.Later (values s'.clock q)) :
    (burns S).WritesOver i r cond values l s := by
  refine burns_writesOver fun s₁ c a l' s' q hh ha hx hf hstored hcond hon howner' hkept => ?_
  obtain ⟨howner, y, hy, hT, hhash⟩ := (h.along ha rfl).inHand hp hf hx
  obtain rfl : q = y := Option.some.inj (hstored.symm.trans hy)
  obtain ⟨-, hclaim, -⟩ := h.held hf
  have hle := exec_punctual hp hx hclaim
  rw [howner', howner] at hkept
  obtain ⟨hnew, hlater⟩ := hnew s' q (ha.onward.trans hon) hle hkept hT hhash hcond
  refine ⟨by rw [howner', howner]; exact hnew, fun z hz => Option.some.inj hz ▸ hlater,
    fun j hj hown _ _ _ _ => ?_⟩
  rw [howner', howner] at hown
  exact absurd (Option.some.inj hown).symm hj

/-! ## §2. Letting go of the row. -/

theorem failAndRestore_tail {hit : Bool} :
    Prog.Uses Op.Sparing
      (if hit = true then Prog.bind (call (.lockWallet req.walletId)) fun
        | none => .raise (.db "NoResultFound" "No row was found when one was required")
        | some wallet =>
          Prog.bind (call (.setBalance req.walletId (wallet.balanceUctusd + req.uctusdAmount)
            (.restore r))) fun _ => Prog.bind (call .commit) fun _ =>
              Prog.bind (call .refresh) fun _ => .ret true
       else Prog.bind (call .commit) fun _ => .ret false : Program Bool) := by
  split
  · refine Prog.uses_bind (Prog.uses_call trivial) fun wallet => ?_
    cases wallet with
    | none => trivial
    | some w =>
      exact Prog.uses_bind (Prog.uses_call trivial) fun _ => Prog.uses_bind (Prog.uses_call trivial)
        fun _ => Prog.uses_bind (Prog.uses_call trivial) fun _ => trivial
  · exact Prog.uses_bind (Prog.uses_call trivial) fun _ => trivial

/-- Failing a row whose burn, if there is one, is lost. -/
theorem failAndRestore_working {reason : String} {txHash : Option Nat} (hp : S.punctual = true)
    (h : AtWork S i r T hash l s) (htx : txHash = none ∨ txHash = hash)
    (hlost : ∀ k, hash = some k → ∃ b : Blob, s.blobs[k]? = some b ∧ s.Lost k) :
    Safe (burning S) i (fun _ _ _ => True) (fun _ _ _ => True)
      (CashoutWorker.failAndRestore r req reason txHash) l s := by
  unfold CashoutWorker.failAndRestore
  refine Guard.write_end (G := burns S) (T := .cashouts) h.clear (h.writes hp ?_) fun hit => ?_
  · intro s' q hon hle hkept hT hhash hcond
    have hsame : q.SameBurn (failed reason txHash s'.clock q) := by
      refine ⟨?_, rfl, rfl, rfl⟩
      show txHash.or q.xrplBurnTxHash = q.xrplBurnTxHash
      rcases htx with rfl | rfl
      · rfl
      · rw [hhash]
        cases txHash <;> rfl
    have hdone : reqOwnerAfter i (some q) (failed reason txHash s'.clock q) (some i) = none :=
      reqOwnerAfter_done rfl (eq_of_beq hcond) (show CashOutStatus.failed ≠ .approved by decide) rfl
    rw [hdone]
    refine ⟨hkept.finish hsame (show CashOutStatus.failed ≠ .requested by decide) nofun
      (fun _ _ _ k hk => ?_) (fun _ _ _ _ j _ hj => by cases hj) (.inr rfl), hsame.later⟩
    obtain ⟨b, hb, hl⟩ := hlost k (hhash.symm.trans hk)
    exact hl.onward hon hb
  · exact failAndRestore_tail

theorem completeBurn_working {k : Nat} {b : Blob} (hp : S.punctual = true)
    (h : AtWork S i r T (some k) l s) (hb : s.blobs[k]? = some b) (hpaid : s.Paid k) :
    Safe (burning S) i (fun _ _ _ => True) (fun _ _ _ => True)
      (CashoutWorker.completeBurn r (some k)) l s := by
  unfold CashoutWorker.completeBurn
  refine Guard.calm_bind (burns S) rfl h.clear (fun _ _ stamp l₁ s₁ _ _ _ ha hv => ?_)
    fun _ _ _ _ _ _ _ _ => trivial
  refine Guard.write_end (G := burns S) (T := .cashouts) ha.clear
    ((h.along ha (hv rfl)).writes hp ?_)
    fun hit => ?_
  · intro s' q hon hle hkept hT hhash hcond
    have hsame : q.SameBurn (completed r (some k) stamp s'.clock q) := ⟨hhash.symm, rfl, rfl, rfl⟩
    have hdone : reqOwnerAfter i (some q) (completed r (some k) stamp s'.clock q) (some i) = none :=
      reqOwnerAfter_done rfl (eq_of_beq hcond) (show CashOutStatus.completed ≠ .approved by decide)
        rfl
    rw [hdone]
    exact ⟨hkept.finish hsame (show CashOutStatus.completed ≠ .requested by decide)
      (fun _ => ⟨k, hhash, hpaid.onward (ha.onward.trans hon) hb⟩) (fun _ _ hs => by cases hs)
      (fun _ _ hs => by cases hs) (.inr rfl), hsame.later⟩
  · split
    · exact Prog.uses_bind (Prog.uses_call trivial) fun _ =>
        Prog.uses_bind (Prog.uses_call trivial) fun _ => trivial
    · exact Prog.uses_bind (Prog.uses_call trivial) fun _ => trivial

theorem holdUnknown_safe {reason : String} (hc : l.Clear .cashouts) :
    Safe (burning S) i (fun _ _ _ => True) (fun _ _ _ => True)
      (CashoutWorker.holdUnknown r reason) l s :=
  spared_of_uses (uses_holdUnknown sparing_plain fun _ _ _ _ => ⟨⟨rfl, rfl, rfl, rfl⟩, .inl rfl⟩) hc

theorem retryOrFail_atWork {reason : String} (hp : S.punctual = true)
    (h : AtWork S i r T none l s) :
    Safe (burning S) i (fun _ _ _ => True) (fun _ _ _ => True)
      (CashoutWorker.retryOrFail r req reason) l s := by
  unfold CashoutWorker.retryOrFail
  split
  · exact Safe.bind (R := fun _ _ _ => True) (failAndRestore_working hp h (.inl rfl) nofun)
      fun _ _ _ _ => safe_ret fun _ => trivial
  · unfold CashoutWorker.releaseClaim
    dsimp only
    rw [Prog.bind_eq, Prog.bind_eq, Prog.bind_assoc]
    refine Guard.write_end (G := burns S) (T := .cashouts) h.clear (h.writes hp ?_) fun hit => ?_
    · intro s' q hon hle hkept hT hhash hcond
      have hnone : reqOwnerAfter i (some q) (released s'.clock q) (some i) = none := by
        unfold reqOwnerAfter
        rw [if_neg (by rw [show (some q).bind (·.burnStartedAt) = some T from hT]; exact nofun)]
        rfl
      rw [hnone]
      refine ⟨?_, fun k hk => hk⟩
      exact
        { live := hkept.live
          fresh := fun hs => ⟨hhash, rfl⟩
          started := nofun
          inHand := fun hs => by cases hs
          burned := hkept.burned
          lost := hkept.lost
          letGo := fun _ _ _ _ j T hj => by cases hj }
    · exact Prog.uses_bind (Prog.uses_call trivial) fun _ =>
        Prog.uses_bind (Prog.uses_call trivial) fun _ => trivial

/-! ## §3. The claim. -/

theorem jobTimeout_le_stuckAfter : jobTimeout ≤ CashoutWorker.stuckAfter := by decide

/-- Stamping the row is what makes a claim. -/
theorem Session.writeReq_claims {now : Nat} (hT : q'.burnStartedAt = some T)
    (hne : q.burnStartedAt ≠ some T) :
    (l.writeReq now r (some q) q').claimedAt = some now := by
  refine if_pos ⟨?_, by rw [hT]; rfl⟩
  rw [hT]
  exact Ne.symm hne

theorem Session.writeReq_holds {now : Nat} (h : q'.burnStartedAt = q.burnStartedAt) :
    (l.writeReq now r (some q) q').claimedAt = l.claimedAt := if_neg fun hn => hn.1 h

/-- A claimable row carries no hash, and no claim younger than `stuckAfter`. -/
theorem claimable_iff {asked : Nat} : claimable asked q = true ↔
    (q.status = .approved ∧ q.xrplBurnTxHash = none) ∧
      ∀ T, q.burnStartedAt = some T → T + CashoutWorker.stuckAfter < asked := by
  unfold CashoutWorker.claimable
  rw [Bool.and_eq_true, Bool.and_eq_true, beq_iff_eq, Option.isNone_iff_eq_none, Option.all_eq_true]
  simp only [decide_eq_true_eq]

theorem claim_atWork (hc : l.Clear .cashouts) (hv : l.view = none) :
    Safe (burning S) i
      (fun claimed l' s' => l'.Clear .cashouts ∧ l'.signedHash = l.signedHash ∧
        ∀ req, claimed = some req → ∃ T, AtWork S i r T none l' s')
      (fun _ _ _ => True) (CashoutWorker.claim r) l s := by
  unfold CashoutWorker.claim
  refine Guard.calm_bind (burns S) rfl hc (fun s₀ c₀ asked l₀ s₁ hh₀ _ hx₀ ha₀ hv₀ => ?_)
    fun _ _ _ _ _ _ _ _ => trivial
  obtain rfl : asked = s₁.clock := by
    obtain ⟨hr, -, -⟩ := exec_now hx₀
    exact Except.ok.inj hr
  refine Guard.write_commit_bind (G := burns S) (T := .cashouts) ha₀.clear ?_
    (fun s₂ c _ l₁ s₃ q l₂ s₄ hh ha hx hf hstored hcond hw => ?_)
    (fun _ _ _ _ _ l₁ s₂ _ _ _ _ _ ha _ =>
      safe_ret fun _ => ⟨ha.clear, ha.signed.trans ha₀.signed, fun req he => by cases he⟩)
    fun _ _ _ _ _ => trivial
  · refine burns_writesOver fun s₂ c a l' s' q hh ha hx hf hstored hcond hon howner hkept => ?_
    -- an older claim is stale, so that the time written is not the time it had
    obtain ⟨⟨happroved, hnone⟩, hstale⟩ := claimable_iff.mp hcond
    have hclock : s₁.clock ≤ s'.clock := Nat.le_trans ha.onward.clock hon.clock
    have hlt := jobTimeout_le_stuckAfter
    have hne : q.burnStartedAt ≠ some s'.clock := fun he => by
      have := hstale _ he
      omega
    have htaken : reqOwnerAfter i (some q) (claimed s'.clock q) (s'.reqOwner r) = some i :=
      reqOwnerAfter_taken (T := s'.clock) rfl hne
    refine ⟨?_, fun y hy => by cases hy; exact fun _ hk => hk, fun j _ _ y T hy hT => .inl ?_⟩
    · rw [htaken]
      exact
        { live := hkept.live
          fresh := fun hs => by
            rw [show (claimed s'.clock q).status = q.status from rfl, happroved] at hs
            cases hs
          started := fun T hT => by cases hT; exact Nat.le_refl _
          inHand := fun _ => rfl
          burned := hkept.burned
          lost := hkept.lost
          letGo := fun _ _ hs => by
            rw [show (claimed s'.clock q).status = q.status from rfl, happroved] at hs
            cases hs }
    · cases hy
      have := hstale T hT
      omega
  · obtain ⟨⟨-, hnone⟩, hstale⟩ := claimable_iff.mp hcond
    have hclock : s₁.clock ≤ s₃.clock :=
      Nat.le_trans ha.onward.clock (exec_onward hh.session.locked hx).clock
    have hne : q.burnStartedAt ≠ some s₃.clock := fun he => by
      have := hstale _ he
      omega
    -- the claim is committed: the row is this worker's, and it carries no hash
    have hwork : AtWork S i r s₃.clock none l₂ s₄ := by
      refine ⟨hw.clear, fun _ => ⟨(hw.view.trans (hv₀ rfl)).trans hv, ?_,
        fun _ => ⟨?_, _, hw.row, rfl, hnone⟩⟩⟩
      · rw [hw.claimedAt]
        exact Session.writeReq_claims (T := s₃.clock) rfl hne
      · exact hw.owner.trans (reqOwnerAfter_taken (T := s₃.clock) rfl hne)
    refine Safe.bind (R := fun _ l' s' => l'.Clear .cashouts ∧ l'.signedHash = l.signedHash ∧
      AtWork S i r s₃.clock none l' s') ?_ fun req l' s' ⟨hc', hs', hw'⟩ =>
        safe_ret fun _ => ⟨hc', hs', fun _ _ => ⟨s₃.clock, hw'⟩⟩
    unfold CashoutWorker.reload
    refine Guard.calm_bind (burns S) rfl hw.clear (fun s₅ c found l' s' _ _ _ hal hview => ?_)
      fun _ _ _ _ _ _ _ _ => trivial
    cases found with
    | none => exact safe_raise fun _ => trivial
    | some req =>
      exact safe_ret fun _ => ⟨hal.clear, (hal.signed.trans hw.signed).trans ha₀.signed,
        hwork.along hal (hview rfl)⟩

/-! ## §4. Sign, store, submit. -/

/-- The worker has just signed `k` for the row in its hands. -/
structure SigningBurn (S : Setting) (i r T k n : Nat) (b : Blob) (l : Session) (s : World) :
    Prop extends AtWork S i r T none l s where
  new : NewSignature S (.burn r) n k b l s

/-- Storing the new hash and its range on the row. -/
theorem SigningBurn.writes {k n : Nat} {b : Blob} (h : SigningBurn S i r T k n b l s)
    (hp : S.punctual = true) (hf : l.failed = false) :
    (burns S).WritesOver i r (fun _ => true) (remembered ⟨k, b.lastLedgerSequence, some n⟩)
      l s := by
  refine h.toAtWork.writes hp fun s' q hon hle hkept hT hhash _ => ?_
  have hstatus : q.status ≠ .requested := fun hs => by
    rw [(hkept.fresh hs).2] at hT
    cases hT
  have howner : reqOwnerAfter i (some q) (remembered ⟨k, b.lastLedgerSequence, some n⟩ s'.clock q)
      (some i) = some i := reqOwnerAfter_held rfl rfl
  rw [howner]
  refine ⟨hkept.remember hstatus (fun hs hq hv => ?_) (fun hs => ?_) (hon.blobs k b h.new.blob)
    h.new.purpose (h.new.index hf) h.new.expires, fun m hm => ?_⟩
  · -- a row that was restored is in nobody's hands
    have hlt := hkept.letGo hq hv hs hhash i T rfl hT
    omega
  · obtain ⟨m, hm, -⟩ := hkept.burned hs
    rw [hhash] at hm
    cases hm
  · rw [hhash] at hm
    cases hm

theorem rememberSigned_atWork {k n : Nat} {b : Blob} (hp : S.punctual = true)
    (h : SigningBurn S i r T k n b l s) (hsig : l.signedHash = none) :
    Safe (burning S) i
      (fun _ l' s' => AtWork S i r T (some k) l' s' ∧ l'.failed = false ∧
        l'.signedHash = some k ∧ s'.blobs[k]? = some b)
      (fun _ l' _ => l'.failed = true ∧ l'.signedHash = none)
      (CashoutWorker.rememberSigned r ⟨k, b.lastLedgerSequence, some n⟩) l s := by
  unfold CashoutWorker.rememberSigned
  refine Guard.write_commit_bind (G := burns S) (T := .cashouts) h.clear
    (fun s₁ c a l' s' q hh ha hx hr hf => h.writes hp hf s₁ c a l' s' q hh ha hx hr hf)
    (fun s₁ c _ l₁ s₂ q l' s' hh ha hx hf hstored _ hw => ?_)
    (fun s₁ c _ l₁ s₂ l' s' hh ha hx hf hno _ _ => ?_) fun _ l' _ hf hs => ⟨hf, hs.trans hsig⟩
  · obtain ⟨howner, y, hy, hT, hhash⟩ := (h.toAtWork.along ha rfl).inHand hp hf hx
    obtain rfl : q = y := Option.some.inj (hstored.symm.trans hy)
    obtain ⟨hview, hclaim, -⟩ := h.held hf
    have hwork : AtWork S i r T (some k) l' s' := by
      refine ⟨hw.clear, fun _ => ⟨hw.view.trans hview, ?_, fun _ => ⟨?_, _, hw.row, hT, rfl⟩⟩⟩
      · exact (hw.claimedAt.trans (Session.writeReq_holds rfl)).trans hclaim
      · exact (hw.owner.trans (reqOwnerAfter_held rfl rfl)).trans howner
    have hblob : s'.blobs[k]? = some b := hw.onward.blobs k b (ha.onward.blobs k b h.new.blob)
    refine safe_call fun hg s₃ hh₃ hs₃ c r l₄ s₄ hx₄ hg₄ => ?_
    obtain ⟨rfl, rfl, rfl⟩ := exec_setSignedHash hx₄
    have hon : Onward s₃ (s₃.tick S c) := exec_onward hh₃.session.locked hx₄
    refine ⟨burning_keeps (o := .setSignedHash k) hh₃ nofun hx₄ nofun, ?_, hw.failed, rfl,
      hon.blobs k b (hs₃.moves.others.onward.blobs k b hblob)⟩
    have hsees : AtWork S i _ T (some k) l' s₃ := hwork.along (.of_sees hw.clear hs₃) rfl
    refine ⟨hsees.clear, fun hf' => ?_⟩
    obtain ⟨hv, hc, hhand⟩ := hsees.held hf'
    refine ⟨hv, hc, fun hle => hhand ?_⟩
    have hclock := hon.clock
    omega
  · -- the row is in the worker's hands, so the write has found it
    obtain ⟨-, q, hq, -⟩ := (h.toAtWork.along ha rfl).inHand hp hf hx
    exact absurd (hno q hq) (by decide)

/-- Handing over the burn that is on the row. -/
theorem handOver_burn {k : Nat} (hp : S.punctual = true) (h : AtWork S i r T (some k) l s)
    (hf : l.failed = false) (hh : (burning S).Here i l s) {a : Except Exn Unit}
    (hx : exec S i (.handOver (.burn r) k) c l s = some (a, l', s')) :
    (burning S).keeps i s s' ∧ (burns S).Along i l s l' s' ∧ l'.view = l.view := by
  obtain ⟨-, q, hq, -, hhash⟩ := h.inHand hp hf hx
  have ho : Op.handOver (.burn r) k ≠ .commit := nofun
  have hu := exec_uncommitted ho hx
  have hon : Onward s s' := exec_onward hh.session.locked hx
  refine ⟨burning_keeps hh ho hx fun m k' he => ?_,
    ⟨h.clear.call rfl hx, exec_sameClaim rfl rfl hx, exec_sameSigned rfl hx, exec_sameEntry hx,
      fun hf => exec_staysFailed hf hx, .of_same hon.clock hu.reqs hu.reqOwner, hon⟩,
    exec_sameView rfl hx⟩
  cases he
  exact ⟨q, hq, hhash⟩

/-- The row in a punctual worker's hands is what it holds while it burns. -/
def burningBy (hp : S.punctual = true) (i r T : Nat) : Custody (burns S) i (.burn r) where
  Holds := AtWork S i r T
  clear := AtWork.clear
  along := AtWork.along
  handOver := fun h hf hh hx => handOver_burn hp h hf hh hx
  failed := AtWork.of_failed

theorem burnToIssuer_atWork {u amount : Nat} {w : Wallet} (hp : S.punctual = true)
    (h : AtWork S i r T none l s)
    (hsig : l.signedHash = none) :
    Safe (burning S) i (fun result l' s' => (burningBy hp i r T).Submitted result l' s')
      (fun e l' s' => (burningBy hp i r T).Escaped e l' s')
      (XrplService.burnToIssuer r u w amount (CashoutWorker.rememberSigned r)) l s := by
  have hescaped : ∀ e l' s', (burns S).Along i l s l' s' → l'.view = l.view →
      (burningBy hp i r T).Escaped e l' s' := fun e l' s' ha hv =>
    Custody.escaped_unsigned (W := burningBy hp i r T) (h.along ha hv) (ha.signed.trans hsig)
  unfold XrplService.burnToIssuer
  refine Guard.calm_bind (burns S) rfl h.clear (fun s₁ c n l₁ s₂ hh ha₀ hx ha₁ hv₁ => ?_)
    fun _ _ e l' s' _ ha hv => hescaped e l' s' ha (hv rfl)
  have hn : l₁.failed = false → n ≤ s₂.ledger.validated := fun hf => by
    rcases exec_latestValidated hx with ⟨e, he⟩ | hr
    · cases he
    · -- nothing has been looked up, so the index is that of the ledger itself
      have hview : l.view = none := (h.held (ha₁.live hf)).1
      have hle := (exec_onward hh.session.locked hx).validated
      cases hr
      unfold Session.consulted
      rw [hview]
      exact hle
  unfold XrplService.uctusd
  split
  · exact safe_raise fun _ => hescaped _ l₁ s₂ ha₁ (hv₁ rfl)
  · refine Guard.calm_bind (burns S) rfl ha₁.clear (fun _ _ _ l₃ s₃ _ _ _ ha₃ hv₃ => ?_)
      fun _ _ e l' s' _ ha hv => hescaped e l' s' (ha₁.trans ha) ((hv rfl).trans (hv₁ rfl))
    have ha := ha₁.trans ha₃
    have hw := h.along ha ((hv₃ rfl).trans (hv₁ rfl))
    refine Custody.submit_custody (W := burningBy hp i r T)
      (N := fun (k : Nat) (b : Blob) (l : Session) (s : World) => SigningBurn S i r T k n b l s) hw
      (ha.signed.trans hsig) (fun hf => Nat.le_trans (hn (ha₃.live hf)) ha₃.onward.validated)
      (fun s₁ c b l' s' _ _ _ hw' hnew _ _ => ⟨hw', hnew⟩)
      fun k b l s hs hsigning => rememberSigned_atWork hp hsigning hs

/-! ## §5. One message. -/

theorem onException_atWork {e : Exn} (hp : S.punctual = true)
    (h : (burningBy hp i r T).Escaped e l s) :
    Safe (burning S) i (fun _ _ _ => True) (fun _ _ _ => True)
      (CashoutWorker.onException r req e) l s := by
  have hw : AtWork S i r T l.signedHash l s := h.holds
  unfold CashoutWorker.onException
  split
  next text =>
    rw [h.refused text rfl] at hw
    exact Safe.bind (R := fun _ _ _ => True) (failAndRestore_working hp hw (.inl rfl) nofun)
      fun _ _ _ _ => safe_ret fun _ => trivial
  · refine Guard.calm_bind (burns S) rfl hw.clear (fun s₄ c signed l₅ s₅ _ _ hx ha hv => ?_)
      fun _ _ _ _ _ _ _ _ => trivial
    obtain ⟨hr, -⟩ := exec_getSignedHash hx
    have hw' := hw.along ha (hv rfl)
    rw [← Except.ok.inj hr] at hw'
    cases signed with
    | some k =>
      exact Safe.bind (R := fun _ _ _ => True) (holdUnknown_safe ha.clear)
        fun _ _ _ _ => safe_ret fun _ => trivial
    | none => exact retryOrFail_atWork hp hw'

theorem onResult_atWork {result : XrplService.XRPLResult} (hp : S.punctual = true)
    (h : (burningBy hp i r T).Submitted result l s) :
    Safe (burning S) i (fun _ _ _ => True) (fun _ _ _ => True)
      (CashoutWorker.onResult r req result) l s := by
  have hw : AtWork S i r T l.signedHash l s := h.holds
  unfold CashoutWorker.onResult
  cases hres : result.resolution with
  | succeeded =>
    obtain ⟨k, b, hk, hb, hpaid⟩ := h.paid hres
    rw [← h.signed (by rw [hres]; decide), hk] at hw
    dsimp only
    rw [hk]
    exact Safe.bind (R := fun _ _ _ => True) (completeBurn_working hp hw hb hpaid)
      fun _ _ _ _ => safe_ret fun _ => trivial
  | notSubmitted =>
    rw [h.unsigned hres] at hw
    exact retryOrFail_atWork hp hw
  | unknown =>
    exact Safe.bind (R := fun _ _ _ => True) (holdUnknown_safe hw.clear)
      fun _ _ _ _ => safe_ret fun _ => trivial
  | failed =>
    obtain ⟨k, b, hk, hb, hlost⟩ := h.lost hres
    have hsigned := h.signed (by rw [hres]; decide)
    refine Safe.bind (R := fun _ _ _ => True)
      (failAndRestore_working hp hw (.inr hsigned) fun m hm => ?_)
      fun _ _ _ _ => safe_ret fun _ => trivial
    obtain rfl : k = m := Option.some.inj (hk.symm.trans (hsigned.trans hm))
    exact ⟨b, hb, hlost⟩

/-- **ONE BURN JOB** keeps the protocol. -/
theorem processBurn_safe (hp : S.punctual = true) (hc : l.Clear .cashouts) (hv : l.view = none)
    (hsig : l.signedHash = none) :
    Safe (burning S) i (fun _ _ _ => True) (fun _ _ _ => True)
      (CashoutWorker.processBurn r) l s := by
  unfold CashoutWorker.processBurn
  refine Safe.bind (claim_atWork hc hv) ?_
  rintro claimed l₁ s₁ ⟨hc₁, hs₁, hwork⟩
  cases claimed with
  | none => exact safe_ret fun _ => trivial
  | some req =>
    obtain ⟨T, hw₁⟩ := hwork req rfl
    refine Guard.calm_bind (burns S) rfl hw₁.clear (fun _ _ wallet l₂ s₂ _ _ _ ha hv₂ => ?_)
      fun _ _ _ _ _ _ _ _ => trivial
    have hw₂ := hw₁.along ha (hv₂ rfl)
    have hs₂ : l₂.signedHash = none := (ha.signed.trans hs₁).trans hsig
    cases wallet with
    | none =>
      exact Safe.bind (R := fun _ _ _ => True) (failAndRestore_working hp hw₂ (.inl rfl) nofun)
        fun _ _ _ _ => safe_ret fun _ => trivial
    | some w =>
      exact Safe.attempt_bind (burnToIssuer_atWork hp hw₂ hs₂)
        (fun result l₃ s₃ h => onResult_atWork hp h) fun e l₃ s₃ h => onException_atWork hp h

end Orbyt
