/-
  Orbyt.Recovery.Retiring — an approved cash-out is brought to an end

  On a quiet platform an approved cash-out whose burn is not signed is published again by the
  sweep, once it has waited long enough, and the delivery of its message burns it, or restores
  its reserve where there is nothing to burn.  One whose burn is signed is reconciled: the ledger
  has the burn, or has refused it, or never will have it.

  Main results:
    * `leads_swept`     — the sweep publishes the message, however many others it has;
    * `brings_burn`     — one delivery;
    * `brings_reconcile` — one reconciliation.
-/
import Orbyt.Recovery.Quiet
import Orbyt.Recovery.Settling

namespace Orbyt

open Interleave
open Interleave.Prog
open ValidatedLedger
open Function (update)
open XrplService CashoutWorker CashoutService

variable {S : Setting} {i n now r u : Nat} {o : Op} {e : Entry} {v v' : View} {α : Type}
  {l l' : Session} {s s' : World} {q req : CashOutRequest} {w : Wallet}

/-! ## §1. The transitions of a row. -/

def View.putReq (v : View) (r : Nat) (q : CashOutRequest) : View :=
  { v with reqs := update v.reqs r (some q), stored := true, walletsStored := true }

@[simp] theorem View.putReq_reqs (v : View) (q : CashOutRequest) :
    (v.putReq r q).reqs r = some q :=
  Function.update_self _ _ _

/-- The cash-out is completed or failed, and that is stored. -/
structure Ended (r : Nat) (v : View) : Prop where
  row : ∃ q, v.reqs r = some q ∧ (q.status = .completed ∨ q.status = .failed)
  stored : v.stored = true ∧ v.walletsStored = true

theorem brings_failAndRestore {reason : String} {txHash : Option Nat}
    {Q : Except Exn Bool → Nat → View → Nat → Prop} (he : e.isApprove = false)
    (hq : v.reqs r = some q) (hst : q.status = .approved)
    (hw : v.wallets req.walletId = some w) (hs : v.walletsStored = true)
    (hQ : ∀ v' now', Ended r v' → Q (.ok true) n v' now') :
    Brings S i e (n + 5) (failAndRestore r req reason txHash) v now Q := by
  have happroved : isApproved q = true := by
    unfold isApproved
    rw [hst]
    rfl
  unfold failAndRestore
  refine brings_call (does_updateReq hq happroved he) ?_
  rw [if_pos rfl]
  refine brings_call (does_lockWallet hs) ?_
  -- the reserve goes back to the wallet that it was taken from
  dsimp only
  rw [hw]
  refine brings_call (does_setBalance hw) (brings_call does_commit (brings_call does_refresh
    (brings_ret (hQ _ _ ⟨⟨_, Function.update_self _ _ _, .inr rfl⟩, rfl, rfl⟩))))

theorem brings_completeBurn {txHash : Option Nat} {Q : Except Exn Bool → Nat → View → Nat → Prop}
    (he : e.isApprove = false) (hq : v.reqs r = some q) (hst : q.status = .approved)
    (hQ : ∀ v' now', Ended r v' → Q (.ok true) n v' now') :
    Brings S i e (n + 4) (completeBurn r txHash) v now Q := by
  have happroved : isApproved q = true := by
    unfold isApproved
    rw [hst]
    rfl
  unfold completeBurn
  refine brings_call does_now (brings_call (does_updateReq hq happroved he) ?_)
  rw [if_pos rfl]
  exact brings_call does_commit (brings_call does_refresh
    (brings_ret (hQ _ _ ⟨⟨_, Function.update_self _ _ _, .inl rfl⟩, rfl, rfl⟩)))

/-! ## §2. The delivery. -/

theorem brings_claimBurn {Q : Except Exn (Option CashOutRequest) → Nat → View → Nat → Prop}
    (he : e.isApprove = false) (hq : v.reqs r = some q)
    (hc : ∀ asked, now ≤ asked → claimable asked q = true)
    (hQ : ∀ stamp now', Q (.ok (some (claimed stamp q))) n (v.putReq r (claimed stamp q)) now') :
    Brings S i e (n + 4) (claim r) v now Q := by
  unfold claim
  refine brings_call does_now ?_
  refine brings_call (does_updateReq hq (hc _ (Nat.le_add_right _ _)) he) ?_
  refine brings_call does_commit ?_
  rw [if_pos rfl]
  unfold reload
  refine Brings.bind (brings_call (n := n)
    (v := v.putReq r (claimed (now + S.minTick + S.minTick) q)) does_selectReq ?_)
  rw [View.putReq_reqs]
  exact brings_ret (brings_ret (hQ _ _))

theorem brings_rememberBurn {signed : SignedTx} {Q : Except Exn Unit → Nat → View → Nat → Prop}
    (he : e.isApprove = false) (hq : v.reqs r = some q)
    (hQ : ∀ now', Q (.ok ()) n (v.putReq r (remembered signed (now + S.minTick) q)) now') :
    Brings S i e (n + 3) (rememberSigned r signed) v now Q := by
  unfold rememberSigned
  exact brings_call (does_updateReq hq rfl he)
    (brings_call does_commit (brings_last does_setSignedHash (hQ _)))

/-- **BURNING** ends with a burn that the ledger has taken. -/
theorem brings_burnToIssuer {amount : Nat} {w : Wallet}
    {Q : Except Exn XRPLResult → Nat → View → Nat → Prop}
    (he : e.isApprove = false) (hq : v.reqs r = some q) (hamount : amount ≠ 0) (hf : v.Fresh)
    (hlooked : v.looked = false)
    (hQ : ∀ h signed stamp v' now', v'.reqs r = some (remembered signed stamp q) →
      v'.wallets = v.wallets → v'.walletsStored = true → Q (.ok (accepted h)) n v' now') :
    Brings S i e (n + 8) (burnToIssuer r u w amount (rememberSigned r)) v now Q := by
  unfold burnToIssuer
  refine brings_call does_latestValidated ?_
  unfold uctusd
  rw [if_neg hamount]
  refine brings_call does_loadSigner ?_
  refine brings_submit (n := n) (m := n + 5) hlooked hf
    (brings_rememberBurn he hq fun now' => ⟨rfl, rfl, ⟨rfl, rfl, rfl, rfl⟩, ?_⟩)
  exact hQ _ _ _ _ _ (Function.update_self _ _ _) rfl rfl

/-- Nothing was signed for the cash-out, and a claim of it has timed out. -/
structure CashOutRequest.Unburned (q : CashOutRequest) (now : Nat) : Prop where
  approved : q.status = .approved
  unsigned : q.xrplBurnTxHash = none
  stale : ∀ started, q.burnStartedAt = some started → started + stuckAfter < now

theorem CashOutRequest.Unburned.claimable (h : q.Unburned now) {asked : Nat} (hle : now ≤ asked) :
    claimable asked q = true := by
  have hstale : q.burnStartedAt.all (fun started => decide (started + stuckAfter < asked))
      = true := by
    rw [Option.all_eq_true]
    intro started hs
    exact decide_eq_true (Nat.lt_of_lt_of_le (h.stale started hs) hle)
  unfold CashoutWorker.claimable
  rw [h.approved, h.unsigned, hstale]
  rfl

/-- **ONE DELIVERY** of an unsigned cash-out brings it to an end. -/
theorem brings_burn (hq : v.reqs r = some q) (hu : q.Unburned now)
    (hw : v.wallets q.walletId = some w) (hf : v.Fresh) (hlooked : v.looked = false) :
    Brings S i (.burn r) 17 (body S (.burn r)) v now fun _ _ v' _ => Ended r v' := by
  show Brings S i (.burn r) 17 (Prog.bind (processBurn r) fun _ => .ret ()) v now _
  refine Brings.bind ?_
  unfold processBurn
  refine Brings.bind (brings_claimBurn (n := 13) rfl hq (fun asked hle => hu.claimable hle)
    fun stamp now₁ => ?_)
  refine brings_call does_selectWallet ?_
  rw [show (v.putReq r (claimed stamp q)).wallets (claimed stamp q).walletId = some w from hw]
  have hrow := v.putReq_reqs (r := r) (claimed stamp q)
  by_cases hamount : q.uctusdAmount = 0
  · -- there is nothing to burn
    refine Brings.bind (Brings.attempt ?_)
    unfold burnToIssuer uctusd
    rw [if_pos (show (claimed stamp q).uctusdAmount = 0 from hamount)]
    refine brings_call (n := 11) does_latestValidated (brings_raise ?_)
    refine Brings.bind (brings_failAndRestore (n := 6) rfl hrow hu.approved hw rfl
      fun v' now' hend => brings_ret (brings_ret hend))
  · refine Brings.bind (Brings.attempt (brings_burnToIssuer (n := 4) rfl hrow hamount hf hlooked
      fun h signed stamp' v' now' hrow' _ _ => ?_))
    show Brings S i (.burn r) 4 (onResult r _ (accepted h)) v' now' _
    unfold onResult
    exact Brings.bind (brings_completeBurn (n := 0) rfl hrow' hu.approved
      fun v'' now'' hend => brings_ret (brings_ret hend))

/-! ## §3. The reconciliation. -/

/-- The burn has a window, which is past and in the server's history. -/
structure View.ProvableBurn (v : View) (q : CashOutRequest) : Prop where
  window : ∃ last submitted, q.burnLastLedgerSequence = some last ∧
    q.burnSubmittedLedgerIndex = some submitted ∧ last < v.ledger.validated ∧
    v.ledger.holds submitted last

/-- The ledger has the burn, has refused it, or never will have it. -/
theorem brings_verdict {h : Nat} {Q : Except Exn Verdict → Nat → View → Nat → Prop}
    (hp : v.ProvableBurn q)
    (hQ : ∀ verdict now', verdict ≠ .unresolved → now ≤ now' →
      Q (.ok verdict) n { v with looked := true } now') :
    Brings S i e (n + 3) (consultLedger q h) v now Q := by
  obtain ⟨last, submitted, hlast, hsubmitted, hpast, hholds⟩ := hp.window
  unfold consultLedger
  refine brings_call does_lookup ?_
  cases v.ledger.lookup h with
  | some code =>
    have hle : now ≤ now + S.minTick := Nat.le_add_right _ _
    cases code with
    | tesSUCCESS => exact Brings.more (n := n) 2 (brings_ret (hQ _ _ nofun hle))
    | other name => exact Brings.more (n := n) 2 (brings_ret (hQ _ _ nofun hle))
  | none =>
    rw [hlast, hsubmitted]
    refine brings_call does_latestValidated ?_
    have hnot : ¬ v.ledger.validated ≤ last := Nat.not_le_of_lt hpast
    dsimp only
    rw [if_neg hnot]
    refine brings_call (does_completeRange hholds) (brings_ret ?_)
    rw [if_pos rfl]
    exact hQ _ _ nofun (by omega)

/-- **ONE RECONCILIATION** of a signed cash-out brings it to an end. -/
theorem brings_reconcile {h : Nat} (hq : v.reqs r = some q) (hst : q.status = .approved)
    (hh : q.xrplBurnTxHash = some h) (hp : v.ProvableBurn q)
    (hw : v.wallets q.walletId = some w) (hs : v.walletsStored = true) :
    Brings S i (.reconcile r) 10 (body S (.reconcile r)) v now fun _ _ v' _ => Ended r v' := by
  show Brings S i (.reconcile r) 10 (onRequest r (reconcile r)) v now _
  unfold onRequest
  refine brings_call does_selectReq ?_
  rw [hq]
  refine brings_call does_loadWallet ?_
  have hopen : ¬(q.status = .completed ∨ q.status = .failed) := by
    rw [hst]
    rintro (hc | hc) <;> cases hc
  unfold reconcile
  rw [if_neg hopen, hst, hh]
  refine Brings.bind (brings_verdict (n := 5) hp fun verdict now' hne _ => ?_)
  -- the row is as it was, whatever the verdict
  have hrestore : ∀ reason txHash, Brings S i (.reconcile r) 5
      (Prog.bind (failAndRestore r q reason txHash) fun _ => .ret ()) { v with looked := true }
      now' fun _ _ v' _ => Ended r v' := fun reason txHash =>
    Brings.bind (brings_failAndRestore (n := 0) rfl hq hst hw hs fun v' _ hend => brings_ret hend)
  cases verdict with
  | succeeded =>
    exact Brings.bind (brings_completeBurn (n := 1) rfl hq hst fun v' _ hend => brings_ret hend)
  | rejected code => exact hrestore _ _
  | expired lastLedger => exact hrestore _ _
  | unresolved => exact absurd rfl hne

/-! ## §4. The sweep. -/

/-- Session `i` of `e` is alone and has claimed nothing, so that it has all the time it needs. -/
structure Unhurried (S : Setting) (i : Nat) (e : Entry) (v : View) (now : Nat) (l : Session)
    (s : World) : Prop where
  alone : LeftAlone S i e 0 v now l s
  unclaimed : l.claimedAt = none

/-- A call that claims nothing takes no time from anything. -/
theorem Unhurried.call {b : o.Res} (h : Unhurried S i e v now l s)
    (hd : Does S i e (now + S.minTick) o b v v') (ht : o.writesTxns = false)
    (hr : o.writesReqs = false) :
    ∃ a l' s', exec S i o (promptly a) l s = some (.ok b, l', s') ∧
      Unhurried S i e v' (now + S.minTick) l' s' := by
  obtain ⟨a, ha⟩ := hd.exec
  have htick : LeftAlone S i e 0 v (now + S.minTick) l (s.tick S (promptly a)) :=
    { h.alone with
      time := fun T hT => by
        rw [h.unclaimed] at hT
        cases hT
      clock := by
        show s.clock + S.minTick + 0 = now + S.minTick
        rw [h.alone.clock, Nat.add_zero] }
  obtain ⟨l', s', hx, hl'⟩ := ha 0 l s htick
  exact ⟨a, l', s', hx, hl', (exec_sameClaim ht hr hx).trans h.unclaimed⟩

/-- The view, but for what was published since. -/
def View.withQueue (v : View) (queue : List Message) : View := { v with queue := queue }

/-- What the sweep keeps, and how late it may be. -/
def Sweeping (S : Setting) (i : Nat) (v : View) (now : Nat) (l : Session) (s : World) : Prop :=
  ∃ queue now', now ≤ now' ∧ Unhurried S i .sweepUnpublished (v.withQueue queue) now' l s

/-- One row's message is published, and every other one stays. -/
theorem can_republish (h : Sweeping S i v now l s) :
    Can (M := platform S) Choice.answers i
      (Returns fun _ l' s' => Sweeping S i v now l' s' ∧ Message.burn r ∈ s'.queue ∧
        ∀ y, Message.burn y ∈ s.queue → Message.burn y ∈ s'.queue)
      (republish r) l s := by
  obtain ⟨queue, now₁, hle, hl⟩ := h
  obtain ⟨a, l', s', hx, hl'⟩ := hl.call (does_enqueue (m := .burn r)) rfl rfl
  have hqueue : s'.queue = .burn r :: s.queue := by
    rw [hl'.alone.queue, hl.alone.queue]
  unfold republish
  refine Can.bind (Can.attempt ?_)
  have hfine : Choice.answers (promptly a) := rfl
  refine Can.call_ok (M := platform S) hfine hx ?_
  refine .ret ⟨⟨.burn r :: queue, _, Nat.le_trans hle (Nat.le_add_right _ _), hl'⟩, ?_, ?_⟩
  · rw [hqueue]
    exact List.mem_cons_self
  · intro y hy
    rw [hqueue]
    exact List.mem_cons_of_mem _ hy

/-- The sweep finds the row whenever it looks from `now` on. -/
def Stale (q : CashOutRequest) (now : Nat) : Prop :=
  ∀ cutoff staleBefore, now ≤ cutoff → now ≤ staleBefore → isUnpublished cutoff staleBefore q = true

/-- **THE SWEEP** publishes the message of every row that it finds. -/
theorem can_sweep (hl : Unhurried S i .sweepUnpublished v now l s) (hq : v.reqs r = some q)
    (hid : r < v.nextId) (hstale : Stale q now) :
    Can (M := platform S) Choice.answers i
      (Returns fun _ l' s' => Sweeping S i v now l' s' ∧ Message.burn r ∈ s'.queue)
      (body S .sweepUnpublished) l s := by
  obtain ⟨a₁, l₁, s₁, hx₁, hl₁⟩ := hl.call (o := .now) does_now rfl rfl
  obtain ⟨a₂, l₂, s₂, hx₂, hl₂⟩ := hl₁.call (o := .now) does_now rfl rfl
  let cond := isUnpublished (now + S.minTick) (now + S.minTick + S.minTick)
  obtain ⟨a₃, l₃, s₃, hx₃, hl₃⟩ := hl₂.call (o := .selectReqs cond) does_selectReqs rfl rfl
  show Can (M := platform S) Choice.answers i _ sweepUnpublished l s
  unfold sweepUnpublished
  refine Can.call_bind (M := platform S) (c := promptly a₁) rfl hx₁ ?_
  refine Can.call_bind (M := platform S) (c := promptly a₂) rfl hx₂ ?_
  refine Can.call_bind (M := platform S) (c := promptly a₃) rfl hx₃ ?_
  have hfound : r ∈ (List.range v.nextId).filter fun k => (v.reqs k).any cond := by
    refine List.mem_filter.mpr ⟨List.mem_range.mpr hid, ?_⟩
    rw [hq]
    refine hstale _ _ ?_ ?_
    · omega
    · omega
  have hstart : Sweeping S i v now l₃ s₃ := ⟨v.queue, _, by omega, hl₃⟩
  refine (Can.forEach (M := platform S) (I := Sweeping S i v now)
    (P := fun y s => Message.burn y ∈ s.queue) (fun y l s h => can_republish h)
    _ hstart).mono fun out l' s' hout => ?_
  cases out with
  | error exc => exact hout
  | ok _ => exact ⟨hout.1, hout.2.1 r hfound⟩

/-- From a quiet platform on which the row is stale. -/
theorem leads_swept {k : Config (platform S)} (hquiet : Quiet k) (hq : k.world.reqs r = some q)
    (hstale : Stale q k.world.clock) :
    Leads k fun v now => k.world.clock ≤ now ∧ ∃ queue, v = k.world.view.withQueue queue ∧
      Message.burn r ∈ queue := by
  have hstart := hquiet.still.start (S := S) (i := k.world.nextTid) (n := 0) .sweepUnpublished
    (by rw [Nat.zero_mul]; exact Nat.zero_le _)
  refine (leads_session (e := .sweepUnpublished) (Q := fun _ v now => k.world.clock ≤ now ∧
      ∃ queue, v = k.world.view.withQueue queue ∧ Message.burn r ∈ queue) hquiet trivial
    ((can_sweep ⟨hstart, rfl⟩ hq (hquiet.still.ids r q hq) hstale).mono
      fun out l' s' hout => ?_)).mono fun v now h => ?_
  · cases out with
    | error exc => exact hout.elim
    | ok _ =>
      obtain ⟨⟨queue, now', hle, hl'⟩, hmem⟩ := hout
      refine ⟨0, _, now', hl'.alone, ⟨rfl, rfl⟩, hle, queue, rfl, ?_⟩
      rwa [hl'.alone.queue] at hmem
  · obtain ⟨-, v', ⟨hle, queue, rfl, hmem⟩, rfl⟩ := h
    exact ⟨hle, queue, rfl, hmem⟩

end Orbyt
