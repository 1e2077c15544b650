/-
  Orbyt.Guarantees.Errands — the outcome of one worker's run

  A worker acts on what has become of the one transaction it was sent to submit.  Whatever
  the client library answers or raises, and wherever: it hands its row back only if nothing
  was handed to `submit_and_wait`, it records a success only if the ledger has validated one,
  and it restores a reserve only if nothing can have moved.

  Nothing is assumed of a run.  Of xrpl-py it is assumed what `World.afterOutcomeRaises` has:
  its "Transaction failed: code" is said only of a validated result other than tesSUCCESS, and
  a "tem.." refusal only of a transaction that is in no ledger and never will be.  Any other
  exception or text may come whatever the ledger has done.

  Main results:
    * `course_onward`        — time, signatures and ledgers go on along every run;
    * `errand_outcome_sound` — what a worker is about to write is borne out by the ledger.
-/
import Orbyt.Guarantees.Burns
import Orbyt.Invariants.BurnAttempts
import Orbyt.Invariants.Errands
import Orbyt.Lib.Outcomes

namespace Orbyt

open Interleave
open Interleave.Prog

variable {S : Setting} {clock validated : Nat} {held : Nat → Bool} {k k' : Config (platform S)}
  {i : Nat} {o : Op} {l : Session} {a : Errand}

/-! ## §1. What a worker writes. -/

/-- The worker of `e` gives up its claim, or publishes its own message again. -/
def Op.HandsBack (e : Entry) : Op → Prop
  | .updateTxn t _ values => e = .settle t ∧ Requeues values
  | .updateReq r _ values => e = .burn r ∧ Unclaims values
  | .enqueueIn _ _ => True
  | _ => False

/-- The worker of `e` completes its row, or credits its recipient. -/
def Op.RecordsSuccess (e : Entry) : Op → Prop
  | .updateTxn t _ values => e = .settle t ∧ Settles values
  | .setBalance _ _ (.credit t) => e = .settle t
  | .updateReq r _ values => e = .burn r ∧ Finishes .completed values
  | _ => False

/-- The worker of `e` fails its cash-out, or gives back what was reserved for it. -/
def Op.Restores (e : Entry) : Op → Prop
  | .updateReq r _ values => e = .burn r ∧ Finishes .failed values
  | .setBalance _ _ (.restore r) => e = .burn r
  | _ => False

/-! ### Only where it may. -/

theorem Errand.orderly.handsBack (ha : a.orderly o) (ho : o.HandsBack a.entry) :
    a.sent = .nothing := by
  cases o with
  | updateTxn t cond values => exact (ha ho.1).1 ho.2
  | updateReq r cond values => exact (ha ho.1).1 ho.2
  | enqueueIn delay m => exact ha
  | _ => exact ho.elim

theorem Errand.orderly.recordsSuccess (ha : a.orderly o) (ho : o.RecordsSuccess a.entry) :
    a.sent.Succeeded := by
  cases o with
  | updateTxn t cond values => exact (ha ho.1).2 ho.2
  | updateReq r cond values => exact (ha ho.1).2.1 ho.2
  | setBalance u balance move =>
    cases move with
    | credit t => exact ha ho
    | _ => exact ho.elim
  | _ => exact ho.elim

theorem Errand.orderly.restores (ha : a.orderly o) (ho : o.Restores a.entry) :
    a.sent.Harmless := by
  cases o with
  | updateReq r cond values => exact (ha ho.1).2.2 ho.2
  | setBalance u balance move =>
    cases move with
    | restore r => exact ha ho
    | _ => exact ho.elim
  | _ => exact ho.elim

/-! ## §2. What the ledger says. -/

/-- A success that was answered is on the ledger. -/
theorem Sent.Means.paid {e : Entry} {sent : Sent} {s : World} (hm : sent.Means i e s)
    (hs : sent.Succeeded) : ∃ h, s.IsErrand i e h ∧ s.Paid h := by
  obtain ⟨h, rfl⟩ := hs
  exact ⟨h, hm.1, hm.2.1⟩

/-- What was refused is lost, and nothing else was handed over. -/
theorem Sent.Means.lost {e : Entry} {sent : Sent} {s : World} (hm : sent.Means i e s)
    (hs : sent.Harmless) {h : Nat} (hh : s.IsErrand i e h) (hd : s.handed h = true) : s.Lost h := by
  rcases hs with rfl | ⟨h', answer, rfl, hrefuses⟩
  · rw [hm h hh] at hd
    cases hd
  · obtain ⟨-, hbears, honly⟩ := hm
    obtain rfl := honly h hh hd
    cases answer with
    | error exc => exact hbears hrefuses
    | ok code =>
      obtain ⟨n, hn⟩ := hbears
      exact .inl (.inl ⟨n, code, hn, hrefuses⟩)

/-- Some program is not the one whose step it is. -/
theorem exists_bystander (lab : Label (platform S)) : ∃ j, lab.party ≠ some j := by
  cases hp : lab.party with
  | none => exact ⟨0, nofun⟩
  | some j => exact ⟨j + 1, fun he => Nat.succ_ne_self j (Option.some.inj he).symm⟩

/-- What every step leaves to whoever is not its party. -/
theorem step_onward {lab : Label (platform S)} (hD : (rules S).Holds k)
    (hs : k.step lab = some k') :
    Onward k.world k'.world ∧ k.world.nextTid ≤ k'.world.nextTid := by
  obtain ⟨j, hj⟩ := exists_bystander lab
  have hmeanwhile : Meanwhile j k.world k'.world := ((rules_kept S).holds_step hD hs).2 j hj
  exact ⟨hmeanwhile.others.onward, hmeanwhile.others.nextTid⟩

/-- **TIME GOES ON** along every run. -/
theorem course_onward {w : World} (hw : w.Orderly) (h : Reach (M := platform S) w k)
    (hc : Course (fun _ _ => True) k k') : Onward k.world k'.world := by
  induction hc with
  | refl => exact .refl _
  | step hc _ hs ih => exact ih.trans (step_onward ((rules_kept S).reach hw (hc.reach h)) hs).1

/-! ## §3. After that it submits nothing. -/

/-- The call hands nothing to `submit_and_wait`. -/
def Op.KeepsHanded (o : Op) : Prop := ∀ purpose h, o ≠ .handOver purpose h

/-- The call decides against the submission. -/
def Op.Decides (e : Entry) (o : Op) : Prop := o.HandsBack e ∨ o.Restores e

section Closes

variable {e : Entry} {t r : Nat}

theorem basic_keepsHanded : ∀ o : Op, o.isBasic = true → o.KeepsHanded := by
  rintro o ho purpose h rfl
  cases ho

theorem idle_keepsHanded : ∀ o : Op, o.isWorkers = false → o.KeepsHanded := by
  rintro o ho purpose h rfl
  cases ho

theorem basic_undecided : ∀ o : Op, o.isBasic = true → ¬ o.Decides e := by
  intro o ho hd
  cases o <;> first | exact hd.elim id id | cases ho

/-- Whatever is written to rows before the submission leaves them in hand. -/
theorem updateTxn_undecided {cond : Txn → Bool} {values : Nat → Txn → Txn}
    (h : ¬ Requeues values) : ¬ (Op.updateTxn t cond values).Decides e :=
  fun hd => hd.elim (fun hr => h hr.2) id

theorem updateReq_undecided {cond : CashOutRequest → Bool}
    {values : Nat → CashOutRequest → CashOutRequest} (hu : ¬ Unclaims values)
    (hf : ¬ Finishes .failed values) : ¬ (Op.updateReq r cond values).Decides e :=
  fun hd => hd.elim (fun h => hu h.2) fun h => hf h.2

theorem settle_undecided {o : Op} (ht : o.writesTxns = false) (hd : o.isDelayed = false)
    (hmay : (Entry.settle t).may o) : ¬ o.Decides (.settle t) := by
  intro h
  cases o <;> first | exact h.elim id id | (cases ht; done) | (cases hd; done) | skip
  case updateReq r cond values => exact h.elim (fun hb => by cases hb.1) fun hb => by cases hb.1
  case setBalance u balance move =>
    cases move with
    | restore r => exact h.elim id fun hb => by cases hb
    | _ => exact h.elim id id

section Settlement

open SettlementWorker

theorem failSettlement_keepsHanded {reason : String} {txHash : Option Nat}
    {fromStatuses : List SettlementStatus} :
    Uses Op.KeepsHanded (failSettlement t reason txHash fromStatuses) :=
  uses_failSettlement basic_keepsHanded nofun

theorem retryOrFail_keepsHanded {txn : Txn} {reason : String} :
    Uses Op.KeepsHanded (retryOrFail t txn reason) :=
  uses_retryOrFail basic_keepsHanded (fun _ => nofun) nofun fun _ => nofun

theorem onException_keepsHanded {txn : Txn} {exc : Exn} :
    Uses Op.KeepsHanded (onException t txn exc) := by
  unfold onException
  split
  · exact uses_bind failSettlement_keepsHanded fun _ => trivial
  · refine uses_bind (uses_call nofun) fun signed => ?_
    cases signed with
    | some h => exact uses_bind failSettlement_keepsHanded fun _ => trivial
    | none => exact retryOrFail_keepsHanded

theorem onResult_keepsHanded {txn : Txn} {result : XrplService.XRPLResult} :
    Uses Op.KeepsHanded (onResult t txn result) := by
  unfold onResult
  split
  · exact uses_bind (uses_completeSettlement basic_keepsHanded nofun fun _ _ => nofun)
      fun _ => trivial
  · exact retryOrFail_keepsHanded
  · exact uses_bind failSettlement_keepsHanded fun _ => trivial
  · exact uses_bind failSettlement_keepsHanded fun _ => trivial

theorem processSettlement_closes :
    Prog.Closes (Op.Decides (.settle t)) Op.KeepsHanded (processSettlement t) := by
  rw [processSettlement_eq]
  refine Prog.closes_bind (uses_claim basic_undecided
    (updateTxn_undecided (not_requeues (b := .processing) nofun fun _ _ => .inl rfl)))
    fun found => ?_
  cases found with
  | none => exact trivial
  | some txn =>
    show Prog.Closes _ _ (settleClaimed t txn)
    unfold settleClaimed
    refine Prog.closes_bind (uses_getRecipient basic_undecided) fun recipient => ?_
    cases recipient with
    | none => exact Prog.closes_of_uses (uses_bind failSettlement_keepsHanded fun _ => trivial)
    | some u =>
      -- inside the `try` nothing is decided; what decides comes last, and hands nothing over
      refine Prog.closes_bind (uses_attempt (uses_pay basic_undecided (fun _ =>
        updateTxn_undecided (not_requeues (b := .failed) nofun fun _ _ => .inr rfl))
        fun o => settle_undecided)) fun answer => ?_
      cases answer with
      | ok result => exact Prog.closes_of_uses onResult_keepsHanded
      | error exc => exact Prog.closes_of_uses onException_keepsHanded

end Settlement

section Burn

open CashoutWorker

variable {req : CashOutRequest}

theorem failAndRestore_keepsHanded {reason : String} {txHash : Option Nat} :
    Uses Op.KeepsHanded (failAndRestore r req reason txHash) :=
  uses_failAndRestore basic_keepsHanded nofun fun _ _ => nofun

theorem burnRetryOrFail_keepsHanded {reason : String} :
    Uses Op.KeepsHanded (retryOrFail r req reason) := by
  unfold retryOrFail
  split
  · exact uses_bind failAndRestore_keepsHanded fun _ => trivial
  · exact uses_bind (uses_releaseClaim basic_keepsHanded nofun) fun _ =>
      uses_bind (uses_call nofun) fun _ => trivial

theorem holdUnknown_keepsHanded {reason : String} :
    Uses Op.KeepsHanded (holdUnknown r reason) :=
  uses_holdUnknown basic_keepsHanded fun _ => nofun

theorem burnException_keepsHanded {exc : Exn} :
    Uses Op.KeepsHanded (onException r req exc) := by
  unfold onException
  split
  · exact uses_bind failAndRestore_keepsHanded fun _ => trivial
  · refine uses_bind (uses_call nofun) fun signed => ?_
    cases signed with
    | some h => exact uses_bind holdUnknown_keepsHanded fun _ => trivial
    | none => exact burnRetryOrFail_keepsHanded

theorem burnResult_keepsHanded {result : XrplService.XRPLResult} :
    Uses Op.KeepsHanded (onResult r req result) := by
  unfold onResult
  split
  · exact uses_bind (uses_completeBurn basic_keepsHanded fun _ => nofun) fun _ => trivial
  · exact burnRetryOrFail_keepsHanded
  · exact uses_bind holdUnknown_keepsHanded fun _ => trivial
  · exact uses_bind failAndRestore_keepsHanded fun _ => trivial

/-- Claiming and storing the hash take no claim off and fail nothing. -/
theorem steadyReq_undecided {cond : CashOutRequest → Bool}
    {values : Nat → CashOutRequest → CashOutRequest}
    (hstarted : ∀ now q, (values now q).burnStartedAt.isSome = true ∨
      (values now q).burnStartedAt = q.burnStartedAt)
    (h : ∀ now q, (values now q).status = q.status) :
    ¬ (Op.updateReq r cond values).Decides e :=
  updateReq_undecided (not_unclaims hstarted)
    (not_finishes (b := .requested) nofun nofun fun now q => .inr (h now q))

theorem burnToIssuer_undecided {u amount : Nat} {w : Wallet} :
    Uses (fun o : Op => ¬ o.Decides (.burn r))
      (XrplService.burnToIssuer r u w amount (rememberSigned r)) :=
  uses_burnToIssuer basic_undecided (fun hd => hd.elim id id) (fun _ hd => hd.elim id id)
    (fun _ hd => hd.elim id id) fun _ => uses_burnRememberSigned basic_undecided
      (steadyReq_undecided (fun _ _ => .inr rfl) fun _ _ => rfl) fun _ hd => hd.elim id id

theorem processBurn_closes :
    Prog.Closes (Op.Decides (.burn r)) Op.KeepsHanded (processBurn r) := by
  unfold processBurn
  refine Prog.closes_bind (uses_burnClaim basic_undecided fun _ =>
    steadyReq_undecided (fun _ _ => .inl rfl) fun _ _ => rfl) fun found => ?_
  cases found with
  | none => exact trivial
  | some req =>
    refine Prog.closes_bind (uses_call (basic_undecided _ rfl)) fun wallet => ?_
    cases wallet with
    | none => exact Prog.closes_of_uses (uses_bind failAndRestore_keepsHanded fun _ => trivial)
    | some w =>
      refine Prog.closes_bind (uses_attempt burnToIssuer_undecided) fun answer => ?_
      cases answer with
      | ok result => exact Prog.closes_of_uses burnResult_keepsHanded
      | error exc => exact Prog.closes_of_uses burnException_keepsHanded

end Burn

/-- **ONCE DECIDED** against its submission, no program hands anything over. -/
theorem body_closes (e : Entry) : Prog.Closes (Op.Decides e) Op.KeepsHanded (body S e) := by
  cases he : e.isWorker with
  | false => exact Prog.closes_of_uses ((body_idle he).mono idle_keepsHanded)
  | true =>
    cases e with
    | settle t => exact processSettlement_closes.bind fun _ => trivial
    | burn r => exact processBurn_closes.bind fun _ => trivial
    | _ => cases he

/-- So it is of whatever is in flight. -/
theorem rest_closes {w : World} (h : Reach (M := platform S) w k) {th : Thread (platform S)}
    (hth : k.threads i = some th) :
    Prog.Closes (Op.Decides th.session.entry) Op.KeepsHanded th.rest := by
  refine Reach.rest (M := platform S)
    (C := fun l p => Prog.Closes (Op.Decides l.entry) Op.KeepsHanded p)
    (fun e => body_closes e) (fun j o ch l w r l' w' f hc hx => ?_) h i th hth
  have hentry : l'.entry = l.entry := exec_sameEntry hx
  show Prog.Closes (S := calls) (Op.Decides l'.entry) Op.KeepsHanded (f r)
  rw [hentry]
  exact (hc r).2

end Closes

/-- Of what `i` has signed for its errand nothing more has been handed over. -/
structure Withheld (i : Nat) (e : Entry) (k k' : Config (platform S)) : Prop where
  born : i < k'.world.nextTid
  rest : ∀ th, k'.threads i = some th → Uses Op.KeepsHanded th.rest
  handed : ∀ h, k'.world.IsErrand i e h → k'.world.handed h = true →
    k.world.IsErrand i e h ∧ k.world.handed h = true

/-- A step that hands over nothing of `i`'s. -/
theorem Withheld.kept {e : Entry} {k₁ k₂ : Config (platform S)} (h : Withheld i e k k₁)
    (hr : k₁.world.Regular) (hn : HandsNothing i k₁.world k₂.world)
    (hborn : k₁.world.nextTid ≤ k₂.world.nextTid)
    (hrest : ∀ th, k₂.threads i = some th → Uses Op.KeepsHanded th.rest) : Withheld i e k k₂ where
  born := Nat.lt_of_lt_of_le h.born hborn
  rest := hrest
  handed := fun x hx hd => by
    obtain ⟨hx', hd'⟩ := hx.before hr hn hd
    exact h.handed x hx' hd'

theorem Withheld.step {e : Entry} {k₁ k₂ : Config (platform S)} {lab : Label (platform S)}
    (h : Withheld i e k k₁) (hD : (rules S).Holds k₁) (hs : k₁.step lab = some k₂) :
    Withheld i e k k₂ := by
  have hr : k₁.world.Regular := hD.world.regular
  obtain ⟨honward, hborn⟩ := step_onward hD hs
  by_cases hi : lab.party = some i
  · cases lab with
    | call j ch =>
      obtain rfl : j = i := Option.some.inj hi
      obtain ⟨l, o, f, r, l', s', hth, hx, rfl⟩ := Config.step_call hs
      have huses := h.rest _ hth
      have hn := own_handsNothing (hD.session j _ hth).locked huses.1 hx
      refine h.kept hr hn hborn fun th hth' => ?_
      obtain rfl : _ = th := by simpa using hth'
      exact huses.2 r
    | stop j =>
      obtain rfl : j = i := Option.some.inj hi
      obtain ⟨_, _, rfl⟩ := Option.map_eq_some_iff.mp hs
      exact h.kept hr (handsNothing_of_eq honward rfl) hborn fun th hth' => by simp at hth'
    | start e => cases hi
    | env v => cases hi
  · refine h.kept hr (step_handsNothing hD hs hi) hborn fun th hth' => h.rest th ?_
    -- a program that starts takes a name of its own
    cases lab with
    | start e =>
      injection hs with hs
      subst hs
      have hne : i ≠ k₁.world.nextTid := Nat.ne_of_lt h.born
      simpa [Function.update, hne, platform] using hth'
    | call j ch =>
      obtain ⟨l, o, f, r, l', s', hth, hx, rfl⟩ := Config.step_call hs
      have hne : i ≠ j := fun he => hi (congrArg some he.symm)
      simpa [Function.update, hne] using hth'
    | stop j =>
      obtain ⟨_, _, rfl⟩ := Option.map_eq_some_iff.mp hs
      have hne : i ≠ j := fun he => hi (congrArg some he.symm)
      simpa [Function.update, hne] using hth'
    | env v =>
      obtain ⟨s', -, rfl⟩ := Option.map_eq_some_iff.mp hs
      exact hth'

/-- Whoever only keeps what is handed over does so along every run. -/
theorem Withheld.course {w : World} {e : Entry} (hw : w.Orderly)
    (h : Reach (M := platform S) w k) (hc : Course (fun _ _ => True) k k')
    (hk : Withheld i e k k) : Withheld i e k k' := by
  induction hc with
  | refl => exact hk
  | step hc _ hs ih => exact ih.step ((rules_kept S).reach hw (hc.reach h)) hs

/-- Whoever has decided hands over nothing more, in whatever run follows. -/
theorem decided_withholds {w : World} (hw : w.Orderly) (h : Reach (M := platform S) w k)
    {f : Except Exn o.Res → Program Unit} (hth : k.threads i = some ⟨l, .op o f⟩)
    (ho : o.Decides l.entry) (hkeeps : o.KeepsHanded) (hc : Course (fun _ _ => True) k k') :
    Withheld i l.entry k k' := by
  refine Withheld.course hw h hc ⟨?_, fun th hth' => ?_, fun x hx hd => ⟨hx, hd⟩⟩
  · exact (((rules_kept S).reach hw h).session i _ hth).locked.born
  · obtain rfl := Option.some.inj (hth.symm.trans hth')
    exact ⟨hkeeps, fun r => (rest_closes h hth r).1 ho⟩

theorem Op.Decides.keepsHanded {e : Entry} (ho : o.Decides e) : o.KeepsHanded := by
  rintro purpose x rfl
  exact ho.elim id id

/-! ## §4. One run of a worker. -/

/-- **THE OUTCOME OF A RUN IS SOUND**: where a worker is about to hand its row back, nothing of
its own is handed over, nor ever will be; where it is about to record a success, its payment or
burn is on the ledger; where it is about to restore a reserve, what it has handed over is never
paid.  So it stays in whatever run follows. -/
theorem errand_outcome_sound
    (h : Reach (M := platform S) (World.initial clock validated held) k)
    {f : Except Exn o.Res → Program Unit} (hth : k.threads i = some ⟨l, .op o f⟩) :
    (o.HandsBack l.entry → ∀ k', Course (fun _ _ => True) k k' →
      ∀ h, k'.world.IsErrand i l.entry h → k'.world.handed h = false) ∧
    (o.RecordsSuccess l.entry → ∃ h, k.world.IsErrand i l.entry h ∧ k.world.Paid h) ∧
    (o.Restores l.entry → ∀ k', Course (fun _ _ => True) k k' →
      ∀ h, k'.world.IsErrand i l.entry h → ¬ k'.world.Paid h) := by
  have hw := World.Orderly.initial clock validated held
  have hheld := errands_reach hw (World.Submitted.initial clock validated held) h
  obtain ⟨a, hallowed, hm⟩ := hheld.threads i _ hth
  have horderly : a.orderly o := hallowed.1 hm.credible
  have hentry : l.entry = a.entry := hm.entry
  refine ⟨fun ho k' hc x hx => ?_, fun ho => ?_, fun ho k' hc x hx hpaid => ?_⟩
  · have hwithheld := decided_withholds hw h hth (.inl ho) (Op.Decides.keepsHanded (.inl ho)) hc
    have hnothing : a.sent = .nothing := horderly.handsBack (hentry ▸ ho)
    have hm' : Sent.Means i a.entry k.world .nothing := hnothing ▸ hm.sent
    rw [Bool.eq_false_iff]
    intro hd
    obtain ⟨hx', hd'⟩ := hwithheld.handed x hx hd
    rw [hm' x (hentry ▸ hx')] at hd'
    cases hd'
  · obtain ⟨x, hx, hpaid⟩ := hm.sent.paid (horderly.recordsSuccess (hentry ▸ ho))
    exact ⟨x, hentry ▸ hx, hpaid⟩
  · have hwithheld := decided_withholds hw h hth (.inr ho) (Op.Decides.keepsHanded (.inr ho)) hc
    have hr := ((rules_kept S).reach hw (hc.reach h)).world.regular
    -- only what was handed over is ever paid, and that is lost
    obtain ⟨n, hn⟩ := hpaid
    have hd := (hr.included x _ hn).1
    obtain ⟨hx', hd'⟩ := hwithheld.handed x hx hd
    have hlost := hm.sent.lost (horderly.restores (hentry ▸ ho)) (hentry ▸ hx') hd'
    obtain ⟨b, hb, -⟩ := hx'
    exact (hlost.onward (course_onward hw h hc) hb).not_paid hr ⟨n, hn⟩

/-- The ledger validates a burn without success; its worker is about to give the reserve back. -/
def restoringBurn : List (Label (platform .usual)) :=
  approving .usual ++ steps .usual 4 1 ++ [.stop 4] ++ claimingBurn .usual 5
    ++ submittingBurn .usual 5 140 ++ closing .usual [(2, .other "tecPATH_DRY")]
    ++ steps .usual 5 3

/-- Whether program `i` is about to give back what was reserved for `r`. -/
def givesBack (i r : Nat) (k : Config (platform S)) : Bool :=
  match (k.threads i).bind fun th => nextCall th.rest with
  | some (.setBalance _ _ (.restore r')) => r' == r
  | _ => false

theorem givesBack_call {r : Nat} (h : givesBack i r k = true) :
    ∃ l o f, k.threads i = some ⟨l, .op o f⟩ ∧
      ∃ u balance, o = .setBalance u balance (.restore r) := by
  unfold givesBack at h
  split at h
  next u balance r' hnext =>
    obtain ⟨⟨l, p⟩, hth, hcall⟩ := Option.bind_eq_some_iff.mp hnext
    cases p with
    | op o f =>
      obtain rfl : o = .setBalance u balance (.restore r') := Option.some.inj hcall
      rw [← beq_iff_eq.mp h]
      exact ⟨l, _, f, hth, u, balance, rfl⟩
    | ret a => cases hcall
    | raise exc => cases hcall
  · cases h

/-- The burn was handed over, and is never paid. -/
theorem errand_outcome_sound_restoring :
    ∃ k, Reach (M := platform .usual) World.empty k ∧ k.world.handed 2 = true ∧
      ∀ k', Course (fun _ _ => True) k k' →
        ∀ h, k'.world.IsErrand 5 (.burn 1) h → ¬ k'.world.Paid h := by
  have hrun : (Config.run restoringBurn (Config.initial World.empty)).map
      (fun k => (givesBack 5 1 k, k.world.handed 2, (k.threads 5).map (·.session.entry)))
        = some (true, true, some (.burn 1)) := by decide +kernel
  obtain ⟨k, hk, hend⟩ := Reach.of_run_map hrun
  simp only [Prod.mk.injEq] at hend
  obtain ⟨hgives, hhanded, hentry⟩ := hend
  obtain ⟨l, o, f, hth, u, balance, rfl⟩ := givesBack_call hgives
  rw [hth] at hentry
  obtain hentry : l.entry = .burn 1 := Option.some.inj hentry
  exact ⟨k, hk, hhanded, hentry ▸ (errand_outcome_sound hk hth).2.2 hentry⟩

end Orbyt
