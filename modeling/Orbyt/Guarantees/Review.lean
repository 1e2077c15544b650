/-
  Orbyt.Guarantees.Review — what an AML review changes for others

  `set_aml_flag` writes a flag that nobody else reads, and with it, as every UPDATE through the
  ORM does, the row's `updated_at`.

  Main results:
    * `review_only` — which rows a review leaves as they are for every other operation: those
      whose settlement has not begun or is over, and those whose flag does not change.
-/
import Orbyt.Platform.Monitor
import Orbyt.Rules.Unnoticed
import Orbyt.Guarantees.Balances

namespace Orbyt

open Interleave
open Interleave.Prog
open CashinService
open SettlementWorker (claim completeSettlement failSettlement)
open Function (update)

variable {S : Setting} {s s₁ : World} {t T since : Nat} {f : Bool} {x x' x₁ : Txn}

/-! ## §1. Setting the flag. -/

/-- `set_aml_flag` has been applied to `s`, with nobody else moving: `T` is the instant of its
UPDATE, the second of its calls. -/
def SetsFlag (S : Setting) (t : Nat) (f : Bool) (T : Nat) (s s₁ : World) : Prop :=
  ∃ i cs l, alone (M := platform S) i cs (setAmlFlag t f) (Session.start (.amlFlag t f)) s
      = some (.ok (), l, s₁) ∧
    T = s.clock + 2 * S.minTick + ((cs.take 2).map Choice.dt).sum

/-- The row after the review. -/
def reviewed (f : Bool) (T : Nat) (x : Txn) : Txn :=
  if x.amlFlagged = f then x else flaggedAs f T x

/-- A COMMIT and a re-load of the row: the session's rows are stored. -/
theorem stores_commit_refresh {i : Nat} {cs : List Choice} {l l' : Session}
    (h : alone (M := platform S) i cs
      (Prog.bind (call .commit) (fun _ => call .refresh) : Program Unit) l s
        = some (.ok (), l', s₁)) : s₁.txns = l.txn s := by
  obtain ⟨c, cs, _, l₁, s₂, rfl, hcommit, hrest⟩ := alone_call_ok h
  obtain ⟨c', cs', rfl, hrefresh⟩ := alone_last hrest
  have hkept : s₁.txns = s₂.txns := (exec_uncommitted (by simp) hrefresh).txns
  rcases exec_commit hcommit with ⟨⟨e, he⟩, -⟩ | ⟨-, rfl, -⟩
  · cases he
  · exact hkept

/-- **What `set_aml_flag` stores.** -/
theorem SetsFlag.stores (h : SetsFlag S t f T s s₁) (hx : s.txns t = some x) :
    s₁.txns = update s.txns t (some (reviewed f T x)) := by
  obtain ⟨i, cs, l, hrun, hT⟩ := h
  obtain ⟨c₁, cs, found, l₁, s₂, rfl, hselect, hrun⟩ := alone_call_ok hrun
  rcases exec_selectTxn hselect with ⟨e, he⟩ | ⟨hfound, rfl, rfl⟩
  · cases he
  obtain rfl : found = some x := (Except.ok.inj hfound).trans hx
  dsimp only at hrun
  unfold flushFlag at hrun
  -- the ORM writes nothing when the flag is as loaded
  by_cases hflag : x.amlFlagged = f
  · rw [if_pos hflag] at hrun
    rw [stores_commit_refresh hrun, reviewed, if_pos hflag, ← hx, Function.update_eq_self]
    rfl
  · rw [if_neg hflag] at hrun
    simp only [bind_eq, bind_assoc, pure_eq, ret_bind] at hrun
    obtain ⟨c₂, cs, hit, l₂, s₃, rfl, hupdate, hrun⟩ := alone_call_ok hrun
    have hclock := exec_clock hupdate
    have hkept := (exec_uncommitted (by simp) hupdate).txns
    rw [stores_commit_refresh hrun, reviewed, if_neg hflag]
    rcases exec_updateTxn hupdate with ⟨⟨e, he⟩, -⟩ | ⟨-, -, hmiss⟩ | ⟨y, -, -, hy, -, rfl, -⟩
    · cases he
    · exact absurd (hmiss x hx) (by simp)
    · obtain rfl : x = y := Option.some.inj (hx.symm.trans hy)
      -- the UPDATE is the second call, and stamps the instant it is made at
      obtain rfl : T = s₃.clock := by
        rw [hT, hclock]
        simp only [List.take_succ_cons, List.take_zero, List.map_cons, List.map_nil,
          List.sum_cons, List.sum_nil, tick_clock]
        omega
      funext t'
      show (update (fun _ => none) t _ t').or (s₃.txns t') = _
      rw [hkept]
      by_cases ht : t' = t
      · subst ht
        simp
      · simp [ht]

/-! ## §2. What others can observe. -/

/-- Two rows that agree in all but flag and stamp. -/
def Txn.SameRest (x x' : Txn) : Prop :=
  x' = { x with amlFlagged := x'.amlFlagged, updatedAt := x'.updatedAt }

structure World.SameRest (s s' : World) : Prop where
  rest : s' = { s with txns := s'.txns }
  rows : ∀ t, Option.Rel Txn.SameRest (s.txns t) (s'.txns t)

def World.withTxn (s : World) (t : Nat) (x : Txn) : World :=
  { s with txns := update s.txns t (some x) }

/-- At any time from `since` on, whatever else is stored and whatever the calls answer: `p` where
the row is `x`, and `p'` where it is `x'`, come to the same answer and leave the same behind. -/
def SameEffect (S : Setting) (t since : Nat) (x x' : Txn) {α : Type} (V : α → α → Prop)
    (p p' : Program α) : Prop :=
  ∀ (i : Nat) (e : Entry) (cs : List Choice) (s : World), s.txns t = some x → since ≤ s.clock →
    Option.Rel (fun r r' => LikeAnswers V r.1 r'.1 ∧ r.2.2.SameRest r'.2.2)
      (alone (M := platform S) i cs p (Session.start e) s)
      (alone (M := platform S) i cs p' (Session.start e) (s.withTxn t x'))

/-- From `since` on nobody can tell whether row `t` is `x` or, reviewed, `x'`.  An operation on a
loaded row may have loaded it before the review (`y = x`) or after it (`y = x'`). -/
structure ReviewOnly (S : Setting) (t since : Nat) (x x' : Txn) : Prop where
  retry : ∀ y, y = x ∨ y = x' →
    SameEffect S t since x x' Eq (retrySettlement t x) (retrySettlement t y)
  requeueStuck : ∀ y, y = x ∨ y = x' →
    SameEffect S t since x x' Eq (requeueStuckChecked t x) (requeueStuckChecked t y)
  claim : SameEffect S t since x x' (Option.Rel Txn.SameRest) (claim t) (claim t)
  complete : ∀ y txHash fromStatuses, y = x ∨ y = x' →
    SameEffect S t since x x' Eq (completeSettlement t x txHash fromStatuses)
      (completeSettlement t y txHash fromStatuses)
  fail : ∀ reason txHash fromStatuses,
    SameEffect S t since x x' Eq (failSettlement t reason txHash fromStatuses)
      (failSettlement t reason txHash fromStatuses)
  expire : SameEffect S t since x x' Eq expireStaleCashins expireStaleCashins
  listed : ∀ (asked : Nat) (s : World), since ≤ asked → s.txns t = some x →
    ((t ∈ (listSettlementIssues asked (s.withTxn t x')).map Prod.fst) ↔
      t ∈ (listSettlementIssues asked s).map Prod.fst)

/-! ## §3. Rows a review leaves as they are. -/

theorem Txn.SameButFlag.sameRest (h : x.SameButFlag x') : x.SameRest x' := h.same

theorem World.Like.sameRest {s s' : World} (h : s.Like s') : s.SameRest s' where
  rest := h.rest
  rows := fun t => by
    have hrow := h.rows t
    revert hrow
    generalize s.txns t = m
    generalize s'.txns t = m'
    intro hrow
    cases hrow with
    | none => exact .none
    | some h => exact .some h.sameRest

/-- Rows whose difference goes unnoticed make for the same effects. -/
theorem SameEffect.of_alike {α : Type} {V W : α → α → Prop} {p p' : Program α}
    (hx : x.SameButFlag x') (hVW : ∀ a b, V a b → W a b) (hp : Alike (unnoticed S) V p p') :
    SameEffect S t since x x' W p p' := by
  intro i e cs s hrow _
  have hsession : (Session.start e).Like (Session.start e) := ⟨rfl, fun _ => .none⟩
  have hworld : s.Like (s.withTxn t x') := by
    refine ⟨rfl, fun t' => ?_⟩
    show Option.Rel _ (s.txns t') (update s.txns t (some x') t')
    by_cases ht : t' = t
    · subst ht
      rw [hrow, Function.update_self]
      exact .some hx
    · rw [Function.update_of_ne ht]
      cases s.txns t' with
      | none => exact .none
      | some y => exact .some (.refl y)
  have hends : Option.Rel ((unnoticed S).Ends V) (alone i cs p (Session.start e) s)
      (alone i cs p' (Session.start e) (s.withTxn t x')) :=
    unnoticed_sound.alone hp hsession hworld
  revert hends
  generalize alone (M := platform S) i cs p (Session.start e) s = m
  generalize alone (M := platform S) i cs p' (Session.start e) (s.withTxn t x') = m'
  intro hends
  cases hends with
  | none => exact .none
  | some h => exact .some ⟨h.answer.mono hVW, World.Like.sameRest h.world⟩

theorem listed_iff {asked : Nat} (hrow : s.txns t = some x) :
    t ∈ (listSettlementIssues asked s).map Prod.fst ↔
      t < s.nextId ∧ isSettlementIssue asked x = true := by
  rw [List.mem_map]
  constructor
  · rintro ⟨⟨t', y⟩, hy, rfl⟩
    obtain ⟨⟨hlt, hstored⟩, hissue⟩ := mem_listSettlementIssues.mp hy
    obtain rfl : y = x := Option.some.inj (hstored.symm.trans hrow)
    exact ⟨hlt, hissue⟩
  · rintro ⟨hlt, hissue⟩
    exact ⟨(t, x), mem_listSettlementIssues.mpr ⟨⟨hlt, hrow⟩, hissue⟩, rfl⟩

theorem withTxn_self : (s.withTxn t x).txns t = some x := by
  simp [World.withTxn]

/-- The stamp counts for settlements that have begun and are not over. -/
theorem isSettlementIssue_like {asked : Nat} (h : x.SameButFlag x') :
    isSettlementIssue asked x' = true ↔ isSettlementIssue asked x = true := by
  rw [isSettlementIssue_iff, isSettlementIssue_iff, h.status]
  rcases h.stamp with hstamp | hstatus | hstatus
  · rw [hstamp]
  · simp [hstatus]
  · simp [hstatus]

theorem ReviewOnly.of_sameButFlag (h : x.SameButFlag x') : ReviewOnly S t since x x' where
  retry := by
    rintro y (rfl | rfl)
    · exact .of_alike h (fun _ _ h => h) (retrySettlement_alike (.refl _))
    · exact .of_alike h (fun _ _ h => h) (retrySettlement_alike h)
  requeueStuck := by
    rintro y (rfl | rfl)
    · exact .of_alike h (fun _ _ h => h) (requeueStuck_alike (.refl _))
    · exact .of_alike h (fun _ _ h => h) (requeueStuck_alike h)
  claim := .of_alike h (fun a b hab => by
    cases hab with
    | none => exact .none
    | some h => exact .some h.sameRest) claim_alike
  complete := by
    rintro y txHash fromStatuses (rfl | rfl)
    · exact .of_alike h (fun _ _ h => h) (completeSettlement_alike (.refl _))
    · exact .of_alike h (fun _ _ h => h) (completeSettlement_alike h)
  fail := fun _ _ _ => .of_alike h (fun _ _ h => h) failSettlement_alike
  expire := .of_alike h (fun _ _ h => h) expireStaleCashins_alike
  listed := by
    intro asked s _ hrow
    rw [listed_iff hrow, listed_iff withTxn_self, isSettlementIssue_like h]
    rfl

theorem reviewed_sameButFlag (h : x.amlFlagged = f ∨ x.updatedAt = T ∨
    x.settlementStatus = .notQueued ∨ x.settlementStatus = .completed) :
    x.SameButFlag (reviewed f T x) := by
  unfold reviewed
  by_cases hflag : x.amlFlagged = f
  · rw [if_pos hflag]
    exact .refl x
  · rw [if_neg hflag]
    rcases h with h | h | h
    · exact absurd h hflag
    · exact ⟨rfl, .inl h.symm⟩
    · exact ⟨rfl, .inr h⟩

/-! ## §4. Rows a review changes. -/

/-- A queued or processing row is listed as stuck ten minutes after its stamp. -/
theorem listed_differs (hid : t < s.nextId) (hrow : s.txns t = some x)
    (hx : x.settlementStatus = .queued ∨ x.settlementStatus = .processing)
    (hstamp : x.updatedAt ≠ T) (hflag : x.amlFlagged ≠ f) :
    ¬ ReviewOnly S t T x (reviewed f T x) := by
  intro h
  have hreviewed : reviewed f T x = flaggedAs f T x := if_neg hflag
  have hold : ∀ asked, isSettlementIssue asked x = true ↔ x.updatedAt + stuckAfter < asked := by
    intro asked
    rcases hx with hx | hx <;> simp [isSettlementIssue_iff, hx]
  have hnew : ∀ asked, isSettlementIssue asked (flaggedAs f T x) = true ↔
      T + stuckAfter < asked := by
    intro asked
    rcases hx with hx | hx <;> simp [isSettlementIssue_iff, flaggedAs, hx]
  -- ask when the later of the two stamps is not yet ten minutes old
  have hlater : T ≤ max x.updatedAt T + stuckAfter := Nat.le_add_right_of_le (Nat.le_max_right _ _)
  have hlisted := h.listed (max x.updatedAt T + stuckAfter) s hlater hrow
  rw [listed_iff hrow, listed_iff withTxn_self, hreviewed, hold, hnew] at hlisted
  have hid' : t < (s.withTxn t (flaggedAs f T x)).nextId := hid
  simp only [hid, hid', true_and] at hlisted
  generalize stuckAfter = wait at hlisted
  omega

/-- The call answers, at once and as the world has it. -/
def atOnce : Choice := ⟨0, .returns, .unit⟩

theorem exec_atOnce {i : Nat} {o : Op} {l l' : Session} {s' : World} {r : Except Exn o.Res}
    (hp : permitted S l (s.tick S atOnce) o = true) (hl : l.failed = false)
    (h : perform S i l (s.tick S atOnce) .unit o = some (r, l', s')) :
    exec S i o atOnce l s = some (r, l', s') := by
  unfold exec answer
  rw [if_pos hp]
  show (if l.failed && o.isStatement then none else _) = _
  rw [hl, Bool.false_and, if_neg Bool.false_ne_true]
  exact h

/-- A request whose statements have all gone well; it claims no row. -/
structure Session.Sound (l : Session) : Prop where
  sound : l.failed = false
  idle : l.claimedAt = none

theorem Session.Sound.permitted {l : Session} (h : l.Sound) {o : Op}
    (ho : ∀ u, o ≠ .lockWallet u) (hr : ∀ r cond values, o ≠ .updateReq r cond values)
    (ht : ∀ t cond values, o ≠ .updateTxn t cond values) : permitted S l s o = true := by
  unfold Orbyt.permitted
  rw [h.idle]
  cases o with
  | lockWallet u => exact absurd rfl (ho u)
  | updateReq r cond values => exact absurd rfl (hr r cond values)
  | updateTxn t cond values => exact absurd rfl (ht t cond values)
  | _ => simp

variable {i : Nat} {cs : List Choice} {l : Session}

theorem exec_commit_atOnce (hl : l.Sound) :
    exec S i .commit atOnce l s
      = some (.ok (), l.committed, (s.tick S atOnce).commit i l) :=
  exec_atOnce (hl.permitted (by simp) (by simp) (by simp)) hl.sound rfl

/-- A retry of a row that something has touched is told so. -/
theorem requeue_misses (hl : l.Sound) (hrow : l.txn s t = some x')
    (htouched : isUntouched x x' = false) :
    (alone (M := platform S) i (atOnce :: atOnce :: cs) (requeue t x) l s).map Prod.fst
      = some (.error (.remittance
          "This settlement changed while you were looking at it. Refresh and try again.")) := by
  have hseen : l.txn (s.tick S atOnce) t = some x' := hrow
  have hupdate : exec S i (.updateTxn t (isUntouched x) (retired x)) atOnce l s
      = some (.ok false, l, s.tick S atOnce) := by
    refine exec_atOnce ?_ hl.sound ?_
    · simp [permitted, hl.idle, hseen, htouched]
    · simp [perform, hseen, htouched]
  unfold requeue
  rw [bind_eq, alone_call hupdate, bind_eq, alone_call (exec_commit_atOnce hl)]
  exact congrArg (Option.map Prod.fst) alone_raise

/-- A retry of a row that nothing has touched puts it back in the queue. -/
theorem requeue_hits (hl : l.Sound) (hrow : l.txn s t = some x) (hlock : s.txnLock t = none) :
    (alone (M := platform S) i [atOnce, atOnce, atOnce, atOnce] (requeue t x) l s).map Prod.fst
      = some (.ok .requeued) := by
  have hseen : l.txn (s.tick S atOnce) t = some x := hrow
  have hfree : freeFor (s.tick S atOnce).txnLock i t = true := by
    show (s.txnLock t).all _ = true
    rw [hlock]
    rfl
  have huntouched : isUntouched x x = true := by simp [isUntouched]
  have hupdate := exec_atOnce (S := S) (i := i) (o := .updateTxn t (isUntouched x) (retired x))
    (s := s) (l := l) (by simp [permitted, hl.idle, hseen, retired]) hl.sound
    (by simp only [perform, hseen, huntouched, hfree, if_true]; rfl)
  generalize hw : l.writeTxn (s.tick S atOnce).clock t (some x)
    (retired x (s.tick S atOnce).clock x) = l₁ at hupdate
  generalize ({ s.tick S atOnce with txnLock := _ } : World) = s₁ at hupdate
  have hl₁ : l₁.Sound := by
    subst hw
    exact ⟨hl.sound, by simp [Session.writeTxn, retired, hl.idle]⟩
  have hl₂ : l₁.committed.Sound := ⟨hl₁.sound, hl₁.idle⟩
  generalize hs₂ : (s₁.tick S atOnce).commit i l₁ = s₂
  have hrefresh : exec S i .refresh atOnce l₁.committed s₂
      = some (.ok (), l₁.committed, s₂.tick S atOnce) :=
    exec_atOnce (hl₂.permitted (by simp) (by simp) (by simp)) hl₂.sound rfl
  generalize s₂.tick S atOnce = s₃ at hrefresh
  have henqueue := exec_atOnce (S := S) (i := i) (o := .enqueue (.settle t)) (s := s₃)
    (hl₂.permitted (by simp) (by simp) (by simp)) hl₂.sound rfl
  unfold requeue
  rw [bind_eq, alone_call hupdate, bind_eq, alone_call (exec_commit_atOnce hl₁), hs₂]
  rw [if_pos rfl, bind_eq, alone_call hrefresh]
  -- the publish answers, and the program has returned
  show (((exec S i (.enqueue (.settle t)) atOnce l₁.committed s₃).bind _).map Prod.fst) = _
  rw [henqueue]
  rfl

/-- The ledger has every payment down as a failure. -/
def World.FailedOnLedger (s : World) : Prop :=
  ∀ h, s.ledger.lookup h = some (.other "tecPATH_DRY")

/-- As many calls as it takes to consult the ledger about the row. -/
def consulting (x : Txn) : List Choice := if x.xrplTxHash.isSome then [atOnce] else []

/-- What the ledger has down as a failure is queued again. -/
theorem reconcileOrRequeue_requeues (hl : l.Sound) (hview : l.view = none)
    (hs : s.FailedOnLedger) :
    ∃ (l' : Session) (s' : World), l'.Sound ∧ (∀ t, l'.txn s' t = l.txn s t) ∧
      s'.txnLock = s.txnLock ∧ ∀ cs,
        alone (M := platform S) i (consulting x ++ cs) (reconcileOrRequeue t x) l s
          = alone i cs (requeue t x) l' s' := by
  unfold consulting reconcileOrRequeue
  cases hhash : x.xrplTxHash with
  | none => exact ⟨l, s, hl, fun _ => rfl, rfl, fun cs => rfl⟩
  | some h =>
    have hfound : (l.consulted (s.tick S atOnce)).lookup h = some (.other "tecPATH_DRY") := by
      show (l.view.getD s.ledger).lookup h = _
      rw [hview]
      exact hs h
    -- the session once it has consulted the ledger
    let l' : Session :=
      { l with view := if S.oneLedgerView then some (l.consulted (s.tick S atOnce)) else none }
    have hlookup : exec S i (.lookup h) atOnce l s
        = some (.ok (some (.other "tecPATH_DRY")), l', s.tick S atOnce) := by
      refine exec_atOnce (hl.permitted (by simp) (by simp) (by simp)) hl.sound ?_
      show some (Except.ok ((l.consulted (s.tick S atOnce)).lookup h), _, _) = _
      rw [hfound]
    refine ⟨l', s.tick S atOnce, ⟨hl.sound, hl.idle⟩, fun _ => rfl, rfl, fun cs => ?_⟩
    unfold consultLedger
    simp only [Option.isSome_some, if_true, List.cons_append, List.nil_append, bind_eq,
      bind_assoc]
    rw [alone_call hlookup]
    rfl

/-- A retry that has loaded the row goes by its stamp. -/
theorem retry_differs (hx : x.settlementStatus = .failed) (hc : x.cashinStatus = .received)
    (hstamp : x.updatedAt ≠ T) (hflag : x.amlFlagged ≠ f) :
    ¬ ReviewOnly S t T x (reviewed f T x) := by
  intro h
  have hreviewed : reviewed f T x = flaggedAs f T x := if_neg hflag
  have htouched : isUntouched x (flaggedAs f T x) = false := by
    simp [isUntouched, flaggedAs, hx, Ne.symm hstamp]
  have hretry : retrySettlement t x = reconcileOrRequeue t x := by
    unfold retrySettlement retryable
    rw [hx, hc]
    rfl
  let s : World :=
    { World.initial T 0 (fun _ => true) with
      txns := update (fun _ => none) t (some x)
      ledger := ⟨0, fun _ => some (0, .other "tecPATH_DRY"), fun _ => true⟩ }
  have hl : (Session.start (.settlementRetry t)).Sound := ⟨rfl, rfl⟩
  have hrow : s.txns t = some x := by
    show update (fun _ => none) t (some x) t = some x
    simp
  obtain ⟨l₁, s₁, hl₁, htxn₁, hlock₁, hrun₁⟩ :=
    reconcileOrRequeue_requeues (S := S) (i := 0) (t := t) (x := x) (s := s) hl rfl (fun _ => rfl)
  obtain ⟨l₂, s₂, hl₂, htxn₂, hlock₂, hrun₂⟩ :=
    reconcileOrRequeue_requeues (S := S) (i := 0) (t := t) (x := x)
      (s := s.withTxn t (flaggedAs f T x)) hl rfl (fun _ => rfl)
  have hhit := requeue_hits (S := S) (i := 0) hl₁ ((htxn₁ t).trans hrow) (by rw [hlock₁]; rfl)
  have hmiss : (alone (M := platform S) 0 [atOnce, atOnce, atOnce, atOnce] (requeue t x) l₂
      s₂).map Prod.fst = _ := requeue_misses hl₂ ((htxn₂ t).trans withTxn_self) htouched
  -- the same retry, loaded before the review, in the two worlds
  have heffect := h.retry x (.inl rfl) 0 (.settlementRetry t)
    (consulting x ++ [atOnce, atOnce, atOnce, atOnce]) s hrow (Nat.le_refl T)
  rw [hreviewed, hretry, hrun₁, hrun₂] at heffect
  revert hhit hmiss heffect
  generalize alone (M := platform S) 0 _ (requeue t x) l₁ s₁ = m
  generalize alone (M := platform S) 0 _ (requeue t x) l₂ s₂ = m'
  intro hhit hmiss heffect
  cases heffect with
  | none => cases hhit
  | @some r r' hr =>
    have hr₁ : r.1 = .ok .requeued := Option.some.inj hhit
    have hr₂ := Option.some.inj hmiss
    rw [hr₁, hr₂] at hr
    exact hr.1

/-! ## §5. When a review is only a review. -/

variable {clock validated : Nat} {held : Nat → Bool} {k : Config (platform S)}

/-- **WHEN A REVIEW IS ONLY A REVIEW**: exactly if the flag is as it was, or the settlement of the
row has not begun or is over, or the row was last written at the very instant of the review. -/
theorem review_only (h : Reach (M := platform S) (World.initial clock validated held) k)
    (hx : k.world.txns t = some x) (hset : SetsFlag S t f T k.world s₁)
    (hx₁ : s₁.txns t = some x₁) :
    ReviewOnly S t T x x₁ ↔ x.amlFlagged = f ∨ x.updatedAt = T ∨
      x.settlementStatus = .notQueued ∨ x.settlementStatus = .completed := by
  have hw := World.Orderly.initial clock validated held
  have horderly := ((rules_kept S).reach hw h).world
  have hpaired := (horderly.lifecycle.txn t x hx).paired
  obtain rfl : reviewed f T x = x₁ := by
    rw [hset.stores hx, Function.update_self] at hx₁
    exact Option.some.inj hx₁
  constructor
  · intro honly
    by_cases hflag : x.amlFlagged = f
    · exact .inl hflag
    by_cases hstamp : x.updatedAt = T
    · exact .inr (.inl hstamp)
    cases hstatus : x.settlementStatus with
    | notQueued => exact .inr (.inr (.inl rfl))
    | completed => exact .inr (.inr (.inr rfl))
    -- the list of stuck settlements tells the rows apart
    | queued =>
      exact absurd honly (listed_differs (horderly.regular.txnIds t x hx) hx (.inl hstatus) hstamp
        hflag)
    | processing =>
      exact absurd honly (listed_differs (horderly.regular.txnIds t x hx) hx (.inr hstatus) hstamp
        hflag)
    -- and so does a retry, by the stamp that it compares
    | failed =>
      have hreceived : x.cashinStatus = .received := hpaired.mp (by rw [hstatus]; simp)
      exact absurd honly (retry_differs hstatus hreceived hstamp hflag)
  · intro hwhen
    exact .of_sameButFlag (reviewed_sameButFlag hwhen)

/-- Program 5 raises the flag of row 0, with nobody else moving. -/
def raisingFlag (s : World) : Option (Except Exn Unit × Session × World) :=
  alone (M := platform .usual) 5 [atOnce, atOnce, atOnce, atOnce] (setAmlFlag 0 true)
    (Session.start (.amlFlag 0 true)) s

theorem SetsFlag.of_raisingFlag {r : Except Exn Unit × Session × World}
    (h : raisingFlag s = some r) (hr : r.1.toOption = some ()) :
    SetsFlag .usual 0 true (s.clock + 2) s r.2.2 := by
  obtain ⟨a, l, s₁⟩ := r
  cases a with
  | error e => cases hr
  | ok a => exact ⟨5, _, l, h, rfl⟩

/-- A send that has not been paid for may be reviewed. -/
theorem review_only_sent :
    ∃ (k : Config (platform .usual)) (x x₁ : Txn) (s₁ : World) (T : Nat),
      Reach World.empty k ∧ k.world.txns 0 = some x ∧ x.amlFlagged = false ∧
      SetsFlag .usual 0 true T k.world s₁ ∧ s₁.txns 0 = some x₁ ∧
      ReviewOnly .usual 0 T x x₁ := by
  have hrun : ((Config.run (sending .usual 0 sendToTwo 2 fiveToTwo)
      (Config.initial World.empty)).bind (fun k => (raisingFlag k.world).map (fun r =>
        (r.1.toOption, (k.world.txns 0).map (fun x => (x.settlementStatus, x.amlFlagged))))))
      = some (some (), some (.notQueued, false)) := by decide +kernel
  obtain ⟨k, hk, hrun⟩ := Option.bind_eq_some_iff.mp hrun
  obtain ⟨r, hr, hread⟩ := Option.map_eq_some_iff.mp hrun
  obtain ⟨hok, hrow⟩ := Prod.mk.inj hread
  obtain ⟨x, hx, hread⟩ := Option.map_eq_some_iff.mp hrow
  obtain ⟨hstatus, hflag⟩ := Prod.mk.inj hread
  have hset := SetsFlag.of_raisingFlag hr hok
  have hx₁ : r.2.2.txns 0 = some (reviewed true (k.world.clock + 2) x) := by
    rw [hset.stores hx, Function.update_self]
  have hreach : Reach World.empty k := Reach.run .initial hk
  exact ⟨k, x, _, r.2.2, _, hreach, hx, hflag, hset, hx₁,
    (review_only hreach hx hset hx₁).mpr (.inr (.inr (.inl hstatus)))⟩

/-- A worker takes row 0 up and dies.  Nine minutes later the row is reviewed. -/
def dyingInHand : List (Label (platform .usual)) :=
  sending .usual 0 sendToTwo 2 fiveToTwo ++ confirming .usual 1 0
    ++ .start (.settle 0) :: steps .usual 2 2 ++ [.stop 2] ++ waiting .usual (seconds 540)

theorem review_hides_dead_worker :
    ¬ ∀ (k : Config (platform .usual)) (t T : Nat) (f : Bool) (x x₁ : Txn) (s₁ : World),
      Reach World.empty k → k.world.txns t = some x → SetsFlag .usual t f T k.world s₁ →
        s₁.txns t = some x₁ → ReviewOnly .usual t T x x₁ := by
  intro hall
  have hrun : ((Config.run dyingInHand (Config.initial World.empty)).bind (fun k =>
      (raisingFlag k.world).map (fun r => (r.1.toOption, decide (0 < k.world.nextId),
        (k.world.txns 0).map (fun x => (x.settlementStatus, x.amlFlagged,
          decide (x.updatedAt = k.world.clock + 2)))))))
      = some (some (), true, some (.processing, false, false)) := by decide +kernel
  obtain ⟨k, hk, hrun⟩ := Option.bind_eq_some_iff.mp hrun
  obtain ⟨r, hr, hread⟩ := Option.map_eq_some_iff.mp hrun
  simp only [Prod.mk.injEq] at hread
  obtain ⟨hok, hid, hrow⟩ := hread
  obtain ⟨x, hx, hread⟩ := Option.map_eq_some_iff.mp hrow
  simp only [Prod.mk.injEq] at hread
  obtain ⟨hstatus, hflag, hstamp⟩ := hread
  have hset := SetsFlag.of_raisingFlag hr hok
  have honly := hall k 0 _ true x _ r.2.2 (Reach.run .initial hk) hx hset
    (by rw [hset.stores hx, Function.update_self])
  exact listed_differs (of_decide_eq_true hid) hx (.inr hstatus) (of_decide_eq_false hstamp)
    (by rw [hflag]; simp) honly

end Orbyt
