/-
  Orbyt.Invariants.LostClaims — workers whose claim on a row is gone

  A settlement row is under the claim of the worker that took it to `processing`, until
  somebody takes it out again.  A worker that is past its claim writes the row in two ways
  only: guarded by `processing`, or storing a signature, which is not guarded at all.

  Main results:
    * `claims_reach` — whoever has a row under its claim is past its claiming statement;
    * `Stray.step`   — a worker whose guards hold keeps nothing pending on a row it has lost,
      so that none of its steps changes it.
-/
import Orbyt.Invariants.Lifecycle

namespace Orbyt

open Interleave
open Interleave.Prog
open Function (update)
open SettlementWorker (claimable claimed isIn remembered onClaim)

variable {S : Setting} {i j t : Nat} {o : Op} {c : Choice} {l l' : Session} {s s' : World}
  {k k' : Config (platform S)}

/-! ## §1. Past the claim. -/

/-- What a worker past its claim of `t` may call, as far as it writes sends. -/
def Op.AfterClaim (t : Nat) : Op → Prop
  | .updateTxn t' cond values =>
      t' = t ∧ (cond = isIn [.processing] ∨ ∃ signed, values = remembered signed)
  | .updateTxns _ _ | .insertTxn _ => False
  | _ => True

theorem afterClaim_other (h : o.writesTxns = false) : o.AfterClaim t := by
  cases o <;> trivial

theorem afterClaim_plain : ∀ o : Op, o.isBasic = true → o.AfterClaim t := by
  intro o h
  cases o <;> trivial

/-- The claim is a worker's first call, and its last of that kind. -/
theorem body_settle (S : Setting) (t : Nat) :
    ∃ f, body S (.settle t) = .op (.updateTxn t claimable claimed) f ∧
      ∀ r, Uses (Op.AfterClaim t) (f r) := by
  refine ⟨_, rfl, fun r => ?_⟩
  have hrest : ∀ found, Uses (Op.AfterClaim t) (onClaim t found) :=
    uses_onClaim afterClaim_plain (fun _ _ => ⟨rfl, .inl rfl⟩) (fun _ => ⟨rfl, .inl rfl⟩)
      (fun _ => ⟨rfl, .inl rfl⟩) (fun signed => ⟨rfl, .inr ⟨signed, rfl⟩⟩)
      (fun _ ho _ _ => afterClaim_other ho) fun _ => trivial
  cases r with
  | error e => trivial
  | ok hit =>
    show Uses _ (discard (Prog.bind (do
      call .commit
      if hit = true then
        let txn ← SettlementWorker.reload t
        return some txn
      else return none) (onClaim t)))
    refine uses_discard (uses_bind ?_ hrest)
    refine uses_bind (uses_call trivial) fun _ => ?_
    split
    · refine uses_bind (uses_bind (uses_call trivial) fun found => ?_) fun _ => trivial
      cases found <;> trivial
    · trivial

/-- Only a claim takes a row to `processing`. -/
theorem TxnUpdate.takes {e : Entry} {cond : Txn → Bool} {values : Nat → Txn → Txn}
    (h : TxnUpdate e t cond values) {now : Nat} {x : Txn}
    (hp : (values now x).settlementStatus = .processing) :
    x.settlementStatus = .processing ∨ e = .settle t := by
  cases h with
  | claim | remember | complete | fail | requeue => exact .inr rfl
  | refuse | flag => exact .inl hp
  | receive | unpublished | reconcile | retire | unpublishedRetry => cases hp

/-- Where a program is, as far as claims on sends go. -/
structure Session.Placed (S : Setting) (l : Session) (p : Program Unit) (s : World) : Prop where
  uses : Uses l.entry.may p
  claim : ∀ t, l.entry = .settle t → Uses (Op.AfterClaim t) p ∨
    (p = body S (.settle t) ∧ ∀ t', l.txnWrites t' = none)
  takes : ∀ t x', l.txnWrites t = some x' → x'.settlementStatus = .processing →
    (∃ x, s.txns t = some x ∧ x.settlementStatus = .processing) ∨ l.entry = .settle t

theorem Session.Placed.start (e : Entry) : (Session.start e).Placed S (body S e) s where
  uses := body_uses S e
  claim := fun t he => .inr ⟨by rw [show e = .settle t from he], fun _ => rfl⟩
  takes := by intro t x' hx'; cases hx'

theorem Session.Placed.others {p : Program Unit} (h : l.Placed S p s) (hl : l.Locked i s)
    (ho : Others i s s') : l.Placed S p s' where
  uses := h.uses
  claim := h.claim
  takes := fun t x' hx' hp => by
    rw [(ho.txnLock t (hl.txns t x' hx').1).2.1]
    exact h.takes t x' hx' hp

/-- What a row is written over, when the session takes it to `processing`. -/
theorem Session.Placed.reads {p : Program Unit} (h : l.Placed S p s) {x : Txn}
    (hx : l.txn s t = some x) (hp : x.settlementStatus = .processing) :
    (∃ y, s.txns t = some y ∧ y.settlementStatus = .processing) ∨ l.entry = .settle t := by
  rcases Session.txn_cases hx with hw | ⟨-, ht⟩
  · exact h.takes t x hw hp
  · exact .inl ⟨x, ht, hp⟩

theorem Session.Placed.call {f : Except Exn o.Res → Program Unit}
    (h : l.Placed S (.op o f) s) {r : Except Exn o.Res}
    (hx : exec S i o c l s = some (r, l', s')) : l'.Placed S (f r) s' := by
  have hentry : l'.entry = l.entry := exec_sameEntry hx
  have hmay : l.entry.may o := h.uses.1
  refine ⟨by rw [hentry]; exact h.uses.2 r, fun t he => ?_, fun t x' hx' hp => ?_⟩
  · rcases h.claim t (hentry ▸ he) with hu | ⟨hbody, -⟩
    · exact .inl (hu.2 r)
    -- the first call of a worker is its claim; from there on it makes none
    · obtain ⟨g, hg, hu⟩ := body_settle S t
      rw [hg] at hbody
      cases hbody
      exact .inl (hu r)
  · rw [hentry]
    by_cases ho : o = .commit
    · subst ho
      rcases exec_commit hx with ⟨-, rfl, rfl⟩ | ⟨-, -, hl'⟩
      · exact h.takes t x' hx' hp
      · rcases hl' with ⟨-, rfl⟩ | ⟨-, rfl⟩ <;> cases hx'
    rw [(exec_uncommitted ho hx).txns]
    cases o with
    | updateTxn t' cond values =>
      rcases exec_updateTxn hx with ⟨-, -, rfl⟩ | ⟨-, rfl, -⟩ | ⟨x, -, -, hxt, -, rfl, -⟩
      · exact h.takes t x' hx' hp
      · exact h.takes t x' hx' hp
      · by_cases ht : t = t'
        · subst ht
          obtain rfl : values s'.clock x = x' := by simpa [Session.writeTxn] using hx'
          -- only a worker of this row makes it `processing`
          rcases TxnUpdate.takes hmay hp with hxp | he
          · exact h.reads hxt hxp
          · exact .inr he
        · exact h.takes t x' (by simpa [Session.writeTxn, update, ht] using hx') hp
    | updateTxns cond values =>
      obtain ⟨-, asked, -, rfl⟩ := hmay
      rcases exec_updateTxns hx with ⟨-, rfl⟩ | ⟨-, rfl, -⟩
      · exact h.takes t x' hx' hp
      · cases hmatch : l.matching (s.tick S c) cond t with
        | none => exact h.takes t x' (by simpa [Session.writeTxns, hmatch] using hx') hp
        | some x =>
          obtain rfl : CashinService.expired (s.tick S c).clock x = x' := by
            simpa [Session.writeTxns, hmatch] using hx'
          exact h.reads (matching_eq_some hmatch).2.1 hp
    | insertTxn row =>
      obtain ⟨form, recipientId, quote, last4, declined, -, rfl⟩ := hmay
      rcases exec_insertTxn hx with ⟨-, -, rfl⟩ | ⟨-, -, -, rfl, -⟩
      · exact h.takes t x' hx' hp
      · by_cases ht : t = s.nextId
        · subst ht
          have hnew : CashinService.newTransaction form recipientId quote last4 declined s.nextId
              s'.clock = x' := by simpa [Session.writeTxn] using hx'
          rw [← hnew] at hp
          cases hp
        · exact h.takes t x' (by simpa [Session.writeTxn, update, ht] using hx') hp
    | commit => exact absurd rfl ho
    | _ =>
      rw [(exec_sameTxns rfl hx).1] at hx'
      exact h.takes t x' hx' hp

/-- **WHERE EVERY PROGRAM IS**, in every reachable state. -/
theorem placed_stage (S : Setting) :
    (rules S).Stage (fun (_ : Nat) (l : Session) p (s : World) => l.Placed S p s) where
  start := fun e _ _ => .start e
  call := fun _ _ _ _ _ _ _ _ _ _ _ h hx => h.call hx
  moves := fun _ _ _ _ _ hl h hm => h.others hl.locked hm.others

theorem placed_reach {w : World} (hw : w.Orderly) (h : Reach (M := platform S) w k)
    {th : Thread (platform S)} (hi : k.threads i = some th) :
    th.session.Placed S th.rest k.world := (placed_stage S).reach (rules_kept S) hw h hi

/-! ## §2. Whose claim a row is under. -/

/-- A row comes under a claim by the commit of the program whose claim it is. -/
theorem exec_txnOwner {r : Except Exn o.Res} (hx : exec S i o c l s = some (r, l', s')) {T : Nat}
    (h : s'.txnOwner t = some (j, T)) : s.txnOwner t = some (j, T) ∨
      (j = i ∧ ∃ x', l.txnWrites t = some x' ∧ x'.settlementStatus = .processing ∧
        (s.txns t).map (·.settlementStatus) ≠ some .processing) := by
  by_cases ho : o = .commit
  · subst ho
    rcases exec_commit hx with ⟨-, -, rfl⟩ | ⟨-, rfl, -⟩
    · exact .inl h
    cases hw : l.txnWrites t with
    | none =>
      rw [commit_txnOwner hw] at h
      exact .inl h
    | some x' =>
      rw [commit_txnOwner_written hw] at h
      unfold ownerAfter at h
      split at h
      next hp =>
        split at h
        · exact .inl h
        next hnew =>
          cases h
          exact .inr ⟨rfl, x', rfl, hp, hnew⟩
      · cases h
  · rw [(exec_uncommitted ho hx).txnOwner] at h
    exact .inl h

/-- Whoever has a row under its claim is a worker of that row, past its claiming call. -/
structure Config.Claims (k : Config (platform S)) : Prop where
  born : ∀ t i T, k.world.txnOwner t = some (i, T) → i < k.world.nextTid
  working : ∀ t i T th, k.world.txnOwner t = some (i, T) → k.threads i = some th →
    th.session.entry = .settle t ∧ Uses (Op.AfterClaim t) th.rest

theorem Config.Claims.step {lab : Label (platform S)} (h : Orbyt.Config.Claims k)
    (hr : (rules S).Holds k)
    (hp : ∀ i th, k.threads i = some th → th.session.Placed S th.rest k.world)
    (hs : k.step lab = some k') : Orbyt.Config.Claims k' := by
  cases lab with
  | start e =>
    cases hs
    refine ⟨fun t i T ho => Nat.lt_succ_of_lt (h.born t i T ho), fun t i T th ho hi => ?_⟩
    -- an owner was born before, so that the new thread is not it
    have hne : i ≠ k.world.nextTid := Nat.ne_of_lt (h.born t i T ho)
    exact h.working t i T th ho (by simpa [update, hne] using hi)
  | call j ch =>
    obtain ⟨l, o, f, r, l', s', hth, hx, rfl⟩ := Config.step_call hs
    have hplaced := hp j _ hth
    have hlocked := (hr.session j _ hth).locked
    have htid : k.world.nextTid ≤ s'.nextTid :=
      (exec_others hlocked hx (Nat.succ_ne_self j)).nextTid
    have hthread : ∀ i th, update k.threads j (some ⟨l', f r⟩) i = some th →
        (i = j ∧ th = ⟨l', f r⟩) ∨ (i ≠ j ∧ k.threads i = some th) := by
      intro i th hi
      by_cases hij : i = j
      · subst hij
        exact .inl ⟨rfl, by simpa [update] using hi.symm⟩
      · exact .inr ⟨hij, by simpa [update, hij] using hi⟩
    constructor
    · intro t i T ho
      rcases exec_txnOwner hx ho with hold | ⟨rfl, -⟩
      · exact Nat.lt_of_lt_of_le (h.born t i T hold) htid
      · exact Nat.lt_of_lt_of_le hlocked.born htid
    · intro t i T th ho hi
      rcases exec_txnOwner hx ho with hold | ⟨rfl, x', hw, hproc, hnot⟩
      -- the owner is an old one: it stays at its program, whoever made this call
      · rcases hthread i th hi with ⟨rfl, rfl⟩ | ⟨-, hold'⟩
        · obtain ⟨he, hu⟩ := h.working t i T _ hold hth
          exact ⟨(exec_sameEntry hx).trans he, hu.2 r⟩
        · exact h.working t i T th hold hold'
      · rcases hthread i th hi with ⟨-, rfl⟩ | ⟨hne, -⟩
        · -- the claim is committed: it was written by a worker of this row, by its first call
          have he : l.entry = .settle t := by
            rcases hplaced.takes t x' hw hproc with ⟨x, hxs, hxp⟩ | he
            · rw [hxs] at hnot
              exact absurd (congrArg some hxp) hnot
            · exact he
          rcases hplaced.claim t he with hu | ⟨-, hnone⟩
          · exact ⟨(exec_sameEntry hx).trans he, hu.2 r⟩
          · rw [show l.txnWrites t = none from hnone t] at hw
            cases hw
        · exact absurd rfl hne
  | stop j =>
    obtain ⟨_, _, rfl⟩ := Option.map_eq_some_iff.mp hs
    refine ⟨h.born, fun t i T th ho hi => ?_⟩
    by_cases hij : i = j
    · simp [update, hij] at hi
    · exact h.working t i T th ho (by simpa [update, hij] using hi)
  | env v =>
    obtain ⟨s', hv, rfl⟩ := Option.map_eq_some_iff.mp hs
    obtain ⟨he, -, -⟩ := env_eq hv
    have howner : s'.txnOwner = k.world.txnOwner := by rw [he]
    have htid : s'.nextTid = k.world.nextTid := by rw [he]
    refine ⟨fun t i T ho => ?_, fun t i T th ho hi => h.working t i T th (howner ▸ ho) hi⟩
    rw [show (⟨s', k.threads⟩ : Config (platform S)).world.nextTid = k.world.nextTid from htid]
    exact h.born t i T (howner ▸ ho)

theorem claims_reach {w : World} (hw : w.Orderly) (hn : ∀ t, w.txnOwner t = none)
    (h : Reach (M := platform S) w k) : Orbyt.Config.Claims k := by
  induction h with
  | initial =>
    have hfree : ∀ t i T, (Config.initial (M := platform S) w).world.txnOwner t ≠ some (i, T) := by
      intro t i T ho
      have hnone : w.txnOwner t = some (i, T) := ho
      rw [hn t] at hnone
      cases hnone
    exact ⟨fun t i T ho => absurd ho (hfree t i T), fun t i T _ ho => absurd ho (hfree t i T)⟩
  | step hr hs ih =>
    exact ih.step ((rules_kept S).reach hw hr) (fun i th hi => placed_reach hw hr hi) hs

/-! ## §3. Workers that have lost a row. -/

/-- What a step must not be for the record of row `t` to be safe from program `i`: an UPDATE
that `i` makes when the row is no longer under its claim, and that either stores a signature
or finds the row `processing`, under the claim of another worker. -/
def Fenced (i t : Nat) (k : Config (platform S)) (lab : Label (platform S)) : Prop :=
  ∀ ch l cond values f, lab = .call i ch →
    k.threads i = some ⟨l, .op (.updateTxn t cond values) f⟩ →
    (∀ T, k.world.txnOwner t ≠ some (i, T)) →
      (∀ signed, values ≠ remembered signed) ∧
        ∀ x, k.world.txns t = some x → x.settlementStatus ≠ .processing

/-- A worker past its claim of `t` has the row in its hands, or writes nothing to it. -/
structure Stray (i t : Nat) (k : Config (platform S)) : Prop where
  born : i < k.world.nextTid
  thread : ∀ th, k.threads i = some th → th.session.entry = .settle t ∧
    Uses (Op.AfterClaim t) th.rest ∧
      ((∃ T, k.world.txnOwner t = some (i, T)) ∨ th.session.txnWrites t = none)

/-- A worker's own call past its claim: what it writes, it writes to a row in its hands. -/
theorem stray_call {ch : Choice} {f : Except Exn o.Res → Program Unit} {r : Except Exn o.Res}
    (hth : k.threads i = some ⟨l, .op o f⟩) (hu : o.AfterClaim t)
    (hown : (∃ T, k.world.txnOwner t = some (i, T)) ∨ l.txnWrites t = none)
    (hok : Fenced i t k (.call i ch)) (hx : exec S i o ch l k.world = some (r, l', s')) :
    (∃ T, s'.txnOwner t = some (i, T)) ∨ l'.txnWrites t = none := by
  by_cases ho : o = .commit
  · subst ho
    rcases exec_commit hx with ⟨-, rfl, rfl⟩ | ⟨-, -, hl'⟩
    · exact hown
    · rcases hl' with ⟨-, rfl⟩ | ⟨-, rfl⟩ <;> exact .inr rfl
  have howner : s'.txnOwner = k.world.txnOwner := (exec_uncommitted ho hx).txnOwner
  rw [howner]
  rcases hown with hmine | hnone
  · exact .inl hmine
  by_cases hmine : ∃ T, k.world.txnOwner t = some (i, T)
  · exact .inl hmine
  refine .inr ?_
  cases o with
  | updateTxn t' cond values =>
    obtain ⟨rfl, hcond⟩ := hu
    obtain ⟨hsigned, hleft⟩ := hok ch l cond values f rfl hth fun T hT => hmine ⟨T, hT⟩
    rcases exec_updateTxn hx with ⟨-, -, rfl⟩ | ⟨-, rfl, -⟩ | ⟨x, -, -, hxt, hc, -, -⟩
    · exact hnone
    · exact hnone
    · -- the UPDATE would have to match a row that has left `processing`
      rcases hcond with rfl | ⟨signed, rfl⟩
      · rcases Session.txn_cases hxt with hw | ⟨-, hs⟩
        · rw [hnone] at hw
          cases hw
        · have hp : x.settlementStatus = .processing := by simpa using isIn_iff.mp hc
          exact absurd hp (hleft x hs)
      · exact absurd rfl (hsigned signed)
  | updateTxns cond values => exact hu.elim
  | insertTxn row => exact hu.elim
  | commit => exact absurd rfl ho
  | _ =>
    rw [(exec_sameTxns rfl hx).1]
    exact hnone

/-- One step, whoever takes it. -/
theorem Stray.step {lab : Label (platform S)} (h : Stray i t k) (hr : (rules S).Holds k)
    (hok : Fenced i t k lab) (hs : k.step lab = some k') : Stray i t k' := by
  cases lab with
  | start e =>
    cases hs
    refine ⟨Nat.lt_succ_of_lt h.born, fun th hi => h.thread th ?_⟩
    have hne : i ≠ k.world.nextTid := Nat.ne_of_lt h.born
    simpa [update, hne] using hi
  | call j ch =>
    obtain ⟨l, o, f, r, l', s', hth, hx, rfl⟩ := Config.step_call hs
    have hlocked := (hr.session j _ hth).locked
    have htid : k.world.nextTid ≤ s'.nextTid :=
      (exec_others hlocked hx (Nat.succ_ne_self j)).nextTid
    refine ⟨Nat.lt_of_lt_of_le h.born htid, fun th hi => ?_⟩
    by_cases hij : i = j
    · subst hij
      obtain rfl : _ = th := by simpa [update] using hi
      obtain ⟨he, hu, hown⟩ := h.thread _ hth
      exact ⟨(exec_sameEntry hx).trans he, hu.2 r, stray_call hth hu.1 hown hok hx⟩
    · obtain ⟨he, hu, hown⟩ := h.thread th (by simpa [update, hij] using hi)
      refine ⟨he, hu, ?_⟩
      cases hw : th.session.txnWrites t with
      | none => exact .inr rfl
      | some x' =>
        -- the row is locked, so it has not changed hands
        have hth' : k.threads i = some th := by simpa [update, hij] using hi
        have hlock := ((hr.session i th hth').locked.txns t x' hw).1
        have howner := ((exec_others hlocked hx hij).txnLock t hlock).2.2.2.2
        rw [hw] at hown
        obtain ⟨T, hT⟩ := hown.resolve_right (by simp)
        exact .inl ⟨T, howner.trans hT⟩
  | stop j =>
    obtain ⟨_, _, rfl⟩ := Option.map_eq_some_iff.mp hs
    refine ⟨h.born, fun th hi => ?_⟩
    by_cases hij : i = j
    · simp [update, hij] at hi
    · exact h.thread th (by simpa [update, hij] using hi)
  | env v =>
    obtain ⟨s', hv, rfl⟩ := Option.map_eq_some_iff.mp hs
    obtain ⟨he, -, -⟩ := env_eq hv
    have howner : s'.txnOwner = k.world.txnOwner := by rw [he]
    have htid : s'.nextTid = k.world.nextTid := by rw [he]
    refine ⟨Nat.lt_of_lt_of_eq h.born htid.symm, fun th hi => ?_⟩
    show _ ∧ _ ∧ ((∃ T, s'.txnOwner t = some (i, T)) ∨ _)
    rw [howner]
    exact h.thread th hi

/-- **A COURSE OF FENCED STEPS** from a claim on. -/
theorem Stray.course {w : World} (hw : w.Orderly) (hr : Reach (M := platform S) w k)
    (h : Stray i t k) (hc : Course (Fenced i t) k k') : Stray i t k' := by
  induction hc with
  | refl => exact h
  | step hc' hok hs ih => exact ih.step ((rules_kept S).reach hw (hc'.reach hr)) hok hs

/-- A worker that writes nothing to a row does not change it. -/
theorem Stray.keeps {lab : Label (platform S)} (h : Stray i t k)
    (hlost : ∀ T, k.world.txnOwner t ≠ some (i, T)) (hi : lab.party = some i)
    (hs : k.step lab = some k') : k'.world.txns t = k.world.txns t := by
  cases lab with
  | start e => cases hi
  | env v => cases hi
  | stop j =>
    obtain ⟨_, _, rfl⟩ := Option.map_eq_some_iff.mp hs
    rfl
  | call j ch =>
    obtain rfl : j = i := Option.some.inj hi
    obtain ⟨l, o, f, r, l', s', hth, hx, rfl⟩ := Config.step_call hs
    obtain ⟨-, -, hown⟩ := h.thread _ hth
    have hnone : l.txnWrites t = none := hown.resolve_left fun ⟨T, hT⟩ => hlost T hT
    show s'.txns t = k.world.txns t
    by_cases ho : o = .commit
    · subst ho
      rcases exec_commit hx with ⟨-, -, rfl⟩ | ⟨-, rfl, -⟩
      · rfl
      · show (l.txnWrites t).or (k.world.txns t) = _
        rw [hnone]
        rfl
    · rw [(exec_uncommitted ho hx).txns]
      rfl

end Orbyt
