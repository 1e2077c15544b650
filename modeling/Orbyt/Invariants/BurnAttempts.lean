/-
  Orbyt.Invariants.BurnAttempts — how often a burn is handed back

  A claim counts an attempt, and nothing takes one back, so that whoever hands a burn back has
  made one of its first claims, each of which is made once.  That bounds the retries even
  where workers are slow and a dead worker's claim is taken over.

  The typestate follows a worker from its claim to what it has read of the row.

  Main results:
    * `body_rerunning` — every program follows the typestate;
    * `rerun_tally`    — along every run, the retries published are within the permits.
-/
import Orbyt.Invariants.Lifecycle
import Orbyt.Lib.RetryLoop
import Orbyt.Lib.Typestate

namespace Orbyt

open Interleave
open Interleave.Prog
open RetryLoop
open Function (update)
open CashoutWorker (claimable claimed isApproved released remembered held maxAttempts retryDelays)

variable {S : Setting} {i k r n : Nat} {o : Op} {c : Choice} {l l' : Session} {s s' : World}
  {e : Entry} {q q' : CashOutRequest} {α : Type}

/-! ## §1. What a worker has come to. -/

inductive Grip where
  /-- Its claim is still to be made. -/
  | before
  /-- The claim has matched and is not committed. -/
  | hit
  | taken
  /-- The claimed row has been read, in this attempt. -/
  | read (attempts : Nat)
  /-- It hands nothing back any more. -/
  | finished
  deriving Repr, DecidableEq

structure Rerun where
  entry : Entry
  life : Life
  grip : Grip

def Rerun.initial : Entry → Rerun
  | .burn r => ⟨.burn r, .live, .before⟩
  | e => ⟨e, .live, .finished⟩

def Rerun.gripAfter (a : Rerun) : (o : Op) → Except Exn o.Res → Grip
  | .updateReq _ _ _, .ok true =>
      match a.grip with
      | .before => .hit
      | g => g
  | .commit, .ok _ =>
      match a.grip with
      | .hit => .taken
      | g => g
  | .selectReq r, .ok (some req) =>
      match a.grip with
      | .taken => if a.entry = .burn r then .read req.burnAttempts else .taken
      | g => g
  | .enqueueIn _ _, _ => .finished
  | _, _ => a.grip

def Rerun.next (a : Rerun) (o : Op) (r : Except Exn o.Res) : Rerun where
  entry := a.entry
  life := a.life.next o r
  grip := a.gripAfter o r

/-- The write leaves the number of attempts as it is. -/
def CountsNone (values : Nat → CashOutRequest → CashOutRequest) : Prop :=
  ∀ now x, (values now x).burnAttempts = x.burnAttempts

def Rerun.orderly (a : Rerun) : Op → Prop
  | .updateReq r _ values =>
      (a.grip = .before ∧ a.entry = .burn r ∧ values = claimed) ∨
        (a.grip ≠ .before ∧ CountsNone values)
  | .insertReq row => a.grip = .finished ∧ ∀ key now, (row key now).burnAttempts = 0
  | .enqueueIn delay (.burn r) => a.entry = .burn r ∧
      ∃ b, a.grip = .read b ∧ b < maxAttempts ∧ delay = retryDelays.getD (min (b - 1) 2) 0
  | .enqueueIn _ (.settle _) => a.grip = .finished
  | _ => True

/-- The publication of a retry of the burn of `r`. -/
def Op.reruns (r : Nat) : Op → Bool
  | .enqueueIn _ (.burn r') => r' == r
  | _ => false

/-- The claim is released before the retry is published. -/
def Rerun.allows (a : Rerun) (o : Op) : Prop :=
  match a.life with
  | .live => a.orderly o
  | .failed => ∀ r, o.reruns r = false
  | .void => True

def rerunning : Typestate calls Exn := ⟨Rerun, Rerun.allows, Rerun.next⟩

/-! ## §2. Every program follows it. -/

variable {a : Rerun} {g G : Grip} {p : Program α}

/-- A program of `e` has come to `g`, unless its session has failed. -/
structure Rerun.At (a : Rerun) (e : Entry) (g : Grip) : Prop where
  entry : a.entry = e
  grip : a.life = .live → a.grip = g

theorem Rerun.At.moves (ha : a.At e g) {r : Except Exn o.Res}
    (hg : a.entry = e → a.grip = g → a.gripAfter o r = G) : (a.next o r).At e G where
  entry := ha.entry
  grip := fun hl => hg ha.entry (ha.grip (Life.next_live hl))

theorem Rerun.At.allowed (ha : a.At e g) (hd : ∀ r, o.reruns r = false)
    (ho : a.entry = e → a.grip = g → a.orderly o) : a.allows o := by
  unfold Rerun.allows
  split
  next hl => exact ho ha.entry (ha.grip hl)
  next => exact hd
  next => trivial

/-- The calls of a worker past its claim, before it hands anything back. -/
def Op.CountsNone : Op → Prop
  | .updateReq _ _ values => Orbyt.CountsNone values
  | .insertReq _ | .enqueueIn _ _ => False
  | _ => True

theorem basic_countsNone : ∀ o : Op, o.isBasic = true → o.CountsNone := by
  intro o ho
  cases o <;> trivial

theorem Op.CountsNone.reruns (ho : o.CountsNone) (r : Nat) : o.reruns r = false := by
  cases o <;> first | rfl | exact ho.elim

theorem Rerun.gripAfter_select (a : Rerun) (r : Except Exn (Option CashOutRequest))
    (hg : a.grip ≠ .taken) : a.gripAfter (.selectReq k) r = a.grip := by
  cases r with
  | error e => rfl
  | ok found =>
    cases found with
    | none => rfl
    | some req =>
      cases hh : a.grip with
      | taken => exact absurd hh hg
      | before | hit | read n | finished => simp only [Rerun.gripAfter, hh]

/-- What such a call leaves as it is. -/
def Grip.Steady (g : Grip) : Prop := g = .finished ∨ ∃ b, g = .read b

theorem Op.CountsNone.stays (ho : o.CountsNone) (hs : g.Steady) (hg : a.grip = g)
    (r : Except Exn o.Res) : a.gripAfter o r = g := by
  cases o <;> first | exact ho.elim | skip
  case updateReq r' cond values =>
    cases r with
    | error e => exact hg
    | ok hit =>
      cases hit with
      | false => exact hg
      | true =>
        rcases hs with rfl | ⟨b, rfl⟩
        · simp only [Rerun.gripAfter, hg]
        · simp only [Rerun.gripAfter, hg]
  case commit =>
    cases r with
    | error e => exact hg
    | ok _ =>
      rcases hs with rfl | ⟨b, rfl⟩
      · simp only [Rerun.gripAfter, hg]
      · simp only [Rerun.gripAfter, hg]
  case selectReq r' =>
    refine (a.gripAfter_select r ?_).trans hg
    rw [hg]
    rcases hs with rfl | ⟨b, rfl⟩ <;> nofun
  all_goals exact hg

theorem Op.CountsNone.orderly (ho : o.CountsNone) (hs : g.Steady) (hg : a.grip = g) :
    a.orderly o := by
  cases o <;> first | exact ho.elim | trivial | skip
  refine .inr ⟨?_, ho⟩
  rw [hg]
  rcases hs with rfl | ⟨b, rfl⟩ <;> nofun

theorem countsNone_at (ho : o.CountsNone) (hs : g.Steady) (ha : a.At e g) :
    a.allows o ∧ ∀ r, (a.next o r).At e g :=
  ⟨ha.allowed ho.reruns fun _ hg => ho.orderly hs hg, fun r => ha.moves fun _ hg =>
    ho.stays hs hg r⟩

theorem countsNone_follows (hu : Uses Op.CountsNone p) (hs : g.Steady) (ha : a.At e g) :
    Follows rerunning (fun _ a' => a'.At e g) (fun _ a' => a'.At e g) p a :=
  Follows.of_uses (A := rerunning) (F := Op.CountsNone) (I := fun a => a.At e g)
    (fun _ _ ho ha => countsNone_at ho hs ha) hu ha

theorem countsNone_end (hu : Uses Op.CountsNone p) (hs : g.Steady) (ha : a.At e g) :
    FollowsEnd rerunning p a := (countsNone_follows hu hs ha).toEnd

/-! ### The worker. -/

section Worker

open CashoutWorker (failAndRestore completeBurn holdUnknown releaseClaim rememberSigned)

variable {req : CashOutRequest}

/-- The claimed row, once it is read. -/
theorem burnClaim_follows (ha : a.At (.burn r) .before) :
    Follows rerunning
      (fun found a' => ∀ req, found = some req → a'.At (.burn r) (.read req.burnAttempts))
      (fun _ _ => True) (CashoutWorker.claim r) a := by
  unfold CashoutWorker.claim
  refine Follows.call_bind (A := rerunning) ?_ (fun asked => ?_) fun _ => trivial
  · exact ha.allowed (fun _ => rfl) fun _ _ => trivial
  have hasked : (rerunning.next a .now (.ok asked)).At (.burn r) .before := ha.moves fun _ hg => hg
  refine Follows.call_bind (A := rerunning) ?_ (fun hit => ?_) fun _ => trivial
  · exact hasked.allowed (fun _ => rfl) fun he hg => .inl ⟨hg, he, rfl⟩
  cases hit with
  | false =>
    have hmissed := hasked.moves (o := .updateReq r (claimable asked) claimed) (r := .ok false)
      (G := .before) fun _ hg => hg
    refine Follows.call_bind (A := rerunning) ?_ (fun _ req hf => ?_) fun _ => trivial
    · exact hmissed.allowed (fun _ => rfl) fun _ _ => trivial
    · cases hf
  | true =>
    have hhit := hasked.moves (o := .updateReq r (claimable asked) claimed) (r := .ok true)
      (G := .hit) fun _ hg => by simp only [Rerun.gripAfter, hg]
    refine Follows.call_bind (A := rerunning) ?_ (fun _ => ?_) fun _ => trivial
    · exact hhit.allowed (fun _ => rfl) fun _ _ => trivial
    have htaken := hhit.moves (o := .commit) (r := .ok ()) (G := .taken)
      fun _ hg => by simp only [Rerun.gripAfter, hg]
    unfold CashoutWorker.reload
    refine Follows.bind (R := fun req (a' : Rerun) => a'.At (.burn r) (.read req.burnAttempts))
      ?_ fun req a' hread => ?_
    · refine Follows.call_bind (A := rerunning) ?_ (fun found => ?_) fun _ => trivial
      · exact htaken.allowed (fun _ => rfl) fun _ _ => trivial
      cases found with
      | none => exact trivial
      | some req => exact htaken.moves fun he hg => by simp only [Rerun.gripAfter, hg, he, if_true]
    · intro req' he
      cases he
      exact hread

theorem uses_failAndRestore_counts {reason : String} {txHash : Option Nat} :
    Uses Op.CountsNone (failAndRestore r req reason txHash) :=
  uses_failAndRestore basic_countsNone (fun _ _ => rfl) fun _ _ => trivial

theorem uses_holdUnknown_counts {reason : String} : Uses Op.CountsNone (holdUnknown r reason) :=
  uses_holdUnknown basic_countsNone fun _ _ _ => rfl

theorem burnToIssuer_follows {u amount b : Nat} {w : Wallet} (ha : a.At (.burn r) (.read b)) :
    Follows rerunning (fun _ a' => a'.At (.burn r) (.read b))
      (fun _ a' => a'.At (.burn r) (.read b))
      (XrplService.burnToIssuer r u w amount (rememberSigned r)) a :=
  countsNone_follows (uses_burnToIssuer basic_countsNone trivial (fun _ => trivial)
    (fun _ => trivial) fun _ => uses_burnRememberSigned basic_countsNone (fun _ _ => rfl)
      fun _ => trivial) (.inr ⟨b, rfl⟩) ha

/-- **HANDING BACK**: before the last attempt, once the claim is released. -/
theorem burnRetryOrFail_end {reason : String} (ha : a.At (.burn r) (.read req.burnAttempts)) :
    FollowsEnd rerunning (CashoutWorker.retryOrFail r req reason) a := by
  unfold CashoutWorker.retryOrFail
  split
  · exact countsNone_end (uses_bind uses_failAndRestore_counts fun _ => trivial) (.inr ⟨_, rfl⟩) ha
  next hleft =>
    have hlt : req.burnAttempts < maxAttempts := Nat.lt_of_not_le hleft
    unfold releaseClaim
    simp only [Prog.bind_eq, Prog.bind_assoc]
    obtain ⟨hallowed, hnext⟩ := countsNone_at (o := .updateReq r (fun _ => true) released)
      (fun _ _ => rfl) (.inr ⟨_, rfl⟩) ha
    refine Follows.call_bind (A := rerunning) hallowed (fun hit => ?_) fun _ => trivial
    obtain ⟨hallowed', hnext'⟩ := countsNone_at (o := .commit) trivial (.inr ⟨_, rfl⟩)
      (hnext (.ok hit))
    refine Follows.call_bind (A := rerunning) hallowed' (fun _ => ?_) fun _ => trivial
    refine Follows.call_bind (A := rerunning) ?_ (fun _ => trivial) fun _ => trivial
    have hreleased := hnext' (.ok ())
    show Rerun.allows _ _
    unfold Rerun.allows
    split
    next hlive => exact ⟨hreleased.entry, req.burnAttempts, hreleased.grip hlive, hlt, rfl⟩
    next hlife => exact absurd hlife (Life.answered rfl)
    · trivial

theorem processBurn_end (ha : a.At (.burn r) .before) :
    FollowsEnd rerunning (CashoutWorker.processBurn r) a := by
  unfold CashoutWorker.processBurn
  refine Follows.bind (burnClaim_follows ha) fun found a₁ hread => ?_
  cases found with
  | none => exact trivial
  | some req =>
    have ha₁ := hread req rfl
    obtain ⟨hallowed, hnext⟩ := countsNone_at (o := .selectWallet req.walletId) trivial
      (.inr ⟨_, rfl⟩) ha₁
    refine Follows.call_bind (A := rerunning) hallowed (fun found => ?_) fun _ => trivial
    have ha₂ := hnext (.ok found)
    cases found with
    | none =>
      exact countsNone_end (uses_bind uses_failAndRestore_counts fun _ => trivial)
        (.inr ⟨_, rfl⟩) ha₂
    | some w =>
      -- of the ways out only `retry_or_fail` hands the request back
      refine Follows.attempt_bind (A := rerunning) (burnToIssuer_follows ha₂) ?_ ?_
      · intro result a₃ ha₃
        show FollowsEnd rerunning (CashoutWorker.onResult r req result) a₃
        unfold CashoutWorker.onResult
        cases result.resolution with
        | succeeded =>
          exact countsNone_end (uses_bind (uses_completeBurn basic_countsNone fun _ _ _ => rfl)
            fun _ => trivial) (.inr ⟨_, rfl⟩) ha₃
        | notSubmitted => exact burnRetryOrFail_end ha₃
        | unknown =>
          exact countsNone_end (uses_bind uses_holdUnknown_counts fun _ => trivial)
            (.inr ⟨_, rfl⟩) ha₃
        | failed =>
          exact countsNone_end (uses_bind uses_failAndRestore_counts fun _ => trivial)
            (.inr ⟨_, rfl⟩) ha₃
      · intro exc a₃ ha₃
        show FollowsEnd rerunning (CashoutWorker.onException r req exc) a₃
        unfold CashoutWorker.onException
        split
        · exact countsNone_end (uses_bind uses_failAndRestore_counts fun _ => trivial)
            (.inr ⟨_, rfl⟩) ha₃
        · obtain ⟨hallowed, hnext⟩ := countsNone_at (o := .getSignedHash) trivial
            (.inr ⟨_, rfl⟩) ha₃
          refine Follows.call_bind (A := rerunning) hallowed (fun signed => ?_) fun _ => trivial
          have ha₄ := hnext (.ok signed)
          cases signed with
          | some h =>
            exact countsNone_end (uses_bind uses_holdUnknown_counts fun _ => trivial)
              (.inr ⟨_, rfl⟩) ha₄
          | none => exact burnRetryOrFail_end ha₄

end Worker

/-- Only a worker's claim counts an attempt. -/
theorem ReqUpdate.countsNone {cond : CashOutRequest → Bool}
    {values : Nat → CashOutRequest → CashOutRequest} (h : ReqUpdate e k cond values)
    (he : ∀ r, e ≠ .burn r) : CountsNone values := by
  cases h with
  | claim asked => exact absurd rfl (he k)
  | _ => exact fun _ _ => rfl

/-- The programs that burn nothing. -/
theorem body_finished (he : ∀ r, e ≠ .burn r) :
    FollowsEnd rerunning (body S e) ⟨e, .live, .finished⟩ := by
  have hu : Uses (fun o : Op => (e.may o ∧ o.isDelayed = false) ∨
      ∃ delay t, o = .enqueueIn delay (.settle t)) (body S e) := by
    refine body_uses_of S e (fun o hd ho => .inl ⟨ho, hd⟩) fun delay m hm => .inr ?_
    cases e with
    | settle t => exact ⟨delay, t, congrArg (Op.enqueueIn delay) hm⟩
    | burn r => exact absurd rfl (he r)
    | _ => exact hm.elim
  refine Follows.toEnd (Follows.of_uses (A := rerunning)
    (I := fun (a : Rerun) => a.At e .finished) (fun o a ho ha => ?_) hu ⟨rfl, fun _ => rfl⟩)
  rcases ho with ⟨ho, hd⟩ | ⟨delay, t, rfl⟩
  · cases o with
    | insertReq row =>
      obtain ⟨form, pricing, -, rfl⟩ := ho
      exact ⟨ha.allowed (fun _ => rfl) fun _ hg => ⟨hg, fun _ _ => rfl⟩,
        fun r => ha.moves fun _ hg => hg⟩
    | updateReq k cond values =>
      have hcounts : CountsNone values := ReqUpdate.countsNone ho he
      exact countsNone_at (o := .updateReq k cond values) hcounts (.inl rfl) ha
    | enqueueIn delay m => cases hd
    | _ => exact countsNone_at trivial (.inl rfl) ha
  · exact ⟨ha.allowed (fun _ => rfl) fun _ hg => hg, fun r => ha.moves fun _ _ => rfl⟩

/-- **EVERY PROGRAM** follows the typestate. -/
theorem body_rerunning (e : Entry) : FollowsEnd rerunning (body S e) (Rerun.initial e) := by
  cases e with
  | burn r => exact Follows.bind (processBurn_end ⟨rfl, fun _ => rfl⟩) fun _ _ _ => trivial
  | _ => exact body_finished nofun

/-! ## §3. What a program has come to holds. -/

/-- How often the burn has been claimed. -/
def attemptsOf : Option CashOutRequest → Nat
  | none => 0
  | some q => q.burnAttempts

/-- A worker that has claimed `r` holds a permit, or has made the last attempt. -/
def Grip.Means (r i : Nat) (holders : Finset Nat) (l : Session) (s : World) : Grip → Prop
  | .hit => ∃ q', l.reqWrites r = some q'
  | .taken => 1 ≤ attemptsOf (s.reqs r) ∧ (i ∈ holders ∨ maxAttempts ≤ attemptsOf (s.reqs r))
  | .read b => 1 ≤ b ∧ (i ∈ holders ∨ maxAttempts ≤ b)
  | .before | .finished => True

def Rerun.counting (a : Rerun) (r : Nat) : Nat :=
  if a.grip = .hit ∧ a.entry = .burn r then 1 else 0

structure Rerun.Means (r : Nat) (holders : Finset Nat) (i : Nat) (a : Rerun) (l : Session)
    (s : World) : Prop where
  life : a.life.Means l
  /-- Only a claim that is to be committed counts. -/
  writes : l.failed = false → ∀ q', l.reqWrites r = some q' →
    q'.burnAttempts = attemptsOf (s.reqs r) + a.counting r
  grip : l.failed = false → a.entry = .burn r → a.grip.Means r i holders l s

variable {holders holders' : Finset Nat}

theorem Rerun.Means.start (e : Entry) :
    (Rerun.initial e).Means r holders i (Session.start e) s where
  life := by cases e <;> rfl
  writes := fun _ q' hw => by cases hw
  grip := fun _ he => by
    cases e with
    | burn r => exact trivial
    | _ => cases he

/-- A row as the session reads it. -/
theorem Rerun.Means.reads (hm : a.Means r holders i l s) (hlive : l.failed = false)
    (hq : l.req s r = some q) : q.burnAttempts = attemptsOf (s.reqs r) + a.counting r := by
  rcases Session.req_cases hq with hw | ⟨hw, hst⟩
  · exact hm.writes hlive q hw
  · -- a claim that has matched is a write
    have hzero : a.counting r = 0 := by
      refine if_neg fun hhit => ?_
      obtain ⟨hg, he⟩ := hhit
      have hgrip := hm.grip hlive he
      rw [hg] at hgrip
      obtain ⟨q', hw'⟩ := hgrip
      rw [hw] at hw'
      cases hw'
    rw [hst, hzero]
    rfl

def Grip.isHit : Grip → Bool
  | .hit => true
  | _ => false

theorem Grip.ne_hit (h : g.isHit = false) : g ≠ .hit := by
  rintro rfl
  cases h

/-- Elsewhere nobody counts. -/
theorem Rerun.counting_eq_zero (hg : a.grip ≠ .hit) : a.counting r = 0 :=
  if_neg fun h => hg h.1

/-- **COMMIT** counts the claim that it stores, and nothing else does. -/
theorem attempts_commit (hm : a.Means r holders i l s) (hlive : l.failed = false) :
    attemptsOf (((s.tick S c).commit i l).reqs r) =
      attemptsOf (s.reqs r) + if (l.reqWrites r).isSome then a.counting r else 0 := by
  show attemptsOf ((l.reqWrites r).or (s.reqs r)) = _
  cases hw : l.reqWrites r with
  | none => rfl
  | some q' => exact hm.writes hlive q' hw

/-- What others do leaves a worker its permit, and takes no attempt back. -/
theorem Rerun.Means.of_others (hm : a.Means r holders i l s) (hl : l.Locked i s)
    (ho : Others i s s') (hle : attemptsOf (s.reqs r) ≤ attemptsOf (s'.reqs r))
    (hh : i ∈ holders → i ∈ holders') : a.Means r holders' i l s' where
  life := hm.life
  writes := fun hlive q' hw => by
    obtain ⟨-, hr, -⟩ := ho.reqLock r (hl.reqs r q' hw).1
    rw [hr]
    exact hm.writes hlive q' hw
  grip := fun hlive he => by
    have hgrip := hm.grip hlive he
    cases hg : a.grip with
    | hit =>
      rw [hg] at hgrip
      exact hgrip
    | taken =>
      rw [hg] at hgrip
      exact ⟨Nat.le_trans hgrip.1 hle, hgrip.2.imp hh fun hlast => Nat.le_trans hlast hle⟩
    | read b =>
      rw [hg] at hgrip
      exact ⟨hgrip.1, hgrip.2.imp hh id⟩
    | before | finished => trivial

/-- A call that counts nothing and moves no worker on. -/
theorem Rerun.Means.stays {a' : Rerun} (hm : a.Means r holders i l s) (hlife : a'.life.Means l')
    (he : a'.entry = a.entry) (hg : a'.grip = a.grip) (hlive : l'.failed = false → l.failed = false)
    (hr : s'.reqs = s.reqs) (hh : i ∈ holders → i ∈ holders')
    (hw : l'.failed = false → ∀ q', l'.reqWrites r = some q' →
      q'.burnAttempts = attemptsOf (s.reqs r) + a.counting r)
    (hhit : (∃ q', l.reqWrites r = some q') → ∃ q', l'.reqWrites r = some q') :
    a'.Means r holders' i l' s' where
  life := hlife
  writes := fun hf q' hw' => by
    have hcount : a'.counting r = a.counting r := by
      unfold Rerun.counting
      rw [he, hg]
    rw [hr, hcount]
    exact hw hf q' hw'
  grip := fun hf he' => by
    have hgrip := hm.grip (hlive hf) (he ▸ he')
    rw [hg]
    cases hg' : a.grip with
    | hit =>
      rw [hg'] at hgrip
      exact hhit hgrip
    | taken =>
      rw [hg'] at hgrip
      show _ ∧ _
      rw [hr]
      exact ⟨hgrip.1, hgrip.2.imp hh id⟩
    | read b =>
      rw [hg'] at hgrip
      exact ⟨hgrip.1, hgrip.2.imp hh id⟩
    | before | finished => trivial

/-- A call that writes no request. -/
theorem Rerun.Means.same {a' : Rerun} (hm : a.Means r holders i l s) (hlife : a'.life.Means l')
    (he : a'.entry = a.entry) (hg : a'.grip = a.grip) (hlive : l'.failed = false → l.failed = false)
    (hw : l'.reqWrites = l.reqWrites) (hr : s'.reqs = s.reqs) (hh : i ∈ holders → i ∈ holders') :
    a'.Means r holders' i l' s' := by
  refine hm.stays hlife he hg hlive hr hh (fun hf q' hw' => ?_) ?_
  · rw [hw] at hw'
    exact hm.writes (hlive hf) q' hw'
  · rw [hw]
    exact id

section Call

variable {res : Except Exn o.Res} (hm : a.Means r holders i l s) (hlive : l.failed = false)

include hm hlive

theorem updateReq_rerun {cond : CashOutRequest → Bool}
    {values : Nat → CashOutRequest → CashOutRequest}
    {res : Except Exn Bool} (ho : a.orderly (.updateReq k cond values))
    (hx : exec S i (.updateReq k cond values) c l s = some (res, l', s'))
    (hlive' : l'.failed = false)
    (hh : i ∈ holders → i ∈ holders') :
    (a.next (.updateReq k cond values) res).Means r holders' i l' s' := by
  have hr : s'.reqs = s.reqs :=
    (exec_uncommitted (o := .updateReq k cond values) (by intro hc; cases hc) hx).reqs
  have hlife := hm.life.next hx
  rcases exec_updateReq hx with ⟨-, hf, -⟩ | ⟨rfl, rfl, -⟩ | ⟨q, rfl, -, hq, -, rfl, -⟩
  · rw [hlive'] at hf
    cases hf
  · exact hm.same hlife rfl rfl (fun _ => hlive) rfl hr hh
  rcases ho with ⟨hg, he, rfl⟩ | ⟨hg, hcounts⟩
  · -- the claim
    have hhit : (a.next (.updateReq k cond claimed) (.ok true)).grip = .hit := by
      simp only [Rerun.next, Rerun.gripAfter, hg]
    refine ⟨hlife, fun _ q' hw => ?_, fun _ he' => ?_⟩
    · show q'.burnAttempts = attemptsOf (s'.reqs r) + _
      rw [hr]
      by_cases hk : r = k
      · subst hk
        obtain rfl : claimed s'.clock q = q' := by simpa [Session.writeReq] using hw
        have hcount : (a.next (.updateReq r cond claimed) (.ok true)).counting r = 1 :=
          if_pos ⟨hhit, he⟩
        have hq' := hm.reads hlive hq
        -- before its claim this worker has added nothing
        have hzero : a.counting r = 0 := Rerun.counting_eq_zero (by rw [hg]; exact Grip.ne_hit rfl)
        rw [hcount, ← Nat.add_zero (attemptsOf _), ← hzero, ← hq']
        rfl
      · have hw' : l.reqWrites r = some q' := by simpa [Session.writeReq, update, hk] using hw
        -- a claim on another request adds nothing to this one
        have hne : ∀ b : Rerun, b.entry = a.entry → b.counting r = 0 := by
          intro b hb
          refine if_neg fun h => hk ?_
          rw [hb, he] at h
          exact (Entry.burn.inj h.2).symm
        have hcount := hm.writes hlive q' hw'
        rw [hne a rfl] at hcount
        rw [hne (a.next (.updateReq k cond claimed) (.ok true)) rfl]
        exact hcount
    · rw [hhit]
      have hk : k = r := by
        have he'' : a.entry = .burn r := he'
        rw [he] at he''
        exact Entry.burn.inj he''
      subst hk
      exact ⟨_, Function.update_self _ _ _⟩
  · -- any other UPDATE
    have hsame : (a.next (.updateReq k cond values) (.ok true)).grip = a.grip := by
      cases hg' : a.grip with
      | before => exact absurd hg' hg
      | hit | taken | read b | finished => simp only [Rerun.next, Rerun.gripAfter, hg']
    refine hm.stays hlife rfl hsame (fun _ => hlive) hr hh (fun _ q' hw => ?_) ?_
    · by_cases hk : r = k
      · subst hk
        obtain rfl : values s'.clock q = q' := by simpa [Session.writeReq] using hw
        exact (hcounts _ _).trans (hm.reads hlive hq)
      · exact hm.writes hlive q' (by simpa [Session.writeReq, update, hk] using hw)
    · intro hw
      by_cases hk : r = k
      · subst hk
        exact ⟨_, Function.update_self _ _ _⟩
      · obtain ⟨q', hw⟩ := hw
        exact ⟨q', by simpa [Session.writeReq, update, hk] using hw⟩

theorem insertReq_rerun {row : Nat → Nat → CashOutRequest} {res : Except Exn Nat}
    (ho : a.orderly (.insertReq row))
    (hx : exec S i (.insertReq row) c l s = some (res, l', s')) (hlive' : l'.failed = false)
    (hh : i ∈ holders → i ∈ holders') :
    (a.next (.insertReq row) res).Means r holders' i l' s' := by
  have hr : s'.reqs = s.reqs :=
    (exec_uncommitted (o := .insertReq row) (by intro hc; cases hc) hx).reqs
  have hlife := hm.life.next hx
  rcases exec_insertReq hx with ⟨-, hf, -⟩ | ⟨rfl, -, hnone, rfl, -⟩
  · rw [hlive'] at hf
    cases hf
  obtain ⟨hg, hnew⟩ := ho
  obtain ⟨-, hst⟩ := Option.or_eq_none_iff.mp
    (show (l.reqWrites s.nextId).or (s.reqs s.nextId) = none from hnone)
  refine hm.stays hlife rfl rfl (fun _ => hlive) hr hh (fun _ q' hw => ?_) ?_
  · by_cases hk : r = s.nextId
    · subst hk
      obtain rfl : row s.nextId s'.clock = q' := by simpa [Session.writeReq] using hw
      rw [hst, Rerun.counting_eq_zero (by rw [hg]; exact Grip.ne_hit rfl)]
      exact hnew _ _
    · exact hm.writes hlive q' (by simpa [Session.writeReq, update, hk] using hw)
  · intro hw
    by_cases hk : r = s.nextId
    · subst hk
      exact ⟨_, Function.update_self _ _ _⟩
    · obtain ⟨q', hw⟩ := hw
      exact ⟨q', by simpa [Session.writeReq, update, hk] using hw⟩

/-- The row that the worker reads carries the number of its claim, or a later one. -/
theorem selectReq_rerun {res : Except Exn (Option CashOutRequest)}
    (hx : exec S i (.selectReq k) c l s = some (res, l', s'))
    (hh : i ∈ holders → i ∈ holders') :
    (a.next (.selectReq k) res).Means r holders' i l' s' := by
  have hr : s'.reqs = s.reqs :=
    (exec_uncommitted (o := .selectReq k) (by intro hc; cases hc) hx).reqs
  have hw := (exec_sameReqs (o := .selectReq k) rfl hx).1
  have hlife := hm.life.next hx
  have hstays : (a.gripAfter (.selectReq k) res) = a.grip →
      (a.next (.selectReq k) res).Means r holders' i l' s' := fun hg =>
    hm.same hlife rfl hg (fun _ => hlive) hw hr hh
  by_cases hg : a.grip = .taken
  swap
  · exact hstays (a.gripAfter_select res hg)
  rcases exec_selectReq hx with ⟨e, rfl⟩ | ⟨rfl, rfl, rfl⟩
  · exact hstays rfl
  cases hq : l'.req s k with
  | none =>
    rw [hq] at hstays
    exact hstays rfl
  | some q =>
    by_cases he : a.entry = .burn k
    swap
    · rw [hq] at hstays
      exact hstays (by simp only [Rerun.gripAfter, hg, if_neg he])
    have hread : (a.next (.selectReq k) (.ok (some q))).grip = .read q.burnAttempts := by
      simp only [Rerun.next, Rerun.gripAfter, hg, if_pos he]
    have hzero : a.counting r = 0 := Rerun.counting_eq_zero (by rw [hg]; exact Grip.ne_hit rfl)
    rw [hq] at hlife
    refine ⟨hlife, fun _ q' hw' => ?_, fun _ he' => ?_⟩
    · rw [Rerun.counting_eq_zero (by rw [hread]; exact Grip.ne_hit rfl), ← hzero]
      exact hm.writes hlive q' hw'
    · rw [hread]
      obtain rfl : k = r := by
        have he'' : a.entry = .burn r := he'
        rw [he] at he''
        exact Entry.burn.inj he''
      have hgrip := hm.grip hlive he
      rw [hg] at hgrip
      have hcount := hm.reads hlive hq
      rw [hzero, Nat.add_zero] at hcount
      show _ ∧ _
      rw [hcount]
      exact ⟨hgrip.1, hgrip.2.imp hh id⟩

/-- **COMMIT**: whoever has stored a claim holds a permit, or has made the last attempt. -/
theorem commit_rerun {res : Except Exn Unit}
    (hx : exec S i .commit c l s = some (res, l', s')) (hlive' : l'.failed = false)
    (hh : i ∈ holders → i ∈ holders')
    (hgain : a.grip = .hit → a.entry = .burn r →
      i ∈ holders' ∨ maxAttempts ≤ attemptsOf (s'.reqs r)) :
    (a.next .commit res).Means r holders' i l' s' := by
  have hlife := hm.life.next hx
  rcases exec_commit hx with ⟨-, rfl, -⟩ | ⟨-, rfl, ⟨rfl, rfl⟩ | ⟨-, rfl⟩⟩
  · simp [Session.fail, Op.isStatement] at hlive'
  swap
  · simp [Session.fail, Op.isStatement] at hlive'
  have hcommit := attempts_commit (S := S) (c := c) hm hlive
  refine ⟨hlife, (fun _ q' hw => by cases hw), fun _ he => ?_⟩
  have he' : a.entry = .burn r := he
  have hgrip := hm.grip hlive he'
  have hafter : a.grip ≠ .hit → (a.next .commit (.ok ())).grip = a.grip := by
    intro hg
    cases hg' : a.grip with
    | hit => exact absurd hg' hg
    | before | taken | read b | finished => simp only [Rerun.next, Rerun.gripAfter, hg']
  cases hg : a.grip with
  | hit =>
    rw [hg] at hgrip
    obtain ⟨q', hq'⟩ := hgrip
    have htaken : (a.next .commit (.ok ())).grip = .taken := by
      simp only [Rerun.next, Rerun.gripAfter, hg]
    -- the claim adds one, so that a permit was there for it or this was the last attempt
    have hone : a.counting r = 1 := if_pos ⟨hg, he'⟩
    rw [htaken]
    refine ⟨?_, hgain hg he'⟩
    rw [hcommit, hq', hone]
    exact Nat.le_add_left 1 _
  | taken =>
    rw [hg] at hgrip
    rw [hafter (by rw [hg]; exact Grip.ne_hit rfl), hg]
    have hle : attemptsOf (s.reqs r) ≤ attemptsOf (((s.tick S c).commit i l).reqs r) := by
      rw [hcommit]
      exact Nat.le_add_right _ _
    exact ⟨Nat.le_trans hgrip.1 hle, hgrip.2.imp hh fun hlast => Nat.le_trans hlast hle⟩
  | read b =>
    rw [hg] at hgrip
    rw [hafter (by rw [hg]; exact Grip.ne_hit rfl), hg]
    exact ⟨hgrip.1, hgrip.2.imp hh id⟩
  | before | finished =>
    rw [hafter (by rw [hg]; exact Grip.ne_hit rfl), hg]
    trivial

end Call

/-- **ONE CALL** of a worker: it keeps its permit unless it hands back, and gets one for a claim. -/
theorem Rerun.Means.call {res : Except Exn o.Res} (hm : a.Means r holders i l s)
    (ha : a.allows o) (hx : exec S i o c l s = some (res, l', s'))
    (hh : o.reruns r = false → i ∈ holders → i ∈ holders')
    (hgain : o = .commit → l.failed = false → l'.failed = false → a.grip = .hit →
      a.entry = .burn r → i ∈ holders' ∨ maxAttempts ≤ attemptsOf (s'.reqs r)) :
    (a.next o res).Means r holders' i l' s' := by
  have hlife := hm.life.next hx
  cases hlive' : l'.failed with
  | true =>
    -- a failed session stores nothing, so that nothing is asked of it
    have hdead : l'.failed ≠ false := by
      rw [hlive']
      nofun
    exact ⟨hlife, fun hf => absurd hf hdead, fun hf => absurd hf hdead⟩
  | false =>
    have hlive : l.failed = false := by
      cases hf : l.failed with
      | false => rfl
      | true =>
        rw [exec_staysFailed hf hx] at hlive'
        cases hlive'
    have hord : a.orderly o := by
      unfold Rerun.allows at ha
      rw [hm.life.live hlive] at ha
      exact ha
    have hr : o ≠ .commit → s'.reqs = s.reqs := fun ho => (exec_uncommitted ho hx).reqs
    cases o with
    | commit => exact commit_rerun hm hlive hx hlive' (hh rfl) (hgain rfl hlive hlive')
    | updateReq k cond values => exact updateReq_rerun hm hlive hord hx hlive' (hh rfl)
    | insertReq row => exact insertReq_rerun hm hlive hord hx hlive' (hh rfl)
    | selectReq k => exact selectReq_rerun hm hlive hx (hh rfl)
    | enqueueIn delay m =>
      have hw := (exec_sameReqs (o := .enqueueIn delay m) rfl hx).1
      have hfinished : (a.next (.enqueueIn delay m) res).grip = .finished := rfl
      refine ⟨hlife, fun _ q' hw' => ?_, fun _ _ => by rw [hfinished]; trivial⟩
      -- it hands back with its claim stored, so that nothing of it is still to be counted
      have hzero : a.counting r = 0 := by
        refine Rerun.counting_eq_zero ?_
        cases m with
        | settle t =>
          rw [show a.grip = .finished from hord]
          nofun
        | burn r' =>
          obtain ⟨-, b, hg, -⟩ := hord
          rw [hg]
          nofun
      rw [hr nofun, Rerun.counting_eq_zero (by rw [hfinished]; nofun), ← hzero]
      rw [hw] at hw'
      exact hm.writes hlive q' hw'
    | _ =>
      refine hm.same hlife rfl rfl (fun _ => hlive) ?_ (hr nofun) (hh rfl)
      exact (exec_sameReqs rfl hx).1

/-- No call takes an attempt back. -/
theorem attempts_call {res : Except Exn o.Res} (hm : a.Means r holders i l s)
    (hx : exec S i o c l s = some (res, l', s')) :
    attemptsOf (s.reqs r) ≤ attemptsOf (s'.reqs r) := by
  by_cases ho : o = .commit
  · subst ho
    rcases exec_commit hx with ⟨-, -, rfl⟩ | ⟨hlive, rfl, -⟩
    · exact Nat.le_refl _
    · rw [attempts_commit hm hlive]
      exact Nat.le_add_right _ _
  · rw [show s'.reqs = s.reqs from (exec_uncommitted ho hx).reqs]

/-- A claim that is stored is one more attempt. -/
theorem attempts_claim {res : Except Exn Unit} (hm : a.Means r holders i l s)
    (hx : exec S i .commit c l s = some (res, l', s')) (hlive : l.failed = false)
    (hlive' : l'.failed = false) (hg : a.grip = .hit) (he : a.entry = .burn r) :
    attemptsOf (s'.reqs r) = attemptsOf (s.reqs r) + 1 := by
  have hgrip := hm.grip hlive he
  rw [hg] at hgrip
  obtain ⟨q', hq'⟩ := hgrip
  rcases exec_commit hx with ⟨-, rfl, -⟩ | ⟨-, rfl, -⟩
  · simp [Session.fail, Op.isStatement] at hlive'
  · rw [attempts_commit hm hlive, hq']
    have hone : a.counting r = 1 := if_pos ⟨hg, he⟩
    rw [hone]
    rfl

/-- Whoever publishes a retry holds a permit for it, and the delay is that of an attempt. -/
theorem Rerun.Means.permit (hm : a.Means r holders i l s) (ha : a.allows o)
    (ho : o.reruns r = true) : i ∈ holders ∧ ∃ b, 1 ≤ b ∧ b < maxAttempts ∧
      o = .enqueueIn (retryDelays.getD (min (b - 1) 2) 0) (.burn r) := by
  cases o with
  | enqueueIn delay m =>
    cases m with
    | settle t => cases ho
    | burn r' =>
      obtain rfl : r' = r := by simpa [Op.reruns] using ho
      have hmeans := hm.life
      unfold Rerun.allows at ha
      cases hl : a.life with
      | failed =>
        rw [hl] at ha
        rw [ha r'] at ho
        cases ho
      | void =>
        rw [hl] at hmeans
        exact hmeans.elim
      | live =>
        rw [hl] at ha hmeans
        obtain ⟨he, b, hg, hlt, rfl⟩ := ha
        have hgrip := hm.grip hmeans he
        rw [hg] at hgrip
        exact ⟨hgrip.2.resolve_right (Nat.not_le_of_lt hlt), b, hgrip.1, hlt, rfl⟩
  | _ => cases ho

/-! ## §4. Along a run. -/

/-- The call that a program is about to make, if it is not over. -/
def nextCall {β : Type} : Program β → Option Op
  | .op o _ => some o
  | .ret _ | .raise _ => none

/-- The step publishes a retry of the burn of `r`. -/
def rerunsBurn (r : Nat) (k : Config (platform S)) : Label (platform S) → Bool
  | .call i _ => ((k.threads i).bind fun th => nextCall th.rest).any (Op.reruns r)
  | _ => false

variable {w : World} {c₁ c₂ : Config (platform S)} {lab : Label (platform S)}

theorem rerunsBurn_call {i : Nat} {ch : Choice} {f : Except Exn o.Res → Program Unit}
    (hth : c₁.threads i = some ⟨l, .op o f⟩) :
    rerunsBurn r c₁ (.call i ch) = o.reruns r := by
  simp [rerunsBurn, hth, nextCall]

/-- Every worker that has claimed `r` holds a permit or has made the last attempt. -/
structure Permitted (r n : Nat) (holders : Finset Nat) (c : Config (platform S)) : Prop where
  threads : rerunning.Holds (M := platform S) (fun _ => True) (Rerun.Means r holders) c
  permits : Permits maxAttempts (attemptsOf (c.world.reqs r)) n holders

/-- Whatever state its program has come to, the call that the step makes leads to the next. -/
def Carries (r : Nat) (holders holders' : Finset Nat) (c : Config (platform S))
    (lab : Label (platform S)) : Prop :=
  ∀ i ch l (o : Op) f res l' s' (a : Rerun), lab = .call i ch →
    c.threads i = some ⟨l, .op o f⟩ → exec S i o ch l c.world = some (res, l', s') →
    a.allows o → a.Means r holders i l c.world → (a.next o res).Means r holders' i l' s'

/-- The permits that a step leaves, from what it is for whoever makes it and for the others. -/
theorem permitted_of {n' : Nat} (hD : (rules S).Holds c₁)
    (hmoves : ∀ j, lab.party ≠ some j → (rules S).moves j c₁.world c₂.world)
    (h : Permitted r n holders c₁) (hs : c₁.step lab = some c₂)
    (hpermits : Permits maxAttempts (attemptsOf (c₂.world.reqs r)) n' holders')
    (hle : attemptsOf (c₁.world.reqs r) ≤ attemptsOf (c₂.world.reqs r))
    (hothers : ∀ j, lab.party ≠ some j → j ∈ holders → j ∈ holders')
    (hcall : Carries r holders holders' c₁ lab) : Permitted r n' holders' c₂ where
  threads := h.threads.step hs trivial (fun e _ => ⟨Rerun.initial e, body_rerunning e, .start e⟩)
    (fun i ch l o f res l' s' a he hth hx _ => hcall i ch l o f res l' s' a he hth hx)
    fun j _ _ hj hth hm => hm.of_others (hD.session j _ hth).locked (hmoves j hj).others hle
      (hothers j hj)
  permits := hpermits

/-- A step that is no call stores nothing. -/
theorem permitted_quiet (hD : (rules S).Holds c₁)
    (hmoves : ∀ j, lab.party ≠ some j → (rules S).moves j c₁.world c₂.world)
    (h : Permitted r n holders c₁) (hs : c₁.step lab = some c₂)
    (hr : c₂.world.reqs = c₁.world.reqs) (hlab : ∀ i ch, lab ≠ .call i ch) :
    ∃ holders', Permitted r (n + (rerunsBurn r c₁ lab).toNat) holders' c₂ := by
  have hnone : rerunsBurn r c₁ lab = false := by
    cases lab with
    | call i ch => exact absurd rfl (hlab i ch)
    | _ => rfl
  refine ⟨holders, permitted_of hD hmoves h hs ?_ (by rw [hr]) (fun _ _ hj => hj)
    fun i ch _ _ _ _ _ _ _ he => absurd he (hlab i ch)⟩
  rw [hr, hnone]
  exact h.permits

/-- **ONE STEP**: a claim adds a permit, and a retry uses one up. -/
theorem permitted_step (hD : (rules S).Holds c₁)
    (hmoves : ∀ j, lab.party ≠ some j → (rules S).moves j c₁.world c₂.world)
    (h : Permitted r n holders c₁) (hs : c₁.step lab = some c₂) :
    ∃ holders', Permitted r (n + (rerunsBurn r c₁ lab).toNat) holders' c₂ := by
  cases lab with
  | start e =>
    refine permitted_quiet hD hmoves h hs ?_ (fun _ _ he => by cases he)
    injection hs with hs
    subst hs
    rfl
  | stop j =>
    refine permitted_quiet hD hmoves h hs ?_ (fun _ _ he => by cases he)
    obtain ⟨_, _, rfl⟩ := Option.map_eq_some_iff.mp hs
    rfl
  | env v =>
    refine permitted_quiet hD hmoves h hs ?_ (fun _ _ he => by cases he)
    obtain ⟨w', hv, rfl⟩ := Option.map_eq_some_iff.mp hs
    show w'.reqs = _
    rw [(env_eq hv).1]
  | call i ch =>
    obtain ⟨l, o, f, res, l', s', hth, hx, hc⟩ := Config.step_call hs
    have hworld : c₂.world = s' := by rw [hc]
    replace hx : exec S i o ch l c₁.world = some (res, l', s') := hx
    rw [rerunsBurn_call hth]
    obtain ⟨a, ⟨ha, -⟩, hm⟩ := h.threads.threads i _ hth
    have hle : attemptsOf (c₁.world.reqs r) ≤ attemptsOf (c₂.world.reqs r) := by
      rw [hworld]
      exact attempts_call hm hx
    -- the call, whatever state its program has come to
    have hcall : ∀ holders' : Finset Nat, (o.reruns r = false → i ∈ holders → i ∈ holders') →
        (attemptsOf (s'.reqs r) = attemptsOf (c₁.world.reqs r) + 1 →
          i ∈ holders' ∨ maxAttempts ≤ attemptsOf (s'.reqs r)) →
        Carries r holders holders' c₁ (.call i ch) := by
      intro holders' hkeep hgain i' ch' l₁ o' f' res' l₂ s₂ b he hth' hx' hb hmb
      cases he
      rw [hth] at hth'
      cases hth'
      rw [hx] at hx'
      cases hx'
      refine hmb.call hb hx hkeep fun ho hlive hlive' hg hentry => hgain ?_
      subst ho
      exact attempts_claim hmb hx hlive hlive' hg hentry
    cases ho : o.reruns r with
    | true =>
      obtain ⟨hi, b, -, -, rfl⟩ := hm.permit ha ho
      have hr : s'.reqs = c₁.world.reqs :=
        (exec_uncommitted (o := .enqueueIn _ (.burn r)) nofun hx).reqs
      refine ⟨holders.erase i, permitted_of hD hmoves h hs ?_ hle (fun j hj hmem => ?_)
        (hcall _ (fun hf => ?_) fun hclaim => ?_)⟩
      · rw [hworld, hr]
        exact h.permits.spend hi
      · exact Finset.mem_erase.mpr ⟨fun he => hj (congrArg some he.symm), hmem⟩
      · rw [ho] at hf
        cases hf
      · rw [hr] at hclaim
        omega
    | false =>
      by_cases hclaim : attemptsOf (s'.reqs r) = attemptsOf (c₁.world.reqs r) + 1
      · obtain ⟨holders', hpermits, hsub, hgain⟩ := h.permits.take i
        refine ⟨holders', permitted_of hD hmoves h hs ?_ hle (fun j _ hmem => hsub hmem)
          (hcall _ (fun _ hmem => hsub hmem) fun _ => ?_)⟩
        · rw [hworld, hclaim]
          exact hpermits
        · rw [hclaim]
          exact hgain
      · exact ⟨holders, permitted_of hD hmoves h hs (h.permits.mono hle) hle (fun _ _ hmem => hmem)
          (hcall _ (fun _ hmem => hmem) fun he => absurd he hclaim)⟩

/-- **THE RETRIES OF A BURN** are within the permits, along every run. -/
theorem rerun_tally (hw : w.Orderly) (h : Tally (M := platform S) (rerunsBurn r) w c₁ n) :
    ∃ holders, Permitted r n holders c₁ := by
  induction h with
  | initial =>
    exact ⟨∅, ⟨trivial, fun i th hi => by simp [Config.initial] at hi⟩, .start _ _⟩
  | step h hs ih =>
    obtain ⟨holders, hp⟩ := ih
    exact permitted_step ((rules_kept S).reach hw h.reach)
      (fun j hj => (rules_kept S).moves hw h.reach hs hj) hp hs

/-- A burn's worker publishes its retry with the delay of an attempt that is not the last. -/
theorem reruns_reach (hw : w.Orderly) (h : Reach (M := platform S) w c₁) {i delay : Nat}
    {f : Except Exn Unit → Program Unit}
    (hi : c₁.threads i = some ⟨l, .op (.enqueueIn delay (.burn r)) f⟩) :
    ∃ b, 1 ≤ b ∧ b < maxAttempts ∧ retryDelays[b - 1]? = some delay := by
  obtain ⟨n, hn⟩ := h.tally (rerunsBurn r)
  obtain ⟨holders, hp⟩ := rerun_tally hw hn
  obtain ⟨a, ⟨ha, -⟩, hm⟩ := hp.threads.threads i _ hi
  obtain ⟨-, b, hpos, hlt, ho⟩ := hm.permit ha (by simp [Op.reruns])
  obtain ⟨hdelay, -⟩ := Op.enqueueIn.inj ho
  have hb : b = 1 ∨ b = 2 := by
    have hlt' : b < 3 := hlt
    omega
  refine ⟨b, hpos, hlt, ?_⟩
  rw [hdelay]
  rcases hb with rfl | rfl <;> rfl

end Orbyt
