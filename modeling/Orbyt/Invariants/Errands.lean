/-
  Orbyt.Invariants.Errands — what a worker has submitted, and what it may do then

  A worker is sent to submit one transaction: the payment of a settlement, or the burn of a
  cash-out.  Whether it may hand its row back, complete it or restore the reserve depends on
  what has become of that submission: it was never handed over, it is on its way, or the
  client library has answered.

  Nothing is assumed of a run: workers may be slow, rows may change hands, and any call may
  raise whatever it can raise.

  Main results:
    * `body_errands`    — every program follows the typestate;
    * `errands_reach`   — in every reachable state what each program has come to holds, and
      whatever was rejected as malformed had been handed over.
-/
import Orbyt.Invariants.Lifecycle
import Orbyt.Lib.Typestate
import Orbyt.Rules.Evidence

namespace Orbyt

open Interleave
open Interleave.Prog

variable {S : Setting} {i j t r : Nat} {o : Op} {c : Choice} {l l' : Session} {s s' : World}
  {e : Entry} {α : Type}

/-! ## §1. The errand of a worker. -/

/-- What has become of the transaction that a worker is sent to submit. -/
inductive Sent where
  | nothing
  | handed (h : Nat)
  | told (h : Nat) (answer : Except Exn TxCode)

structure Errand where
  entry : Entry
  /-- The worker's `nonlocal signed_hash`. -/
  signed : Option Nat
  /-- The last blob handed over, until its outcome is known. -/
  pending : Option Nat
  sent : Sent
  /-- A call has answered what none answers. -/
  void : Bool

def Errand.initial (e : Entry) : Errand := ⟨e, none, none, .nothing, false⟩

/-- A TrustSet is signed on the way only. -/
def Purpose.isErrand : Purpose → Bool
  | .payment _ | .burn _ => true
  | .trustSet _ _ => false

/-- An answer proves that nothing moved, and nothing will. -/
def refuses : Except Exn TxCode → Prop
  | .ok code => code ≠ .tesSUCCESS
  | .error e => (XrplService.classify e).1 = .failed

def Sent.Harmless (a : Sent) : Prop :=
  a = .nothing ∨ ∃ h answer, a = .told h answer ∧ refuses answer

def Sent.Succeeded (a : Sent) : Prop := ∃ h, a = .told h (.ok .tesSUCCESS)

/-- The calls whose answers are known, and the exception that no call raises. -/
def Errand.credible (a : Errand) : (o : Op) → Except Exn o.Res → Bool
  | .getSignedHash, .ok h => h == a.signed
  | .getSignedHash, .error _ | .setSignedHash _, .error _ | .handOver _ _, .error _ => false
  | _, .error (.invalidAmount _) => false
  | _, _ => true

def Sent.hear (a : Sent) (h : Nat) (answer : Except Exn TxCode) : Sent :=
  match a with
  | .handed h' => if h' = h then .told h answer else .handed h'
  | a => a

def Errand.moved (a : Errand) : (o : Op) → Except Exn o.Res → Errand
  | .setSignedHash h, _ => { a with signed := some h }
  | .handOver purpose h, _ =>
      { a with pending := some h, sent := if purpose.isErrand then .handed h else a.sent }
  | .outcome h, answer => { a with pending := none, sent := a.sent.hear h answer }
  | _, _ => a

def Errand.next (a : Errand) (o : Op) (r : Except Exn o.Res) : Errand :=
  if a.credible o r then a.moved o r else { a with void := true }

/-! ### What it may do. -/

/-- The write can take a row that is not `queued` back to the queue. -/
def Requeues (values : Nat → Txn → Txn) : Prop :=
  ∃ now x, x.settlementStatus ≠ .queued ∧ (values now x).settlementStatus = .queued

def Settles (values : Nat → Txn → Txn) : Prop :=
  ∃ now x, x.settlementStatus ≠ .completed ∧ (values now x).settlementStatus = .completed

/-- The write can take a claim off a row. -/
def Unclaims (values : Nat → CashOutRequest → CashOutRequest) : Prop :=
  ∃ now q, q.burnStartedAt ≠ none ∧ (values now q).burnStartedAt = none

def Finishes (status : CashOutStatus) (values : Nat → CashOutRequest → CashOutRequest) : Prop :=
  ∃ now q, q.status = .approved ∧ (values now q).status = status

def Errand.orderly (a : Errand) : Op → Prop
  | .outcome h => a.pending = some h
  | .handOver purpose _ => purpose.isErrand = true → a.sent = .nothing ∧ a.entry.signs purpose
  | .updateTxn t _ values => a.entry = .settle t →
      (Requeues values → a.sent = .nothing) ∧ (Settles values → a.sent.Succeeded)
  | .setBalance _ _ (.credit t) => a.entry = .settle t → a.sent.Succeeded
  | .updateReq r _ values => a.entry = .burn r →
      (Unclaims values → a.sent = .nothing) ∧ (Finishes .completed values → a.sent.Succeeded) ∧
        (Finishes .failed values → a.sent.Harmless)
  | .setBalance _ _ (.restore r) => a.entry = .burn r → a.sent.Harmless
  | .enqueueIn _ _ => a.sent = .nothing
  | _ => True

def errands : Typestate calls Exn := ⟨Errand, fun a o => a.void = false → a.orderly o, Errand.next⟩

/-! ## §2. Programs. -/

variable {a : Errand} {P P' : Errand → Prop} {p : Program α}

/-- A program of `e` has come to a state in `P`. -/
structure Errand.Is (a : Errand) (e : Entry) (P : Errand → Prop) : Prop where
  entry : a.entry = e
  state : a.void = false → P a

theorem Errand.Is.mono (ha : a.Is e P) (h : ∀ a : Errand, a.entry = e → P a → P' a) : a.Is e P' :=
  ⟨ha.entry, fun hv => h a ha.entry (ha.state hv)⟩

theorem Errand.moved_entry (a : Errand) (o : Op) (r : Except Exn o.Res) :
    (a.moved o r).entry = a.entry := by
  cases o <;> rfl

theorem Errand.moved_void (a : Errand) (o : Op) (r : Except Exn o.Res) :
    (a.moved o r).void = a.void := by
  cases o <;> rfl

theorem Errand.Is.moves {r : Except Exn o.Res} (ha : a.Is e P)
    (h : a.credible o r = true → P a → P' (a.moved o r)) : (a.next o r).Is e P' := by
  unfold Errand.next
  split
  next hc =>
    refine ⟨(a.moved_entry o r).trans ha.entry, fun hv => h hc (ha.state ?_)⟩
    rw [← a.moved_void o r]
    exact hv
  next => exact ⟨ha.entry, fun hv => by cases hv⟩

/-- After an answer that no call gives there is nothing to show. -/
theorem Errand.Is.incredible {r : Except Exn o.Res} (ha : a.Is e P) (h : a.credible o r = false) :
    (a.next o r).Is e P' :=
  ha.moves fun hc _ => by rw [h] at hc; cases hc

theorem Errand.Is.allowed (ha : a.Is e P) (h : a.entry = e → P a → a.orderly o) :
    errands.allows a o := fun hv => h ha.entry (ha.state hv)

/-- A single call. -/
theorem errand_call {R : o.Res → Errand → Prop} {X : Exn → Errand → Prop}
    (ha : errands.allows a o) (hok : ∀ v, R v (a.next o (.ok v)))
    (herr : ∀ exc, X exc (a.next o (.error exc))) : Follows errands R X (call o) a := by
  refine ⟨ha, fun r => ?_⟩
  cases r with
  | ok v => exact hok v
  | error exc => exact herr exc

/-- In whatever state of `Q` what was sent is in, the call is in order and sends nothing. -/
def Op.Fits (e : Entry) (Q : Sent → Prop) (o : Op) : Prop :=
  ∀ a : Errand, a.entry = e → Q a.sent → a.orderly o ∧ ∀ r, (a.moved o r).sent = a.sent

variable {Q : Sent → Prop}

theorem basic_fits : ∀ o : Op, o.isBasic = true → o.Fits e Q := by
  intro o ho a _ _
  cases o <;> first | exact ⟨trivial, fun _ => rfl⟩ | cases ho

theorem Op.Fits.step (ho : o.Fits e Q) (ha : a.Is e fun a => Q a.sent) :
    errands.allows a o ∧ ∀ r, (a.next o r).Is e fun a => Q a.sent := by
  refine ⟨ha.allowed fun he hq => (ho a he hq).1, fun r => ha.moves fun _ hq => ?_⟩
  rw [(ho a ha.entry hq).2 r]
  exact hq

/-- A program all of whose calls fit. -/
theorem fits_follows (hu : Uses (Op.Fits e Q) p) (ha : a.Is e fun a => Q a.sent) :
    Follows errands (fun _ a' => a'.Is e fun a => Q a.sent) (fun _ a' => a'.Is e fun a => Q a.sent)
      p a :=
  Follows.of_uses (A := errands) (F := Op.Fits e Q) (I := fun a => a.Is e fun a => Q a.sent)
    (fun _ _ ho ha => ho.step ha) hu ha

theorem fits_end (hu : Uses (Op.Fits e Q) p) (ha : a.Is e fun a => Q a.sent) :
    FollowsEnd errands p a := (fits_follows hu ha).toEnd

/-- Such a program, then the rest. -/
theorem fits_bind_end {β : Type} {f : α → Program β} (hu : Uses (Op.Fits e Q) p)
    (ha : a.Is e fun a => Q a.sent)
    (hf : ∀ v (a' : Errand), a'.Is e (fun a => Q a.sent) → FollowsEnd errands (f v) a') :
    FollowsEnd errands (Prog.bind p f) a :=
  Follows.bind (A := errands) ((fits_follows hu ha).mono (fun _ _ h => h) fun _ _ _ => trivial) hf

/-- A single call that fits, then the rest. -/
theorem fits_bind {β : Type} {f : o.Res → Program β} {R : β → Errand → Prop}
    {X : Exn → Errand → Prop} (ho : o.Fits e Q) (ha : a.Is e fun a => Q a.sent)
    (hok : ∀ v, (a.next o (.ok v)).Is e (fun a => Q a.sent) → Follows errands R X (f v)
      (a.next o (.ok v)))
    (herr : ∀ exc, (a.next o (.error exc)).Is e (fun a => Q a.sent) →
      X exc (a.next o (.error exc))) :
    Follows errands R X (Prog.bind (call o) f) a :=
  Follows.call_bind (A := errands) (ho.step ha).1 (fun v => hok v ((ho.step ha).2 _))
    fun exc => herr exc ((ho.step ha).2 _)

/-! ### What the UPDATEs do to a status. -/

section Updates

variable {cond : Txn → Bool} {values : Nat → Txn → Txn} {condReq : CashOutRequest → Bool}
  {valuesReq : Nat → CashOutRequest → CashOutRequest}

theorem updateTxn_fits (hr : Requeues values → ∀ x, Q x → x = .nothing)
    (hs : Settles values → ∀ x, Q x → x.Succeeded) : (Op.updateTxn t cond values).Fits e Q :=
  fun _ _ hq => ⟨fun _ => ⟨fun h => hr h _ hq, fun h => hs h _ hq⟩, fun _ => rfl⟩

/-- An UPDATE to one status, or to none, takes a row to no other. -/
theorem not_requeues {b : SettlementStatus} (hst : b ≠ .queued)
    (h : ∀ now x, (values now x).settlementStatus = b ∨
      (values now x).settlementStatus = x.settlementStatus) : ¬ Requeues values := by
  rintro ⟨now, x, hne, he⟩
  rcases h now x with hv | hv
  · exact hst (hv.symm.trans he)
  · exact hne (hv.symm.trans he)

theorem not_settles {b : SettlementStatus} (hst : b ≠ .completed)
    (h : ∀ now x, (values now x).settlementStatus = b ∨
      (values now x).settlementStatus = x.settlementStatus) : ¬ Settles values := by
  rintro ⟨now, x, hne, he⟩
  rcases h now x with hv | hv
  · exact hst (hv.symm.trans he)
  · exact hne (hv.symm.trans he)

/-- An UPDATE that neither hands a settlement back nor completes it. -/
theorem steady_fits {b : SettlementStatus} (hq : b ≠ .queued) (hc : b ≠ .completed)
    (h : ∀ now x, (values now x).settlementStatus = b ∨
      (values now x).settlementStatus = x.settlementStatus) :
    (Op.updateTxn t cond values).Fits e Q :=
  updateTxn_fits (fun hr => absurd hr (not_requeues hq h)) fun hs => absurd hs (not_settles hc h)

theorem updateReq_fits (hu : Unclaims valuesReq → ∀ x, Q x → x = .nothing)
    (hc : Finishes .completed valuesReq → ∀ x, Q x → x.Succeeded)
    (hf : Finishes .failed valuesReq → ∀ x, Q x → x.Harmless) :
    (Op.updateReq r condReq valuesReq).Fits e Q :=
  fun _ _ hq => ⟨fun _ => ⟨fun h => hu h _ hq, fun h => hc h _ hq, fun h => hf h _ hq⟩,
    fun _ => rfl⟩

theorem not_unclaims (h : ∀ now q, (valuesReq now q).burnStartedAt.isSome = true ∨
    (valuesReq now q).burnStartedAt = q.burnStartedAt) : ¬ Unclaims valuesReq := by
  rintro ⟨now, q, hne, he⟩
  rcases h now q with hv | hv
  · rw [he] at hv
    cases hv
  · exact hne (hv.symm.trans he)

theorem not_finishes {a b : CashOutStatus} (hne : b ≠ a) (ha : a ≠ .approved)
    (h : ∀ now q, (valuesReq now q).status = b ∨ (valuesReq now q).status = q.status) :
    ¬ Finishes a valuesReq := by
  rintro ⟨now, q, hq, he⟩
  rcases h now q with hv | hv
  · exact hne (hv.symm.trans he)
  · exact ha (he.symm.trans (hv.trans hq))

/-- An UPDATE that takes no claim off a cash-out and does not finish it. -/
theorem steadyReq_fits
    (hstarted : ∀ now q, (valuesReq now q).burnStartedAt.isSome = true ∨
      (valuesReq now q).burnStartedAt = q.burnStartedAt)
    (h : ∀ now q, (valuesReq now q).status = q.status) :
    (Op.updateReq r condReq valuesReq).Fits e Q :=
  updateReq_fits (fun hu => absurd hu (not_unclaims hstarted))
    (fun hc => absurd hc (not_finishes (b := .requested) nofun nofun fun now q => .inr (h now q)))
    fun hf => absurd hf (not_finishes (b := .requested) nofun nofun fun now q => .inr (h now q))

end Updates

/-! ## §3. The submission. -/

/-- Nothing was sent, or the hash of what was sent is remembered. -/
def Errand.Escaped (exc : Exn) (a : Errand) : Prop :=
  (a.sent = .nothing ∨ a.signed ≠ none) ∧ ∀ text, exc = .invalidAmount text → a.sent = .nothing

/-- What a submission reports is what has become of it. -/
structure Errand.Reported (result : XrplService.XRPLResult) (a : Errand) : Prop where
  known : a.sent = .nothing ∨ a.signed ≠ none
  unsent : result.resolution = .notSubmitted → a.sent = .nothing
  succeeded : result.resolution = .succeeded → a.sent.Succeeded
  failed : result.resolution = .failed → a.sent.Harmless

def Errand.Unsent (a : Errand) : Prop := a.sent = .nothing

theorem Errand.Unsent.escaped {exc : Exn} (h : a.Unsent) : a.Escaped exc := ⟨.inl h, fun _ _ => h⟩

/-- The TrustSet of a recipient is no part of the errand. -/
theorem trustSet_follows {u : Nat} {tx : XRPLTransaction} (ha : a.Is e Errand.Unsent) :
    Follows errands (fun _ a' => a'.Is e Errand.Unsent) (fun _ a' => a'.Is e Errand.Unsent)
      (XrplService.submit (.trustSet t u) tx (fun _ => pure ()) none) a := by
  unfold XrplService.submit
  have hsign : (Op.autofillAndSign (.trustSet t u) tx).Fits e (· = .nothing) :=
    fun _ _ _ => ⟨trivial, fun _ => rfl⟩
  refine Follows.attempt_bind (A := errands)
    (R := fun _ a' => a'.Is e Errand.Unsent) (X := fun _ a' => a'.Is e Errand.Unsent)
    (errand_call (hsign.step ha).1 (fun _ => (hsign.step ha).2 _) fun _ => (hsign.step ha).2 _)
    (fun signed a₁ ha₁ => ?_) fun exc a₁ ha₁ => ?_
  · refine Follows.call_bind (A := errands) ?_ (fun _ => ?_) fun exc => ?_
    · exact ha₁.allowed fun _ _ he => by cases he
    · have hpending : (a₁.next (.handOver (.trustSet t u) signed.txHash) (.ok ())).Is e
          fun a => a.Unsent ∧ a.pending = some signed.txHash :=
        ha₁.moves fun _ hp => ⟨hp, rfl⟩
      refine Follows.attempt_bind (A := errands)
        (R := fun _ a' => a'.Is e Errand.Unsent) (X := fun _ a' => a'.Is e Errand.Unsent)
        (errand_call (hpending.allowed fun _ hp => hp.2) (fun code => ?_) fun exc => ?_)
        (fun code a₂ ha₂ => ha₂) fun exc a₂ ha₂ => ?_
      · exact hpending.moves fun _ hp => by
          show Sent.hear _ _ _ = .nothing
          rw [hp.1]
          rfl
      · exact hpending.moves fun _ hp => by
          show Sent.hear _ _ _ = .nothing
          rw [hp.1]
          rfl
      · cases exc with
        | xrpl reliable text => exact ha₂
        | _ => exact ha₂
    · exact ha₁.incredible (o := .handOver (.trustSet t u) signed.txHash) (r := .error exc) rfl
  · cases exc with
    | xrpl reliable text => exact ha₁
    | _ => exact ha₁

/-- **SIGN, STORE, SUBMIT**: what the result says is what has become of the transaction. -/
theorem submit_follows {purpose : Purpose} {tx : XRPLTransaction}
    {onSignedTx : SignedTx → Program Unit} {index : Option Nat} (hp : e.signs purpose)
    (he : purpose.isErrand = true) (ha : a.Is e Errand.Unsent)
    (hcb : ∀ signed (a : Errand), a.Is e Errand.Unsent →
      Follows errands (fun _ a' => a'.Is e fun a => a.Unsent ∧ a.signed ≠ none)
        (fun exc a' => a'.Is e (Errand.Escaped exc)) (onSignedTx signed) a) :
    Follows errands (fun result a' => a'.Is e (Errand.Reported result))
      (fun exc a' => a'.Is e (Errand.Escaped exc))
      (XrplService.submit purpose tx onSignedTx index) a := by
  unfold XrplService.submit
  have hsign : (Op.autofillAndSign purpose tx).Fits e (· = .nothing) :=
    fun _ _ _ => ⟨trivial, fun _ => rfl⟩
  refine Follows.attempt_bind (A := errands)
    (R := fun _ a' => a'.Is e Errand.Unsent) (X := fun _ a' => a'.Is e Errand.Unsent)
    (errand_call (hsign.step ha).1 (fun _ => (hsign.step ha).2 _) fun _ => (hsign.step ha).2 _)
    (fun signed a₁ ha₁ => ?_) fun exc a₁ ha₁ => ?_
  · refine Follows.bind (A := errands) (hcb _ a₁ ha₁) fun _ a₂ ha₂ => ?_
    refine Follows.call_bind (A := errands) ?_ (fun _ => ?_) fun exc =>
      ha₂.incredible (o := .handOver purpose signed.txHash) (r := .error exc) rfl
    · exact ha₂.allowed fun hentry hu _ => ⟨hu.1, hentry ▸ hp⟩
    -- from here on it may land, whatever the client library says
    have hhanded : (a₂.next (.handOver purpose signed.txHash) (.ok ())).Is e fun a =>
        a.sent = .handed signed.txHash ∧ a.signed ≠ none ∧ a.pending = some signed.txHash :=
      ha₂.moves fun _ hu => ⟨if_pos he, hu.2, rfl⟩
    refine Follows.attempt_bind (A := errands)
      (R := fun code a' => a'.Is e fun a => a.sent = .told signed.txHash (.ok code) ∧
        a.signed ≠ none)
      (X := fun exc a' => a'.Is e fun a => a.sent = .told signed.txHash (.error exc) ∧
        a.signed ≠ none ∧ ∀ text, exc ≠ .invalidAmount text)
      (errand_call (hhanded.allowed fun _ hu => hu.2.2) (fun code => ?_) fun exc => ?_)
      (fun code a₃ ha₃ => ?_) fun exc a₃ ha₃ => ?_
    · refine hhanded.moves fun _ hu => ⟨?_, hu.2.1⟩
      show Sent.hear _ _ _ = _
      rw [hu.1]
      exact if_pos rfl
    · refine hhanded.moves fun hc hu => ⟨?_, hu.2.1, ?_⟩
      · show Sent.hear _ _ _ = _
        rw [hu.1]
        exact if_pos rfl
      · rintro text rfl
        cases hc
    · refine ha₃.mono fun a' _ ht => ?_
      by_cases hcode : code = .tesSUCCESS
      · subst hcode
        exact ⟨.inr ht.2, nofun, fun _ => ⟨_, ht.1⟩, nofun⟩
      · have hresolution : ∀ success, (code == TxCode.tesSUCCESS) = success → success = false := by
          rintro success rfl
          exact beq_eq_false_iff_ne.mpr hcode
        have hfalse := hresolution _ rfl
        exact
          { known := .inr ht.2
            unsent := fun hr => by
              dsimp only [XrplService.XRPLResult.resolution] at hr
              rw [hfalse] at hr
              cases hr
            succeeded := fun hr => by
              dsimp only [XrplService.XRPLResult.resolution] at hr
              rw [hfalse] at hr
              cases hr
            failed := fun _ => .inr ⟨_, _, ht.1, hcode⟩ }
    · cases exc with
      | xrpl reliable text =>
        refine ha₃.mono fun a' _ ht => ?_
        have hclass := classify_resolution (.xrpl reliable text)
        exact
          { known := .inr ht.2.1
            unsent := fun hr => by
              have hr' : (XrplService.classify (.xrpl reliable text)).1 = .notSubmitted := hr
              rw [hr'] at hclass
              rcases hclass with hc | hc <;> cases hc
            succeeded := fun hr => by
              have hr' : (XrplService.classify (.xrpl reliable text)).1 = .succeeded := hr
              rw [hr'] at hclass
              rcases hclass with hc | hc <;> cases hc
            failed := fun hr => .inr ⟨_, _, ht.1, hr⟩ }
      | _ =>
        exact ha₃.mono fun a' _ ht => ⟨.inr ht.2.1, fun text hx => absurd hx (ht.2.2 text)⟩
  · cases exc with
    | xrpl reliable text => exact ha₁.mono fun a' _ hu => ⟨.inl hu, fun _ => hu, nofun, nofun⟩
    | _ => exact ha₁.mono fun a' _ hu => hu.escaped

/-! ## §4. The settlement worker. -/

section Settlement

open SettlementWorker

variable {txn : Txn}

/-- What a settlement's worker writes without having sent anything. -/
theorem claimed_fits : (Op.updateTxn t claimable claimed).Fits e Q :=
  steady_fits (b := .processing) nofun nofun fun _ _ => .inl rfl

theorem failed_fits {fromStatuses : List SettlementStatus} {reason : String}
    {txHash : Option Nat} : (Op.updateTxn t (isIn fromStatuses) (failed reason txHash)).Fits e Q :=
  steady_fits (b := .failed) nofun nofun fun _ _ => .inl rfl

theorem remembered_fits {signed : SignedTx} :
    (Op.updateTxn t (fun _ => true) (remembered signed)).Fits e Q :=
  steady_fits (b := .failed) nofun nofun fun _ _ => .inr rfl

theorem failSettlement_fits {fromStatuses : List SettlementStatus} {reason : String}
    {txHash : Option Nat} : Uses (Op.Fits e Q) (failSettlement t reason txHash fromStatuses) :=
  uses_failSettlement basic_fits failed_fits

theorem rememberSigned_follows (signed : SignedTx) (ha : a.Is e Errand.Unsent) :
    Follows errands (fun _ a' => a'.Is e fun a => a.Unsent ∧ a.signed ≠ none)
      (fun exc a' => a'.Is e (Errand.Escaped exc)) (rememberSigned t signed) a := by
  unfold rememberSigned
  refine fits_bind (Q := (· = .nothing)) remembered_fits ha (fun _ h₁ => ?_) fun _ h₁ =>
    h₁.mono fun _ _ hu => Errand.Unsent.escaped hu
  refine fits_bind (Q := (· = .nothing)) (basic_fits .commit rfl) h₁ (fun _ h₂ => ?_) fun _ h₂ =>
    h₂.mono fun _ _ hu => Errand.Unsent.escaped hu
  refine errand_call (h₂.allowed fun _ _ => trivial) (fun _ => ?_) fun exc => ?_
  · exact h₂.moves fun _ hu => ⟨hu, nofun⟩
  · exact h₂.incredible (o := .setSignedHash signed.txHash) (r := .error exc) rfl

theorem provisionWallet_follows {u : Nat} (ha : a.Is (.settle t) Errand.Unsent) :
    Follows errands (fun _ a' => a'.Is (.settle t) Errand.Unsent)
      (fun _ a' => a'.Is (.settle t) Errand.Unsent) (XrplService.provisionWallet t u) a := by
  unfold XrplService.provisionWallet
  refine Follows.bind (A := errands) (fits_follows (Q := (· = .nothing))
    (uses_findOrFund basic_fits fun account _ _ _ => ⟨trivial, fun _ => rfl⟩) ha)
    fun wallet a₁ ha₁ =>
      Follows.bind (A := errands) (R := fun _ a' => a'.Is (.settle t) Errand.Unsent)
      ?_ fun result a₂ ha₂ => ha₂
  unfold XrplService.ensureTrustLine
  split
  · exact ha₁
  · refine fits_bind (Q := (· = .nothing)) (basic_fits .loadSigner rfl) ha₁ (fun _ ha₂ => ?_)
      fun _ ha₂ => ha₂
    refine Follows.bind (A := errands) (trustSet_follows ha₂) fun result a₃ ha₃ => ?_
    split
    · refine fits_bind (Q := (· = .nothing)) (o := .setTrustLine u)
        (fun _ _ _ => ⟨trivial, fun _ => rfl⟩) ha₃ (fun _ ha₄ => ?_) fun _ ha₄ => ha₄
      exact fits_bind (Q := (· = .nothing)) (basic_fits .commit rfl) ha₄ (fun _ ha₅ => ha₅)
        fun _ ha₅ => ha₅
    · exact ha₃

/-- Up to the submission nothing is sent; an amount is refused before. -/
theorem sendFromTreasury_follows {destination amount : Nat} (ha : a.Is (.settle t) Errand.Unsent) :
    Follows errands (fun result a' => a'.Is (.settle t) (Errand.Reported result))
      (fun exc a' => a'.Is (.settle t) (Errand.Escaped exc))
      (XrplService.sendFromTreasury t destination amount (rememberSigned t)) a := by
  unfold XrplService.sendFromTreasury
  refine fits_bind (Q := (· = .nothing)) (basic_fits .loadSigner rfl) ha (fun _ ha₁ => ?_)
    fun _ ha₁ => ha₁.mono fun _ _ hu => Errand.Unsent.escaped hu
  refine fits_bind (Q := (· = .nothing)) (basic_fits .latestValidated rfl) ha₁ (fun index ha₂ => ?_)
    fun _ ha₂ => ha₂.mono fun _ _ hu => Errand.Unsent.escaped hu
  refine Follows.bind (A := errands) (R := fun _ a' => a'.Is (.settle t) Errand.Unsent) ?_
    fun _ a₃ ha₃ => submit_follows rfl rfl ha₃ fun signed _ h => rememberSigned_follows signed h
  unfold XrplService.uctusd
  split
  · exact ha₂.mono fun _ _ hu => Errand.Unsent.escaped hu
  · exact ha₂

/-- Leaving the lock may raise as well, but refuses no amount. -/
theorem withTreasuryLock_follows {body : Program XrplService.XRPLResult}
    (ha : a.Is e Errand.Unsent)
    (hbody : ∀ a : Errand, a.Is e Errand.Unsent →
      Follows errands (fun result a' => a'.Is e (Errand.Reported result))
        (fun exc a' => a'.Is e (Errand.Escaped exc)) body a) :
    Follows errands (fun result a' => a'.Is e (Errand.Reported result))
      (fun exc a' => a'.Is e (Errand.Escaped exc)) (withTreasuryLock body) a := by
  unfold withTreasuryLock
  refine fits_bind (Q := (· = .nothing)) (basic_fits .acquireTreasury rfl) ha (fun _ ha₁ => ?_)
    fun _ ha₁ => ha₁.mono fun _ _ hu => Errand.Unsent.escaped hu
  have hrelease : ∀ {P : Errand → Prop} {a : Errand} {exc : Exn}, a.Is e P →
      (∀ a, P a → a.sent = .nothing ∨ a.signed ≠ none) →
      (a.next .releaseTreasury (.error exc)).Is e (Errand.Escaped exc) := by
    intro P a exc ha hknown
    refine ha.moves fun hc hp => ⟨hknown a hp, ?_⟩
    rintro text rfl
    cases hc
  refine Follows.attempt_bind (A := errands) (hbody _ ha₁) (fun result a₂ ha₂ => ?_)
    fun exc a₂ ha₂ => ?_
  · refine Follows.call_bind (A := errands) (ha₂.allowed fun _ _ => trivial) (fun _ => ?_) fun _ =>
      hrelease ha₂ fun _ hr => hr.known
    exact ha₂.moves (o := .releaseTreasury) (r := .ok ()) fun _ hr => hr
  · refine Follows.call_bind (A := errands) (ha₂.allowed fun _ _ => trivial) (fun _ => ?_) fun _ =>
      hrelease ha₂ fun _ hx => hx.1
    exact ha₂.moves (o := .releaseTreasury) (r := .ok ()) fun _ hx => hx

/-- **PAYING**: the body of the worker's `try`. -/
theorem pay_errands {u : Nat} (ha : a.Is (.settle t) Errand.Unsent) :
    Follows errands (fun result a' => a'.Is (.settle t) (Errand.Reported result))
      (fun exc a' => a'.Is (.settle t) (Errand.Escaped exc)) (pay t u txn) a := by
  unfold pay
  refine Follows.bind (A := errands) ((provisionWallet_follows ha).mono (fun _ _ h => h)
    fun exc a' h => h.mono fun _ _ hu => hu.escaped) fun wallet a₁ ha₁ => ?_
  split
  · exact withTreasuryLock_follows ha₁ fun a h => sendFromTreasury_follows h
  · exact ha₁.mono fun _ _ hu => hu.escaped

/-- A row is handed back where nothing was sent. -/
theorem retryOrFail_errands {reason : String} (ha : a.Is (.settle t) Errand.Unsent) :
    FollowsEnd errands (retryOrFail t txn reason) a := by
  refine fits_end (Q := (· = .nothing))
    (uses_retryOrFail basic_fits (fun _ => failed_fits) ?_ ?_) ha
  · exact updateTxn_fits (fun _ _ hx => hx)
      fun hs => absurd hs (not_settles (b := .queued) nofun fun _ _ => .inl rfl)
  · exact fun _ _ _ hx => ⟨hx, fun _ => rfl⟩

theorem onException_end {exc : Exn} (ha : a.Is (.settle t) (Errand.Escaped exc)) :
    FollowsEnd errands (onException t txn exc) a := by
  have hany : a.Is (.settle t) fun _ => True := ha.mono fun _ _ _ => trivial
  unfold onException
  split
  · exact fits_end (Q := fun _ => True) (uses_bind failSettlement_fits fun _ => trivial) hany
  · refine Follows.call_bind (A := errands) (ha.allowed fun _ _ => trivial) (fun signed => ?_)
      fun _ => trivial
    cases signed with
    | some h =>
      refine fits_end (e := .settle t) (Q := fun _ => True)
        (uses_bind failSettlement_fits fun _ => trivial) ?_
      exact hany.moves fun _ _ => trivial
    | none =>
      -- no hash is remembered, so that nothing was sent
      refine retryOrFail_errands (ha.moves fun hc hx => ?_)
      have hsigned : a.signed = none := (beq_iff_eq.mp hc).symm
      exact hx.1.resolve_right fun hne => hne hsigned

theorem onResult_end {result : XrplService.XRPLResult}
    (ha : a.Is (.settle t) (Errand.Reported result)) :
    FollowsEnd errands (onResult t txn result) a := by
  have hany : a.Is (.settle t) fun _ => True := ha.mono fun _ _ _ => trivial
  unfold onResult
  cases hr : result.resolution with
  | succeeded =>
    refine fits_end (Q := Sent.Succeeded) (uses_bind (uses_completeSettlement basic_fits ?_ ?_)
      fun _ => trivial) (ha.mono fun _ _ h => h.succeeded hr)
    · exact updateTxn_fits
        (fun hq => absurd hq (not_requeues (b := .completed) nofun fun _ _ => .inl rfl))
        fun _ _ hx => hx
    · exact fun _ _ _ _ hx => ⟨fun _ => hx, fun _ => rfl⟩
  | notSubmitted => exact retryOrFail_errands (ha.mono fun _ _ h => h.unsent hr)
  | unknown =>
    exact fits_end (Q := fun _ => True) (uses_bind failSettlement_fits fun _ => trivial) hany
  | failed =>
    exact fits_end (Q := fun _ => True) (uses_bind failSettlement_fits fun _ => trivial) hany

theorem processSettlement_errand (ha : a.Is (.settle t) Errand.Unsent) :
    FollowsEnd errands (processSettlement t) a := by
  rw [processSettlement_eq]
  refine fits_bind_end (Q := (· = .nothing)) (uses_claim basic_fits claimed_fits) ha
    fun found a₁ ha₁ => ?_
  cases found with
  | none => exact trivial
  | some txn =>
    show FollowsEnd errands (settleClaimed t txn) a₁
    unfold settleClaimed
    refine fits_bind_end (Q := (· = .nothing)) (uses_getRecipient basic_fits) ha₁
      fun recipient a₂ ha₂ => ?_
    cases recipient with
    | none =>
      exact fits_end (Q := (· = .nothing)) (uses_bind failSettlement_fits fun _ => trivial) ha₂
    | some u =>
      exact Follows.attempt_bind (A := errands) (pay_errands ha₂)
        (fun result a₃ ha₃ => onResult_end ha₃) fun exc a₃ ha₃ => onException_end ha₃

end Settlement

/-! ## §5. The burn worker. -/

section Burn

open CashoutWorker

variable {req : CashOutRequest}

theorem burnClaim_fits : Uses (Op.Fits e Q) (claim r) :=
  uses_burnClaim basic_fits fun _ => steadyReq_fits (fun _ _ => .inl rfl) fun _ _ => rfl

theorem holdUnknown_fits {reason : String} : Uses (Op.Fits e Q) (holdUnknown r reason) :=
  uses_holdUnknown basic_fits fun _ => steadyReq_fits (fun _ _ => .inr rfl) fun _ _ => rfl

/-- The reserve is restored where nothing has moved, and nothing will. -/
theorem failAndRestore_fits {reason : String} {txHash : Option Nat} (hQ : ∀ x, Q x → x.Harmless) :
    Uses (Op.Fits e Q) (failAndRestore r req reason txHash) := by
  refine uses_failAndRestore basic_fits ?_ fun _ _ _ _ hx => ⟨fun _ => hQ _ hx, fun _ => rfl⟩
  exact updateReq_fits (fun hu => absurd hu (not_unclaims fun _ _ => .inr rfl))
    (fun hc => absurd hc (not_finishes (b := .failed) nofun nofun fun _ _ => .inl rfl))
    fun _ => hQ

theorem burnRememberSigned_follows (signed : SignedTx) (ha : a.Is e Errand.Unsent) :
    Follows errands (fun _ a' => a'.Is e fun a => a.Unsent ∧ a.signed ≠ none)
      (fun exc a' => a'.Is e (Errand.Escaped exc)) (rememberSigned r signed) a := by
  unfold rememberSigned
  refine fits_bind (Q := (· = .nothing)) (o := .updateReq r (fun _ => true) (remembered signed))
    (steadyReq_fits (fun _ _ => .inr rfl) fun _ _ => rfl) ha (fun _ h₁ => ?_) fun _ h₁ =>
      h₁.mono fun _ _ hu => Errand.Unsent.escaped hu
  refine fits_bind (Q := (· = .nothing)) (basic_fits .commit rfl) h₁ (fun _ h₂ => ?_) fun _ h₂ =>
    h₂.mono fun _ _ hu => Errand.Unsent.escaped hu
  refine errand_call (h₂.allowed fun _ _ => trivial) (fun _ => ?_) fun exc => ?_
  · exact h₂.moves fun _ hu => ⟨hu, nofun⟩
  · exact h₂.incredible (o := .setSignedHash signed.txHash) (r := .error exc) rfl

theorem burn_follows {u amount : Nat} {w : Wallet} (ha : a.Is (.burn r) Errand.Unsent) :
    Follows errands (fun result a' => a'.Is (.burn r) (Errand.Reported result))
      (fun exc a' => a'.Is (.burn r) (Errand.Escaped exc))
      (XrplService.burnToIssuer r u w amount (rememberSigned r)) a := by
  unfold XrplService.burnToIssuer
  refine fits_bind (Q := (· = .nothing)) (basic_fits .latestValidated rfl) ha (fun index ha₁ => ?_)
    fun _ ha₁ => ha₁.mono fun _ _ hu => Errand.Unsent.escaped hu
  refine Follows.bind (A := errands) (R := fun _ a' => a'.Is (.burn r) Errand.Unsent) ?_
    fun _ a₂ ha₂ => ?_
  · unfold XrplService.uctusd
    split
    · exact ha₁.mono fun _ _ hu => Errand.Unsent.escaped hu
    · exact ha₁
  · refine fits_bind (Q := (· = .nothing)) (basic_fits .loadSigner rfl) ha₂ (fun _ ha₃ => ?_)
      fun _ ha₃ => ha₃.mono fun _ _ hu => Errand.Unsent.escaped hu
    exact submit_follows rfl rfl ha₃ fun signed _ h => burnRememberSigned_follows signed h

theorem burnRetryOrFail_errand {reason : String} (ha : a.Is (.burn r) Errand.Unsent) :
    FollowsEnd errands (retryOrFail r req reason) a := by
  unfold retryOrFail
  split
  · exact fits_end (Q := (· = .nothing))
      (uses_bind (failAndRestore_fits fun _ hx => .inl hx) fun _ => trivial) ha
  · refine fits_end (Q := (· = .nothing)) (uses_bind (uses_releaseClaim basic_fits ?_) fun _ =>
      uses_bind (uses_call fun _ _ hx => ⟨hx, fun _ => rfl⟩) fun _ => trivial) ha
    exact updateReq_fits (fun _ _ hx => hx)
      (fun hc => absurd hc (not_finishes (b := .requested) nofun nofun fun _ _ => .inr rfl))
      fun hf => absurd hf (not_finishes (b := .requested) nofun nofun fun _ _ => .inr rfl)

theorem burnException_end {exc : Exn} (ha : a.Is (.burn r) (Errand.Escaped exc)) :
    FollowsEnd errands (onException r req exc) a := by
  unfold onException
  split
  next text =>
    exact fits_end (Q := (· = .nothing))
      (uses_bind (failAndRestore_fits fun _ hx => .inl hx) fun _ => trivial)
      (ha.mono fun _ _ hx => hx.2 text rfl)
  · refine Follows.call_bind (A := errands) (ha.allowed fun _ _ => trivial) (fun signed => ?_)
      fun _ => trivial
    cases signed with
    | some h =>
      refine fits_end (e := .burn r) (Q := fun _ => True)
        (uses_bind holdUnknown_fits fun _ => trivial) ?_
      exact ha.moves fun _ _ => trivial
    | none =>
      refine burnRetryOrFail_errand (ha.moves fun hc hx => ?_)
      have hsigned : a.signed = none := (beq_iff_eq.mp hc).symm
      exact hx.1.resolve_right fun hne => hne hsigned

theorem burnResult_end {result : XrplService.XRPLResult}
    (ha : a.Is (.burn r) (Errand.Reported result)) :
    FollowsEnd errands (onResult r req result) a := by
  unfold onResult
  cases hr : result.resolution with
  | succeeded =>
    refine fits_end (Q := Sent.Succeeded) (uses_bind (uses_completeBurn basic_fits fun stamp => ?_)
      fun _ => trivial) (ha.mono fun _ _ h => h.succeeded hr)
    exact updateReq_fits (fun hu => absurd hu (not_unclaims fun _ _ => .inr rfl)) (fun _ _ hx => hx)
      fun hf => absurd hf (not_finishes (b := .completed) nofun nofun fun _ _ => .inl rfl)
  | notSubmitted => exact burnRetryOrFail_errand (ha.mono fun _ _ h => h.unsent hr)
  | unknown =>
    exact fits_end (Q := fun _ => True) (uses_bind holdUnknown_fits fun _ => trivial)
      (ha.mono fun _ _ _ => trivial)
  | failed =>
    exact fits_end (Q := Sent.Harmless)
      (uses_bind (failAndRestore_fits fun _ hx => hx) fun _ => trivial)
      (ha.mono fun _ _ h => h.failed hr)

theorem processBurn_errand (ha : a.Is (.burn r) Errand.Unsent) :
    FollowsEnd errands (processBurn r) a := by
  unfold processBurn
  refine fits_bind_end (Q := (· = .nothing)) burnClaim_fits ha fun found a₁ ha₁ => ?_
  cases found with
  | none => exact trivial
  | some req =>
    refine fits_bind_end (Q := (· = .nothing)) (uses_call (basic_fits _ rfl)) ha₁
      fun found a₂ ha₂ => ?_
    cases found with
    | none =>
      exact fits_end (Q := (· = .nothing))
        (uses_bind (failAndRestore_fits fun _ hx => .inl hx) fun _ => trivial) ha₂
    | some w =>
      exact Follows.attempt_bind (A := errands) (burn_follows ha₂)
        (fun result a₃ ha₃ => burnResult_end ha₃) fun exc a₃ ha₃ => burnException_end ha₃

end Burn

/-! ## §6. Every program. -/

section Bodies

open SettlementWorker CashinService CashoutService

/-- The calls that only a worker makes. -/
def Op.isWorkers : Op → Bool
  | .outcome _ | .handOver _ _ | .enqueueIn _ _ => true
  | _ => false

def Entry.isWorker : Entry → Bool
  | .settle _ | .burn _ => true
  | _ => false

theorem basic_idle : ∀ o : Op, o.isBasic = true → o.isWorkers = false := by
  intro o ho
  cases o <;> first | rfl | cases ho

theorem settlementRetry_idle : Uses (fun o : Op => o.isWorkers = false) (settlementRetry t) := by
  have hpublish : Uses (fun o : Op => o.isWorkers = false) (CashinService.publish t) :=
    uses_publish basic_idle fun _ => rfl
  unfold settlementRetry
  refine uses_onTransaction basic_idle fun txn => ?_
  split
  · exact hpublish
  · refine uses_bind ?_ fun _ => trivial
    unfold retrySettlement
    refine uses_bind (uses_retryable basic_idle) fun retryable => ?_
    split
    · unfold reconcileOrRequeue
      split
      · exact uses_requeue basic_idle rfl fun _ => rfl
      · refine uses_bind (uses_consultLedger basic_idle rfl) fun code => ?_
        split
        · exact uses_bind (uses_completeSettlement basic_idle rfl fun _ _ => rfl) fun _ => trivial
        · exact uses_requeue basic_idle rfl fun _ => rfl
    · trivial

theorem approve_idle {req : CashOutRequest} {admin : Nat} :
    Uses (fun o : Op => o.isWorkers = false) (approve r req admin) := by
  unfold approve CashoutService.publish
  refine uses_bind (uses_call rfl) fun wallet => ?_
  cases wallet with
  | none => trivial
  | some w =>
    dsimp only
    split
    · trivial
    · refine uses_bind (uses_call rfl) fun hit => ?_
      split
      · refine uses_bind (uses_call rfl) fun _ => uses_bind (uses_call rfl) fun _ =>
          uses_bind (uses_call rfl) fun _ =>
            uses_bind (uses_attempt (uses_call rfl)) fun answer => ?_
        cases answer with
        | ok _ => trivial
        | error exc =>
          exact uses_bind (uses_failAndRestore basic_idle rfl fun _ _ => rfl) fun _ => trivial
      · exact uses_bind (uses_call rfl) fun _ => trivial

theorem reconcile_idle {req : CashOutRequest} :
    Uses (fun o : Op => o.isWorkers = false) (CashoutService.reconcile r req) := by
  unfold CashoutService.reconcile
  split
  · trivial
  · split
    · refine uses_bind (uses_burnConsultLedger basic_idle rfl) fun verdict => ?_
      cases verdict with
      | succeeded => exact uses_bind (uses_completeBurn basic_idle fun _ => rfl) fun _ => trivial
      | rejected code =>
        exact uses_bind (uses_failAndRestore basic_idle rfl fun _ _ => rfl) fun _ => trivial
      | expired lastLedger =>
        exact uses_bind (uses_failAndRestore basic_idle rfl fun _ _ => rfl) fun _ => trivial
      | unresolved => trivial
    · trivial

theorem body_idle (he : e.isWorker = false) :
    Uses (fun o : Op => o.isWorkers = false) (body S e) := by
  cases e with
  | settle t => cases he
  | burn r => cases he
  | createRemittance form =>
    exact uses_discard (uses_createRemittance basic_idle fun _ _ _ _ _ => rfl)
  | cashinReceived t reviewer =>
    exact uses_onTransaction basic_idle fun _ => uses_markCashinReceived basic_idle rfl fun _ => rfl
  | cashinFailed t reviewer reason =>
    exact uses_onTransaction basic_idle fun _ => uses_markCashinFailed basic_idle rfl
  | expireStaleCashins =>
    exact uses_bind (uses_call rfl) fun _ => uses_bind (uses_call rfl) fun _ => uses_call rfl
  | settlementRetry t => exact settlementRetry_idle
  | amlFlag t flagged => exact uses_setAmlFlag basic_idle rfl
  | createRequest form => exact uses_discard (uses_createRequest basic_idle fun _ _ => rfl)
  | approve r admin => exact uses_onRequest basic_idle fun req => approve_idle
  | reject r admin reason =>
    exact uses_onRequest basic_idle fun _ => uses_reject basic_idle rfl
  | reconcile r => exact uses_onRequest basic_idle fun req => reconcile_idle
  | sweepUnpublished => exact uses_sweepUnpublished basic_idle
  | office e =>
    cases e with
    | account e notSend => exact uses_discard (uses_onAccounts (fun _ => rfl) _)
    | updateFees form => exact uses_discard (uses_updateFees basic_idle form fun _ _ => rfl)
    | updateTierLimits n form =>
      exact uses_discard (uses_updateTierLimits basic_idle n form fun _ _ => rfl)

/-- Whoever is no worker has no errand. -/
theorem idle_fits (he : e.isWorker = false) (ho : o.isWorkers = false) : o.Fits e Q := by
  have hsettle : ∀ t, e ≠ .settle t := by
    rintro t rfl
    cases he
  have hburn : ∀ r, e ≠ .burn r := by
    rintro r rfl
    cases he
  rintro a rfl _
  cases o <;> first | exact ⟨trivial, fun _ => rfl⟩ | cases ho
  case updateTxn t cond values => exact ⟨fun h => absurd h (hsettle t), fun _ => rfl⟩
  case updateReq k cond values => exact ⟨fun h => absurd h (hburn k), fun _ => rfl⟩
  case setBalance u balance move =>
    refine ⟨?_, fun _ => rfl⟩
    cases move with
    | credit t => exact fun h => absurd h (hsettle t)
    | debit k => exact trivial
    | restore k => exact fun h => absurd h (hburn k)

/-- **EVERY PROGRAM** follows the typestate. -/
theorem body_errands (e : Entry) : FollowsEnd errands (body S e) (Errand.initial e) := by
  have hstart : (Errand.initial e).Is e Errand.Unsent := ⟨rfl, fun _ => rfl⟩
  cases he : e.isWorker with
  | false =>
    exact fits_end (Q := (· = .nothing)) ((body_idle he).mono fun o ho => idle_fits he ho) hstart
  | true =>
    cases e with
    | settle t => exact Follows.bind (processSettlement_errand hstart) fun _ _ _ => trivial
    | burn r => exact Follows.bind (processBurn_errand hstart) fun _ _ _ => trivial
    | _ => cases he

end Bodies

/-! ## §7. What a worker has come to holds. -/

/-- `h` is the transaction that program `i` is sent to submit. -/
def World.IsErrand (s : World) (i : Nat) (e : Entry) (h : Nat) : Prop :=
  ∃ b : Blob, s.blobs[h]? = some b ∧ b.signer = i ∧ b.purpose.isErrand = true ∧ e.signs b.purpose

/-- What the ledger has to say for an answer. -/
def Bears (s : World) (h : Nat) : Except Exn TxCode → Prop
  | .ok code => ∃ n, s.ledger.included h = some (n, code)
  | .error e => (XrplService.classify e).1 = .failed → s.Lost h

/-- Of the transactions of its errand that `i` has signed, it has handed over this one. -/
def Sent.Means (i : Nat) (e : Entry) (s : World) : Sent → Prop
  | .nothing => ∀ h, s.IsErrand i e h → s.handed h = false
  | .handed h => s.IsErrand i e h ∧ ∀ h', s.IsErrand i e h' → s.handed h' = true → h' = h
  | .told h answer => s.IsErrand i e h ∧ Bears s h answer ∧
      ∀ h', s.IsErrand i e h' → s.handed h' = true → h' = h

structure Errand.Means (i : Nat) (a : Errand) (l : Session) (s : World) : Prop where
  credible : a.void = false
  entry : l.entry = a.entry
  signed : l.signedHash = a.signed
  pending : ∀ h, a.pending = some h → s.handed h = true
  sent : a.sent.Means i a.entry s

/-- Whatever was rejected as malformed had been handed over. -/
def World.Submitted (s : World) : Prop := ∀ h, s.malformed h = true → s.handed h = true

/-- Nothing that `i` has signed is handed over. -/
structure HandsNothing (i : Nat) (s s' : World) : Prop where
  onward : Onward s s'
  handed : ∀ h, s'.handed h = true →
    s.handed h = true ∨ ∃ b : Blob, s.blobs[h]? = some b ∧ b.signer ≠ i
  kept : ∀ h, s.handed h = true → s'.handed h = true

theorem World.IsErrand.onward {h : Nat} (hh : s.IsErrand i e h) (ho : Onward s s') :
    s'.IsErrand i e h := by
  obtain ⟨b, hb, hrest⟩ := hh
  exact ⟨b, ho.blobs h b hb, hrest⟩

/-- What is handed over now had been so before. -/
theorem World.IsErrand.before {h : Nat} (hs : s.Regular) (hn : HandsNothing i s s')
    (hh : s'.IsErrand i e h) (hd : s'.handed h = true) : s.IsErrand i e h ∧ s.handed h = true := by
  obtain ⟨b, hb, hsigner, hrest⟩ := hh
  rcases hn.handed h hd with hd | ⟨b', hb', hne⟩
  · obtain ⟨b', hb'⟩ := hs.handed h hd
    obtain rfl : b' = b := Option.some.inj ((hn.onward.blobs h b' hb').symm.trans hb)
    exact ⟨⟨b', hb', hsigner, hrest⟩, hd⟩
  · obtain rfl : b' = b := Option.some.inj ((hn.onward.blobs h b' hb').symm.trans hb)
    exact absurd hsigner hne

theorem Bears.onward {h : Nat} {answer : Except Exn TxCode} (hb : Bears s h answer)
    (hh : s.IsErrand i e h) (ho : Onward s s') : Bears s' h answer := by
  obtain ⟨b, hblob, -⟩ := hh
  cases answer with
  | ok code =>
    obtain ⟨n, hn⟩ := hb
    exact ⟨n, (ho.ledger h b hblob).stays _ hn⟩
  | error e => exact fun hc => (hb hc).onward ho hblob

theorem Sent.Means.kept {a : Sent} (hm : a.Means i e s) (hs : s.Regular)
    (hn : HandsNothing i s s') : a.Means i e s' := by
  have honly : ∀ h, (∀ h', s.IsErrand i e h' → s.handed h' = true → h' = h) →
      ∀ h', s'.IsErrand i e h' → s'.handed h' = true → h' = h := fun h hall h' hh' hd => by
    obtain ⟨hh, hd'⟩ := hh'.before hs hn hd
    exact hall h' hh hd'
  cases a with
  | nothing =>
    intro h hh
    rw [Bool.eq_false_iff]
    intro hd
    obtain ⟨hh', hd'⟩ := hh.before hs hn hd
    rw [hm h hh'] at hd'
    cases hd'
  | handed h => exact ⟨hm.1.onward hn.onward, honly h hm.2⟩
  | told h answer =>
    exact ⟨hm.1.onward hn.onward, hm.2.1.onward hm.1 hn.onward, honly h hm.2.2⟩

theorem Errand.Means.kept (hm : a.Means i l s) (hs : s.Regular) (hn : HandsNothing i s s') :
    a.Means i l s' where
  credible := hm.credible
  entry := hm.entry
  signed := hm.signed
  pending := fun h hp => hn.kept h (hm.pending h hp)
  sent := hm.sent.kept hs hn

/-! ### Who hands nothing over. -/

theorem handsNothing_of_eq (ho : Onward s s') (hh : s'.handed = s.handed) : HandsNothing i s s' :=
  ⟨ho, fun h hd => .inl (by rw [← hh]; exact hd), fun h hd => by rw [hh]; exact hd⟩

theorem exec_keeps_handed {res : Except Exn o.Res} (hx : exec S i o c l s = some (res, l', s'))
    (h : Nat) (hd : s.handed h = true) : s'.handed h = true := by
  by_cases ho : o = .commit
  · subst ho
    rcases exec_commit hx with ⟨-, -, rfl⟩ | ⟨-, rfl, -⟩
    · exact hd
    · exact hd
  · exact (exec_uncommitted ho hx).handed h hd

/-- A call of its own, unless it hands over. -/
theorem own_handsNothing (hl : l.Locked i s) {res : Except Exn o.Res}
    (ho : ∀ purpose h, o ≠ .handOver purpose h) (hx : exec S i o c l s = some (res, l', s')) :
    HandsNothing i s s' where
  onward := exec_onward hl hx
  handed := fun h hd => by
    rcases exec_handed hx hd with hd | ⟨purpose, b, he, -⟩
    · exact .inl hd
    · exact absurd he (ho purpose h)
  kept := exec_keeps_handed hx

/-- A call of another program. -/
theorem others_handsNothing (hl : l.Locked j s) {res : Except Exn o.Res} (hij : i ≠ j)
    (hx : exec S j o c l s = some (res, l', s')) : HandsNothing i s s' where
  onward := (exec_others hl hx hij).onward
  handed := fun h hd => by
    by_cases ho : o = .commit
    · subst ho
      rcases exec_commit hx with ⟨-, -, rfl⟩ | ⟨-, rfl, -⟩
      · exact .inl hd
      · exact .inl hd
    · rcases (exec_uncommitted ho hx).handedOwn h hd with hd | ⟨b, hb, hj⟩
      · exact .inl hd
      · exact .inr ⟨b, hb, fun he => hij (he.symm.trans hj)⟩
  kept := exec_keeps_handed hx

/-- A step of which the program is not the party. -/
theorem step_handsNothing {k k' : Config (platform S)} {lab : Label (platform S)}
    (hD : (rules S).Holds k) (hs : k.step lab = some k') (hi : lab.party ≠ some i) :
    HandsNothing i k.world k'.world := by
  cases lab with
  | start e =>
    injection hs with hs
    subst hs
    exact handsNothing_of_eq (spawn_others (j := i)).onward rfl
  | call j ch =>
    obtain ⟨l, o, f, res, l', s', hth, hx, rfl⟩ := Config.step_call hs
    exact others_handsNothing (hD.session j _ hth).locked (fun he => hi (congrArg some he.symm)) hx
  | stop j =>
    obtain ⟨_, _, rfl⟩ := Option.map_eq_some_iff.mp hs
    exact handsNothing_of_eq
      (releaseAll_others (j := i) fun he => hi (congrArg some he.symm)).onward
      rfl
  | env v =>
    obtain ⟨s', hv, rfl⟩ := Option.map_eq_some_iff.mp hs
    refine handsNothing_of_eq (env_others (j := i) hv).onward ?_
    rw [(env_eq hv).1]

/-! ## §8. Along every run. -/

theorem perform_malformed {v : Value} {res : Except Exn o.Res}
    (h : perform S i l s v o = some (res, l', s')) : s'.malformed = s.malformed := by
  cases o
  all_goals
    simp only [perform] at h
    (repeat' split at h) <;> cases h <;> rfl

/-- Only waiting for an outcome shows that a blob is malformed. -/
theorem exec_malformed {res : Except Exn o.Res} (hx : exec S i o c l s = some (res, l', s'))
    {h : Nat} (hm : s'.malformed h = true) : s.malformed h = true ∨ o = .outcome h := by
  obtain ⟨-, ⟨e, -, -, ha⟩ | ⟨-, r₀, l₀, hp, -⟩⟩ := exec_inv hx
  · rcases afterRaises_eq ha with rfl | ⟨k, rfl, -, rfl⟩
    · exact .inl hm
    · by_cases hk : h = k
      · exact .inr (by rw [hk])
      · left
        have hm' : Function.update s.malformed k true h = true := hm
        rwa [Function.update_of_ne hk] at hm'
  · rw [perform_malformed hp] at hm
    exact .inl hm

/-- A hand-over answers, and hands over a blob that its program has signed for it. -/
theorem exec_handOver {purpose : Purpose} {h : Nat} {res : Except Exn Unit}
    (hx : exec S i (.handOver purpose h) c l s = some (res, l', s')) :
    res = .ok () ∧ s' = { s.tick S c with handed := Function.update s.handed h true } ∧
      ∃ b : Blob, s.blobs[h]? = some b ∧ b.purpose = purpose ∧ b.signer = i := by
  rcases exec_plain rfl hx with ⟨e, -, -, ha⟩ | ⟨-, hp⟩
  · cases ha
  · simp only [perform] at hp
    split at hp
    next hb =>
      cases hp
      obtain ⟨b, hb, hpb⟩ := (Option.any_eq_true _ _).mp hb
      obtain ⟨hpurpose, hsigner⟩ := of_decide_eq_true hpb
      exact ⟨rfl, rfl, b, hb, hpurpose, hsigner⟩
    · cases hp

theorem credible_of_exec {res : Except Exn o.Res} (hsigned : l.signedHash = a.signed)
    (hx : exec S i o c l s = some (res, l', s')) : a.credible o res = true := by
  have hother : ∀ exc, res = .error exc → ∀ text, exc ≠ .invalidAmount text := by
    rintro exc rfl
    exact exec_not_invalidAmount hx
  cases o with
  | getSignedHash =>
    obtain ⟨rfl, -⟩ := exec_getSignedHash hx
    exact beq_iff_eq.mpr hsigned
  | setSignedHash h =>
    obtain ⟨rfl, -⟩ := exec_setSignedHash hx
    rfl
  | handOver purpose h =>
    obtain ⟨rfl, -⟩ := exec_handOver hx
    rfl
  | _ =>
    cases res with
    | ok v => rfl
    | error exc =>
      cases exc with
      | invalidAmount text => exact absurd rfl (hother _ rfl text)
      | _ => rfl

/-- What was handed over is now on its way. -/
theorem Sent.Means.handOver {purpose : Purpose} {h : Nat} {sent : Sent}
    (hm : sent.Means i e s) (hl : l.Locked i s) {res : Except Exn Unit}
    (hallowed : purpose.isErrand = true → sent = .nothing ∧ e.signs purpose)
    (hx : exec S i (.handOver purpose h) c l s = some (res, l', s')) :
    (if purpose.isErrand = true then Sent.handed h else sent).Means i e s' := by
  have honward := exec_onward hl hx
  obtain ⟨-, rfl, b, hb, hpurpose, hsigner⟩ := exec_handOver hx
  -- a blob that was there before is handed over now: it is this one, or had been before
  have hbefore : ∀ h',
      ({ s.tick S c with handed := Function.update s.handed h true } : World).IsErrand
      i e h' → Function.update s.handed h true h' = true → h' ≠ h →
      s.IsErrand i e h' ∧ s.handed h' = true := by
    intro h' hh' hd hne
    rw [Function.update_of_ne hne] at hd
    exact ⟨hh', hd⟩
  by_cases he : purpose.isErrand = true
  · obtain ⟨rfl, hsigns⟩ := hallowed he
    rw [if_pos he]
    refine ⟨⟨b, hb, hsigner, by rw [hpurpose]; exact he, by rw [hpurpose]; exact hsigns⟩, ?_⟩
    intro h' hh' hd
    by_contra hne
    obtain ⟨hh, hd'⟩ := hbefore h' hh' hd hne
    rw [hm h' hh] at hd'
    cases hd'
  · -- a TrustSet is no errand
    rw [if_neg he]
    have hnot : ∀ h', s.IsErrand i e h' → h' ≠ h := by
      rintro _ ⟨b', hb', -, he', -⟩ rfl
      obtain rfl : b = b' := Option.some.inj (hb.symm.trans hb')
      rw [hpurpose] at he'
      exact he he'
    cases sent with
    | nothing =>
      intro h' hh'
      show Function.update s.handed h true h' = false
      rw [Function.update_of_ne (hnot h' hh')]
      exact hm h' hh'
    | handed h₀ =>
      exact ⟨hm.1.onward honward, fun h' hh' hd => hm.2 h' hh' (hbefore h' hh' hd (hnot h' hh')).2⟩
    | told h₀ answer =>
      exact ⟨hm.1.onward honward, hm.2.1.onward hm.1 honward,
        fun h' hh' hd => hm.2.2 h' hh' (hbefore h' hh' hd (hnot h' hh')).2⟩

/-- What the client library answers is what the ledger has to say. -/
theorem Sent.Means.outcome {h : Nat} {sent : Sent} {answer : Except Exn TxCode}
    (hm : sent.Means i e s') (hx : exec S i (.outcome h) c l s = some (answer, l', s')) :
    (sent.hear h answer).Means i e s' := by
  cases sent with
  | nothing => exact hm
  | told h₀ answer₀ => exact hm
  | handed h₀ =>
    show Sent.Means i e s' (if h₀ = h then .told h answer else .handed h₀)
    split
    next heq =>
      subst heq
      refine ⟨hm.1, ?_, hm.2⟩
      cases answer with
      | error exc => exact fun hc => exec_outcome_lost hx hc
      | ok code =>
        rcases exec_outcome hx with ⟨e, he, -⟩ | ⟨n, code', he, hi, rfl⟩
        · cases he
        · cases he
          exact ⟨n, hi⟩
    · exact hm

/-- **ONE CALL** keeps what its program has come to. -/
theorem Errand.Means.call (hs : s.Regular) (hm : a.Means i l s) (hl : l.Locked i s)
    (ha : a.orderly o) {res : Except Exn o.Res} (hx : exec S i o c l s = some (res, l', s')) :
    (a.next o res).Means i l' s' := by
  have hcredible := credible_of_exec hm.signed hx
  have hnext : a.next o res = a.moved o res := if_pos hcredible
  rw [hnext]
  refine
    { credible := (a.moved_void o res).trans hm.credible
      entry := ((exec_sameEntry hx).trans hm.entry).trans (a.moved_entry o res).symm
      signed := ?_
      pending := ?_
      sent := ?_ }
  · by_cases ho : o.setsSignedHash = true
    · cases o with
      | setSignedHash h =>
        obtain ⟨-, rfl, -⟩ := exec_setSignedHash hx
        rfl
      | _ => cases ho
    · have hsame := (exec_sameSigned (Bool.eq_false_iff.mpr ho) hx).trans hm.signed
      rw [hsame]
      cases o <;> first | rfl | exact absurd rfl ho
  · intro h hp
    have hkept := exec_keeps_handed hx h
    cases o with
    | handOver purpose h' =>
      obtain rfl : h' = h := Option.some.inj hp
      obtain ⟨-, rfl, -⟩ := exec_handOver hx
      exact Function.update_self h' true s.handed
    | outcome h' => cases hp
    | _ => exact hkept (hm.pending h hp)
  · rw [a.moved_entry]
    by_cases ho : ∃ purpose h, o = .handOver purpose h
    · obtain ⟨purpose, h, rfl⟩ := ho
      exact hm.sent.handOver hl ha hx
    · have hkept :=
        hm.sent.kept hs (own_handsNothing hl (fun purpose h he => ho ⟨purpose, h, he⟩) hx)
      cases o with
      | handOver purpose h => exact absurd ⟨purpose, h, rfl⟩ ho
      | outcome h => exact hkept.outcome hx
      | _ => exact hkept

/-- A program that starts has signed nothing yet. -/
theorem Errand.Means.start (hs : s.Regular) (e : Entry) :
    (Errand.initial e).Means s.nextTid (Session.start e) { s with nextTid := s.nextTid + 1 } where
  credible := rfl
  entry := rfl
  signed := rfl
  pending := fun h hp => by cases hp
  sent := by
    rintro h ⟨b, hb, hsigner, -⟩
    have hborn := (hs.blobs h b hb).2.2
    omega

theorem errands_sound (S : Setting) :
    errands.Sound (M := platform S) (rules S) Errand.initial World.Submitted Errand.Means where
  body := body_errands
  spawn := fun e s hs hi => ⟨hi, .start hs.regular e⟩
  call := fun i a o ch l s res l' s' hs hi hl hm ha hx => by
    have ha' : a.orderly o := ha hm.credible
    refine ⟨fun h hmal => ?_, hm.call hs.regular hl.locked ha' hx⟩
    rcases exec_malformed hx hmal with hold | rfl
    · exact exec_keeps_handed hx h (hi h hold)
    · exact exec_keeps_handed hx h (hm.pending h ha')
  close := fun i s _ hi => hi
  env := fun v s s' _ hi hx => by
    rw [(env_eq hx).1]
    exact hi

/-- **WHAT EACH PROGRAM HAS COME TO HOLDS**, in every reachable state. -/
theorem errands_reach {w : World} (hw : w.Orderly) (hi : w.Submitted) {k : Config (platform S)}
    (h : Reach (M := platform S) w k) :
    errands.Holds (M := platform S) World.Submitted Errand.Means k :=
  (errands_sound S).reach_together (rules_kept S)
    (fun hD _ hs _ _ _ hparty _ _ hm => hm.kept hD.world.regular (step_handsNothing hD hs hparty))
    hw hi h

theorem World.Submitted.initial (clock validated : Nat) (held : Nat → Bool) :
    (World.initial clock validated held).Submitted := fun h hm => by cases hm

end Orbyt
