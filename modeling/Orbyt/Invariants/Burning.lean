/-
  Orbyt.Invariants.Burning — at most one burn of a cash-out

  A worker claims an approved cash-out by stamping `burnStartedAt`, and only where nothing
  is signed.  For `jobTimeout` after the stamp the row is in its hands: nobody else writes
  the hash, the range or the stamp.  So a burn is on its row before it is handed over, and
  the hash of a row is never replaced by another one.

  Main results:
    * `CashOutRequest.Kept` — what every stored row satisfies; `CashOutRequest.Replaces` —
      what may be committed over one;
    * `burns` — the protocol is kept by committing rows that replace what is stored;
    * `spared_of_uses` — programs whose every statement is harmless keep it.
-/
import Orbyt.Rules.Writes

namespace Orbyt

open Interleave
open ValidatedLedger
open Function (update)

variable {S : Setting} {i j : Nat} {o : Op} {c : Choice} {l l' : Session} {s s' : World}

/-! ## §1. The burn of a row. -/

/-- The signed burn and the claim are the same. -/
structure CashOutRequest.SameBurn (q q' : CashOutRequest) : Prop where
  hash : q'.xrplBurnTxHash = q.xrplBurnTxHash
  last : q'.burnLastLedgerSequence = q.burnLastLedgerSequence
  submitted : q'.burnSubmittedLedgerIndex = q.burnSubmittedLedgerIndex
  started : q'.burnStartedAt = q.burnStartedAt

theorem CashOutRequest.SameBurn.refl (q : CashOutRequest) : q.SameBurn q := ⟨rfl, rfl, rfl, rfl⟩

theorem CashOutRequest.SameBurn.trans {q q' q'' : CashOutRequest} (h : q.SameBurn q')
    (h' : q'.SameBurn q'') : q.SameBurn q'' where
  hash := h'.hash.trans h.hash
  last := h'.last.trans h.last
  submitted := h'.submitted.trans h.submitted
  started := h'.started.trans h.started

/-- `q'` is a later version of `q`: a hash that is on the row stays there. -/
def CashOutRequest.Later (q q' : CashOutRequest) : Prop :=
  ∀ h, q.xrplBurnTxHash = some h → q'.xrplBurnTxHash = some h

theorem CashOutRequest.Later.refl (q : CashOutRequest) : q.Later q := fun _ hk => hk

theorem CashOutRequest.Later.trans {q q' q'' : CashOutRequest} (h : q.Later q')
    (h' : q'.Later q'') : q.Later q'' := fun k hk => h' k (h k hk)

theorem CashOutRequest.SameBurn.later {q q' : CashOutRequest} (h : q.SameBurn q') : q.Later q' :=
  fun _ hk => h.hash.trans hk

/-! ## §2. What every stored row satisfies. -/

/-- The row `q` of `r`, in the hands of `owner`. -/
structure CashOutRequest.Kept (S : Setting) (s : World) (r : Nat) (owner : Option Nat)
    (q : CashOutRequest) : Prop where
  live : ∀ h, q.xrplBurnTxHash = some h →
    s.Signed S (.burn r) h q.burnLastLedgerSequence q.burnSubmittedLedgerIndex
  fresh : q.status = .requested → q.xrplBurnTxHash = none ∧ q.burnStartedAt = none
  started : ∀ T, q.burnStartedAt = some T → T ≤ s.clock
  inHand : owner.isSome = true → q.burnStartedAt.isSome = true
  burned : q.status = .completed → ∃ h, q.xrplBurnTxHash = some h ∧ s.Paid h
  lost : S.quietPublishFailure = true → S.oneLedgerView = true → q.status = .failed →
    ∀ h, q.xrplBurnTxHash = some h → s.Lost h
  /-- Whoever still has a restored row in hand has timed out. -/
  letGo : S.quietPublishFailure = true → S.oneLedgerView = true → q.status = .failed →
    q.xrplBurnTxHash = none → ∀ j T, owner = some j → q.burnStartedAt = some T →
      T + jobTimeout < s.clock

variable {r : Nat} {owner owner' : Option Nat} {q q' : CashOutRequest}

theorem CashOutRequest.Kept.onward (h : q.Kept S s r owner) (ho : Onward s s') :
    q.Kept S s' r owner where
  live := fun k hk => (h.live k hk).onward ho
  fresh := h.fresh
  started := fun T hT => Nat.le_trans (h.started T hT) ho.clock
  inHand := h.inHand
  burned := fun hc => by
    obtain ⟨k, hk, hp⟩ := h.burned hc
    obtain ⟨b, hb, -⟩ := (h.live k hk).blob
    exact ⟨k, hk, hp.onward ho hb⟩
  lost := fun hq hv hf k hk => by
    obtain ⟨b, hb, -⟩ := (h.live k hk).blob
    exact (h.lost hq hv hf k hk).onward ho hb
  letGo := fun hq hv hf hn j T hj hT => by
    have hlt := h.letGo hq hv hf hn j T hj hT
    have hclock := ho.clock
    omega

/-- The row changes hands, or nobody has it any more. -/
theorem CashOutRequest.Kept.disown (h : q.Kept S s r owner) (ho : owner' = owner ∨ owner' = none) :
    q.Kept S s r owner' where
  live := h.live
  fresh := h.fresh
  started := h.started
  inHand := fun hs => by
    rcases ho with rfl | rfl
    · exact h.inHand hs
    · cases hs
  burned := h.burned
  lost := h.lost
  letGo := fun hq hv hf hn j T hj hT => by
    rcases ho with rfl | rfl
    · exact h.letGo hq hv hf hn j T hj hT
    · cases hj

/-- A change of the row that leaves its burn and its status as they are. -/
theorem CashOutRequest.Kept.of_same (h : q.Kept S s r owner) (hsame : q.SameBurn q')
    (hstatus : q'.status = q.status) : q'.Kept S s r owner where
  live := by rw [hsame.hash, hsame.last, hsame.submitted]; exact h.live
  fresh := by rw [hstatus, hsame.hash, hsame.started]; exact h.fresh
  started := by rw [hsame.started]; exact h.started
  inHand := by rw [hsame.started]; exact h.inHand
  burned := by rw [hstatus, hsame.hash]; exact h.burned
  lost := by rw [hstatus, hsame.hash]; exact h.lost
  letGo := by rw [hstatus, hsame.hash, hsame.started]; exact h.letGo

/-- A row that ends, with its burn as it is. -/
theorem CashOutRequest.Kept.finish (h : q.Kept S s r owner) (hsame : q.SameBurn q')
    (hstatus : q'.status ≠ .requested)
    (hburned : q'.status = .completed → ∃ k, q.xrplBurnTxHash = some k ∧ s.Paid k)
    (hlost : S.quietPublishFailure = true → S.oneLedgerView = true → q'.status = .failed →
      ∀ k, q.xrplBurnTxHash = some k → s.Lost k)
    (hgo : S.quietPublishFailure = true → S.oneLedgerView = true → q'.status = .failed →
      q.xrplBurnTxHash = none → ∀ j T, owner' = some j → q.burnStartedAt = some T →
        T + jobTimeout < s.clock)
    (howner : owner' = owner ∨ owner' = none) : q'.Kept S s r owner' where
  live := by rw [hsame.hash, hsame.last, hsame.submitted]; exact h.live
  fresh := fun he => absurd he hstatus
  started := by rw [hsame.started]; exact h.started
  inHand := by
    rw [hsame.started]
    exact (h.disown howner).inHand
  burned := by rw [hsame.hash]; exact hburned
  lost := by rw [hsame.hash]; exact hlost
  letGo := by rw [hsame.hash, hsame.started]; exact hgo

/-- The new burn `k`, stored on a row that carries none. -/
theorem CashOutRequest.Kept.remember {k n now : Nat} {b : Blob} (h : q.Kept S s r owner)
    (happroved : q.status ≠ .requested) (hfailed : q.status = .failed →
      S.quietPublishFailure = true → S.oneLedgerView = true → False)
    (hcompleted : q.status ≠ .completed)
    (hb : s.blobs[k]? = some b) (hpurpose : b.purpose = .burn r) (hn : n ≤ b.signedIndex)
    (hexpires : S.carriesLastLedger = true → b.lastLedgerSequence.isSome = true) :
    (CashoutWorker.remembered ⟨k, b.lastLedgerSequence, some n⟩ now q).Kept S s r owner where
  live := fun m hm => by
    cases hm
    exact .of_new hb hpurpose hn hexpires
  fresh := fun hs => absurd hs happroved
  started := h.started
  inHand := h.inHand
  burned := fun hs => absurd hs hcompleted
  lost := fun hq hv hf => (hfailed hf hq hv).elim
  letGo := fun hq hv hf => (hfailed hf hq hv).elim

/-! ## §3. What may be committed over a row. -/

/-- Program `i` may commit `q'` over `x`: the row is kept, its hash is not forgotten, and the
row is not taken out of the hands of a worker that may still move. -/
structure CashOutRequest.Replaces (S : Setting) (i : Nat) (s : World) (r : Nat)
    (x : Option CashOutRequest) (q' : CashOutRequest) : Prop where
  kept : q'.Kept S s r (reqOwnerAfter i x q' (s.reqOwner r))
  later : ∀ y, x = some y → y.Later q'
  spares : ∀ j, j ≠ i → s.reqOwner r = some j → ∀ y T, x = some y → y.burnStartedAt = some T →
    T + jobTimeout < s.clock ∨
      (reqOwnerAfter i x q' (s.reqOwner r) = some j ∧ y.SameBurn q')

/-- With the claim as it is, the row stays where it is, or its owner is done with it. -/
theorem reqOwnerAfter_same (owner : Option Nat) {x : Option CashOutRequest}
    (h : q'.burnStartedAt = x.bind (·.burnStartedAt)) :
    (reqOwnerAfter i x q' owner = owner ∨ reqOwnerAfter i x q' owner = none) ∧
      ∀ j, j ≠ i → owner = some j → reqOwnerAfter i x q' owner = some j := by
  unfold reqOwnerAfter
  rw [if_pos h]
  refine ⟨?_, fun j hj hown => ?_⟩
  · split
    · exact .inr rfl
    · exact .inl rfl
  · rw [if_neg, hown]
    rintro ⟨-, -, hown'⟩
    rw [hown] at hown'
    cases hown'
    exact hj rfl

/-- The owner of a row that it takes out of `approved` is done with it. -/
theorem reqOwnerAfter_done (h : q'.burnStartedAt = q.burnStartedAt) (hq : q.status = .approved)
    (hs : q'.status ≠ .approved) (howner : owner = some i) :
    reqOwnerAfter i (some q) q' owner = none := by
  have hx : q'.burnStartedAt = (some q).bind (·.burnStartedAt) := h
  have hmap : (some q).map (·.status) = some .approved := congrArg some hq
  unfold reqOwnerAfter
  rw [if_pos hx, if_pos ⟨hmap, hs, howner⟩]

theorem reqOwnerAfter_held (h : q'.burnStartedAt = q.burnStartedAt) (hs : q'.status = q.status) :
    reqOwnerAfter i (some q) q' owner = owner := by
  have hx : q'.burnStartedAt = (some q).bind (·.burnStartedAt) := h
  unfold reqOwnerAfter
  rw [if_pos hx, if_neg]
  rintro ⟨hq, hne, -⟩
  exact hne (hs.trans (Option.some.inj hq))

theorem reqOwnerAfter_taken {T : Nat} (h : q'.burnStartedAt = some T)
    (hne : q.burnStartedAt ≠ some T) : reqOwnerAfter i (some q) q' owner = some i := by
  have hx : q'.burnStartedAt ≠ (some q).bind (·.burnStartedAt) := by
    rw [h]
    exact Ne.symm hne
  have hsome : q'.burnStartedAt.isSome = true := by rw [h]; rfl
  unfold reqOwnerAfter
  rw [if_neg hx, if_pos hsome]

/-- A stored row may be put back with its burn and its claim as they are. -/
theorem CashOutRequest.Replaces.of_same
    (h : q'.Kept S s r (reqOwnerAfter i (some q) q' (s.reqOwner r)))
    (hsame : q.SameBurn q') : q'.Replaces S i s r (some q) where
  kept := h
  later := fun y hy => Option.some.inj hy ▸ hsame.later
  spares := fun j hj howner y T hy _ => by
    cases hy
    exact .inr ⟨(reqOwnerAfter_same _ (x := some q) hsame.started).2 j hj howner, hsame⟩

theorem CashOutRequest.Replaces.refl (h : q.Kept S s r (s.reqOwner r)) :
    q.Replaces S i s r (some q) :=
  .of_same (h.disown (reqOwnerAfter_same _ (x := some q) rfl).1) (.refl q)

/-- Changes that only concern the approval and the texts. -/
structure CashOutRequest.Mild (q q' : CashOutRequest) : Prop where
  burn : q.SameBurn q'
  status : q'.status = q.status ∨
    (q.status = .requested ∧ (q'.status = .approved ∨ q'.status = .failed))

/-- **A MILD CHANGE** of what may be committed may be committed. -/
theorem CashOutRequest.Replaces.mild {x : Option CashOutRequest} (h : q.Replaces S i s r x)
    (hm : q.Mild q') (hfree : x.bind (·.burnStartedAt) = none → s.reqOwner r = none) :
    q'.Replaces S i s r x := by
  have hlater : ∀ y, x = some y → y.Later q' := fun y hy => (h.later y hy).trans hm.burn.later
  rcases hm.status with hs | ⟨hwas, hnow⟩
  · have howner : reqOwnerAfter i x q' (s.reqOwner r) = reqOwnerAfter i x q (s.reqOwner r) := by
      unfold reqOwnerAfter
      rw [hm.burn.started, hs]
    refine ⟨by rw [howner]; exact h.kept.of_same hm.burn hs, hlater, fun j hj hown y T hy hT => ?_⟩
    rw [howner]
    exact (h.spares j hj hown y T hy hT).imp id fun ⟨ho, hsame⟩ => ⟨ho, hsame.trans hm.burn⟩
  · -- the row has never been claimed
    obtain ⟨hhash, hstarted⟩ := h.kept.fresh hwas
    have hnone : q'.burnStartedAt = none := hm.burn.started.trans hstarted
    have howner : reqOwnerAfter i x q' (s.reqOwner r) = none := by
      unfold reqOwnerAfter
      rw [hnone]
      split
      next he =>
        rw [hfree he.symm]
        exact ite_self _
      · rfl
    have hcompleted : q'.status ≠ .completed := by
      rcases hnow with he | he <;> rw [he] <;> decide
    have hrequested : q'.status ≠ .requested := by
      rcases hnow with he | he <;> rw [he] <;> decide
    refine ⟨?_, hlater, fun j hj hown y T hy hT => ?_⟩
    · rw [howner]
      exact h.kept.finish hm.burn hrequested (fun he => absurd he hcompleted)
        (fun _ _ _ k hk => by rw [hhash] at hk; cases hk) (fun _ _ _ _ j T hj => by cases hj)
        (.inr rfl)
    · rcases h.spares j hj hown y T hy hT with hlt | ⟨-, hsame⟩
      · exact .inl hlt
      · rw [hsame.started, hT] at hstarted
        cases hstarted

theorem CashOutRequest.Replaces.onward {x : Option CashOutRequest} (h : q'.Replaces S i s r x)
    (ho : Onward s s') (howner : s'.reqOwner r = s.reqOwner r) : q'.Replaces S i s' r x where
  kept := by rw [howner]; exact h.kept.onward ho
  later := h.later
  spares := fun j hj hown y T hy hT => by
    rw [howner] at hown ⊢
    have hclock := ho.clock
    rcases h.spares j hj hown y T hy hT with hlt | hsame
    · exact .inl (by omega)
    · exact .inr hsame

/-! ## §4. The protocol. -/

/-- Every stored row is kept, and every burn handed over is the one on its row. -/
structure Burns (S : Setting) (s : World) : Prop where
  rows : ∀ r q, s.reqs r = some q → q.Kept S s r (s.reqOwner r)
  free : ∀ r, s.reqs r = none → s.reqOwner r = none
  recorded : ∀ (h : Nat) (b : Blob) (r : Nat), s.blobs[h]? = some b → b.purpose = .burn r →
    s.handed h = true → ∃ q, s.reqs r = some q ∧ q.xrplBurnTxHash = some h

/-- What program `j` relies on: hashes stay, and a row in its own hands is left alone until
it has timed out. -/
structure Attends (j : Nat) (s s' : World) : Prop where
  clock : s.clock ≤ s'.clock
  rows : ∀ r q, s.reqs r = some q → ∃ q', s'.reqs r = some q' ∧ q.Later q'
  inHand : ∀ r q T, s.reqOwner r = some j → s.reqs r = some q → q.burnStartedAt = some T →
    s'.clock ≤ T + jobTimeout →
    s'.reqOwner r = some j ∧ ∃ q', s'.reqs r = some q' ∧ q.SameBurn q'

theorem Attends.of_same (hc : s.clock ≤ s'.clock) (hr : s'.reqs = s.reqs)
    (ho : s'.reqOwner = s.reqOwner) : Attends j s s' where
  clock := hc
  rows := fun r q hq => ⟨q, by rw [hr]; exact hq, .refl q⟩
  inHand := fun r q T hown hq _ _ => by
    rw [ho, hr]
    exact ⟨hown, q, hq, .refl q⟩

theorem Attends.trans {s'' : World} (h : Attends j s s') (h' : Attends j s' s'') :
    Attends j s s'' where
  clock := Nat.le_trans h.clock h'.clock
  rows := fun r q hq => by
    obtain ⟨q₁, hq₁, hl₁⟩ := h.rows r q hq
    obtain ⟨q₂, hq₂, hl₂⟩ := h'.rows r q₁ hq₁
    exact ⟨q₂, hq₂, hl₁.trans hl₂⟩
  inHand := fun r q T hown hq hT hle => by
    have hclock := h'.clock
    obtain ⟨hown₁, q₁, hq₁, hs₁⟩ := h.inHand r q T hown hq hT (by omega)
    obtain ⟨hown₂, q₂, hq₂, hs₂⟩ := h'.inHand r q₁ T hown₁ hq₁ (hs₁.started.trans hT) hle
    exact ⟨hown₂, q₂, hq₂, hs₁.trans hs₂⟩

def burning (S : Setting) : Protocol (rules S) where
  known := fun _ => True
  inv := Burns S
  rely := Attends
  refl := fun _ _ => .of_same (Nat.le_refl _) rfl rfl
  trans := Attends.trans

theorem Burns.of_same (h : Burns S s) (ho : Onward s s') (hr : s'.reqs = s.reqs)
    (howner : s'.reqOwner = s.reqOwner)
    (hnew : ∀ (k : Nat) (b : Blob) (r : Nat), s'.blobs[k]? = some b → b.purpose = .burn r →
      s'.handed k = true → (s.blobs[k]? = some b ∧ s.handed k = true) ∨
        ∃ q, s.reqs r = some q ∧ q.xrplBurnTxHash = some k) : Burns S s' where
  rows := fun r q hq => by
    rw [hr] at hq
    rw [howner]
    exact (h.rows r q hq).onward ho
  free := fun r hn => by
    rw [hr] at hn
    rw [howner]
    exact h.free r hn
  recorded := fun k b r hb hp hk => by
    rw [hr]
    rcases hnew k b r hb hp hk with ⟨hb', hk'⟩ | hrow
    · exact h.recorded k b r hb' hp hk'
    · exact hrow

/-- Any call but COMMIT keeps the protocol, provided a burn that is handed over is the one
on its row. -/
theorem burning_keeps (hh : (burning S).Here i l s) (ho : o ≠ .commit) {r : Except Exn o.Res}
    (hx : exec S i o c l s = some (r, l', s'))
    (hnew : ∀ m k, o = .handOver (.burn m) k →
      ∃ q, s.reqs m = some q ∧ q.xrplBurnTxHash = some k) :
    (burning S).keeps i s s' := by
  have hu := exec_uncommitted ho hx
  have hon : Onward s s' := exec_onward hh.session.locked hx
  refine ⟨Burns.of_same hh.inv hon hu.reqs hu.reqOwner fun k b m hb hp hk => ?_,
    fun j _ => .of_same hon.clock hu.reqs hu.reqOwner⟩
  rcases exec_handed hx hk with hk' | ⟨purpose, b', rfl, hb', hp'⟩
  · obtain ⟨b', hb'⟩ := hh.world.regular.handed k hk'
    obtain rfl : b' = b := Option.some.inj ((hon.blobs k b' hb').symm.trans hb)
    exact .inl ⟨hb', hk'⟩
  · obtain rfl : b' = b := Option.some.inj ((hon.blobs k b' hb').symm.trans hb)
    rw [hp] at hp'
    subst hp'
    exact .inr (hnew m k rfl)

theorem Burns.commit (h : Burns S s)
    (hw : ∀ r q', l.reqWrites r = some q' → q'.Replaces S i s r (s.reqs r)) :
    Burns S (s.commit i l) ∧ ∀ j, j ≠ i → Attends j s (s.commit i l) := by
  have hunwritten : ∀ r, l.reqWrites r = none → (s.commit i l).reqs r = s.reqs r ∧
      (s.commit i l).reqOwner r = s.reqOwner r := fun r hn =>
    Table.unwritten_commit (T := .cashouts) hn
  have hwritten : ∀ r q', l.reqWrites r = some q' → (s.commit i l).reqs r = some q' ∧
      (s.commit i l).reqOwner r = reqOwnerAfter i (s.reqs r) q' (s.reqOwner r) := fun r q' hq' => by
    refine ⟨?_, Table.owner_commit (T := .cashouts) hq'⟩
    show (l.reqWrites r).or (s.reqs r) = some q'
    rw [hq']
    rfl
  have hrows : ∀ r q, s.reqs r = some q → ∃ q', (s.commit i l).reqs r = some q' ∧ q.Later q' := by
    intro r q hq
    cases hwr : l.reqWrites r with
    | none => exact ⟨q, (hunwritten r hwr).1.trans hq, .refl q⟩
    | some q' => exact ⟨q', (hwritten r _ hwr).1, (hw r q' hwr).later q hq⟩
  -- row by row: one that is not written is as it was, one that is written replaces it
  refine ⟨⟨fun r q hq => ?_, fun r hn => ?_, fun k b r hb hp hk => ?_⟩,
    fun j hj => ⟨Nat.le_refl _, hrows, fun r q T hown hq hT hle => ?_⟩⟩
  · cases hwr : l.reqWrites r with
    | none =>
      rw [(hunwritten r hwr).1] at hq
      rw [(hunwritten r hwr).2]
      exact (h.rows r q hq).onward commit_onward
    | some q' =>
      rw [(hwritten r _ hwr).1] at hq
      cases hq
      rw [(hwritten r _ hwr).2]
      exact (hw r _ hwr).kept.onward commit_onward
  · cases hwr : l.reqWrites r with
    | none =>
      rw [(hunwritten r hwr).1] at hn
      rw [(hunwritten r hwr).2]
      exact h.free r hn
    | some q' =>
      rw [(hwritten r _ hwr).1] at hn
      cases hn
  · obtain ⟨q, hq, hhash⟩ := h.recorded k b r hb hp hk
    obtain ⟨q', hq', hlater⟩ := hrows r q hq
    exact ⟨q', hq', hlater k hhash⟩
  · cases hwr : l.reqWrites r with
    | none => exact ⟨(hunwritten r hwr).2.trans hown, q, (hunwritten r hwr).1.trans hq, .refl q⟩
    | some q' =>
      -- a claim of another that is not yet stale is spared
      rcases (hw r q' hwr).spares j hj hown q T hq hT with hlt | ⟨howner, hsame⟩
      · have hc : (s.commit i l).clock = s.clock := rfl
        omega
      · exact ⟨(hwritten r _ hwr).2.trans howner, q', (hwritten r _ hwr).1, hsame⟩

/-! ## §5. Programs whose every statement is harmless. -/

/-- A row as a request inserts it. -/
structure CashOutRequest.New (q : CashOutRequest) : Prop where
  status : q.status = .requested
  hash : q.xrplBurnTxHash = none
  started : q.burnStartedAt = none

theorem CashOutRequest.New.replaces (h : q.New) (howner : s.reqOwner r = none) :
    q.Replaces S i s r none where
  kept := by
    have hnone : reqOwnerAfter i none q (s.reqOwner r) = none := by
      rw [howner]
      rcases (reqOwnerAfter_same (i := i) none (x := none) h.started).1 with he | he <;>
        exact he
    rw [hnone]
    exact
      { live := fun k hk => by rw [h.hash] at hk; cases hk
        fresh := fun _ => ⟨h.hash, h.started⟩
        started := fun T hT => by rw [h.started] at hT; cases hT
        inHand := fun hs => by cases hs
        burned := fun hs => by rw [h.status] at hs; cases hs
        lost := fun _ _ hs => by rw [h.status] at hs; cases hs
        letGo := fun _ _ hs => by rw [h.status] at hs; cases hs }
  later := fun y hy => by cases hy
  spares := fun _ _ _ y _ hy => by cases hy

/-- A call that no burn depends on. -/
def Op.Sparing : Op → Prop
  | .updateReq _ cond values => ∀ now q, cond q = true → q.Mild (values now q)
  | .insertReq row => ∀ key now, (row key now).New
  | .handOver (.burn _) _ => False
  | _ => True

/-- What a session has written may be committed. -/
def Session.Spares (S : Setting) (i : Nat) (l : Session) (s : World) : Prop :=
  l.failed = true ∨ ∀ r q', l.reqWrites r = some q' → q'.Replaces S i s r (s.reqs r)

/-- A row that nobody has claimed is in nobody's hands. -/
theorem Burns.unclaimed (h : Burns S s) (hn : (s.reqs r).bind (·.burnStartedAt) = none) :
    s.reqOwner r = none := by
  cases hq : s.reqs r with
  | none => exact h.free r hq
  | some q =>
    rw [hq] at hn
    have hstarted : q.burnStartedAt = none := hn
    cases howner : s.reqOwner r with
    | none => rfl
    | some j =>
      have hsome := (h.rows r q hq).inHand (by rw [howner]; rfl)
      rw [hstarted] at hsome
      cases hsome

/-- A session reads what may be committed. -/
theorem Session.Spares.read (h : l.Spares S i s) (hf : l.failed = false) (hinv : Burns S s)
    (hq : l.req s r = some q) : q.Replaces S i s r (s.reqs r) := by
  rcases Session.req_cases hq with hw | ⟨-, hs⟩
  · exact (h.resolve_left (by simp [hf])) r q hw
  · rw [hs]
    exact .refl (hinv.rows r q hs)

theorem Session.Spares.call (h : l.Spares S i s) (hh : (burning S).Here i l s) (ho : o ≠ .commit)
    (hm : o.Sparing) {r : Except Exn o.Res} (hx : exec S i o c l s = some (r, l', s')) :
    l'.Spares S i s' := by
  have hu := exec_uncommitted ho hx
  have hon : Onward s s' := exec_onward hh.session.locked hx
  have hready : l.Spares S i s' := h.imp id fun hw m q' hq' => by
    rw [show s'.reqs m = s.reqs m from congrFun hu.reqs m]
    exact (hw m q' hq').onward hon (congrFun hu.reqOwner m)
  have hsame : l'.reqWrites = l.reqWrites → l'.Spares S i s' := by
    intro hw
    rcases hready with hf | hw'
    · exact .inl (exec_staysFailed hf hx)
    · exact .inr fun m q' hq' => hw' m q' (hw ▸ hq')
  -- one more row written by a statement that went through
  have hwrite : ∀ m q', l.failed = false → q'.Replaces S i s' m (s'.reqs m) →
      l'.reqWrites = update l.reqWrites m (some q') → l'.Spares S i s' := by
    intro m q' hf hq' hw
    refine .inr fun m' y hy => ?_
    rw [hw] at hy
    by_cases hm' : m' = m
    · subst hm'
      rw [Function.update_self] at hy
      cases hy
      exact hq'
    · rw [Function.update_of_ne hm'] at hy
      exact hready.resolve_left (by simp [hf]) m' y hy
  cases o with
  | commit => exact absurd rfl ho
  | updateReq m cond values =>
    rcases exec_updateReq hx with ⟨-, hf, -⟩ | ⟨-, rfl, -⟩ | ⟨q, -, hf, hq, hc, rfl, -⟩
    · exact .inl hf
    · exact hready
    · refine hwrite m _ hf ?_ rfl
      have hread : q.Replaces S i s' m (s'.reqs m) := by
        rw [show s'.reqs m = s.reqs m from congrFun hu.reqs m]
        exact (h.read hf hh.inv hq).onward hon (congrFun hu.reqOwner m)
      refine hread.mild (hm s'.clock q hc) fun hn => ?_
      rw [show s'.reqs m = s.reqs m from congrFun hu.reqs m] at hn
      exact (congrFun hu.reqOwner m).trans (hh.inv.unclaimed hn)
  | insertReq row =>
    rcases exec_insertReq hx with ⟨-, hf, -⟩ | ⟨-, hf, hn, rfl, -, -⟩
    · exact .inl hf
    · obtain ⟨-, hstored⟩ := Option.or_eq_none_iff.mp hn
      refine hwrite s.nextId _ hf ?_ rfl
      rw [show s'.reqs s.nextId = none from (congrFun hu.reqs _).trans hstored]
      exact (hm s.nextId s'.clock).replaces ((congrFun hu.reqOwner _).trans (hh.inv.free _ hstored))
  | _ => exact hsame (exec_sameReqs rfl hx).1

/-! ## §6. The guard. -/

/-- The burn protocol, kept by committing rows that replace what is stored. -/
def burns (S : Setting) : Guard (burning S) .cashouts where
  Replaces := fun i s r x q' => q'.Replaces S i s r x
  sees := fun hg hs hw h => by
    obtain ⟨-, -, -, howner⟩ :=
      hs.moves.others.reqLock _ (Table.written_locked (T := .cashouts) hg.session.locked hw)
    exact h.onward hs.moves.others.onward howner
  own := fun hh ho hx h =>
    h.onward (exec_onward hh.session.locked hx) (congrFun (exec_uncommitted ho hx).reqOwner _)
  plain := fun hh ho hsub hx => by
    have hu := exec_uncommitted ho hx
    have hon := exec_onward hh.session.locked hx
    refine ⟨burning_keeps hh ho hx fun m k he => ?_, .of_same hon.clock hu.reqs hu.reqOwner⟩
    subst he
    cases hsub
  tick := fun {i} {l} {s} c hh => by
    have hon : Onward s (s.tick S c) := Others.tick.onward (j := i)
    have hattends : ∀ j, Attends j s (s.tick S c) := fun j => .of_same hon.clock rfl rfl
    exact ⟨⟨Burns.of_same hh.inv hon rfl rfl fun k b r hb _ hk => .inl ⟨hb, hk⟩,
      fun j _ => hattends j⟩, hattends i⟩
  commit := fun {i} {l} {s} c hh hw => by
    have hon : Onward s (s.tick S c) := Others.tick.onward (j := i)
    have hinv : Burns S (s.tick S c) :=
      Burns.of_same hh.inv hon rfl rfl fun k b r hb _ hk => .inl ⟨hb, hk⟩
    have hattends : ∀ j, Attends j s (s.tick S c) := fun j => .of_same hon.clock rfl rfl
    obtain ⟨hnew, hj⟩ := Burns.commit (i := i) (l := l) hinv fun r q' hq' =>
      (hw r q' hq').onward hon rfl
    exact ⟨hnew, fun j hij => (hattends j).trans (hj j hij)⟩
  commitClear := fun {i} {l} {s} c hh hn => by
    have hon : Onward s (s.tick S c) := Others.tick.onward (j := i)
    refine .of_same hon.clock (funext fun r => ?_) (funext fun r => ?_)
    · exact (Table.unwritten_commit (T := .cashouts) (s := s.tick S c) (hn r)).1
    · exact (Table.unwritten_commit (T := .cashouts) (s := s.tick S c) (hn r)).2
  Idle := Op.Sparing
  idle := fun {i} {o} {c} {l} {s} {r} {l'} {s'} hm ho hh h hx => by
    have hready : l.Spares S i s := h
    refine ⟨burning_keeps hh ho hx fun m k he => ?_, hready.call hh ho hm hx⟩
    subst he
    exact hm.elim

theorem sparing_plain : ∀ o : Op, o.isBasic = true → o.Sparing := by
  intro o h
  cases o <;> trivial

/-- **HARMLESS PROGRAMS** keep a session ready at every step. -/
theorem spared_of_uses {α : Type} {p : Program α} (hu : Prog.Uses Op.Sparing p)
    (h : l.Clear .cashouts) :
    Safe (burning S) i (fun _ _ _ => True) (fun _ _ _ => True) p l s :=
  Guard.ready_of_uses (G := burns S) hu (Guard.ready_of_clear h)

/-- What a write finds. -/
theorem burns_writesOver {cond : CashOutRequest → Bool}
    {values : Nat → CashOutRequest → CashOutRequest}
    (h : ∀ s₁ c (r' : Except Exn Bool) l' s' q, (burning S).Here i l s₁ →
      (burns S).Along i l s l s₁ →
      exec S i (.updateReq r cond values) c l s₁ = some (r', l', s') → l.failed = false →
      s₁.reqs r = some q → cond q = true → Onward s₁ s' → s'.reqOwner r = s₁.reqOwner r →
      q.Kept S s' r (s'.reqOwner r) → (values s'.clock q).Replaces S i s' r (some q)) :
    (burns S).WritesOver i r cond values l s := by
  intro s₁ c r' l' s' q hh ha hx hr hf hstored hcond
  have hon : Onward s₁ s' := exec_onward hh.session.locked hx
  have howner : s'.reqOwner r = s₁.reqOwner r :=
    congrFun (exec_uncommitted (nofun : Op.updateReq r cond values ≠ .commit) hx).reqOwner r
  refine h s₁ c r' l' s' q hh ha hx hf hstored hcond hon howner ?_
  rw [howner]
  exact (hh.inv.rows r q hstored).onward hon

end Orbyt
