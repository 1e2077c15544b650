/-
  Orbyt.Invariants.Settlement — at most one attempt that may still be paid

  A transaction's row names every payment ever signed for it: the live attempt in its
  own fields, retired ones in `settlementPreviousAttempts`.  A payment is on its row
  before it is handed over, and a worker signs only for a row that is in its own hands
  and carries no hash.  A row is in the hands of the worker that claimed it for
  `jobTimeout`; nobody takes it over before that.

  Assumed of a run: workers are punctual, time passes with every call, and either one
  consultation sees one ledger or a retry completes a row only with the hash it still
  carries.

  Main results:
    * `Txn.Kept` — what every stored row satisfies; `Txn.Replaces` — what may be
      committed over one;
    * `payments` — the protocol is kept by committing rows that replace what is stored;
    * `mild_of_uses` — programs whose every statement is harmless keep it.
-/
import Orbyt.Rules.Writes

namespace Orbyt

open Interleave
open ValidatedLedger
open Function (update)
open SettlementWorker (claimable claimed isIn completed failed requeued remembered)
open CashinService (isPending received cashinFailed isStale expired isUntouched retired flaggedAs)

variable {S : Setting} {i j : Nat} {o : Op} {c : Choice} {l l' : Session} {s s' : World}

/-! ## §1. The attempts of a row. -/

/-- Every payment signed for the row, in the order they were retired; the live one is last. -/
def Txn.hashes (x : Txn) : List Nat :=
  x.settlementPreviousAttempts.map (·.txHash) ++ x.xrplTxHash.toList

/-- The live attempt and the retired ones are the same. -/
structure Txn.SameAttempts (x x' : Txn) : Prop where
  hash : x'.xrplTxHash = x.xrplTxHash
  last : x'.settlementLastLedgerSequence = x.settlementLastLedgerSequence
  submitted : x'.settlementSubmittedLedgerIndex = x.settlementSubmittedLedgerIndex
  previous : x'.settlementPreviousAttempts = x.settlementPreviousAttempts

theorem Txn.SameAttempts.refl (x : Txn) : x.SameAttempts x := ⟨rfl, rfl, rfl, rfl⟩

theorem Txn.SameAttempts.trans {x x' x'' : Txn} (h : x.SameAttempts x') (h' : x'.SameAttempts x'') :
    x.SameAttempts x'' where
  hash := h'.hash.trans h.hash
  last := h'.last.trans h.last
  submitted := h'.submitted.trans h.submitted
  previous := h'.previous.trans h.previous

theorem Txn.SameAttempts.hashes {x x' : Txn} (h : x.SameAttempts x') : x'.hashes = x.hashes := by
  unfold Txn.hashes
  rw [h.previous, h.hash]

/-- `x'` is the same row as `x`, or a later version that has forgotten no payment. -/
structure Txn.Later (x x' : Txn) : Prop where
  stamp : x.updatedAt ≤ x'.updatedAt
  same : x'.updatedAt = x.updatedAt → x' = x
  hashes : ∀ h ∈ x.hashes, h ∈ x'.hashes

theorem Txn.Later.refl (x : Txn) : x.Later x := ⟨Nat.le_refl _, fun _ => rfl, fun _ h => h⟩

theorem Txn.Later.trans {x x' x'' : Txn} (h : x.Later x') (h' : x'.Later x'') : x.Later x'' where
  stamp := Nat.le_trans h.stamp h'.stamp
  same := fun he => by
    have hle := h.stamp
    have hle' := h'.stamp
    have h₂ : x'' = x' := h'.same (by omega)
    have h₁ : x' = x := h.same (by omega)
    rw [h₂, h₁]
  hashes := fun k hk => h'.hashes k (h.hashes k hk)

/-! ## §2. What every stored row satisfies. -/

/-- The row `x` of `t`, in the hands of `owner`. -/
structure Txn.Kept (S : Setting) (s : World) (t : Nat) (owner : Option (Nat × Nat)) (x : Txn) :
    Prop where
  stamp : x.updatedAt ≤ s.clock
  unsigned : x.settlementStatus = .queued ∨ x.settlementStatus = .notQueued → x.xrplTxHash = none
  noRange : x.xrplTxHash = none →
    x.settlementLastLedgerSequence = none ∧ x.settlementSubmittedLedgerIndex = none
  live : ∀ h, x.xrplTxHash = some h →
    s.Signed S (.payment t) h x.settlementLastLedgerSequence x.settlementSubmittedLedgerIndex
  signedBefore : ∀ (h : Nat) (b : Blob), x.xrplTxHash = some h → s.blobs[h]? = some b →
    b.signedAt ≤ x.updatedAt
  previous : ∀ a ∈ x.settlementPreviousAttempts,
    s.Signed S (.payment t) a.txHash a.lastLedgerSequence a.submittedLedgerIndex
  order : x.hashes.Pairwise (· < ·)
  dead : S.oneLedgerView = true → ∀ a ∈ x.settlementPreviousAttempts, s.Dead a.txHash
  paid : x.settlementStatus = .completed →
    x.settledAt.isSome = true ∧ ∃ h, x.xrplTxHash = some h ∧ s.Paid h
  inHand : owner.isSome = true ↔ x.settlementStatus = .processing
  claim : ∀ k T, owner = some (k, T) → T ≤ x.updatedAt ∧
    ∀ (h : Nat) (b : Blob), x.xrplTxHash = some h → s.blobs[h]? = some b → T ≤ b.signedAt

variable {t : Nat} {owner : Option (Nat × Nat)} {x x' : Txn}

theorem Txn.Kept.onward (h : x.Kept S s t owner) (ho : Onward s s') : x.Kept S s' t owner where
  stamp := Nat.le_trans h.stamp ho.clock
  unsigned := h.unsigned
  noRange := h.noRange
  live := fun k hk => (h.live k hk).onward ho
  signedBefore := fun k b hk hb => by
    obtain ⟨b', hb', -⟩ := (h.live k hk).blob
    obtain rfl : b' = b := Option.some.inj ((ho.blobs k b' hb').symm.trans hb)
    exact h.signedBefore k b' hk hb'
  previous := fun a ha => (h.previous a ha).onward ho
  order := h.order
  dead := fun hS a ha => by
    obtain ⟨b, hb, -⟩ := (h.previous a ha).blob
    exact (h.dead hS a ha).onward ho hb
  paid := fun hc => by
    obtain ⟨hsettled, k, hk, hp⟩ := h.paid hc
    obtain ⟨b, hb, -⟩ := (h.live k hk).blob
    exact ⟨hsettled, k, hk, hp.onward ho hb⟩
  inHand := h.inHand
  claim := fun k T hT => by
    obtain ⟨hle, hblob⟩ := h.claim k T hT
    refine ⟨hle, fun m b hm hb => ?_⟩
    obtain ⟨b', hb', -⟩ := (h.live m hm).blob
    obtain rfl : b' = b := Option.some.inj ((ho.blobs m b' hb').symm.trans hb)
    exact hblob m b' hm hb'

/-- Every hash on a row is a signature that exists. -/
theorem Txn.Kept.hash_lt (h : x.Kept S s t owner) {k : Nat} (hk : k ∈ x.hashes) :
    k < s.blobs.length := by
  unfold Txn.hashes at hk
  rcases List.mem_append.mp hk with hp | hl
  · obtain ⟨a, ha, rfl⟩ := List.mem_map.mp hp
    exact (h.previous a ha).lt
  · exact (h.live k (Option.mem_toList.mp hl)).lt

/-- What the ledger has paid is the live attempt. -/
theorem Txn.Kept.live_of_paid (h : x.Kept S s t owner) (hS : S.oneLedgerView = true) {k : Nat}
    (hk : k ∈ x.hashes) (hp : s.Paid k) : x.xrplTxHash = some k := by
  unfold Txn.hashes at hk
  rcases List.mem_append.mp hk with hold | hl
  · obtain ⟨a, ha, rfl⟩ := List.mem_map.mp hold
    exact absurd hp (h.dead hS a ha).not_paid
  · exact Option.mem_toList.mp hl

/-- A change of the row that leaves its attempts and its status as they are. -/
theorem Txn.Kept.of_same (h : x.Kept S s t owner) (hsame : x.SameAttempts x')
    (hstatus : x'.settlementStatus = x.settlementStatus) (hsettled : x'.settledAt = x.settledAt)
    (hstamp : x.updatedAt ≤ x'.updatedAt) (hclock : x'.updatedAt ≤ s.clock) :
    x'.Kept S s t owner where
  stamp := hclock
  unsigned := by rw [hstatus, hsame.hash]; exact h.unsigned
  noRange := by rw [hsame.hash, hsame.last, hsame.submitted]; exact h.noRange
  live := by rw [hsame.hash, hsame.last, hsame.submitted]; exact h.live
  signedBefore := fun k b hk hb => by
    rw [hsame.hash] at hk
    exact Nat.le_trans (h.signedBefore k b hk hb) hstamp
  previous := by rw [hsame.previous]; exact h.previous
  order := by rw [hsame.hashes]; exact h.order
  dead := by rw [hsame.previous]; exact h.dead
  paid := by rw [hstatus, hsettled, hsame.hash]; exact h.paid
  inHand := by rw [hstatus]; exact h.inHand
  claim := fun k T hT => by
    obtain ⟨hle, hblob⟩ := h.claim k T hT
    rw [hsame.hash]
    exact ⟨Nat.le_trans hle hstamp, hblob⟩

/-- A row that leaves `processing`, or was not there, with its attempts as they are. -/
theorem Txn.Kept.leave (h : x.Kept S s t owner) (hsame : x.SameAttempts x')
    (hstamp : x.updatedAt ≤ x'.updatedAt) (hclock : x'.updatedAt ≤ s.clock)
    (hleft : x'.settlementStatus ≠ .processing)
    (hunsigned : x'.settlementStatus = .queued ∨ x'.settlementStatus = .notQueued →
      x.xrplTxHash = none)
    (hpaid : x'.settlementStatus = .completed →
      x'.settledAt.isSome = true ∧ ∃ k, x.xrplTxHash = some k ∧ s.Paid k) :
    x'.Kept S s t none where
  stamp := hclock
  unsigned := fun hs => hsame.hash.trans (hunsigned hs)
  noRange := by rw [hsame.hash, hsame.last, hsame.submitted]; exact h.noRange
  live := by rw [hsame.hash, hsame.last, hsame.submitted]; exact h.live
  signedBefore := fun k b hk hb => by
    rw [hsame.hash] at hk
    exact Nat.le_trans (h.signedBefore k b hk hb) hstamp
  previous := by rw [hsame.previous]; exact h.previous
  order := by rw [hsame.hashes]; exact h.order
  dead := by rw [hsame.previous]; exact h.dead
  paid := by rw [hsame.hash]; exact hpaid
  inHand := by simp [hleft]
  claim := fun k T hT => by cases hT

/-- A row that a worker takes up. -/
theorem Txn.Kept.take (h : x.Kept S s t owner) (hsame : x.SameAttempts x')
    (hnone : x.xrplTxHash = none)
    (hclock : x'.updatedAt ≤ s.clock) (hp : x'.settlementStatus = .processing) :
    x'.Kept S s t (some (i, x'.updatedAt)) where
  stamp := hclock
  unsigned := fun _ => hsame.hash.trans hnone
  noRange := by rw [hsame.hash, hsame.last, hsame.submitted]; exact h.noRange
  live := by rw [hsame.hash, hsame.last, hsame.submitted]; exact h.live
  signedBefore := fun k b hk _ => by
    rw [hsame.hash, hnone] at hk
    cases hk
  previous := by rw [hsame.previous]; exact h.previous
  order := by rw [hsame.hashes]; exact h.order
  dead := by rw [hsame.previous]; exact h.dead
  paid := fun hc => by rw [hp] at hc; cases hc
  inHand := by simp [hp]
  claim := fun k T hT => by
    obtain ⟨rfl, rfl⟩ : i = k ∧ x'.updatedAt = T := by simpa using hT
    refine ⟨Nat.le_refl _, fun m b hm _ => ?_⟩
    rw [hsame.hash, hnone] at hm
    cases hm

theorem Txn.hashes_unsigned (h : x.xrplTxHash = none) :
    x.hashes = x.settlementPreviousAttempts.map (·.txHash) := by
  unfold Txn.hashes
  rw [h]
  exact List.append_nil _

/-- The new payment `k`, stored on a row that carries none. -/
theorem Txn.Kept.remember {T k n now : Nat} {b : Blob} (h : x.Kept S s t (some (j, T)))
    (hnone : x.xrplTxHash = none) (hclock : now ≤ s.clock) (hb : s.blobs[k]? = some b)
    (hpurpose : b.purpose = .payment t) (hn : n ≤ b.signedIndex)
    (hexpires : S.carriesLastLedger = true → b.lastLedgerSequence.isSome = true)
    (hT : T ≤ b.signedAt) (hbefore : b.signedAt ≤ now) (hfresh : ∀ m ∈ x.hashes, m < k) :
    (remembered ⟨k, b.lastLedgerSequence, some n⟩ now x).Kept S s t (some (j, T)) := by
  have hproc : x.settlementStatus = .processing := h.inHand.mp rfl
  exact
    { stamp := hclock
      unsigned := fun hs => by
        have hs' : x.settlementStatus = .queued ∨ x.settlementStatus = .notQueued := hs
        rw [hproc] at hs'
        rcases hs' with hs' | hs' <;> cases hs'
      noRange := nofun
      live := fun m hm => by
        cases hm
        exact .of_new hb hpurpose hn hexpires
      signedBefore := fun m b' hm hb' => by
        cases hm
        obtain rfl : b = b' := Option.some.inj (hb.symm.trans hb')
        exact hbefore
      previous := h.previous
      order := by
        show (x.settlementPreviousAttempts.map (·.txHash) ++ [k]).Pairwise (· < ·)
        rw [← Txn.hashes_unsigned hnone, List.pairwise_append]
        refine ⟨h.order, List.pairwise_singleton _ _, fun m hm m' hm' => ?_⟩
        rw [List.mem_singleton.mp hm']
        exact hfresh m hm
      dead := h.dead
      paid := fun hs => by
        have hs' : x.settlementStatus = .completed := hs
        rw [hproc] at hs'
        cases hs'
      inHand := ⟨fun _ => hproc, fun _ => rfl⟩
      claim := fun k' T' he => by
        cases he
        refine ⟨Nat.le_trans hT hbefore, fun m b' hm hb' => ?_⟩
        cases hm
        obtain rfl : b = b' := Option.some.inj (hb.symm.trans hb')
        exact hT }

/-! ## §3. What may be committed over a row. -/

/-- Program `i` may commit `x'` over `x`: the row is kept, no payment is forgotten, and the
row is not taken out of the hands of a worker that may still move. -/
structure Txn.Replaces (S : Setting) (i : Nat) (s : World) (t : Nat) (x : Option Txn) (x' : Txn) :
    Prop where
  kept : x'.Kept S s t (ownerAfter i x x' (s.txnOwner t))
  taken : x'.settlementStatus = .processing →
    x.map (·.settlementStatus) = some .processing ∨ x'.xrplTxHash = none
  later : ∀ y, x = some y → y.Later x'
  spares : ∀ k T, s.txnOwner t = some (k, T) → k ≠ i →
    T + jobTimeout < s.clock ∨
      (ownerAfter i x x' (s.txnOwner t) = some (k, T) ∧ ∀ y, x = some y → y.SameAttempts x')

theorem ownerAfter_left {x : Option Txn} (h : x'.settlementStatus ≠ .processing) :
    ownerAfter i x x' owner = none := if_neg h

theorem ownerAfter_held (h : x.settlementStatus = .processing)
    (h' : x'.settlementStatus = .processing) : ownerAfter i (some x) x' owner = owner := by
  have hx : (some x).map (·.settlementStatus) = some .processing := congrArg some h
  unfold ownerAfter
  rw [if_pos h', if_pos hx]

theorem ownerAfter_taken {x : Option Txn} (h : x.map (·.settlementStatus) ≠ some .processing)
    (h' : x'.settlementStatus = .processing) :
    ownerAfter i x x' owner = some (i, x'.updatedAt) := by
  unfold ownerAfter
  rw [if_pos h', if_neg h]

/-- A stored row may be put back as it is. -/
theorem Txn.Replaces.refl (h : x.Kept S s t (s.txnOwner t)) : x.Replaces S i s t (some x) := by
  have howner : ownerAfter i (some x) x (s.txnOwner t) = s.txnOwner t := by
    by_cases hp : x.settlementStatus = .processing
    · exact ownerAfter_held hp hp
    · rw [ownerAfter_left hp]
      symm
      rw [← Option.not_isSome_iff_eq_none]
      exact fun hs => hp (h.inHand.mp hs)
  exact
    { kept := by rw [howner]; exact h
      taken := fun hp => .inl (congrArg some hp)
      later := fun y hy => Option.some.inj hy ▸ .refl x
      spares := fun k T hT _ => .inr ⟨howner.trans hT, fun y hy => Option.some.inj hy ▸ .refl x⟩ }

/-- Changes that only concern the cash-in, the queue and the flags. -/
structure Txn.Mild (x x' : Txn) : Prop where
  attempts : x.SameAttempts x'
  status : (x'.settlementStatus = x.settlementStatus ∧ x'.settledAt = x.settledAt) ∨
    ((x.settlementStatus = .queued ∨ x.settlementStatus = .notQueued) ∧
      (x'.settlementStatus = .queued ∨ x'.settlementStatus = .failed))

theorem Txn.Mild.later {y : Txn} (hm : x.Mild x') (hstamp : x.updatedAt < x'.updatedAt)
    (hy : y.Later x) : y.Later x' := by
  refine hy.trans ⟨Nat.le_of_lt hstamp, fun he => ?_, fun k hk => ?_⟩
  · omega
  · rw [hm.attempts.hashes]
    exact hk

/-- Whoever the row is not left to has timed out. -/
theorem Txn.Replaces.timedOut {x : Option Txn} {y : Txn} (h : y.Replaces S i s t x) {k T : Nat}
    (ho : s.txnOwner t = some (k, T)) (hk : k ≠ i)
    (hnot : ownerAfter i x y (s.txnOwner t) ≠ some (k, T)) : T + jobTimeout < s.clock := by
  rcases h.spares k T ho hk with hlt | ⟨he, -⟩
  · exact hlt
  · exact absurd he hnot

/-- **A MILD CHANGE** of what may be committed may be committed. -/
theorem Txn.Replaces.mild {x : Option Txn} {y : Txn} (h : y.Replaces S i s t x) (hm : y.Mild x')
    (hstamp : y.updatedAt < x'.updatedAt) (hclock : x'.updatedAt ≤ s.clock) :
    x'.Replaces S i s t x := by
  have hle : y.updatedAt ≤ x'.updatedAt := Nat.le_of_lt hstamp
  have hlater : ∀ y₀, x = some y₀ → y₀.Later x' := fun y₀ hy₀ =>
    hm.later hstamp (h.later y₀ hy₀)
  rcases hm.status with ⟨hs, hsettled⟩ | ⟨hwas, hnow⟩
  · have hkept := h.kept.of_same hm.attempts hs hsettled hle hclock
    by_cases hp : x'.settlementStatus = .processing
    · have hpy : y.settlementStatus = .processing := hs.symm.trans hp
      by_cases hx : x.map (·.settlementStatus) = some .processing
      · -- the row was and stays in the same hands
        obtain ⟨x₀, rfl, hx₀⟩ := Option.map_eq_some_iff.mp hx
        have ho : ownerAfter i (some x₀) x' (s.txnOwner t) =
          ownerAfter i (some x₀) y (s.txnOwner t) := by
          rw [ownerAfter_held hx₀ hp, ownerAfter_held hx₀ hpy]
        refine ⟨by rw [ho]; exact hkept, fun _ => .inl hx, hlater, fun k T hT hk => ?_⟩
        rcases h.spares k T hT hk with hlt | ⟨he, hsame⟩
        · exact .inl hlt
        · exact .inr ⟨ho.trans he, fun y₀ hy₀ => (hsame y₀ hy₀).trans hm.attempts⟩
      · -- the session has just taken it up itself
        have hnone : y.xrplTxHash = none := (h.taken hpy).resolve_left hx
        refine ⟨?_, fun _ => .inr (hm.attempts.hash.trans hnone), hlater, fun k T hT hk => .inl ?_⟩
        · rw [ownerAfter_taken hx hp]
          exact h.kept.take hm.attempts hnone hclock hp
        · refine h.timedOut hT hk ?_
          rw [ownerAfter_taken hx hpy]
          intro he
          cases he
          exact hk rfl
    -- in nobody's hands before and after
    · have hpy : y.settlementStatus ≠ .processing := fun he => hp (hs.trans he)
      refine ⟨?_, fun he => absurd he hp, hlater, fun k T hT hk => .inl (h.timedOut hT hk ?_)⟩
      · rw [ownerAfter_left hp]
        rw [ownerAfter_left hpy] at hkept
        exact hkept
      · rw [ownerAfter_left hpy]
        exact nofun
  -- the status moves, but between statuses in which nobody holds the row
  · have hpy : y.settlementStatus ≠ .processing := by
      rcases hwas with he | he <;> rw [he] <;> decide
    have hp : x'.settlementStatus ≠ .processing := by
      rcases hnow with he | he <;> rw [he] <;> decide
    have hcomp : x'.settlementStatus ≠ .completed := by
      rcases hnow with he | he <;> rw [he] <;> decide
    refine ⟨?_, fun he => absurd he hp, hlater, fun k T hT hk => .inl (h.timedOut hT hk ?_)⟩
    · rw [ownerAfter_left hp]
      exact h.kept.leave hm.attempts hle hclock hp (fun _ => h.kept.unsigned hwas)
        fun he => absurd he hcomp
    · rw [ownerAfter_left hpy]
      exact nofun

/-- A row taken out of the hands it was in by its owner, or once its owner has timed out. -/
theorem Txn.Replaces.of_kept (h' : x'.Kept S s t none)
    (hp : x'.settlementStatus ≠ .processing) (hstamp : x.updatedAt < x'.updatedAt)
    (hhashes : ∀ k ∈ x.hashes, k ∈ x'.hashes)
    (hspared : ∀ k T, s.txnOwner t = some (k, T) → k ≠ i → T + jobTimeout < s.clock) :
    x'.Replaces S i s t (some x) where
  kept := by rw [ownerAfter_left hp]; exact h'
  taken := fun he => absurd he hp
  later := fun y hy => by
    cases hy
    exact ⟨Nat.le_of_lt hstamp, fun he => by omega, hhashes⟩
  spares := fun k T hT hk => .inl (hspared k T hT hk)

theorem Txn.Replaces.onward {x : Option Txn} (h : x'.Replaces S i s t x) (ho : Onward s s')
    (howner : s'.txnOwner t = s.txnOwner t) : x'.Replaces S i s' t x where
  kept := by rw [howner]; exact h.kept.onward ho
  taken := h.taken
  later := h.later
  spares := fun k T hT hk => by
    rw [howner] at hT ⊢
    have hclock := ho.clock
    rcases h.spares k T hT hk with hlt | hsame
    · exact .inl (by omega)
    · exact .inr hsame

/-! ## §4. The protocol. -/

/-- Every stored row is kept, and every payment handed over is on its row. -/
structure Settlements (S : Setting) (s : World) : Prop where
  rows : ∀ t x, s.txns t = some x → x.Kept S s t (s.txnOwner t)
  free : ∀ t, s.txns t = none → s.txnOwner t = none
  recorded : ∀ (h : Nat) (b : Blob) (t : Nat), s.blobs[h]? = some b → b.purpose = .payment t →
    s.handed h = true → ∃ x, s.txns t = some x ∧ h ∈ x.hashes

/-- What program `j` relies on: rows go on to later versions, and a row in its own hands
is left alone until it has timed out. -/
structure Heeds (j : Nat) (s s' : World) : Prop where
  clock : s.clock ≤ s'.clock
  rows : ∀ t x, s.txns t = some x → ∃ x', s'.txns t = some x' ∧ x.Later x'
  inHand : ∀ t T, s.txnOwner t = some (j, T) → s'.clock ≤ T + jobTimeout →
    s'.txnOwner t = some (j, T) ∧
      ∀ x x', s.txns t = some x → s'.txns t = some x' → x.SameAttempts x'

theorem Heeds.of_same (hc : s.clock ≤ s'.clock) (ht : s'.txns = s.txns)
    (ho : s'.txnOwner = s.txnOwner) : Heeds j s s' where
  clock := hc
  rows := fun t x hx => ⟨x, by rw [ht]; exact hx, .refl x⟩
  inHand := fun t T hT _ => by
    refine ⟨by rw [ho]; exact hT, fun x x' hx hx' => ?_⟩
    rw [ht, hx] at hx'
    cases hx'
    exact .refl x

theorem Heeds.trans {s'' : World} (h : Heeds j s s') (h' : Heeds j s' s'') : Heeds j s s'' where
  clock := Nat.le_trans h.clock h'.clock
  rows := fun t x hx => by
    obtain ⟨y, hy, hxy⟩ := h.rows t x hx
    obtain ⟨z, hz, hyz⟩ := h'.rows t y hy
    exact ⟨z, hz, hxy.trans hyz⟩
  inHand := fun t T hT hle => by
    have hclock := h'.clock
    obtain ⟨ho, hsame⟩ := h.inHand t T hT (by omega)
    obtain ⟨ho', hsame'⟩ := h'.inHand t T ho hle
    refine ⟨ho', fun x z hx hz => ?_⟩
    obtain ⟨y, hy, -⟩ := h.rows t x hx
    exact (hsame x y hx hy).trans (hsame' y z hy hz)

def settlement (S : Setting) : Protocol (rules S) where
  known := fun _ => True
  inv := Settlements S
  rely := Heeds
  refl := fun _ _ => .of_same (Nat.le_refl _) rfl rfl
  trans := Heeds.trans

theorem Settlements.of_same (h : Settlements S s) (ho : Onward s s') (ht : s'.txns = s.txns)
    (howner : s'.txnOwner = s.txnOwner)
    (hnew : ∀ (k : Nat) (b : Blob) (t : Nat), s'.blobs[k]? = some b → b.purpose = .payment t →
      s'.handed k = true → (s.blobs[k]? = some b ∧ s.handed k = true) ∨
        ∃ x, s.txns t = some x ∧ k ∈ x.hashes) : Settlements S s' where
  rows := fun t x hx => by
    rw [ht] at hx
    rw [howner]
    exact (h.rows t x hx).onward ho
  free := fun t hn => by
    rw [ht] at hn
    rw [howner]
    exact h.free t hn
  recorded := fun k b t hb hp hk => by
    rw [ht]
    rcases hnew k b t hb hp hk with ⟨hb', hk'⟩ | hr
    · exact h.recorded k b t hb' hp hk'
    · exact hr

/-- Any call but COMMIT keeps the protocol, provided a payment that is handed over is on
its row. -/
theorem settlement_keeps (hh : (settlement S).Here i l s) (ho : o ≠ .commit)
    {r : Except Exn o.Res} (hx : exec S i o c l s = some (r, l', s'))
    (hnew : ∀ t k, o = .handOver (.payment t) k → ∃ x, s.txns t = some x ∧ k ∈ x.hashes) :
    (settlement S).keeps i s s' := by
  have hu := exec_uncommitted ho hx
  have hon : Onward s s' := exec_onward hh.session.locked hx
  refine ⟨Settlements.of_same hh.inv hon hu.txns hu.txnOwner fun k b t hb hp hk => ?_,
    fun j _ => .of_same hon.clock hu.txns hu.txnOwner⟩
  rcases exec_handed hx hk with hk' | ⟨purpose, b', rfl, hb', hp'⟩
  · obtain ⟨b', hb'⟩ := hh.world.regular.handed k hk'
    obtain rfl : b' = b := Option.some.inj ((hon.blobs k b' hb').symm.trans hb)
    exact .inl ⟨hb', hk'⟩
  · obtain rfl : b' = b := Option.some.inj ((hon.blobs k b' hb').symm.trans hb)
    rw [hp] at hp'
    subst hp'
    exact .inr (hnew t k rfl)

theorem Settlements.commit (h : Settlements S s)
    (hw : ∀ t x', l.txnWrites t = some x' → x'.Replaces S i s t (s.txns t)) :
    Settlements S (s.commit i l) ∧ ∀ j, j ≠ i → Heeds j s (s.commit i l) := by
  have hunwritten : ∀ t, l.txnWrites t = none → (s.commit i l).txns t = s.txns t ∧
      (s.commit i l).txnOwner t = s.txnOwner t := fun t hn =>
    Table.unwritten_commit (T := .transactions) hn
  have hwritten : ∀ t x', l.txnWrites t = some x' → (s.commit i l).txns t = some x' ∧
      (s.commit i l).txnOwner t = ownerAfter i (s.txns t) x' (s.txnOwner t) := fun t x' hx' => by
    refine ⟨?_, Table.owner_commit (T := .transactions) hx'⟩
    show (l.txnWrites t).or (s.txns t) = some x'
    rw [hx']
    rfl
  have hrows : ∀ t x, s.txns t = some x → ∃ x', (s.commit i l).txns t = some x' ∧ x.Later x' := by
    intro t x hx
    cases hwt : l.txnWrites t with
    | none => exact ⟨x, (hunwritten t hwt).1.trans hx, .refl x⟩
    | some x' => exact ⟨x', (hwritten t _ hwt).1, (hw t x' hwt).later x hx⟩
  -- row by row: one that is not written is as it was, one that is written replaces it
  refine ⟨⟨fun t x hx => ?_, fun t hn => ?_, fun k b t hb hp hk => ?_⟩, fun j hj => ⟨?_, hrows, ?_⟩⟩
  · cases hwt : l.txnWrites t with
    | none =>
      rw [(hunwritten t hwt).1] at hx
      rw [(hunwritten t hwt).2]
      exact (h.rows t x hx).onward commit_onward
    | some x' =>
      rw [(hwritten t _ hwt).1] at hx
      cases hx
      rw [(hwritten t _ hwt).2]
      exact (hw t _ hwt).kept.onward commit_onward
  · cases hwt : l.txnWrites t with
    | none =>
      rw [(hunwritten t hwt).1] at hn
      rw [(hunwritten t hwt).2]
      exact h.free t hn
    | some x' =>
      rw [(hwritten t _ hwt).1] at hn
      cases hn
  · obtain ⟨x, hx, hmem⟩ := h.recorded k b t hb hp hk
    obtain ⟨x', hx', hlater⟩ := hrows t x hx
    exact ⟨x', hx', hlater.hashes k hmem⟩
  · exact Nat.le_refl _
  · intro t T hT hle
    cases hwt : l.txnWrites t with
    | none =>
      refine ⟨(hunwritten t hwt).2.trans hT, fun x x' hx hx' => ?_⟩
      rw [(hunwritten t hwt).1, hx] at hx'
      cases hx'
      exact .refl x
    | some y =>
      -- a claim of another that is not yet stale is spared
      rcases (hw t y hwt).spares j T hT hj with hlt | ⟨howner, hsame⟩
      · have hc : (s.commit i l).clock = s.clock := rfl
        omega
      · refine ⟨(hwritten t _ hwt).2.trans howner, fun x x' hx hx' => ?_⟩
        rw [(hwritten t _ hwt).1] at hx'
        cases hx'
        exact hsame x hx

/-! ## §5. Programs whose every statement is harmless. -/

/-- A row as a send inserts it. -/
structure Txn.New (x : Txn) : Prop where
  status : x.settlementStatus = .notQueued
  hash : x.xrplTxHash = none
  last : x.settlementLastLedgerSequence = none
  submitted : x.settlementSubmittedLedgerIndex = none
  previous : x.settlementPreviousAttempts = []

theorem Txn.New.kept (h : x.New) (hclock : x.updatedAt ≤ s.clock) : x.Kept S s t none where
  stamp := hclock
  unsigned := fun _ => h.hash
  noRange := fun _ => ⟨h.last, h.submitted⟩
  live := fun k hk => by rw [h.hash] at hk; cases hk
  signedBefore := fun k b hk _ => by rw [h.hash] at hk; cases hk
  previous := fun a ha => by rw [h.previous] at ha; cases ha
  order := by unfold Txn.hashes; rw [h.previous, h.hash]; exact List.Pairwise.nil
  dead := fun _ a ha => by rw [h.previous] at ha; cases ha
  paid := fun hc => by rw [h.status] at hc; cases hc
  inHand := by simp [h.status]
  claim := fun k T hT => by cases hT

theorem Txn.New.replaces (h : x.New) (hclock : x.updatedAt ≤ s.clock)
    (howner : s.txnOwner t = none) : x.Replaces S i s t none where
  kept := by
    rw [ownerAfter_left (by rw [h.status]; decide)]
    exact h.kept hclock
  taken := fun hp => by rw [h.status] at hp; cases hp
  later := fun y hy => by cases hy
  spares := fun k T hT _ => by rw [howner] at hT; cases hT

/-- A call that no payment depends on. -/
def Op.Mild : Op → Prop
  | .updateTxn _ cond values | .updateTxns cond values =>
      ∀ now x, x.Paired → cond x = true →
        x.Mild (values now x) ∧ (values now x).updatedAt = now
  | .insertTxn row => ∀ key now, (row key now).New ∧ (row key now).updatedAt = now
  | .handOver (.payment _) _ => False
  | _ => True

/-- The clock has moved on since anything was stamped. -/
theorem exec_ticks (hS : 1 ≤ S.minTick) {r : Except Exn o.Res}
    (hx : exec S i o c l s = some (r, l', s')) : s.clock < s'.clock := by
  have hclock := exec_clock hx
  omega

/-- What a session has written may be committed. -/
def Session.Admissible (S : Setting) (i : Nat) (l : Session) (s : World) : Prop :=
  l.failed = true ∨ ∀ t x', l.txnWrites t = some x' → x'.Replaces S i s t (s.txns t)

/-- A session reads what may be committed. -/
theorem Session.Admissible.read (h : l.Admissible S i s) (hf : l.failed = false)
    (hinv : Settlements S s) (hx : l.txn s t = some x) : x.Replaces S i s t (s.txns t) := by
  rcases Session.txn_cases hx with hw | ⟨-, hs⟩
  · exact (h.resolve_left (by simp [hf])) t x hw
  · rw [hs]
    exact .refl (hinv.rows t x hs)

theorem Session.Admissible.mild (h : l.Admissible S i s) (hS : 1 ≤ S.minTick)
    (hh : (settlement S).Here i l s) (ho : o ≠ .commit) (hm : o.Mild) {r : Except Exn o.Res}
    (hx : exec S i o c l s = some (r, l', s')) : l'.Admissible S i s' := by
  have hu := exec_uncommitted ho hx
  have hon : Onward s s' := exec_onward hh.session.locked hx
  have hready : l.Admissible S i s' := h.imp id fun hw t x' hx' => by
    rw [show s'.txns t = s.txns t from congrFun hu.txns t]
    exact (hw t x' hx').onward hon (congrFun hu.txnOwner t)
  have hsame : l'.txnWrites = l.txnWrites → l'.Admissible S i s' := by
    intro hw
    rcases hready with hf | hw'
    · exact .inl (exec_staysFailed hf hx)
    · exact .inr fun t x' hx' => hw' t x' (hw ▸ hx')
  -- one more row written by a statement that went through
  have hwrite : ∀ t x', l.failed = false → x'.Replaces S i s' t (s'.txns t) →
      l'.txnWrites = update l.txnWrites t (some x') → l'.Admissible S i s' := by
    intro t x' hf hx' hw
    refine .inr fun t' y hy => ?_
    rw [hw] at hy
    by_cases ht : t' = t
    · subst ht
      rw [Function.update_self] at hy
      cases hy
      exact hx'
    · rw [Function.update_of_ne ht] at hy
      exact hready.resolve_left (by simp [hf]) t' y hy
  -- a mild change of a row as the session reads it
  have hchange : ∀ t x x', l.failed = false → l.txn s t = some x → x.Mild x' →
      x'.updatedAt = s'.clock → x'.Replaces S i s' t (s'.txns t) := by
    intro t x x' hf hxt hmild hstamp
    have hread := h.read hf hh.inv hxt
    have hlt := exec_ticks hS hx
    have hold := hread.kept.stamp
    have hread' : x.Replaces S i s' t (s'.txns t) := by
      rw [show s'.txns t = s.txns t from congrFun hu.txns t]
      exact hread.onward hon (congrFun hu.txnOwner t)
    exact hread'.mild hmild (by omega) (by omega)
  cases o with
  | commit => exact absurd rfl ho
  | updateTxn t cond values =>
    rcases exec_updateTxn hx with ⟨-, hf, -⟩ | ⟨-, rfl, -⟩ | ⟨x, -, hf, hxt, hc, rfl, -⟩
    · exact .inl hf
    · exact hready
    · have hpaired := (hh.session.read_txn hh.world.lifecycle hxt).paired
      obtain ⟨hmild, hstamp⟩ := hm s'.clock x hpaired hc
      exact hwrite t _ hf (hchange t x _ hf hxt hmild hstamp) rfl
  | insertTxn row =>
    rcases exec_insertTxn hx with ⟨-, hf, -⟩ | ⟨-, hf, hn, rfl, -, -⟩
    · exact .inl hf
    · obtain ⟨-, hstored⟩ := Option.or_eq_none_iff.mp hn
      obtain ⟨hnew, hstamp⟩ := hm s.nextId s'.clock
      refine hwrite s.nextId _ hf ?_ rfl
      rw [show s'.txns s.nextId = none from (congrFun hu.txns _).trans hstored]
      refine hnew.replaces (Nat.le_of_eq hstamp) ?_
      exact (congrFun hu.txnOwner _).trans (hh.inv.free _ hstored)
  | updateTxns cond values =>
    rcases exec_updateTxns hx with ⟨-, rfl⟩ | ⟨-, rfl, -⟩
    · exact .inl (Bool.or_true _)
    · cases hf : l.failed with
      | true => exact .inl hf
      | false =>
        refine .inr fun t y hy => ?_
        cases hmatch : l.matching (s.tick S c) cond t with
        | none =>
          refine hready.resolve_left (by simp [hf]) t y ?_
          simpa [Session.writeTxns, hmatch] using hy
        | some x =>
          obtain ⟨-, hxt, hc⟩ := matching_eq_some hmatch
          obtain rfl : values (s.tick S c).clock x = y := by
            simpa [Session.writeTxns, hmatch] using hy
          have hpaired := (hh.session.read_txn hh.world.lifecycle (t := t) (x := x) hxt).paired
          obtain ⟨hmild, hstamp⟩ := hm (s.tick S c).clock x hpaired hc
          exact hchange t x _ hf hxt hmild (hstamp.trans (exec_clock hx).symm)
  | _ => exact hsame (exec_sameTxns rfl hx).1

/-! ## §6. The guard. -/

/-- The settlement protocol, kept by committing rows that replace what is stored. -/
def payments (S : Setting) : Guard (settlement S) .transactions where
  Replaces := fun i s t x x' => x'.Replaces S i s t x
  sees := fun hg hs hw h => by
    obtain ⟨-, -, -, -, howner⟩ :=
      hs.moves.others.txnLock _ (Table.written_locked (T := .transactions) hg.session.locked hw)
    exact h.onward hs.moves.others.onward howner
  own := fun hh ho hx h =>
    h.onward (exec_onward hh.session.locked hx) (congrFun (exec_uncommitted ho hx).txnOwner _)
  plain := fun hh ho hsub hx => by
    have hu := exec_uncommitted ho hx
    have hon := exec_onward hh.session.locked hx
    refine ⟨settlement_keeps hh ho hx fun t k he => ?_, .of_same hon.clock hu.txns hu.txnOwner⟩
    subst he
    cases hsub
  tick := fun {i} {l} {s} c hh => by
    have hon : Onward s (s.tick S c) := Others.tick.onward (j := i)
    have hheeds : ∀ j, Heeds j s (s.tick S c) := fun j => .of_same hon.clock rfl rfl
    exact ⟨⟨Settlements.of_same hh.inv hon rfl rfl fun k b t hb _ hk => .inl ⟨hb, hk⟩,
      fun j _ => hheeds j⟩, hheeds i⟩
  commit := fun {i} {l} {s} c hh hw => by
    have hon : Onward s (s.tick S c) := Others.tick.onward (j := i)
    have hinv : Settlements S (s.tick S c) :=
      Settlements.of_same hh.inv hon rfl rfl fun k b t hb _ hk => .inl ⟨hb, hk⟩
    have hheeds : ∀ j, Heeds j s (s.tick S c) := fun j => .of_same hon.clock rfl rfl
    obtain ⟨hnew, hj⟩ := Settlements.commit (i := i) (l := l) hinv fun t x' hx' =>
      (hw t x' hx').onward hon rfl
    exact ⟨hnew, fun j hij => (hheeds j).trans (hj j hij)⟩
  commitClear := fun {i} {l} {s} c hh hn => by
    have hon : Onward s (s.tick S c) := Others.tick.onward (j := i)
    refine .of_same hon.clock (funext fun t => ?_) (funext fun t => ?_)
    · exact (Table.unwritten_commit (T := .transactions) (s := s.tick S c) (hn t)).1
    · exact (Table.unwritten_commit (T := .transactions) (s := s.tick S c) (hn t)).2
  Idle := fun o => 1 ≤ S.minTick ∧ o.Mild
  idle := fun {i} {o} {c} {l} {s} {r} {l'} {s'} ⟨hS, hm⟩ ho hh h hx => by
    have hready : l.Admissible S i s := h
    refine ⟨settlement_keeps hh ho hx fun t k he => ?_, hready.mild hS hh ho hm hx⟩
    subst he
    exact hm.elim

theorem mild_plain : ∀ o : Op, o.isBasic = true → o.Mild := by
  intro o h
  cases o <;> trivial

/-- **HARMLESS PROGRAMS** keep a session ready at every step. -/
theorem mild_of_uses (hS : 1 ≤ S.minTick) {α : Type} {p : Program α}
    (hu : Prog.Uses Op.Mild p) (h : l.Clear .transactions) :
    Safe (settlement S) i (fun _ _ _ => True) (fun _ _ _ => True) p l s :=
  Guard.ready_of_uses (G := payments S) (hu.mono fun _ hm => ⟨hS, hm⟩) (Guard.ready_of_clear h)

/-- **A LAST WRITE**: after it the program makes harmless statements only. -/
theorem write_last (hS : 1 ≤ S.minTick) {α : Type} {cond : Txn → Bool} {values : Nat → Txn → Txn}
    {f : Bool → Program α} (hc : l.Clear .transactions)
    (hw : (payments S).WritesOver i t cond values l s) (hu : ∀ hit, Prog.Uses Op.Mild (f hit)) :
    Safe (settlement S) i (fun _ _ _ => True) (fun _ _ _ => True)
      (Prog.bind (call (.updateTxn t cond values)) f) l s :=
  Guard.write_end (G := payments S) hc hw fun hit => (hu hit).mono fun _ hm => ⟨hS, hm⟩

/-- What a write finds, and when. -/
theorem payments_writesOver (hS : 1 ≤ S.minTick) {cond : Txn → Bool} {values : Nat → Txn → Txn}
    (h : ∀ s₁ c (r : Except Exn Bool) l' s' x, (settlement S).Here i l s₁ →
      (payments S).Along i l s l s₁ →
      exec S i (.updateTxn t cond values) c l s₁ = some (r, l', s') → l.failed = false →
      s₁.txns t = some x → cond x = true → Onward s₁ s' → s₁.clock < s'.clock →
      x.Kept S s' t (s'.txnOwner t) → (values s'.clock x).Replaces S i s' t (some x)) :
    (payments S).WritesOver i t cond values l s := by
  intro s₁ c r l' s' x hh ha hx hr hf hstored hcond
  have hon : Onward s₁ s' := exec_onward hh.session.locked hx
  have howner : s'.txnOwner t = s₁.txnOwner t :=
    congrFun (exec_uncommitted (nofun : Op.updateTxn t cond values ≠ .commit) hx).txnOwner t
  refine h s₁ c r l' s' x hh ha hx hf hstored hcond hon (exec_ticks hS hx) ?_
  rw [howner]
  exact (hh.inv.rows t x hstored).onward hon

end Orbyt
