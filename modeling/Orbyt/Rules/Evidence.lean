/-
  Orbyt.Rules.Evidence — what the ledger proves about a signature

  A signed payment or burn is a hash and two ledger indices on a row.  Whether it moved
  tokens is for the ledger to say, and what the ledger has said stays true.

    * `World.Paid h`  — `h` is validated with `tesSUCCESS`;
    * `World.Dead h`  — `h` is validated with another result, or its last ledger has
                        closed without it;
    * `World.Lost h`  — `h` is dead, or was rejected as malformed;
    * `World.Signed`  — `h` is signed for this purpose, with this ledger range.

  Main results:
    * `World.Dead.not_paid` — what is dead is not paid;
    * `Session.Missed.dead` — not found, past the window and with the whole window
      held, all in one ledger: the signature is dead.
-/
import Orbyt.Rules.Statements

namespace Orbyt

open Interleave
open ValidatedLedger

variable {S : Setting} {i j : Nat} {o : Op} {c : Choice} {l l' : Session} {s s' : World}

/-! ## §1. Time, signatures and ledgers go on. -/

structure Onward (s s' : World) : Prop where
  clock : s.clock ≤ s'.clock
  validated : s.ledger.validated ≤ s'.ledger.validated
  blobs : ∀ (h : Nat) (b : Blob), s.blobs[h]? = some b → s'.blobs[h]? = some b
  ledger : ∀ (h : Nat) (b : Blob), s.blobs[h]? = some b → Evolves h b.window s.ledger s'.ledger
  malformed : ∀ h, s.malformed h = true → s'.malformed h = true

theorem Onward.refl (s : World) : Onward s s where
  clock := Nat.le_refl _
  validated := Nat.le_refl _
  blobs := fun _ _ hb => hb
  ledger := fun h b _ => Evolves.refl h b.window _
  malformed := fun _ h => h

theorem Onward.trans {s'' : World} (h : Onward s s') (h' : Onward s' s'') : Onward s s'' where
  clock := Nat.le_trans h.clock h'.clock
  validated := Nat.le_trans h.validated h'.validated
  blobs := fun k b hb => h'.blobs k b (h.blobs k b hb)
  ledger := fun k b hb => (h.ledger k b hb).trans (h'.ledger k b (h.blobs k b hb))
  malformed := fun k hk => h'.malformed k (h.malformed k hk)

theorem Others.onward (h : Others j s s') : Onward s s' :=
  ⟨h.clock, h.validated, h.blobs, h.ledger, h.malformed⟩

/-- A program's own call, too: to any other program it is someone else's. -/
theorem exec_onward (hl : l.Locked i s) {r : Except Exn o.Res}
    (hx : exec S i o c l s = some (r, l', s')) : Onward s s' :=
  (exec_others (j := i + 1) hl hx (Nat.succ_ne_self i)).onward

theorem commit_onward : Onward s (s.commit i l) where
  clock := Nat.le_refl _
  validated := Nat.le_refl _
  blobs := fun _ _ hb => hb
  ledger := fun h b _ => Evolves.refl h b.window _
  malformed := fun _ h => h

/-! ## §2. Paid and dead. -/

def World.Paid (s : World) (h : Nat) : Prop := ∃ n, s.ledger.included h = some (n, .tesSUCCESS)

def World.Dead (s : World) (h : Nat) : Prop :=
  (∃ n code, s.ledger.included h = some (n, code) ∧ code ≠ .tesSUCCESS) ∨
  (s.ledger.included h = none ∧ ∃ b : Blob, s.blobs[h]? = some b ∧ s.ledger.closed b.window)

/-- It has not moved anything, and never will. -/
def World.Lost (s : World) (h : Nat) : Prop := s.Dead h ∨ s.malformed h = true

/-- `h` is signed for `purpose`, its LastLedgerSequence is `last`, and `submitted` is an
index validated by the time it was signed. -/
structure World.Signed (S : Setting) (s : World) (purpose : Purpose) (h : Nat)
    (last submitted : Option Nat) : Prop where
  blob : ∃ b : Blob, s.blobs[h]? = some b ∧ b.purpose = purpose ∧ last = b.lastLedgerSequence ∧
    ∃ n, submitted = some n ∧ n ≤ b.signedIndex
  expires : S.carriesLastLedger = true → last.isSome = true

theorem World.Dead.not_paid {h : Nat} (hd : s.Dead h) : ¬ s.Paid h := by
  rintro ⟨m, hm⟩
  rcases hd with ⟨n, code, hn, hne⟩ | ⟨hn, -⟩
  · rw [hm] at hn
    cases hn
    exact hne rfl
  · rw [hm] at hn
    cases hn

theorem World.Paid.onward {h : Nat} (hp : s.Paid h) (ho : Onward s s') {b : Blob}
    (hb : s.blobs[h]? = some b) : s'.Paid h := by
  obtain ⟨n, hn⟩ := hp
  exact ⟨n, (ho.ledger h b hb).stays _ hn⟩

theorem World.Dead.onward {h : Nat} (hd : s.Dead h) (ho : Onward s s') {b : Blob}
    (hb : s.blobs[h]? = some b) : s'.Dead h := by
  have hev := ho.ledger h b hb
  rcases hd with ⟨n, code, hn, hne⟩ | ⟨hn, b', hb', hc⟩
  · exact .inl ⟨n, code, hev.stays _ hn, hne⟩
  · obtain rfl : b' = b := Option.some.inj (hb'.symm.trans hb)
    refine .inr ⟨hev.never_included hn hc, b', ho.blobs h b' hb, ?_⟩
    obtain ⟨last, hlast, hle⟩ := hc
    exact ⟨last, hlast, Nat.le_trans hle hev.validated⟩

theorem World.Lost.not_paid {h : Nat} (hl : s.Lost h) (hr : s.Regular) : ¬ s.Paid h := by
  rcases hl with hd | hm
  · exact hd.not_paid
  · rintro ⟨n, hn⟩
    rw [(hr.included h _ hn).2] at hm
    cases hm

theorem World.Lost.onward {h : Nat} (hl : s.Lost h) (ho : Onward s s') {b : Blob}
    (hb : s.blobs[h]? = some b) : s'.Lost h := by
  rcases hl with hd | hm
  · exact .inl (hd.onward ho hb)
  · exact .inr (ho.malformed h hm)

theorem World.Signed.onward {purpose : Purpose} {h : Nat} {last submitted : Option Nat}
    (hs : s.Signed S purpose h last submitted) (ho : Onward s s') :
    s'.Signed S purpose h last submitted := by
  obtain ⟨b, hb, hrest⟩ := hs.blob
  exact ⟨⟨b, ho.blobs h b hb, hrest⟩, hs.expires⟩

/-- Both ends of the range are there. -/
theorem World.Signed.range {purpose : Purpose} {h : Nat} {last submitted : Option Nat}
    (hs : s.Signed S purpose h last submitted) (hc : S.carriesLastLedger = true) :
    last.isSome = true ∧ submitted.isSome = true := by
  obtain ⟨b, -, -, -, n, rfl, -⟩ := hs.blob
  exact ⟨hs.expires hc, rfl⟩

/-- A new signature, with the index read before it. -/
theorem World.Signed.of_new {purpose : Purpose} {h : Nat} {b : Blob} {n : Nat}
    (hb : s.blobs[h]? = some b) (hp : b.purpose = purpose) (hn : n ≤ b.signedIndex)
    (hl : S.carriesLastLedger = true → b.lastLedgerSequence.isSome = true) :
    s.Signed S purpose h b.lastLedgerSequence (some n) :=
  ⟨⟨b, hb, hp, rfl, n, rfl, hn⟩, hl⟩

theorem World.Signed.lt {purpose : Purpose} {h : Nat} {last submitted : Option Nat}
    (hs : s.Signed S purpose h last submitted) : h < s.blobs.length := by
  obtain ⟨b, hb, -⟩ := hs.blob
  exact (List.getElem?_eq_some_iff.mp hb).1

/-! ## §3. One consultation of the ledger. -/

/-- The session has looked `h` up in the ledger it consults, and has not found it. -/
def Session.Missed (l : Session) (s : World) (h : Nat) : Prop :=
  ∃ L, l.view = some L ∧ L.lookup h = none ∧ ∀ b : Blob, s.blobs[h]? = some b →
    L.respects h b.window ∧ Evolves h b.window L s.ledger

theorem Session.Missed.onward {h : Nat} (hm : l.Missed s h) (ho : Onward s s')
    (hv : l'.view = l.view) {b : Blob} (hb : s.blobs[h]? = some b) : l'.Missed s' h := by
  obtain ⟨L, hL, hlook, hb'⟩ := hm
  refine ⟨L, hv.trans hL, hlook, fun b₁ hb₁ => ?_⟩
  obtain rfl : b = b₁ := Option.some.inj ((ho.blobs h b hb).symm.trans hb₁)
  obtain ⟨hr, he⟩ := hb' b hb
  exact ⟨hr, he.trans (ho.ledger h b hb)⟩

/-- What a first lookup says: it was included, or it is missed. -/
theorem exec_lookup_first {h : Nat} {r : Except Exn (Option TxCode)} (hr : s.Regular)
    (hv : l.view = none) (hx : exec S i (.lookup h) c l s = some (r, l', s')) :
    (∃ e, r = .error e) ∨
    (∃ code n, r = .ok (some code) ∧ s'.ledger.included h = some (n, code)) ∨
    (r = .ok none ∧ (S.oneLedgerView = true → l'.Missed s' h)) := by
  rcases exec_lookup hx with he | ⟨rfl, rfl, rfl⟩
  · exact .inl he
  · right
    have hcons : l.consulted s = s.ledger := by
      unfold Session.consulted
      rw [hv]
      rfl
    rw [hcons]
    cases hlook : s.ledger.lookup h with
    | none =>
      refine .inr ⟨rfl, fun hS => ⟨s.ledger, if_pos hS, hlook, fun b hb => ?_⟩⟩
      exact ⟨hr.window h b hb, Evolves.refl h b.window _⟩
    | some code =>
      left
      unfold Ledger.lookup at hlook
      cases hi : s.ledger.included h with
      | none =>
        rw [hi] at hlook
        cases hlook
      | some p =>
        rw [hi] at hlook
        simp only [Option.ite_none_right_eq_some, Option.some.injEq] at hlook
        obtain ⟨-, rfl⟩ := hlook
        exact ⟨_, p.1, rfl, hi⟩

/-- What a request that has looked a hash up consults is fixed from then on. -/
theorem Session.Missed.consulted {h : Nat} (hm : l.Missed s h) (s' : World)
    (hv : l'.view = l.view) : l'.consulted s' = l.consulted s := by
  obtain ⟨L, hL, -⟩ := hm
  unfold Session.consulted
  rw [hv, hL]
  rfl

/-- **WHAT ONE CONSULTATION PROVES.** -/
theorem Session.Missed.dead {purpose : Purpose} {h last low : Nat} (hm : l.Missed s h)
    (hs : s.Signed S purpose h (some last) (some low))
    (hpast : last < (l.consulted s).validated) (hheld : (l.consulted s).holds low last) :
    s.Dead h := by
  obtain ⟨L, hL, hlook, hwin⟩ := hm
  obtain ⟨b, hb, -, hlast, n, hn, hle⟩ := hs.blob
  obtain ⟨hresp, hev⟩ := hwin b hb
  have hcons : l.consulted s = L := by
    unfold Session.consulted
    rw [hL]
    rfl
  rw [hcons] at hpast hheld
  cases hn
  have habsent : L.included h = none :=
    absent_of_lookup hresp hle hlast.symm hheld hlook
  have hclosed : L.closed b.window := ⟨last, hlast.symm, Nat.le_of_lt hpast⟩
  refine .inr ⟨hev.never_included habsent hclosed, b, hb, last, hlast.symm, ?_⟩
  exact Nat.le_trans (Nat.le_of_lt hpast) hev.validated

/-! ## §4. One submission. -/

/-- What a failed submission teaches is never success. -/
theorem classify_resolution (e : Exn) :
    (XrplService.classify e).1 = .failed ∨ (XrplService.classify e).1 = .unknown := by
  unfold XrplService.classify
  split
  · split
    · exact .inl rfl
    · split
      · exact .inl rfl
      · split <;> exact .inr rfl
  · exact .inr rfl

/-- **WHAT A FAILED SUBMISSION PROVES**: an exception that counts as a failure comes from a
transaction that is validated without success, or from one that no ledger takes. -/
theorem exec_outcome_lost {h : Nat} {e : Exn}
    (hx : exec S i (.outcome h) c l s = some (.error e, l', s'))
    (hf : (XrplService.classify e).1 = .failed) : s'.Lost h := by
  rcases exec_outcome hx with ⟨e', he, ha⟩ | ⟨n, code, hr, -⟩
  · cases he
    unfold World.afterOutcomeRaises at ha
    unfold XrplService.classify at hf
    split at ha
    next text =>
      dsimp only at hf
      split at ha
      · split at ha
        next hany =>
          cases ha
          obtain ⟨⟨n, code⟩, hn, hne⟩ := (Option.any_eq_true _ _).mp hany
          exact .inl (.inl ⟨n, code, hn, by simpa using hne⟩)
        · cases ha
      · split at ha
        · split at ha
          · cases ha
            refine .inr ?_
            show Function.update s.malformed h true h = true
            rw [Function.update_self]
          · cases ha
        next hv hm =>
          rw [Option.not_isSome_iff_eq_none] at hv hm
          rw [hv, hm] at hf
          dsimp only at hf
          split at hf <;> cases hf
    · cases hf
    · cases hf
    · cases ha
  · cases hr

end Orbyt
