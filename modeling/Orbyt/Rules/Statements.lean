/-
  Orbyt.Rules.Statements — one inversion lemma for each call

  From `exec S i o c l s = some (r, l', s')`: what the call `o` has answered, what
  it has left in its session, and under which guard.  Proofs about programs cite
  these and never unfold `exec`.
-/
import Orbyt.Rules.Calls

namespace Orbyt

open Interleave
open ValidatedLedger
open Function (update)

variable {S : Setting} {i : Nat} {o : Op} {c : Choice} {l l' : Session} {s s' : World}

/-! ## §1. Which part of a session a call writes. -/

def Op.writesTxns : Op → Bool
  | .updateTxn _ _ _ | .updateTxns _ _ | .insertTxn _ | .commit => true
  | _ => false

def Op.writesReqs : Op → Bool
  | .updateReq _ _ _ | .insertReq _ | .commit => true
  | _ => false

def Op.writesWallets : Op → Bool
  | .setBalance _ _ _ | .setTrustLine _ | .insertWallet _ _ | .commit => true
  | _ => false

theorem perform_sameTxns {v : Value} {r : Except Exn o.Res} (ho : o.writesTxns = false)
    (h : perform S i l s v o = some (r, l', s')) :
    l'.txnWrites = l.txnWrites ∧ l'.settlementLog = l.settlementLog ∧
      l'.cashinLog = l.cashinLog := by
  cases o <;> cases ho
  all_goals
    simp only [perform] at h
    (repeat' split at h) <;> cases h <;> exact ⟨rfl, rfl, rfl⟩

theorem perform_sameReqs {v : Value} {r : Except Exn o.Res} (ho : o.writesReqs = false)
    (h : perform S i l s v o = some (r, l', s')) :
    l'.reqWrites = l.reqWrites ∧ l'.statusLog = l.statusLog := by
  cases o <;> cases ho
  all_goals
    simp only [perform] at h
    (repeat' split at h) <;> cases h <;> exact ⟨rfl, rfl⟩

theorem perform_sameWallets {v : Value} {r : Except Exn o.Res} (ho : o.writesWallets = false)
    (h : perform S i l s v o = some (r, l', s')) :
    l'.walletWrites = l.walletWrites ∧ l'.moves = l.moves := by
  cases o <;> cases ho
  all_goals
    simp only [perform] at h
    (repeat' split at h) <;> cases h <;> exact ⟨rfl, rfl⟩

/-- A claim is made by a write, and no other call forgets or invents one. -/
theorem perform_sameClaim {v : Value} {r : Except Exn o.Res} (ht : o.writesTxns = false)
    (hr : o.writesReqs = false) (h : perform S i l s v o = some (r, l', s')) :
    l'.claimedAt = l.claimedAt := by
  cases o <;> cases ht <;> cases hr
  all_goals
    simp only [perform] at h
    (repeat' split at h) <;> cases h <;> rfl

/-- What `perform` leaves alone, `exec` leaves alone. -/
theorem exec_of_perform {P : Session → Prop} {r : Except Exn o.Res}
    (hfail : ∀ k, P k → P (k.fail o)) (hl : P l)
    (hperform : ∀ r₀ l₀, perform S i l (s.tick S c) c.value o = some (r₀, l₀, s') → P l₀)
    (h : exec S i o c l s = some (r, l', s')) : P l' := by
  obtain ⟨-, ⟨e, -, rfl, -⟩ | ⟨-, r₀, l₀, hp, hr⟩⟩ := exec_inv h
  · exact hfail l hl
  · rcases hr with ⟨-, rfl⟩ | ⟨e, -, -, rfl⟩
    · exact hperform r₀ _ hp
    · exact hfail l₀ (hperform r₀ l₀ hp)

theorem exec_sameTxns {r : Except Exn o.Res} (ho : o.writesTxns = false)
    (h : exec S i o c l s = some (r, l', s')) :
    l'.txnWrites = l.txnWrites ∧ l'.settlementLog = l.settlementLog ∧
      l'.cashinLog = l.cashinLog :=
  exec_of_perform (P := fun k => k.txnWrites = l.txnWrites ∧
      k.settlementLog = l.settlementLog ∧ k.cashinLog = l.cashinLog)
    (fun _ hk => hk) ⟨rfl, rfl, rfl⟩ (fun _ _ hp => perform_sameTxns ho hp) h

theorem exec_sameReqs {r : Except Exn o.Res} (ho : o.writesReqs = false)
    (h : exec S i o c l s = some (r, l', s')) :
    l'.reqWrites = l.reqWrites ∧ l'.statusLog = l.statusLog :=
  exec_of_perform (P := fun k => k.reqWrites = l.reqWrites ∧ k.statusLog = l.statusLog)
    (fun _ hk => hk) ⟨rfl, rfl⟩ (fun _ _ hp => perform_sameReqs ho hp) h

theorem exec_sameWallets {r : Except Exn o.Res} (ho : o.writesWallets = false)
    (h : exec S i o c l s = some (r, l', s')) :
    l'.walletWrites = l.walletWrites ∧ l'.moves = l.moves :=
  exec_of_perform (P := fun k => k.walletWrites = l.walletWrites ∧ k.moves = l.moves)
    (fun _ hk => hk) ⟨rfl, rfl⟩ (fun _ _ hp => perform_sameWallets ho hp) h

theorem exec_sameClaim {r : Except Exn o.Res} (ht : o.writesTxns = false)
    (hr : o.writesReqs = false) (h : exec S i o c l s = some (r, l', s')) :
    l'.claimedAt = l.claimedAt :=
  exec_of_perform (P := fun k => k.claimedAt = l.claimedAt)
    (fun _ hk => hk) rfl (fun _ _ hp => perform_sameClaim ht hr hp) h

def Op.setsSignedHash : Op → Bool
  | .setSignedHash _ => true
  | _ => false

theorem perform_sameSigned {v : Value} {r : Except Exn o.Res} (ho : o.setsSignedHash = false)
    (h : perform S i l s v o = some (r, l', s')) : l'.signedHash = l.signedHash := by
  cases o <;> cases ho
  all_goals
    simp only [perform] at h
    (repeat' split at h) <;> cases h <;> rfl

theorem exec_sameSigned {r : Except Exn o.Res} (ho : o.setsSignedHash = false)
    (h : exec S i o c l s = some (r, l', s')) : l'.signedHash = l.signedHash :=
  exec_of_perform (P := fun k => k.signedHash = l.signedHash)
    (fun _ hk => hk) rfl (fun _ _ hp => perform_sameSigned ho hp) h

def Op.loadsWallets : Op → Bool
  | .selectWallet _ | .loadWallet _ | .lockWallet _ | .setBalance _ _ _ | .setTrustLine _
  | .insertWallet _ _ => true
  | _ => false

/-- The session has no more wallets, loaded or written, than before. -/
structure Session.SameCopies (l l' : Session) : Prop where
  copies : l'.walletCopy = l.walletCopy
  writes : ∀ u, l.walletWrites u = none → l'.walletWrites u = none

theorem perform_sameCopies {v : Value} {r : Except Exn o.Res} (ho : o.loadsWallets = false)
    (h : perform S i l s v o = some (r, l', s')) : l.SameCopies l' := by
  cases o <;> cases ho
  all_goals
    simp only [perform] at h
    (repeat' split at h) <;> cases h <;> exact ⟨rfl, fun _ h => by first | exact h | rfl⟩

theorem exec_sameCopies {r : Except Exn o.Res} (ho : o.loadsWallets = false)
    (h : exec S i o c l s = some (r, l', s')) : l.SameCopies l' :=
  exec_of_perform (P := fun k => l.SameCopies k)
    (fun _ hk => ⟨hk.copies, hk.writes⟩) ⟨rfl, fun _ h => h⟩
    (fun _ _ hp => perform_sameCopies ho hp) h

/-- COMMIT leaves a session with nothing open; otherwise it has failed. -/
theorem exec_commit_session {r : Except Exn Unit} (h : exec S i .commit c l s = some (r, l', s')) :
    l'.claimedAt = l.claimedAt ∧ l'.signedHash = l.signedHash ∧ l'.view = l.view ∧
      (∀ e, r = .error e → l'.failed = true) ∧ (r = .ok () → l'.failed = false) := by
  rcases exec_commit h with ⟨⟨e, rfl⟩, rfl, -⟩ | ⟨hf, -, ⟨rfl, rfl⟩ | ⟨⟨e, rfl⟩, rfl⟩⟩
  · exact ⟨rfl, rfl, rfl, fun _ _ => Bool.or_true _, fun hr => by cases hr⟩
  · exact ⟨rfl, rfl, rfl, (fun _ hr => by cases hr), fun _ => hf⟩
  · exact ⟨rfl, rfl, rfl, fun _ _ => Bool.or_true _, fun hr => by cases hr⟩

/-! ## §2. Statements. -/

/-- A call that cannot lose its response raises without effect or performs. -/
theorem exec_plain {r : Except Exn o.Res} (ho : o.losesResponse = false)
    (h : exec S i o c l s = some (r, l', s')) :
    (∃ e, r = .error e ∧ l' = l.fail o ∧ afterRaises o e (s.tick S c) = some s') ∨
      ((l.failed && o.isStatement) = false ∧
        perform S i l (s.tick S c) c.value o = some (r, l', s')) := by
  obtain ⟨-, hr | ⟨hf, r₀, l₀, hp, ⟨rfl, rfl⟩ | ⟨e, hlose, -, -⟩⟩⟩ := exec_inv h
  · exact .inl hr
  · exact .inr ⟨hf, hp⟩
  · rw [ho] at hlose; cases hlose

/-- A statement of a session that has failed raises. -/
theorem exec_failed {r : Except Exn o.Res} (ho : o.isStatement = true) (hl : l.failed = true)
    (h : exec S i o c l s = some (r, l', s')) :
    ∃ e, r = .error e ∧ l' = l.fail o ∧ s' = s.tick S c := by
  obtain ⟨-, ⟨e, rfl, rfl, ha⟩ | ⟨hf, -⟩⟩ := exec_inv h
  · rcases afterRaises_eq ha with rfl | ⟨k, rfl, -, -⟩
    · exact ⟨e, rfl, rfl, rfl⟩
    · cases ho
  · rw [ho, hl] at hf; cases hf

theorem exec_updateTxn {t : Nat} {cond : Txn → Bool} {values : Nat → Txn → Txn}
    {r : Except Exn Bool} (h : exec S i (.updateTxn t cond values) c l s = some (r, l', s')) :
    ((∃ e, r = .error e) ∧ l'.failed = true ∧ l' = l.fail (.updateTxn t cond values)) ∨
    (r = .ok false ∧ l' = l ∧ ∀ x, l.txn s t = some x → cond x = false) ∨
    (∃ x, r = .ok true ∧ l.failed = false ∧ l.txn s t = some x ∧ cond x = true ∧
      l' = l.writeTxn s'.clock t (some x) (values s'.clock x) ∧ s'.txnLock t = some i) := by
  rcases exec_plain rfl h with ⟨e, rfl, rfl, -⟩ | ⟨hf, hp⟩
  · exact .inl ⟨⟨e, rfl⟩, Bool.or_true _, rfl⟩
  · right
    simp only [perform] at hp
    have htxn : l.txn (s.tick S c) t = l.txn s t := rfl
    rw [htxn] at hp
    cases hx : l.txn s t with
    | none =>
      rw [hx] at hp
      cases hp
      exact .inl ⟨rfl, rfl, fun x h => by cases h⟩
    | some x =>
      rw [hx] at hp
      simp only at hp
      split at hp
      next hc =>
        split at hp
        · cases hp
          exact .inr ⟨x, rfl, by simpa [Op.isStatement] using hf, rfl, hc, rfl,
            Function.update_self _ _ _⟩
        · cases hp
      next hc =>
        cases hp
        exact .inl ⟨rfl, rfl, fun y h => by cases h; simpa using hc⟩

theorem exec_insertTxn {row : Nat → Nat → Txn} {r : Except Exn Nat}
    (h : exec S i (.insertTxn row) c l s = some (r, l', s')) :
    ((∃ e, r = .error e) ∧ l'.failed = true ∧ l' = l.fail (.insertTxn row)) ∨
    (r = .ok s.nextId ∧ l.failed = false ∧ l.txn s s.nextId = none ∧
      l' = l.writeTxn s'.clock s.nextId none (row s.nextId s'.clock) ∧
      s'.txnLock s.nextId = some i ∧ s'.nextId = s.nextId + 1) := by
  rcases exec_plain rfl h with ⟨e, rfl, rfl, -⟩ | ⟨hf, hp⟩
  · exact .inl ⟨⟨e, rfl⟩, Bool.or_true _, rfl⟩
  · right
    simp only [perform] at hp
    split at hp
    next hc =>
      rw [Bool.and_eq_true] at hc
      cases hp
      exact ⟨rfl, by simpa [Op.isStatement] using hf,
        Option.isNone_iff_eq_none.mp hc.1, rfl,
        Function.update_self _ _ _, rfl⟩
    · cases hp

theorem exec_updateReq {k : Nat} {cond : CashOutRequest → Bool}
    {values : Nat → CashOutRequest → CashOutRequest} {r : Except Exn Bool}
    (h : exec S i (.updateReq k cond values) c l s = some (r, l', s')) :
    ((∃ e, r = .error e) ∧ l'.failed = true ∧ l' = l.fail (.updateReq k cond values)) ∨
    (r = .ok false ∧ l' = l ∧ ∀ q, l.req s k = some q → cond q = false) ∨
    (∃ q, r = .ok true ∧ l.failed = false ∧ l.req s k = some q ∧ cond q = true ∧
      l' = l.writeReq s'.clock k (some q) (values s'.clock q) ∧ s'.reqLock k = some i) := by
  rcases exec_plain rfl h with ⟨e, rfl, rfl, -⟩ | ⟨hf, hp⟩
  · exact .inl ⟨⟨e, rfl⟩, Bool.or_true _, rfl⟩
  · right
    simp only [perform] at hp
    have hreq : l.req (s.tick S c) k = l.req s k := rfl
    rw [hreq] at hp
    cases hx : l.req s k with
    | none =>
      rw [hx] at hp
      cases hp
      exact .inl ⟨rfl, rfl, fun x h => by cases h⟩
    | some q =>
      rw [hx] at hp
      simp only at hp
      split at hp
      next hc =>
        split at hp
        · cases hp
          exact .inr ⟨q, rfl, by simpa [Op.isStatement] using hf, rfl, hc, rfl,
            Function.update_self _ _ _⟩
        · cases hp
      next hc =>
        cases hp
        exact .inl ⟨rfl, rfl, fun y h => by cases h; simpa using hc⟩

theorem exec_insertReq {row : Nat → Nat → CashOutRequest} {r : Except Exn Nat}
    (h : exec S i (.insertReq row) c l s = some (r, l', s')) :
    ((∃ e, r = .error e) ∧ l'.failed = true ∧ l' = l.fail (.insertReq row)) ∨
    (r = .ok s.nextId ∧ l.failed = false ∧ l.req s s.nextId = none ∧
      l' = l.writeReq s'.clock s.nextId none (row s.nextId s'.clock) ∧
      s'.reqLock s.nextId = some i ∧ s'.nextId = s.nextId + 1) := by
  rcases exec_plain rfl h with ⟨e, rfl, rfl, -⟩ | ⟨hf, hp⟩
  · exact .inl ⟨⟨e, rfl⟩, Bool.or_true _, rfl⟩
  · right
    simp only [perform] at hp
    split at hp
    next hc =>
      rw [Bool.and_eq_true] at hc
      cases hp
      exact ⟨rfl, by simpa [Op.isStatement] using hf,
        Option.isNone_iff_eq_none.mp hc.1, rfl,
        Function.update_self _ _ _, rfl⟩
    · cases hp

theorem exec_updateTxns {cond : Txn → Bool} {values : Nat → Txn → Txn} {r : Except Exn Unit}
    (h : exec S i (.updateTxns cond values) c l s = some (r, l', s')) :
    ((∃ e, r = .error e) ∧ l' = l.fail (.updateTxns cond values)) ∨
    (r = .ok () ∧ l' = l.writeTxns (s.tick S c) cond values ∧
      ∀ t x, l.matching s cond t = some x → s'.txnLock t = some i) := by
  rcases exec_plain rfl h with ⟨e, rfl, rfl, -⟩ | ⟨-, hp⟩
  · exact .inl ⟨⟨e, rfl⟩, rfl⟩
  · right
    simp only [perform] at hp
    split at hp
    · cases hp
      exact ⟨rfl, rfl,
        fun t x hm => if_pos (by show (l.matching s cond t).isSome = true; rw [hm]; rfl)⟩
    · cases hp

/-- Where a written row comes from. -/
theorem exec_txnWrites {t : Nat} {x' : Txn} {r : Except Exn o.Res}
    (h : exec S i o c l s = some (r, l', s')) (hw : l'.txnWrites t = some x') :
    l.txnWrites t = some x' ∨
    (∃ x cond values now, l.txn s t = some x ∧ cond x = true ∧ x' = values now x ∧
      (o = .updateTxn t cond values ∨ o = .updateTxns cond values)) ∨
    ∃ row now, o = .insertTxn row ∧ t = s.nextId ∧ x' = row t now := by
  cases o with
  | commit =>
    rcases exec_commit h with ⟨-, rfl, -⟩ | ⟨-, -, ⟨-, rfl⟩ | ⟨-, rfl⟩⟩
    · exact .inl hw
    · cases hw
    · cases hw
  | updateTxn t' cond values =>
    rcases exec_updateTxn h with ⟨-, -, rfl⟩ | ⟨-, rfl, -⟩ | ⟨x, -, -, hx, hc, rfl, -⟩
    · exact .inl hw
    · exact .inl hw
    · by_cases ht : t = t'
      · subst ht
        have hnew : values s'.clock x = x' := by simpa [Session.writeTxn] using hw
        exact .inr (.inl ⟨x, cond, values, _, hx, hc, hnew.symm, .inl rfl⟩)
      · exact .inl (by simpa [Session.writeTxn, update, ht] using hw)
  | updateTxns cond values =>
    rcases exec_updateTxns h with ⟨-, rfl⟩ | ⟨-, rfl, -⟩
    · exact .inl hw
    · cases hm : l.matching (s.tick S c) cond t with
      | none => exact .inl (by simpa [Session.writeTxns, hm] using hw)
      | some x =>
        obtain ⟨-, hx, hc⟩ := matching_eq_some hm
        have hnew : values (s.tick S c).clock x = x' := by
          simpa [Session.writeTxns, hm] using hw
        exact .inr (.inl ⟨x, cond, values, _, hx, hc, hnew.symm, .inr rfl⟩)
  | insertTxn row =>
    rcases exec_insertTxn h with ⟨-, -, rfl⟩ | ⟨-, -, -, rfl, -⟩
    · exact .inl hw
    · by_cases ht : t = s.nextId
      · subst ht
        have hnew : row s.nextId s'.clock = x' := by simpa [Session.writeTxn] using hw
        exact .inr (.inr ⟨row, _, rfl, rfl, hnew.symm⟩)
      · exact .inl (by simpa [Session.writeTxn, update, ht] using hw)
  | _ =>
    rw [(exec_sameTxns rfl h).1] at hw
    exact .inl hw

theorem exec_reqWrites {k : Nat} {q' : CashOutRequest} {r : Except Exn o.Res}
    (h : exec S i o c l s = some (r, l', s')) (hw : l'.reqWrites k = some q') :
    l.reqWrites k = some q' ∨
    (∃ q cond values now, l.req s k = some q ∧ cond q = true ∧ q' = values now q ∧
      o = .updateReq k cond values) ∨
    ∃ row now, o = .insertReq row ∧ k = s.nextId ∧ q' = row k now := by
  cases o with
  | commit =>
    rcases exec_commit h with ⟨-, rfl, -⟩ | ⟨-, -, ⟨-, rfl⟩ | ⟨-, rfl⟩⟩
    · exact .inl hw
    · cases hw
    · cases hw
  | updateReq k' cond values =>
    rcases exec_updateReq h with ⟨-, -, rfl⟩ | ⟨-, rfl, -⟩ | ⟨q, -, -, hq, hc, rfl, -⟩
    · exact .inl hw
    · exact .inl hw
    · by_cases hk : k = k'
      · subst hk
        have hnew : values s'.clock q = q' := by simpa [Session.writeReq] using hw
        exact .inr (.inl ⟨q, cond, values, _, hq, hc, hnew.symm, rfl⟩)
      · exact .inl (by simpa [Session.writeReq, update, hk] using hw)
  | insertReq row =>
    rcases exec_insertReq h with ⟨-, -, rfl⟩ | ⟨-, -, -, rfl, -⟩
    · exact .inl hw
    · by_cases hk : k = s.nextId
      · subst hk
        have hnew : row s.nextId s'.clock = q' := by simpa [Session.writeReq] using hw
        exact .inr (.inr ⟨row, _, rfl, rfl, hnew.symm⟩)
      · exact .inl (by simpa [Session.writeReq, update, hk] using hw)
  | _ =>
    rw [(exec_sameReqs rfl h).1] at hw
    exact .inl hw

/-- A session that has failed stays so. -/
theorem exec_staysFailed {r : Except Exn o.Res} (hl : l.failed = true)
    (h : exec S i o c l s = some (r, l', s')) : l'.failed = true := by
  cases ho : o.isStatement with
  | true =>
    obtain ⟨e, -, rfl, -⟩ := exec_failed ho hl h
    simp [Session.fail, hl]
  | false =>
    refine exec_of_perform (P := fun k => k.failed = true) (fun k hk => ?_) hl
      (fun r₀ l₀ hp => ?_) h
    · simp [Session.fail, hk]
    · cases o <;> try cases ho
      all_goals
        simp only [perform] at hp
        (repeat' split at hp) <;> cases hp <;> exact hl

/-! ## §3. Reads and wallet statements. -/

theorem exec_selectTxn {t : Nat} {r : Except Exn (Option Txn)}
    (h : exec S i (.selectTxn t) c l s = some (r, l', s')) :
    (∃ e, r = .error e) ∨ (r = .ok (l.txn s t) ∧ l' = l ∧ s' = s.tick S c) := by
  rcases exec_plain rfl h with ⟨e, rfl, -⟩ | ⟨-, hp⟩
  · exact .inl ⟨e, rfl⟩
  · cases hp
    exact .inr ⟨rfl, rfl, rfl⟩

theorem exec_selectReq {k : Nat} {r : Except Exn (Option CashOutRequest)}
    (h : exec S i (.selectReq k) c l s = some (r, l', s')) :
    (∃ e, r = .error e) ∨ (r = .ok (l.req s k) ∧ l' = l ∧ s' = s.tick S c) := by
  rcases exec_plain rfl h with ⟨e, rfl, -⟩ | ⟨-, hp⟩
  · exact .inl ⟨e, rfl⟩
  · cases hp
    exact .inr ⟨rfl, rfl, rfl⟩

theorem exec_getSignedHash {r : Except Exn (Option Nat)}
    (h : exec S i .getSignedHash c l s = some (r, l', s')) :
    r = .ok l.signedHash ∧ l' = l := by
  rcases exec_plain rfl h with ⟨e, -, -, ha⟩ | ⟨-, hp⟩
  · cases ha
  · cases hp
    exact ⟨rfl, rfl⟩

theorem exec_selectWallet {u : Nat} {r : Except Exn (Option Wallet)}
    (h : exec S i (.selectWallet u) c l s = some (r, l', s')) :
    (∃ e, r = .error e) ∨ (r = .ok (l.identify s u) ∧ s' = s.tick S c) := by
  rcases exec_plain rfl h with ⟨e, rfl, -⟩ | ⟨-, hp⟩
  · exact .inl ⟨e, rfl⟩
  · cases hp
    exact .inr ⟨rfl, rfl⟩

theorem exec_loadWallet {u : Nat} {r : Except Exn (Option Wallet)}
    (h : exec S i (.loadWallet u) c l s = some (r, l', s')) :
    (∃ e, r = .error e) ∨ (r = .ok (l.wallet s u) ∧ s' = s.tick S c) := by
  rcases exec_plain rfl h with ⟨e, rfl, -⟩ | ⟨-, hp⟩
  · exact .inl ⟨e, rfl⟩
  · cases hp
    exact .inr ⟨rfl, rfl⟩

/-- SELECT .. FOR UPDATE hands back the session's own object, stale or not. -/
theorem exec_lockWallet {u : Nat} {r : Except Exn (Option Wallet)}
    (h : exec S i (.lockWallet u) c l s = some (r, l', s')) :
    ((∃ e, r = .error e) ∧ l'.failed = true) ∨
    (r = .ok none ∧ l.wallet s u = none) ∨
    (∃ w, r = .ok (some w) ∧ l.identify s u = some w ∧ s'.walletLock u = some i ∧
      (S.freshLock = true → l.freshCopy s u = true)) := by
  have hperm := (exec_inv h).1
  have hfresh : S.freshLock = true → l.freshCopy s u = true := by
    intro hs
    simp only [permitted, hs, Bool.and_eq_true, Bool.not_true, Bool.false_or] at hperm
    exact hperm.2
  rcases exec_plain rfl h with ⟨e, rfl, rfl, -⟩ | ⟨-, hp⟩
  · exact .inl ⟨⟨e, rfl⟩, Bool.or_true _⟩
  · right
    simp only [perform] at hp
    have hview : l.wallet (s.tick S c) u = l.wallet s u := rfl
    have hident : l.identify (s.tick S c) u = l.identify s u := rfl
    rw [hview, hident] at hp
    split at hp
    next hn =>
      cases hp
      exact .inl ⟨rfl, Option.isNone_iff_eq_none.mp hn⟩
    next hn =>
      split at hp
      · cases hp
        right
        -- the row is there, so the object is
        cases hw : l.identify s u with
        | none =>
          simp only [Session.identify, Option.or_eq_none_iff] at hw
          simp [hw.2] at hn
        | some w => exact ⟨w, rfl, rfl, Function.update_self _ _ _, hfresh⟩
      · cases hp

theorem exec_setBalance {u : Nat} {balance : Int} {move : Move} {r : Except Exn Unit}
    (h : exec S i (.setBalance u balance move) c l s = some (r, l', s')) :
    ((∃ e, r = .error e) ∧ l'.failed = true ∧ l'.walletWrites = l.walletWrites) ∨
    (r = .ok () ∧ l.failed = false ∧ ∃ w, l.wallet s u = some w ∧
      l'.walletWrites = update l.walletWrites u (some { w with balanceUctusd := balance }) ∧
      l'.moves = move :: l.moves) := by
  rcases exec_plain rfl h with ⟨e, rfl, rfl, -⟩ | ⟨hf, hp⟩
  · exact .inl ⟨⟨e, rfl⟩, Bool.or_true _, rfl⟩
  · right
    simp only [perform] at hp
    have hview : l.wallet (s.tick S c) u = l.wallet s u := rfl
    rw [hview] at hp
    split at hp
    next w hw =>
      split at hp
      · cases hp
        exact ⟨rfl, by simpa [Op.isStatement] using hf, w, hw, rfl, rfl⟩
      · cases hp
    · cases hp

theorem exec_setTrustLine {u : Nat} {r : Except Exn Unit}
    (h : exec S i (.setTrustLine u) c l s = some (r, l', s')) :
    l'.moves = l.moves ∧ (l'.walletWrites = l.walletWrites ∨ ∃ w, l.wallet s u = some w ∧
      l'.walletWrites = update l.walletWrites u (some { w with trustSetComplete := true })) := by
  rcases exec_plain rfl h with ⟨e, rfl, rfl, -⟩ | ⟨-, hp⟩
  · exact ⟨rfl, .inl rfl⟩
  · simp only [perform] at hp
    have hview : l.wallet (s.tick S c) u = l.wallet s u := rfl
    rw [hview] at hp
    split at hp
    next w hw =>
      split at hp
      · cases hp
        exact ⟨rfl, .inr ⟨w, hw, rfl⟩⟩
      · cases hp
    · cases hp

theorem exec_insertWallet {u : Nat} {w : Wallet} {r : Except Exn Unit}
    (h : exec S i (.insertWallet u w) c l s = some (r, l', s')) :
    l'.moves = l.moves ∧ (l'.walletWrites = l.walletWrites ∨
      (l.wallet s u = none ∧ l'.walletWrites = update l.walletWrites u (some w))) := by
  rcases exec_plain rfl h with ⟨e, rfl, rfl, -⟩ | ⟨-, hp⟩
  · exact ⟨rfl, .inl rfl⟩
  · simp only [perform] at hp
    split at hp
    next hn =>
      cases hp
      rw [Bool.and_eq_true] at hn
      exact ⟨rfl, .inr ⟨Option.isNone_iff_eq_none.mp hn.1, rfl⟩⟩
    · cases hp

/-- The session has its own wallet object after `o`, by an UPDATE of the wallet it saw or by an
INSERT. -/
theorem exec_walletWrites {u : Nat} {w' : Wallet} {r : Except Exn o.Res}
    (h : exec S i o c l s = some (r, l', s')) (hw : l'.walletWrites u = some w') :
    l.walletWrites u = some w' ∨
    (∃ w balance move, l.wallet s u = some w ∧ w' = { w with balanceUctusd := balance } ∧
      o = .setBalance u balance move) ∨
    (∃ w, l.wallet s u = some w ∧ w' = { w with trustSetComplete := true } ∧
      o = .setTrustLine u) ∨
    (l.wallet s u = none ∧ o = .insertWallet u w') := by
  -- one row is written, if any
  have hupdate : ∀ {k : Nat} {w₁ : Wallet},
      l'.walletWrites = update l.walletWrites k (some w₁) →
      l.walletWrites u = some w' ∨ (u = k ∧ w' = w₁) := by
    intro k w₁ heq
    rw [heq] at hw
    by_cases hu : u = k
    · subst hu
      rw [Function.update_self] at hw
      exact .inr ⟨rfl, (Option.some.inj hw).symm⟩
    · rw [Function.update_of_ne hu] at hw
      exact .inl hw
  cases o with
  | commit =>
    rcases exec_commit h with ⟨-, rfl, -⟩ | ⟨-, -, ⟨-, rfl⟩ | ⟨-, rfl⟩⟩
    · exact .inl hw
    · cases hw
    · cases hw
  | setBalance k balance move =>
    rcases exec_setBalance h with ⟨-, -, heq⟩ | ⟨-, -, w, hread, heq, -⟩
    · exact .inl (by rwa [heq] at hw)
    · rcases hupdate heq with hold | ⟨rfl, rfl⟩
      · exact .inl hold
      · exact .inr (.inl ⟨w, balance, move, hread, rfl, rfl⟩)
  | setTrustLine k =>
    rcases exec_setTrustLine h with ⟨-, heq | ⟨w, hread, heq⟩⟩
    · exact .inl (by rwa [heq] at hw)
    · rcases hupdate heq with hold | ⟨rfl, rfl⟩
      · exact .inl hold
      · exact .inr (.inr (.inl ⟨w, hread, rfl, rfl⟩))
  | insertWallet k w₁ =>
    rcases exec_insertWallet h with ⟨-, heq | ⟨hnone, heq⟩⟩
    · exact .inl (by rwa [heq] at hw)
    · rcases hupdate heq with hold | ⟨rfl, rfl⟩
      · exact .inl hold
      · exact .inr (.inr (.inr ⟨hnone, rfl⟩))
  | _ =>
    rw [(exec_sameWallets rfl h).1] at hw
    exact .inl hw

/-! ## §4. The ledger, the signature and the clock. -/

def Op.looksUp : Op → Bool
  | .lookup _ => true
  | _ => false

theorem perform_sameView {v : Value} {r : Except Exn o.Res} (ho : o.looksUp = false)
    (h : perform S i l s v o = some (r, l', s')) : l'.view = l.view := by
  cases o <;> cases ho
  all_goals
    simp only [perform] at h
    (repeat' split at h) <;> cases h <;> rfl

/-- Only a lookup fixes the ledger that a request consults. -/
theorem exec_sameView {r : Except Exn o.Res} (ho : o.looksUp = false)
    (h : exec S i o c l s = some (r, l', s')) : l'.view = l.view :=
  exec_of_perform (P := fun k => k.view = l.view)
    (fun _ hk => hk) rfl (fun _ _ hp => perform_sameView ho hp) h

theorem perform_sameEntry {v : Value} {r : Except Exn o.Res}
    (h : perform S i l s v o = some (r, l', s')) : l'.entry = l.entry := by
  cases o
  all_goals
    simp only [perform] at h
    (repeat' split at h) <;> cases h <;> rfl

theorem exec_sameEntry {r : Except Exn o.Res} (h : exec S i o c l s = some (r, l', s')) :
    l'.entry = l.entry :=
  exec_of_perform (P := fun k => k.entry = l.entry)
    (fun _ hk => hk) rfl (fun _ _ hp => perform_sameEntry hp) h

theorem perform_handed {v : Value} {r : Except Exn o.Res}
    (h : perform S i l s v o = some (r, l', s')) {k : Nat} (hk : s'.handed k = true) :
    s.handed k = true ∨
      ∃ purpose b, o = .handOver purpose k ∧ s.blobs[k]? = some b ∧ b.purpose = purpose := by
  cases o with
  | handOver purpose m =>
    simp only [perform] at h
    split at h
    next hb =>
      cases h
      obtain ⟨b, hb, hp⟩ := (Option.any_eq_true _ _).mp hb
      by_cases hkm : k = m
      · subst hkm
        exact .inr ⟨purpose, b, rfl, hb, (of_decide_eq_true hp).1⟩
      · exact .inl (by simpa [update, hkm] using hk)
    · cases h
  | _ =>
    left
    simp only [perform] at h
    (repeat' split at h) <;> cases h <;> exact hk

/-- Only `handOver` hands a blob over, and one signed for its purpose. -/
theorem exec_handed {r : Except Exn o.Res} (h : exec S i o c l s = some (r, l', s')) {k : Nat}
    (hk : s'.handed k = true) :
    s.handed k = true ∨
      ∃ purpose b, o = .handOver purpose k ∧ s.blobs[k]? = some b ∧ b.purpose = purpose := by
  obtain ⟨-, ⟨e, -, -, ha⟩ | ⟨-, r₀, l₀, hp, -⟩⟩ := exec_inv h
  · rcases afterRaises_eq ha with rfl | ⟨m, -, -, rfl⟩ <;> exact .inl hk
  · exact perform_handed hp hk

theorem perform_blobs {v : Value} {r : Except Exn o.Res}
    (h : perform S i l s v o = some (r, l', s')) {k : Nat} {b : Blob} (hb : s'.blobs[k]? = some b) :
    s.blobs[k]? = some b ∨
      (o = .autofillAndSign b.purpose b.tx ∧ b.signedIndex = s.ledger.validated) := by
  cases o with
  | autofillAndSign purpose tx =>
    simp only [perform] at h
    split at h
    next last _ =>
      split at h
      · cases h
      · cases h
        by_cases hk : k < s.blobs.length
        · left
          rwa [List.getElem?_append_left hk] at hb
        · right
          rw [List.getElem?_append_right (by omega), List.getElem?_singleton] at hb
          split at hb
          · cases hb
            exact ⟨rfl, rfl⟩
          · cases hb
    · cases h
  | _ =>
    left
    simp only [perform] at h
    (repeat' split at h) <;> cases h <;> exact hb

/-- Only `autofillAndSign` makes a blob, for its own purpose and transaction. -/
theorem exec_blobs {r : Except Exn o.Res} (h : exec S i o c l s = some (r, l', s')) {k : Nat}
    {b : Blob} (hb : s'.blobs[k]? = some b) :
    s.blobs[k]? = some b ∨
      (o = .autofillAndSign b.purpose b.tx ∧ b.signedIndex = s.ledger.validated) := by
  obtain ⟨-, ⟨e, -, -, ha⟩ | ⟨-, r₀, l₀, hp, -⟩⟩ := exec_inv h
  · rcases afterRaises_eq ha with rfl | ⟨m, -, -, rfl⟩ <;> exact .inl hb
  · exact perform_blobs hp hb

theorem exec_now {r : Except Exn Nat} (h : exec S i .now c l s = some (r, l', s')) :
    r = .ok s'.clock ∧ l' = l ∧ s' = s.tick S c := by
  rcases exec_plain rfl h with ⟨e, -, -, ha⟩ | ⟨-, hp⟩
  · cases ha
  · cases hp
    exact ⟨rfl, rfl, rfl⟩

theorem exec_setSignedHash {k : Nat} {r : Except Exn Unit}
    (h : exec S i (.setSignedHash k) c l s = some (r, l', s')) :
    r = .ok () ∧ l' = { l with signedHash := some k } ∧ s' = s.tick S c := by
  rcases exec_plain rfl h with ⟨e, -, -, ha⟩ | ⟨-, hp⟩
  · cases ha
  · cases hp
    exact ⟨rfl, rfl, rfl⟩

theorem exec_latestValidated {r : Except Exn Nat}
    (h : exec S i .latestValidated c l s = some (r, l', s')) :
    (∃ e, r = .error e) ∨ r = .ok (l.consulted s).validated := by
  rcases exec_plain rfl h with ⟨e, rfl, -⟩ | ⟨-, hp⟩
  · exact .inl ⟨e, rfl⟩
  · cases hp
    exact .inr rfl

/-- A new signature is the last one, by its own program, now, at the index now validated. -/
theorem exec_autofillAndSign {purpose : Purpose} {tx : XRPLTransaction} {r : Except Exn SignedTx}
    (h : exec S i (.autofillAndSign purpose tx) c l s = some (r, l', s')) :
    (∃ e, r = .error e) ∨
    ∃ last, r = .ok ⟨s.blobs.length, last, none⟩ ∧
      s'.blobs[s.blobs.length]? = some ⟨purpose, i, last, s.ledger.validated, s'.clock, tx⟩ ∧
      (S.carriesLastLedger = true → last.isSome = true) := by
  rcases exec_plain rfl h with ⟨e, rfl, -⟩ | ⟨-, hp⟩
  · exact .inl ⟨e, rfl⟩
  · right
    simp only [perform] at hp
    split at hp
    next last _ =>
      split at hp
      · cases hp
      next hl =>
        cases hp
        refine ⟨last, rfl, ?_, fun hc => ?_⟩
        · simp
        · rw [hc, Bool.true_and] at hl
          cases last with
          | none => exact absurd rfl hl
          | some n => rfl
    · cases hp

/-- A result that a submission answers with is the validated one. -/
theorem exec_outcome {k : Nat} {r : Except Exn TxCode}
    (h : exec S i (.outcome k) c l s = some (r, l', s')) :
    (∃ e, r = .error e ∧ (s.tick S c).afterOutcomeRaises k e = some s') ∨
    ∃ n code, r = .ok code ∧ s.ledger.included k = some (n, code) ∧ s' = s.tick S c := by
  rcases exec_plain rfl h with ⟨e, rfl, -, ha⟩ | ⟨-, hp⟩
  · exact .inl ⟨e, rfl, ha⟩
  · right
    simp only [perform] at hp
    split at hp
    next n code hi =>
      cases hp
      exact ⟨n, code, rfl, hi, rfl⟩
    · cases hp

theorem exec_lookup {k : Nat} {r : Except Exn (Option TxCode)}
    (h : exec S i (.lookup k) c l s = some (r, l', s')) :
    (∃ e, r = .error e) ∨
    (r = .ok ((l.consulted s).lookup k) ∧ s' = s.tick S c ∧
      l' = { l with view := if S.oneLedgerView then some (l.consulted s) else none }) := by
  rcases exec_plain rfl h with ⟨e, rfl, -⟩ | ⟨-, hp⟩
  · exact .inl ⟨e, rfl⟩
  · cases hp
    exact .inr ⟨rfl, rfl, rfl⟩

/-- The range query may answer true exactly if the server holds the whole range. -/
theorem perform_completeRange {low high : Nat} :
    perform S i l s (.flag true) (.completeRange low high) = some (.ok true, l, s) ↔
      (l.consulted s).holds low high := by
  have hall : (List.range (high + 1 - low)).all (fun k => (l.consulted s).held (low + k)) = true ↔
      (l.consulted s).holds low high := by
    rw [List.all_eq_true]
    constructor
    · intro hheld n hlow hhigh
      have hn := hheld (n - low) (List.mem_range.mpr (by omega))
      rw [Nat.add_sub_cancel' hlow] at hn
      exact hn
    · intro hholds k hk
      have hlt := List.mem_range.mp hk
      exact hholds (low + k) (by omega) (by omega)
  simp only [perform, Bool.true_and, Bool.not_eq_true', ite_eq_right_iff, reduceCtorEq, imp_false,
    Bool.not_eq_false]
  exact hall

theorem exec_completeRange {low high : Nat} {r : Except Exn Bool}
    (h : exec S i (.completeRange low high) c l s = some (r, l', s')) :
    (∃ e, r = .error e) ∨
    ∃ b, r = .ok b ∧ (b = true → (l.consulted s).holds low high) := by
  rcases exec_plain rfl h with ⟨e, rfl, -⟩ | ⟨-, hp⟩
  · exact .inl ⟨e, rfl⟩
  · right
    cases hv : c.value with
    | flag b =>
      rw [hv] at hp
      cases b with
      | false =>
        cases hp
        exact ⟨false, rfl, nofun⟩
      | true =>
        have heq : perform S i l (s.tick S c) (.flag true) (.completeRange low high)
            = some (.ok true, l, s.tick S c) := by
          rw [hp]
          simp only [perform] at hp
          split at hp <;> cases hp
          rfl
        cases heq.symm.trans hp
        have hheld := perform_completeRange.mp heq
        exact ⟨true, rfl, fun _ => hheld⟩
    | _ => rw [hv] at hp; cases hp

/-- A retry completes a row with the hash the row still carries, where only such runs are
looked at. -/
theorem exec_sameHash {t : Nat} {cond : Txn → Bool} {values : Nat → Txn → Txn}
    {r : Except Exn Bool} (hS : S.sameHashReconcile = true)
    (hl : l.entry.isSettlementRetry = true)
    (h : exec S i (.updateTxn t cond values) c l s = some (r, l', s')) {x : Txn}
    (hx : l.txn s t = some x) (hc : cond x = true)
    (hcompleted : (values s'.clock x).settlementStatus = .completed) :
    (values s'.clock x).xrplTxHash = x.xrplTxHash := by
  have hperm := (exec_inv h).1
  have hclock : s'.clock = (s.tick S c).clock := exec_clock h
  have hview : l.txn (s.tick S c) t = some x := hx
  rw [hclock] at hcompleted ⊢
  simp only [permitted, hS, hl, hview, Bool.and_eq_true] at hperm
  have hor : (values (s.tick S c).clock x).settlementStatus ≠ .completed ∨
      (values (s.tick S c).clock x).xrplTxHash = x.xrplTxHash := by
    simpa [hc] using hperm.2
  exact hor.resolve_left (fun hne => hne hcompleted)

/-- A publish failure is recorded on a quiet row, where only such runs are looked at. -/
theorem exec_quiet {k : Nat} {cond : CashOutRequest → Bool}
    {values : Nat → CashOutRequest → CashOutRequest} {r : Except Exn Bool}
    (hS : S.quietPublishFailure = true) (hl : l.entry.isApprove = true)
    (h : exec S i (.updateReq k cond values) c l s = some (r, l', s')) {q : CashOutRequest}
    (hq : l.req s k = some q) (hc : cond q = true) (happroved : q.status = .approved) :
    q.quiet s'.clock = true := by
  have hperm := (exec_inv h).1
  have hclock : s'.clock = (s.tick S c).clock := exec_clock h
  have hview : l.req (s.tick S c) k = some q := hq
  rw [hclock]
  simp only [permitted, hS, hl, hview, Bool.and_eq_true] at hperm
  simpa [hc, happroved] using hperm.2

/-! ## §5. What a call can raise. -/

theorem perform_ok {v : Value} {r : Except Exn o.Res}
    (h : perform S i l s v o = some (r, l', s')) : ∃ a, r = .ok a := by
  cases o
  all_goals
    simp only [perform] at h
    (repeat' split at h) <;> cases h <;> exact ⟨_, rfl⟩

/-- What a call raises is an exception of the world outside, at its instant. -/
theorem exec_error {e : Exn} (h : exec S i o c l s = some (.error e, l', s')) :
    afterRaises o e (s.tick S c) = some s' ∨ o.mayRaise e = true := by
  unfold exec at h
  split at h
  · unfold answer at h
    split at h
    · split at h
      · cases h
      · obtain ⟨a, ha⟩ := perform_ok h
        cases ha
    next e' _ =>
      obtain ⟨w, hw, heq⟩ := Option.map_eq_some_iff.mp h
      cases heq
      exact .inl hw
    next e' _ =>
      split at h
      · cases h
      · split at h
        next hl =>
          obtain ⟨_, _, heq⟩ := Option.map_eq_some_iff.mp h
          cases heq
          rw [Bool.and_eq_true] at hl
          exact .inr hl.2
        · cases h
  · cases h

/-- Only the program itself refuses an amount. -/
theorem exec_not_invalidAmount {e : Exn} (h : exec S i o c l s = some (.error e, l', s'))
    (text : String) : e ≠ .invalidAmount text := by
  rintro rfl
  have hmay : ∀ o : Op, o.mayRaise (.invalidAmount text) = false := by
    intro o
    cases o <;> rfl
  rcases exec_error h with ha | hm
  · unfold afterRaises at ha
    split at ha
    · cases ha
    · rw [hmay] at ha
      cases ha
  · rw [hmay] at hm
    cases hm

/-! ## §6. The life of a connection. -/

/-- A statement that raises leaves the connection useless: what would have come after an
answer of it is never reached. -/
inductive Life where
  | live | failed | void
  deriving Repr, DecidableEq

def Life.next (a : Life) (o : Op) (r : Except Exn o.Res) : Life :=
  match a, r with
  | .live, .error _ => if o.isStatement then .failed else .live
  | .failed, .ok _ => if o.isStatement then .void else .failed
  | a, _ => a

def Life.Means (l : Session) : Life → Prop
  | .live => l.failed = false
  | .failed => l.failed = true
  | .void => False

theorem Life.next_live {a : Life} {r : Except Exn o.Res} (h : a.next o r = .live) : a = .live := by
  unfold Life.next at h
  split at h
  · rfl
  · split at h <;> cases h
  · exact h

/-- Past a statement that has answered, the connection is not just broken. -/
theorem Life.answered {a : Life} {v : o.Res} (ho : o.isStatement = true) :
    a.next o (.ok v) ≠ .failed := by
  cases a with
  | live => nofun
  | void => nofun
  | failed =>
    show (if o.isStatement then Life.void else Life.failed) ≠ .failed
    rw [if_pos ho]
    nofun

theorem perform_sameFailed {v : Value} {r : Except Exn o.Res}
    (h : perform S i l s v o = some (r, l', s')) : l'.failed = l.failed := by
  cases o
  all_goals
    simp only [perform] at h
    (repeat' split at h) <;> cases h <;> rfl

/-- A session fails when a statement of it raises, and not otherwise. -/
theorem exec_life {r : Except Exn o.Res} (hx : exec S i o c l s = some (r, l', s')) :
    (∃ e, r = .error e ∧ l'.failed = (l.failed || o.isStatement)) ∨
      ((l.failed && o.isStatement) = false ∧ (∃ a, r = .ok a) ∧ l'.failed = l.failed) := by
  obtain ⟨-, ⟨e, rfl, rfl, -⟩ | ⟨hf, r₀, l₀, hp, hr⟩⟩ := exec_inv hx
  · exact .inl ⟨e, rfl, rfl⟩
  · have hsame := perform_sameFailed hp
    rcases hr with ⟨rfl, rfl⟩ | ⟨e, -, rfl, rfl⟩
    · exact .inr ⟨hf, perform_ok hp, hsame⟩
    · refine .inl ⟨e, rfl, ?_⟩
      show (l₀.failed || o.isStatement) = _
      rw [hsame]

theorem Life.Means.live {a : Life} (h : a.Means l) (hl : l.failed = false) : a = .live := by
  cases a with
  | live => rfl
  | failed => exact absurd (hl.symm.trans h) nofun
  | void => exact h.elim

theorem Life.Means.next {a : Life} {r : Except Exn o.Res} (h : a.Means l)
    (hx : exec S i o c l s = some (r, l', s')) : (a.next o r).Means l' := by
  cases a with
  | void => exact h.elim
  | live =>
    replace h : l.failed = false := h
    rcases exec_life hx with ⟨e, rfl, hl⟩ | ⟨-, ⟨a, rfl⟩, hl⟩
    · rw [h, Bool.false_or] at hl
      cases ho : o.isStatement with
      | true => simpa [Life.next, ho, Life.Means] using hl.trans ho
      | false => simpa [Life.next, ho, Life.Means] using hl.trans ho
    · exact hl.trans h
  | failed =>
    replace h : l.failed = true := h
    rcases exec_life hx with ⟨e, rfl, hl⟩ | ⟨hf, ⟨a, rfl⟩, hl⟩
    · show l'.failed = true
      rw [hl, h, Bool.true_or]
    · -- a statement of a session that has failed does not answer
      rw [h, Bool.true_and] at hf
      simpa [Life.next, hf, Life.Means] using hl.trans h

end Orbyt
