/-
  Orbyt.Rules.Submission — sign, store, submit

  `submit` is one function with two callers.  What they share is said here of a `Custody`:
  whatever a program holds while it signs for one purpose, with the hash it has stored so
  far.

  Main result:
    * `submit_custody` — the hash is stored before it is handed over, and what the result
      says of the ledger is true.
-/
import Orbyt.Rules.Writes

namespace Orbyt

open Interleave

variable {S : Setting} {i : Nat} {o : Op} {c : Choice} {l l' : Session} {s s' : World}
  {P : Protocol (rules S)} {T : Table}

/-- What program `i` holds while it signs for `purpose`, with the hash stored so far.  Of a
session that has failed nothing is asked. -/
structure Custody (G : Guard P T) (i : Nat) (purpose : Purpose) where
  Holds : Option Nat → Session → World → Prop
  clear : ∀ {hash l s}, Holds hash l s → l.Clear T
  along : ∀ {hash l s l' s'}, Holds hash l s → G.Along i l s l' s' → l'.view = l.view →
    Holds hash l' s'
  handOver : ∀ {k c l s} {r : Except Exn Unit} {l' s'}, Holds (some k) l s → l.failed = false →
    P.Here i l s → exec S i (.handOver purpose k) c l s = some (r, l', s') →
    P.keeps i s s' ∧ G.Along i l s l' s' ∧ l'.view = l.view
  failed : ∀ {hash l s}, l.failed = true → Holds hash l s

/-- The blob `b` of hash `k` has just been signed, after the ledger index `n` was read. -/
structure NewSignature (S : Setting) (purpose : Purpose) (n k : Nat) (b : Blob) (l : Session)
    (s : World) : Prop where
  blob : s.blobs[k]? = some b
  purpose : b.purpose = purpose
  index : l.failed = false → n ≤ b.signedIndex
  signedAt : b.signedAt ≤ s.clock
  expires : S.carriesLastLedger = true → b.lastLedgerSequence.isSome = true

theorem NewSignature.onward {purpose : Purpose} {n k : Nat} {b : Blob}
    (h : NewSignature S purpose n k b l s) (ho : Onward s s') :
    NewSignature S purpose n k b l s' where
  blob := ho.blobs k b h.blob
  purpose := h.purpose
  index := h.index
  signedAt := Nat.le_trans h.signedAt ho.clock
  expires := h.expires

namespace Custody

variable {G : Guard P T} {purpose : Purpose} (W : Custody G i purpose)

/-- What a submission has left when it answers `result`. -/
structure Submitted (result : XrplService.XRPLResult) (l : Session) (s : World) : Prop where
  holds : W.Holds l.signedHash l s
  unsigned : result.resolution = .notSubmitted → l.signedHash = none
  signed : result.resolution ≠ .notSubmitted → result.txHash = l.signedHash
  paid : result.resolution = .succeeded → ∃ k, ∃ b : Blob,
    result.txHash = some k ∧ s.blobs[k]? = some b ∧ s.Paid k
  lost : result.resolution = .failed → ∃ k, ∃ b : Blob,
    result.txHash = some k ∧ s.blobs[k]? = some b ∧ s.Lost k

/-- What it has left when `e` escapes it: an amount is refused before anything is signed. -/
structure Escaped (e : Exn) (l : Session) (s : World) : Prop where
  holds : W.Holds l.signedHash l s
  refused : ∀ text, e = .invalidAmount text → l.signedHash = none

variable {W}

theorem Submitted.along {result : XrplService.XRPLResult} (h : W.Submitted result l s)
    (ha : G.Along i l s l' s') (hv : l'.view = l.view) : W.Submitted result l' s' where
  holds := by rw [ha.signed]; exact W.along h.holds ha hv
  unsigned := by rw [ha.signed]; exact h.unsigned
  signed := by rw [ha.signed]; exact h.signed
  paid := fun hs => by
    obtain ⟨k, b, hk, hb, hp⟩ := h.paid hs
    exact ⟨k, b, hk, ha.onward.blobs k b hb, hp.onward ha.onward hb⟩
  lost := fun hs => by
    obtain ⟨k, b, hk, hb, hp⟩ := h.lost hs
    exact ⟨k, b, hk, ha.onward.blobs k b hb, hp.onward ha.onward hb⟩

theorem Escaped.along {e : Exn} (h : W.Escaped e l s) (ha : G.Along i l s l' s')
    (hv : l'.view = l.view) : W.Escaped e l' s' where
  holds := by rw [ha.signed]; exact W.along h.holds ha hv
  refused := by rw [ha.signed]; exact h.refused

/-- Before anything is signed. -/
theorem escaped_unsigned {e : Exn} (h : W.Holds none l s) (hs : l.signedHash = none) :
    W.Escaped e l s := ⟨by rw [hs]; exact h, fun _ _ => hs⟩

/-! ## §1. Signing. -/

theorem sign_custody {n : Nat} {tx : XRPLTransaction} {N : Nat → Blob → Session → World → Prop}
    (h : W.Holds none l s) (hsig : l.signedHash = none)
    (hn : l.failed = false → n ≤ s.ledger.validated)
    (hsign : ∀ s₁ c b l' s', P.Here i l s₁ → P.Given i l' s' → G.Along i l s l' s' →
      W.Holds none l' s' → NewSignature S purpose n s₁.blobs.length b l' s' →
      b.signedAt = s'.clock →
      exec S i (.autofillAndSign purpose tx) c l s₁ =
        some (.ok ⟨s₁.blobs.length, b.lastLedgerSequence, none⟩, l', s') →
      N s₁.blobs.length b l' s') :
    Safe P i
      (fun signed l' s' => l'.signedHash = none ∧ ∃ b,
        signed = ⟨signed.txHash, b.lastLedgerSequence, none⟩ ∧ N signed.txHash b l' s')
      (fun _ l' s' => W.Holds none l' s' ∧ l'.signedHash = none)
      (call (.autofillAndSign purpose tx)) l s := by
  refine safe_call fun hg s₁ hh hs c r l' s' hx hg' => ?_
  have hsees : G.Along i l s l s₁ := .of_sees (W.clear h) hs
  obtain ⟨hk, ha, hv⟩ := Guard.calm_call G hh rfl (W.clear h) hx
  have hall := hsees.trans ha
  have hheld := W.along h hall (hv rfl)
  have hsig' : l'.signedHash = none := hall.signed.trans hsig
  refine ⟨hk, ?_⟩
  rcases exec_autofillAndSign hx with ⟨e, rfl⟩ | ⟨last, rfl, hb, hlast⟩
  · exact ⟨hheld, hsig'⟩
  · have hnew : NewSignature S purpose n s₁.blobs.length
        ⟨purpose, i, last, s₁.ledger.validated, s'.clock, tx⟩ l' s' :=
      { blob := hb
        purpose := rfl
        index := fun hf => Nat.le_trans (hn (hall.live hf)) hsees.onward.validated
        signedAt := Nat.le_refl _
        expires := hlast }
    exact ⟨hsig', _, rfl, hsign s₁ c _ l' s' hh hg' hall hheld hnew rfl hx⟩

/-! ## §2. Submitting. -/

/-- The submission of `k` answers with the validated code, or raises. -/
theorem outcome_custody {k : Nat} (h : W.Holds (some k) l s) :
    Safe P i
      (fun code l' s' => G.Along i l s l' s' ∧ l'.view = l.view ∧
        ∃ n, s'.ledger.included k = some (n, code))
      (fun e l' s' => G.Along i l s l' s' ∧ l'.view = l.view ∧ (∀ text, e ≠ .invalidAmount text) ∧
        ((XrplService.classify e).1 = .failed → s'.Lost k))
      (call (.outcome k)) l s := by
  refine safe_call fun hg s₁ hh hs c r l' s' hx hg' => ?_
  obtain ⟨hk, ha, hv⟩ := Guard.calm_call G hh rfl (W.clear h) hx
  have hall := Guard.Along.trans (.of_sees (W.clear h) hs) ha
  refine ⟨hk, ?_⟩
  cases r with
  | ok code =>
    refine ⟨hall, hv rfl, ?_⟩
    rcases exec_outcome hx with ⟨e, he, -⟩ | ⟨m, code', hr, hi, rfl⟩
    · cases he
    · cases hr
      exact ⟨m, hi⟩
  | error e => exact ⟨hall, hv rfl, exec_not_invalidAmount hx, exec_outcome_lost hx⟩

theorem submitted_of_code {k n : Nat} {b : Blob} {code : TxCode} (h : W.Holds (some k) l s)
    (hsig : l.signedHash = some k) (hb : s.blobs[k]? = some b)
    (hn : s.ledger.included k = some (n, code)) :
    W.Submitted ⟨code == .tesSUCCESS, code.name, some k, "",
      some (if code == .tesSUCCESS then .succeeded else .failed)⟩ l s := by
  have hheld : W.Holds l.signedHash l s := by rw [hsig]; exact h
  by_cases hc : code = .tesSUCCESS
  · subst hc
    exact ⟨hheld, nofun, fun _ => hsig.symm, fun _ => ⟨k, b, rfl, hb, n, hn⟩, nofun⟩
  · have hfalse : (code == TxCode.tesSUCCESS) = false := by simpa using hc
    simp only [hfalse]
    exact ⟨hheld, nofun, fun _ => hsig.symm, nofun,
      fun _ => ⟨k, b, rfl, hb, .inl (.inl ⟨n, code, hn, hc⟩)⟩⟩

theorem submitted_of_error {k : Nat} {b : Blob} {e : Exn} {code text : String}
    (h : W.Holds (some k) l s) (hsig : l.signedHash = some k) (hb : s.blobs[k]? = some b)
    (hlost : (XrplService.classify e).1 = .failed → s.Lost k) :
    W.Submitted ⟨false, code, some k, text, some (XrplService.classify e).1⟩ l s := by
  have hres : (XrplService.classify e).1 ≠ .succeeded ∧
      (XrplService.classify e).1 ≠ .notSubmitted := by
    rcases classify_resolution e with hc | hc <;> rw [hc] <;> decide
  exact ⟨by rw [hsig]; exact h, fun hr => absurd hr hres.2, fun _ => hsig.symm,
    fun hr => absurd hr hres.1, fun hr => ⟨k, b, rfl, hb, hlost hr⟩⟩

/-- **SIGN, STORE, SUBMIT.** -/
theorem submit_custody {n : Nat} {tx : XRPLTransaction} {N : Nat → Blob → Session → World → Prop}
    {onSignedTx : SignedTx → Program Unit} (h : W.Holds none l s) (hsig : l.signedHash = none)
    (hn : l.failed = false → n ≤ s.ledger.validated)
    (hsign : ∀ s₁ c b l' s', P.Here i l s₁ → P.Given i l' s' → G.Along i l s l' s' →
      W.Holds none l' s' → NewSignature S purpose n s₁.blobs.length b l' s' →
      b.signedAt = s'.clock →
      exec S i (.autofillAndSign purpose tx) c l s₁ =
        some (.ok ⟨s₁.blobs.length, b.lastLedgerSequence, none⟩, l', s') →
      N s₁.blobs.length b l' s')
    (hstore : ∀ k b l s, l.signedHash = none → N k b l s →
      Safe P i
        (fun _ l' s' => W.Holds (some k) l' s' ∧ l'.failed = false ∧ l'.signedHash = some k ∧
          s'.blobs[k]? = some b)
        (fun _ l' _ => l'.failed = true ∧ l'.signedHash = none)
        (onSignedTx ⟨k, b.lastLedgerSequence, some n⟩) l s) :
    Safe P i (fun result l' s' => W.Submitted result l' s') (fun e l' s' => W.Escaped e l' s')
      (XrplService.submit purpose tx onSignedTx (some n)) l s := by
  unfold XrplService.submit
  refine Safe.attempt_bind (sign_custody h hsig hn hsign) ?_ ?_
  -- signed: the hash is stored first, and only then is the blob handed over
  · rintro signed l₁ s₁ ⟨hsig₁, b, hsigned, hsg⟩
    dsimp only
    rw [hsigned]
    refine Safe.bind ((hstore signed.txHash b l₁ s₁ hsig₁ hsg).mono (fun _ _ _ _ hq => hq)
      fun _ l' s' _ ⟨hf, hs⟩ => ⟨W.failed hf, fun _ _ => hs⟩) ?_
    rintro - l₂ s₂ ⟨hw₂, hf₂, hs₂, hb₂⟩
    refine Safe.call_bind fun hg s₃ hh hs c r l₃ s₄ hx hg' => ?_
    have hsees : G.Along i l₂ s₂ l₂ s₃ := .of_sees (W.clear hw₂) hs
    obtain ⟨hk, ha, hv⟩ := W.handOver (W.along hw₂ hsees rfl) hf₂ hh hx
    -- from here on the session remembers the hash, whatever is raised
    have hall := hsees.trans ha
    have hs₃ : l₃.signedHash = some signed.txHash := hall.signed.trans hs₂
    have hw₃ : W.Holds (some signed.txHash) l₃ s₄ := W.along hw₂ hall hv
    refine ⟨hk, ?_⟩
    cases r with
    | error e =>
      refine ⟨by rw [hs₃]; exact hw₃, fun text he => ?_⟩
      exact absurd he (exec_not_invalidAmount hx text)
    | ok u =>
      have hb₃ := hall.onward.blobs _ b hb₂
      refine Safe.attempt_bind (outcome_custody hw₃) ?_ ?_
      · rintro code l' s' ⟨ha', hv', n, hn⟩
        exact safe_ret fun _ => submitted_of_code (W.along hw₃ ha' hv') (ha'.signed.trans hs₃)
          (ha'.onward.blobs _ b hb₃) hn
      · rintro e l' s' ⟨ha', hv', hrefused, hlost⟩
        have hheld := W.along hw₃ ha' hv'
        have hs' := ha'.signed.trans hs₃
        cases e with
        | xrpl reliable text =>
          exact safe_ret fun _ => submitted_of_error hheld hs' (ha'.onward.blobs _ b hb₃) hlost
        | _ =>
          exact safe_raise fun _ =>
            ⟨by rw [hs']; exact hheld, fun text he => absurd he (hrefused text)⟩
  -- not signed: nothing has left
  · rintro e l₁ s₁ ⟨hw₁, hs₁⟩
    have hescaped : W.Escaped e l₁ s₁ := escaped_unsigned hw₁ hs₁
    cases e with
    | xrpl reliable text =>
      exact safe_ret fun _ => ⟨hescaped.holds, fun _ => hs₁,
        fun hres => absurd rfl hres, nofun, nofun⟩
    | _ => exact safe_raise fun _ => hescaped

end Custody

end Orbyt
