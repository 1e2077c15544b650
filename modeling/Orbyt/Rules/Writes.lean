/-
  Orbyt.Rules.Writes — rows written under a lock, and what may be committed

  A session changes a row in two steps: an UPDATE that takes its lock, and COMMIT.  What
  may be committed over a row is decided at the UPDATE, and the lock keeps it decided.

  A `Guard` is a protocol whose invariant is kept by committing admissible rows of one
  table.  Everything that does not depend on which rows are admissible is done here, for
  both tables at once.

  Main results:
    * `Guard.commit_call` — COMMIT of a session that is `Ready` keeps the protocol;
    * `Guard.ready_uses`, `Guard.calm_of_uses` — programs whose every call is harmless;
    * `Guard.write_end`, `Guard.write_commit_bind` — one UPDATE, and what follows it.
-/
import Orbyt.Invariants.Lifecycle
import Orbyt.Rules.Evidence

namespace Orbyt

open Interleave
open Function (update)

variable {S : Setting} {i : Nat} {o : Op} {c : Choice} {l l' : Session} {s s' : World}

/-! ## §1. The two tables. -/

inductive Table where
  | transactions | cashouts
  deriving Repr, DecidableEq

namespace Table

@[reducible] def Row : Table → Type
  | transactions => Txn
  | cashouts => CashOutRequest

/-- What is remembered of the program whose claim a row is under. -/
@[reducible] def Owner : Table → Type
  | transactions => Nat × Nat
  | cashouts => Nat

def stored : (T : Table) → World → Nat → Option T.Row
  | transactions, s, k => s.txns k
  | cashouts, s, k => s.reqs k

def written : (T : Table) → Session → Nat → Option T.Row
  | transactions, l, k => l.txnWrites k
  | cashouts, l, k => l.reqWrites k

def owner : (T : Table) → World → Nat → Option T.Owner
  | transactions, s, k => s.txnOwner k
  | cashouts, s, k => s.reqOwner k

def ownerAfter : (T : Table) → Nat → Option T.Row → T.Row → Option T.Owner → Option T.Owner
  | transactions, i, x, x', owner => Orbyt.ownerAfter i x x' owner
  | cashouts, i, x, x', owner => reqOwnerAfter i x x' owner

def lock : Table → World → Nat → Option Nat
  | transactions, s, k => s.txnLock k
  | cashouts, s, k => s.reqLock k

/-- UPDATE .. WHERE of one row. -/
def update : (T : Table) → Nat → (T.Row → Bool) → (Nat → T.Row → T.Row) → Op
  | transactions, k, cond, values => .updateTxn k cond values
  | cashouts, k, cond, values => .updateReq k cond values

def updating : (T : Table) → Nat → (T.Row → Bool) → (Nat → T.Row → T.Row) → Program Bool
  | transactions, k, cond, values => call (.updateTxn k cond values)
  | cashouts, k, cond, values => call (.updateReq k cond values)

/-- An UPDATE answers whether it has matched. -/
def answer : (T : Table) → {k : Nat} → {cond : T.Row → Bool} → {values : Nat → T.Row → T.Row} →
    Except Exn (T.update k cond values).Res → Except Exn Bool
  | transactions, _, _, _, r => r
  | cashouts, _, _, _, r => r

/-- The session after a statement has put `x'` in place of `x`. -/
def write : (T : Table) → Session → Nat → Nat → T.Row → T.Row → Session
  | transactions, l, now, k, x, x' => l.writeTxn now k (some x) x'
  | cashouts, l, now, k, x, x' => l.writeReq now k (some x) x'

def isWrittenBy : Table → Op → Bool
  | transactions, o => o.writesTxns
  | cashouts, o => o.writesReqs

variable {T : Table} {k : Nat} {cond : T.Row → Bool} {values : Nat → T.Row → T.Row}

theorem written_locked {x : T.Row} (hl : l.Locked i s) (hw : T.written l k = some x) :
    T.lock s k = some i := by
  cases T with
  | transactions => exact (hl.txns k x hw).1
  | cashouts => exact (hl.reqs k x hw).1

theorem stored_others (ho : Others i s s') (hk : T.lock s k = some i) :
    T.stored s' k = T.stored s k ∧ T.owner s' k = T.owner s k := by
  cases T with
  | transactions =>
    obtain ⟨-, ht, -, -, howner⟩ := ho.txnLock k hk
    exact ⟨ht, howner⟩
  | cashouts =>
    obtain ⟨-, hr, -, howner⟩ := ho.reqLock k hk
    exact ⟨hr, howner⟩

theorem stored_exec {r : Except Exn o.Res} (ho : o ≠ .commit)
    (hx : exec S i o c l s = some (r, l', s')) : T.stored s' = T.stored s ∧ T.owner s' =
    T.owner s := by
  have hu := exec_uncommitted ho hx
  cases T with
  | transactions => exact ⟨hu.txns, hu.txnOwner⟩
  | cashouts => exact ⟨hu.reqs, hu.reqOwner⟩

theorem written_exec {r : Except Exn o.Res} (ho : T.isWrittenBy o = false)
    (hx : exec S i o c l s = some (r, l', s')) : T.written l' = T.written l := by
  cases T with
  | transactions => exact (exec_sameTxns ho hx).1
  | cashouts => exact (exec_sameReqs ho hx).1

theorem written_write {now : Nat} {x x' : T.Row} :
    T.written (T.write l now k x x') = Function.update (T.written l) k (some x') := by
  cases T <;> rfl

theorem written_committed : T.written l.committed k = none := by
  cases T <;> rfl

theorem stored_commit : T.stored (s.commit i l) k = (T.written l k).or (T.stored s k) := by
  cases T <;> rfl

theorem owner_commit {x' : T.Row} (hw : T.written l k = some x') :
    T.owner (s.commit i l) k = T.ownerAfter i (T.stored s k) x' (T.owner s k) := by
  cases T with
  | transactions => exact commit_txnOwner_written hw
  | cashouts => exact commit_reqOwner_written hw

theorem unwritten_commit (hw : T.written l k = none) :
    T.stored (s.commit i l) k = T.stored s k ∧ T.owner (s.commit i l) k = T.owner s k := by
  refine ⟨by rw [T.stored_commit, hw]; rfl, ?_⟩
  cases T with
  | transactions => exact commit_txnOwner hw
  | cashouts => exact commit_reqOwner hw

theorem write_failed {now : Nat} {x x' : T.Row} : (T.write l now k x x').failed = l.failed := by
  cases T <;> rfl

theorem write_signedHash {now : Nat} {x x' : T.Row} :
    (T.write l now k x x').signedHash = l.signedHash := by
  cases T <;> rfl

theorem write_view {now : Nat} {x x' : T.Row} : (T.write l now k x x').view = l.view := by
  cases T <;> rfl

theorem update_ne_commit : T.update k cond values ≠ .commit := by
  cases T <;> exact nofun

theorem update_isStatement : (T.update k cond values).isStatement = true := by
  cases T <;> rfl

theorem exec_update {r : Except Exn (T.update k cond values).Res}
    (hx : exec S i (T.update k cond values) c l s = some (r, l', s')) :
    ((∃ e, T.answer r = .error e) ∧ l' = l.fail (T.update k cond values)) ∨
    (T.answer r = .ok false ∧ l' = l ∧
      ∀ x, (T.written l k).or (T.stored s k) = some x → cond x = false) ∨
    ∃ x, T.answer r = .ok true ∧ l.failed = false ∧
      (T.written l k).or (T.stored s k) = some x ∧ cond x = true ∧
      l' = T.write l s'.clock k x (values s'.clock x) := by
  cases T with
  | transactions =>
    rcases exec_updateTxn hx with ⟨he, -, hl⟩ | hmiss | ⟨x, hr, hf, hx, hc, hl, -⟩
    · exact .inl ⟨he, hl⟩
    · exact .inr (.inl hmiss)
    · exact .inr (.inr ⟨x, hr, hf, hx, hc, hl⟩)
  | cashouts =>
    rcases exec_updateReq hx with ⟨he, -, hl⟩ | hmiss | ⟨x, hr, hf, hx, hc, hl, -⟩
    · exact .inl ⟨he, hl⟩
    · exact .inr (.inl hmiss)
    · exact .inr (.inr ⟨x, hr, hf, hx, hc, hl⟩)

/-- An UPDATE, then the rest. -/
theorem updating_bind {P : Protocol (rules S)} {α : Type} {f : Bool → Program α}
    {Q : α → Session → World → Prop} {E : Exn → Session → World → Prop}
    (h : P.Given i l s → ∀ s₁, P.Here i l s₁ → P.Sees i s s₁ →
      ∀ c r l' s', exec S i (T.update k cond values) c l s₁ = some (r, l', s') → P.Given i l' s' →
        P.keeps i s₁ s' ∧
          onAnswer (fun a => Safe P i Q E (f a) l' s') (fun e => E e l' s') (T.answer r)) :
    Safe P i Q E (Prog.bind (T.updating k cond values) f) l s := by
  cases T with
  | transactions => exact Safe.call_bind h
  | cashouts => exact Safe.call_bind h

end Table

/-! ## §2. Guards. -/

/-- A call that hands a payment or a burn over. -/
def Op.submits : Op → Bool
  | .handOver (.payment _) _ | .handOver (.burn _) _ => true
  | _ => false

variable {P : Protocol (rules S)} {T : Table}

/-- A protocol that is kept by committing admissible rows of one table, and by every call
that neither commits nor submits. -/
structure Guard (P : Protocol (rules S)) (T : Table) where
  /-- Program `i` may commit the second row over the first. -/
  Replaces : Nat → World → Nat → Option T.Row → T.Row → Prop
  sees : ∀ {i l s s' k x'}, P.Given i l s → P.Sees i s s' → T.written l k = some x' →
    Replaces i s k (T.stored s k) x' → Replaces i s' k (T.stored s k) x'
  own : ∀ {i o c l s} {r : Except Exn o.Res} {l' s' k x x'}, P.Here i l s → o ≠ .commit →
    exec S i o c l s = some (r, l', s') → Replaces i s k x x' → Replaces i s' k x x'
  plain : ∀ {i o c l s} {r : Except Exn o.Res} {l' s'}, P.Here i l s → o ≠ .commit →
    o.submits = false → exec S i o c l s = some (r, l', s') → P.keeps i s s' ∧ P.rely i s s'
  tick : ∀ {i l s} (c : Choice), P.Here i l s → P.keeps i s (s.tick S c) ∧ P.rely i s (s.tick S c)
  commit : ∀ {i l s} (c : Choice), P.Here i l s →
    (∀ k x', T.written l k = some x' → Replaces i s k (T.stored s k) x') →
    P.keeps i s ((s.tick S c).commit i l)
  commitClear : ∀ {i l s} (c : Choice), P.Here i l s → (∀ k, T.written l k = none) →
    P.rely i s ((s.tick S c).commit i l)
  /-- A call after which a session's rows are admissible if they were before. -/
  Idle : Op → Prop
  idle : ∀ {i o c l s} {r : Except Exn o.Res} {l' s'}, Idle o → o ≠ .commit → P.Here i l s →
    (l.failed = true ∨ ∀ k x', T.written l k = some x' → Replaces i s k (T.stored s k) x') →
    exec S i o c l s = some (r, l', s') → P.keeps i s s' ∧
      (l'.failed = true ∨ ∀ k x', T.written l' k = some x' → Replaces i s' k (T.stored s' k) x')

/-- Nothing is written, or nothing that is will be committed. -/
def Session.Clear (T : Table) (l : Session) : Prop := l.failed = true ∨ ∀ k, T.written l k = none

/-- A session with nothing written reads what is stored. -/
theorem Session.Clear.reads {k : Nat} (hc : l.Clear T) (hf : l.failed = false) :
    (T.written l k).or (T.stored s k) = T.stored s k := by
  rw [hc.resolve_left (by simp [hf]) k]
  rfl

theorem Session.Clear.txn {t : Nat} (hc : l.Clear .transactions) (hf : l.failed = false) :
    l.txn s t = s.txns t := hc.reads (T := .transactions) hf

theorem Session.Clear.req {r : Nat} (hc : l.Clear .cashouts) (hf : l.failed = false) :
    l.req s r = s.reqs r := hc.reads (T := .cashouts) hf

theorem Session.Clear.call (hc : l.Clear T) (ho : T.isWrittenBy o = false) {r : Except Exn o.Res}
    (hx : exec S i o c l s = some (r, l', s')) : l'.Clear T := by
  rcases hc with hf | hn
  · exact .inl (exec_staysFailed hf hx)
  · refine .inr fun k => ?_
    rw [T.written_exec ho hx]
    exact hn k

namespace Guard

variable (G : Guard P T)

/-- Whatever the session has written may be committed. -/
def Ready (i : Nat) (l : Session) (s : World) : Prop :=
  l.failed = true ∨ ∀ k x', T.written l k = some x' → G.Replaces i s k (T.stored s k) x'

variable {G}

theorem ready_of_clear (h : l.Clear T) : G.Ready i l s := by
  rcases h with hf | hn
  · exact .inl hf
  · refine .inr fun k x' hx' => ?_
    rw [hn k] at hx'
    cases hx'

theorem Ready.sees (h : G.Ready i l s) (hg : P.Given i l s) (hs : P.Sees i s s') :
    G.Ready i l s' := by
  rcases h with hf | hw
  · exact .inl hf
  · refine .inr fun k x' hx' => ?_
    rw [(T.stored_others hs.moves.others (T.written_locked hg.session.locked hx')).1]
    exact G.sees hg hs hx' (hw k x' hx')

/-- **COMMIT** of a session that is ready keeps the protocol and leaves nothing written. -/
theorem commit_call (hh : P.Here i l s) (h : G.Ready i l s) {r : Except Exn Unit}
    (hx : exec S i .commit c l s = some (r, l', s')) : P.keeps i s s' ∧ l'.Clear T := by
  rcases exec_commit hx with ⟨-, rfl, rfl⟩ | ⟨hf, rfl, hend⟩
  · exact ⟨(G.tick c hh).1, .inl (Bool.or_true _)⟩
  · refine ⟨G.commit c hh (h.resolve_left (by simp [hf])), ?_⟩
    rcases hend with ⟨-, rfl⟩ | ⟨-, rfl⟩
    · exact .inr fun _ => T.written_committed
    · exact .inl (Bool.or_true _)

theorem ready_call (hh : P.Here i l s) (ho : G.Idle o) (h : G.Ready i l s) {r : Except Exn o.Res}
    (hx : exec S i o c l s = some (r, l', s')) : P.keeps i s s' ∧ G.Ready i l' s' := by
  by_cases hcommit : o = .commit
  · subst hcommit
    obtain ⟨hk, hclear⟩ := commit_call hh h hx
    exact ⟨hk, ready_of_clear hclear⟩
  · exact G.idle ho hcommit hh h hx

/-- **HARMLESS PROGRAMS** keep a session ready at every step. -/
theorem ready_uses {α : Type} {p : Program α} (hu : Prog.Uses G.Idle p) (h : G.Ready i l s) :
    Safe P i (fun _ l' s' => G.Ready i l' s' ∧ l'.entry = l.entry)
      (fun _ l' s' => G.Ready i l' s' ∧ l'.entry = l.entry) p l s := by
  refine Safe.of_uses (P := P) (F := G.Idle)
    (A := fun (l' : Session) (s' : World) => G.Ready i l' s' ∧ l'.entry = l.entry) ?_ ?_ hu ⟨h, rfl⟩
  · intro (l₁ : Session) (s₁ : World) (s₂ : World) ⟨ha, he⟩ hg _ hs
    exact ⟨ha.sees hg hs, he⟩
  · intro (o : Op) hm (l₁ : Session) (s₁ : World) ⟨ha, he⟩ hh c r l' s' hx _
    obtain ⟨hk, hr⟩ := ready_call hh hm ha hx
    exact ⟨hk, hr, (exec_sameEntry hx).trans he⟩

theorem ready_of_uses {α : Type} {p : Program α} (hu : Prog.Uses G.Idle p)
    (h : G.Ready i l s) :
    Safe P i (fun _ _ _ => True) (fun _ _ _ => True) p l s :=
  (ready_uses hu h).mono (fun _ _ _ _ _ => trivial) fun _ _ _ _ _ => trivial

/-- COMMIT of a session that is ready, then the rest. -/
theorem commit_bind {α : Type} {f : Unit → Program α} {Q : α → Session → World → Prop}
    {E : Exn → Session → World → Prop} (h : G.Ready i l s)
    (hok : ∀ l' s', l'.Clear T → l'.entry = l.entry → Safe P i Q E (f ()) l' s')
    (herr : ∀ e l' s', l'.Clear T → E e l' s') :
    Safe P i Q E (Prog.bind (call .commit) f) l s := by
  refine Safe.call_bind fun hg s₁ hh hs c r l' s' hx hg' => ?_
  obtain ⟨hk, hclear⟩ := commit_call hh (h.sees hg hs) hx
  refine ⟨hk, ?_⟩
  cases r with
  | ok a => exact hok l' s' hclear (exec_sameEntry hx)
  | error e => exact herr e l' s' hclear

/-- A call that writes no row of the table leaves a session ready. -/
theorem Ready.unwritten (h : G.Ready i l s) (hh : P.Here i l s) (ho : T.isWrittenBy o = false)
    {r : Except Exn o.Res} (hx : exec S i o c l s = some (r, l', s')) : G.Ready i l' s' := by
  have hcommit : o ≠ .commit := by
    rintro rfl
    cases T <;> cases ho
  rcases h with hf | hw
  · exact .inl (exec_staysFailed hf hx)
  · refine .inr fun k x' hx' => ?_
    rw [T.written_exec ho hx] at hx'
    rw [(T.stored_exec hcommit hx).1]
    exact G.own hh hcommit hx (hw k x' hx')

/-! ## §3. Calm calls. -/

end Guard

/-- A call that writes no row, notes no hash and submits nothing. -/
def Op.isCalm : Op → Bool
  | .updateTxn _ _ _ | .updateTxns _ _ | .insertTxn _ | .updateReq _ _ _ | .insertReq _
  | .setSignedHash _ | .handOver (.payment _) _ | .handOver (.burn _) _ => false
  | _ => true

theorem calm_plain_view : ∀ o : Op, o.isBasic = true → o.isCalm = true ∧ o.looksUp = false := by
  intro o h
  cases o <;> first | exact ⟨rfl, rfl⟩ | cases h

namespace Guard

/-- How a session with nothing written has got from one moment to another. -/
structure Along (_ : Guard P T) (i : Nat) (l : Session) (s : World) (l' : Session) (s' : World) :
    Prop where
  clear : l'.Clear T
  claimedAt : l'.claimedAt = l.claimedAt
  signed : l'.signedHash = l.signedHash
  entry : l'.entry = l.entry
  failed : l.failed = true → l'.failed = true
  rely : P.rely i s s'
  onward : Onward s s'

variable {G : Guard P T}

theorem Along.refl (h : l.Clear T) : G.Along i l s l s :=
  ⟨h, rfl, rfl, rfl, id, P.refl i s, .refl s⟩

theorem Along.trans {l'' : Session} {s'' : World} (h : G.Along i l s l' s')
    (h' : G.Along i l' s' l'' s'') : G.Along i l s l'' s'' where
  clear := h'.clear
  claimedAt := h'.claimedAt.trans h.claimedAt
  signed := h'.signed.trans h.signed
  entry := h'.entry.trans h.entry
  failed := fun hf => h'.failed (h.failed hf)
  rely := P.trans h.rely h'.rely
  onward := h.onward.trans h'.onward

/-- Others move. -/
theorem Along.of_sees (h : l.Clear T) (hs : P.Sees i s s') : G.Along i l s l s' :=
  ⟨h, rfl, rfl, rfl, id, hs.rely, hs.moves.others.onward⟩

/-- A session that has not failed now has not failed before. -/
theorem Along.live (h : G.Along i l s l' s') (hf : l'.failed = false) : l.failed = false := by
  cases hl : l.failed with
  | false => rfl
  | true =>
    rw [h.failed hl] at hf
    cases hf

theorem calm_call (G : Guard P T) (hh : P.Here i l s) (ho : o.isCalm = true) (hc : l.Clear T)
    {r : Except Exn o.Res} (hx : exec S i o c l s = some (r, l', s')) :
    P.keeps i s s' ∧ G.Along i l s l' s' ∧ (o.looksUp = false → l'.view = l.view) := by
  have hon : Onward s s' := exec_onward hh.session.locked hx
  by_cases hcommit : o = .commit
  · subst hcommit
    obtain ⟨hk, hclear⟩ := commit_call (G := G) hh (ready_of_clear hc) hx
    obtain ⟨hclaim, hsigned, hview, -⟩ := exec_commit_session hx
    refine ⟨hk, ⟨hclear, hclaim, hsigned, exec_sameEntry hx, fun hf => exec_staysFailed hf hx, ?_,
      hon⟩, fun _ => hview⟩
    rcases exec_commit hx with ⟨-, -, rfl⟩ | ⟨hf, rfl, -⟩
    · exact (G.tick c hh).2
    · exact G.commitClear c hh (hc.resolve_left (by simp [hf]))
  · have hwrites : o.writesTxns = false ∧ o.writesReqs = false ∧ o.setsSignedHash = false ∧
        o.submits = false := by
      cases o with
      | handOver purpose k => cases purpose <;> first | exact ⟨rfl, rfl, rfl, rfl⟩ | cases ho
      | _ => first | exact ⟨rfl, rfl, rfl, rfl⟩ | exact absurd rfl hcommit | cases ho
    obtain ⟨ht, hr, hsigned, hsub⟩ := hwrites
    have hunwritten : T.isWrittenBy o = false := by cases T <;> assumption
    obtain ⟨hk, hrely⟩ := G.plain hh hcommit hsub hx
    exact ⟨hk, ⟨hc.call hunwritten hx, exec_sameClaim ht hr hx, exec_sameSigned hsigned hx,
      exec_sameEntry hx,
      fun hf => exec_staysFailed hf hx, hrely, hon⟩, fun hv => exec_sameView hv hx⟩

section Programs

variable {α : Type} {Q : α → Session → World → Prop} {E : Exn → Session → World → Prop}

/-- A calm call, then the rest. -/
theorem calm_bind (G : Guard P T) {f : o.Res → Program α} (ho : o.isCalm = true) (hc : l.Clear T)
    (hok : ∀ s₁ c a l' s', P.Here i l s₁ → G.Along i l s l s₁ →
      exec S i o c l s₁ = some (.ok a, l', s') → G.Along i l s l' s' →
        (o.looksUp = false → l'.view = l.view) → Safe P i Q E (f a) l' s')
    (herr : ∀ s₁ c e l' s', exec S i o c l s₁ = some (.error e, l', s') →
      G.Along i l s l' s' → (o.looksUp = false → l'.view = l.view) → E e l' s') :
    Safe P i Q E (Prog.bind (call o) f) l s := by
  refine Safe.call_bind fun hg s₁ hh hs c r l' s' hx hg' => ?_
  obtain ⟨hk, hal, hv⟩ := calm_call G hh ho hc hx
  have hsees : G.Along i l s l s₁ := .of_sees hc hs
  refine ⟨hk, ?_⟩
  cases r with
  | ok a => exact hok s₁ c a l' s' hh hsees hx (hsees.trans hal) hv
  | error e => exact herr s₁ c e l' s' hx (hsees.trans hal) hv

/-- **CALM PROGRAMS.** -/
theorem calm_of_uses (G : Guard P T) {p : Program α}
    (hu : Prog.Uses (fun o : Op => o.isCalm = true ∧ o.looksUp = false) p) (hc : l.Clear T) :
    Safe P i (fun _ l' s' => G.Along i l s l' s' ∧ l'.view = l.view)
      (fun _ l' s' => G.Along i l s l' s' ∧ l'.view = l.view) p l s := by
  refine Safe.of_uses (P := P) (F := fun o : Op => o.isCalm = true ∧ o.looksUp = false)
    (A := fun (l' : Session) (s' : World) => G.Along i l s l' s' ∧ l'.view = l.view) ?_ ?_ hu
    ⟨.refl hc, rfl⟩
  · intro (l₁ : Session) (s₁ : World) (s₂ : World) ⟨ha, hv⟩ _ _ hs
    exact ⟨ha.trans (.of_sees ha.clear hs), hv⟩
  · intro (o : Op) ⟨ho, hlook⟩ (l₁ : Session) (s₁ : World) ⟨ha, hv⟩ hh c r l' s' hx _
    obtain ⟨hk, hal, hv'⟩ := calm_call G hh ho ha.clear hx
    exact ⟨hk, ha.trans hal, (hv' hlook).trans hv⟩

/-! ## §4. One UPDATE. -/

/-- What an UPDATE leaves over a stored row that it matches may be committed. -/
def WritesOver (G : Guard P T) (i k : Nat) (cond : T.Row → Bool) (values : Nat → T.Row → T.Row)
    (l : Session) (s : World) : Prop :=
  ∀ s₁ c (r : Except Exn (T.update k cond values).Res) l' s' x, P.Here i l s₁ →
    G.Along i l s l s₁ → exec S i (T.update k cond values) c l s₁ = some (r, l', s') →
    T.answer r = .ok true → l.failed = false → T.stored s₁ k = some x → cond x = true →
    G.Replaces i s' k (some x) (values s'.clock x)

/-- A session with one row written over `x`, still under its lock. -/
structure Pending (G : Guard P T) (i k : Nat) (x x' : T.Row) (l : Session) (s : World) :
    Prop where
  failed : l.failed = false
  writes : T.written l = update (fun _ => none) k (some x')
  stored : T.stored s k = some x
  replaces : G.Replaces i s k (some x) x'

variable {k : Nat} {x x' : T.Row} {cond : T.Row → Bool} {values : Nat → T.Row → T.Row}

theorem Pending.written (h : G.Pending i k x x' l s) : T.written l k = some x' := by
  rw [h.writes, Function.update_self]

theorem Pending.ready (h : G.Pending i k x x' l s) : G.Ready i l s := by
  refine .inr fun k' y hy => ?_
  rw [h.writes] at hy
  by_cases hk : k' = k
  · subst hk
    rw [Function.update_self] at hy
    cases hy
    rw [h.stored]
    exact h.replaces
  · rw [Function.update_of_ne hk] at hy
    cases hy

theorem Pending.sees (h : G.Pending i k x x' l s) (hg : P.Given i l s) (hs : P.Sees i s s') :
    G.Pending i k x x' l s' ∧ T.owner s' k = T.owner s k := by
  obtain ⟨hstored, howner⟩ :=
    T.stored_others hs.moves.others (T.written_locked hg.session.locked h.written)
  refine ⟨⟨h.failed, h.writes, hstored.trans h.stored, ?_⟩, howner⟩
  have hrep := h.replaces
  rw [← h.stored] at hrep ⊢
  exact G.sees hg hs h.written hrep

/-- COMMIT of one written row. -/
theorem Pending.commit (h : G.Pending i k x x' l s) {r : Except Exn Unit}
    (hx : exec S i .commit c l s = some (r, l', s')) :
    ((∃ e, r = .error e) ∧ l'.failed = true) ∨
      (r = .ok () ∧ l'.failed = false ∧ T.stored s' k = some x' ∧
        T.owner s' k = T.ownerAfter i (some x) x' (T.owner s k)) := by
  obtain ⟨-, -, -, herr, hok⟩ := exec_commit_session hx
  cases r with
  | error e => exact .inl ⟨⟨e, rfl⟩, herr e rfl⟩
  | ok a =>
    refine .inr ⟨rfl, hok rfl, ?_⟩
    rcases exec_commit hx with ⟨⟨e, he⟩, -, -⟩ | ⟨-, rfl, -⟩
    · cases he
    · have hstored : T.stored (s.tick S c) k = some x := by
        rw [← h.stored]
        cases T <;> rfl
      have howner : T.owner (s.tick S c) k = T.owner s k := by cases T <;> rfl
      constructor
      · rw [T.stored_commit, h.written]
        rfl
      · rw [T.owner_commit h.written, hstored, howner]

/-- What a write does to a session with nothing written. -/
theorem write_call (hc : l.Clear T) (hw : G.WritesOver i k cond values l s) {s₁ : World}
    (hh : P.Here i l s₁) (hs : P.Sees i s s₁) {r : Except Exn (T.update k cond values).Res}
    (hx : exec S i (T.update k cond values) c l s₁ = some (r, l', s')) :
    P.keeps i s₁ s' ∧
      ((∃ e, T.answer r = .error e) ∧ l' = l.fail (T.update k cond values) ∨
       (T.answer r = .ok false ∧ l' = l ∧ l.failed = false ∧
        ∀ x, T.stored s₁ k = some x → cond x = false) ∨
       ∃ x, T.answer r = .ok true ∧ T.stored s₁ k = some x ∧ cond x = true ∧
        l' = T.write l s'.clock k x (values s'.clock x) ∧
        G.Pending i k x (values s'.clock x) l' s') := by
  have hsub : (T.update k cond values).submits = false := by cases T <;> rfl
  refine ⟨(G.plain hh T.update_ne_commit hsub hx).1, ?_⟩
  rcases T.exec_update hx with ⟨he, rfl⟩ | ⟨hr, rfl, hmiss⟩ | ⟨x, hr, hf, hxt, hcond, rfl⟩
  · exact .inl ⟨he, rfl⟩
  · have hf : l'.failed = false := by
      cases hf : l'.failed with
      | false => rfl
      | true =>
        obtain ⟨e, rfl, -⟩ := exec_failed T.update_isStatement hf hx
        cases T <;> cases hr
    exact .inr (.inl ⟨hr, rfl, hf, fun x hx => hmiss x ((hc.reads hf).trans hx)⟩)
  · have hn := hc.resolve_left (by simp [hf])
    have hstored : T.stored s₁ k = some x := (hc.reads hf).symm.trans hxt
    have hrep := hw s₁ c r _ s' x hh (.of_sees hc hs) hx hr hf hstored hcond
    refine .inr (.inr ⟨x, hr, hstored, hcond, rfl, T.write_failed.trans hf, ?_, ?_, hrep⟩)
    · rw [T.written_write, funext hn]
    · rw [(T.stored_exec T.update_ne_commit hx).1]
      exact hstored

/-- **A LAST WRITE**: after it the program makes harmless calls only. -/
theorem write_end {f : Bool → Program α} (hc : l.Clear T)
    (hw : G.WritesOver i k cond values l s) (hu : ∀ hit, Prog.Uses G.Idle (f hit)) :
    Safe P i (fun _ _ _ => True) (fun _ _ _ => True)
      (Prog.bind (T.updating k cond values) f) l s := by
  refine T.updating_bind fun hg s₁ hh hs c r l' s' hx hg' => ?_
  obtain ⟨hk, hcases⟩ := write_call hc hw hh hs hx
  refine ⟨hk, ?_⟩
  rcases hcases with ⟨⟨e, hr⟩, -⟩ | ⟨hr, rfl, -⟩ | ⟨x, hr, -, -, -, hp⟩
  · rw [hr]
    trivial
  · rw [hr]
    exact ready_of_uses (hu false) (ready_of_clear hc)
  · rw [hr]
    exact ready_of_uses (hu true) hp.ready

/-- What a write followed by COMMIT leaves when both have answered. -/
structure Written (_ : Guard P T) (i k : Nat) (x x' : T.Row) (now : Nat) (l : Session) (s : World)
    (l' : Session) (s' : World) : Prop where
  clear : l'.Clear T
  failed : l'.failed = false
  claimedAt : l'.claimedAt = (T.write l now k x x').claimedAt
  signed : l'.signedHash = l.signedHash
  view : l'.view = l.view
  row : T.stored s' k = some x'
  owner : T.owner s' k = T.ownerAfter i (some x) x' (T.owner s k)
  onward : Onward s s'
  clock : now ≤ s'.clock

/-- **A WRITE, THEN COMMIT**, then the rest. -/
theorem write_commit_bind {f : Bool → Program α} (hc : l.Clear T)
    (hw : G.WritesOver i k cond values l s)
    (hhit : ∀ s₁ c (r : Except Exn (T.update k cond values).Res) l₁ s₂ x l' s', P.Here i l s₁ →
      G.Along i l s l s₁ → exec S i (T.update k cond values) c l s₁ = some (r, l₁, s₂) →
      l.failed = false → T.stored s₁ k = some x → cond x = true →
      G.Written i k x (values s₂.clock x) s₂.clock l s₁ l' s' →
      Safe P i Q E (f true) l' s')
    (hmiss : ∀ s₁ c (r : Except Exn (T.update k cond values).Res) l₁ s₂ l' s', P.Here i l s₁ →
      G.Along i l s l s₁ → exec S i (T.update k cond values) c l s₁ = some (r, l₁, s₂) →
      l.failed = false → (∀ x, T.stored s₁ k = some x → cond x = false) → G.Along i l s l' s' →
      l'.view = l.view → Safe P i Q E (f false) l' s')
    (herr : ∀ e l' s', l'.failed = true → l'.signedHash = l.signedHash → E e l' s') :
    Safe P i Q E (Prog.bind (T.updating k cond values) fun hit =>
      Prog.bind (call .commit) fun _ => f hit) l s := by
  refine T.updating_bind fun hg s₁ hh hs c r l₁ s₂ hx hg₂ => ?_
  obtain ⟨hk, hcases⟩ := write_call hc hw hh hs hx
  have hsees : G.Along i l s l s₁ := .of_sees hc hs
  have hsub : (T.update k cond values).submits = false := by cases T <;> rfl
  have hon : Onward s₁ s₂ := exec_onward hh.session.locked hx
  refine ⟨hk, ?_⟩
  -- the UPDATE fails, hits nothing, or hits the row; and COMMIT may fail after it
  rcases hcases with ⟨⟨e, hr⟩, rfl⟩ | ⟨hr, rfl, hf, hno⟩ | ⟨x, hr, hstored, hcond, rfl, hp⟩
  · rw [hr]
    refine herr e _ s₂ ?_ rfl
    show (l.failed || (T.update k cond values).isStatement) = true
    rw [T.update_isStatement]
    exact Bool.or_true _
  · rw [hr]
    have hstep : G.Along i l₁ s l₁ s₂ := hsees.trans
      ⟨hc, rfl, rfl, rfl, id, (G.plain hh T.update_ne_commit hsub hx).2, hon⟩
    refine Safe.call_bind fun hg s₃ hh₃ hs₃ c r l' s' hx' hg' => ?_
    obtain ⟨hk', hal, hv⟩ := calm_call G hh₃ rfl hc hx'
    obtain ⟨-, hsigned, -, hfail, -⟩ := exec_commit_session hx'
    refine ⟨hk', ?_⟩
    cases r with
    | ok a =>
      exact hmiss s₁ _ _ _ _ l' s' hh hsees hx hf hno ((hstep.trans (.of_sees hc hs₃)).trans hal)
        (hv rfl)
    | error e => exact herr e l' s' (hfail e rfl) hsigned
  · -- the row is locked, so it is as it was when COMMIT comes
    rw [hr]
    refine Safe.call_bind fun hg s₃ hh₃ hs₃ c r l' s' hx' hg' => ?_
    obtain ⟨hp₃, howner₃⟩ := hp.sees hg hs₃
    obtain ⟨hk', hclear⟩ := commit_call hh₃ hp₃.ready hx'
    obtain ⟨hclaim, hsigned, hview, -⟩ := exec_commit_session hx'
    have hon₃ : Onward s₃ s' := exec_onward hh₃.session.locked hx'
    have hon₂ : Onward s₂ s' := hs₃.moves.others.onward.trans hon₃
    refine ⟨hk', ?_⟩
    rcases hp₃.commit hx' with ⟨⟨e, rfl⟩, hf⟩ | ⟨rfl, hf, hrow, howner⟩
    · exact herr e l' s' hf (hsigned.trans T.write_signedHash)
    · rw [howner₃, (T.stored_exec T.update_ne_commit hx).2] at howner
      exact hhit s₁ _ _ _ s₂ x l' s' hh hsees hx (T.write_failed.symm.trans hp.failed) hstored hcond
        ⟨hclear, hf, hclaim, hsigned.trans T.write_signedHash, hview.trans T.write_view,
          hrow, howner,
          hon.trans hon₂, hon₂.clock⟩

end Programs

end Guard

end Orbyt
