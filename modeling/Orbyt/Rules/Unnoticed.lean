/-
  Orbyt.Rules.Unnoticed — what no operation on a send looks at

  Two rows that differ by the AML flag are the same row to the operations of settlement, and
  so are two that differ by a stamp as well, where the settlement has not begun or is over.

  Main results:
    * `unnoticed_sound` — calls that neither read the flag nor go by such a stamp;
    * `retrySettlement_alike`, `claim_alike`, .. — one lemma for each operation.
-/
import Orbyt.Lib.TwoRuns
import Orbyt.Rules.Footprints

namespace Orbyt

open Interleave
open Interleave.Prog
open Function (update)

variable {S : Setting} {i : Nat} {o : Op} {c : Choice} {l l' : Session} {s s' : World} {t : Nat}
  {x x' y y' : Txn}

/-! ## §1. Rows, worlds and sessions. -/

/-- Nobody goes by the stamp of a settlement that has not begun or is over. -/
structure Txn.SameButFlag (x x' : Txn) : Prop where
  same : x' = { x with amlFlagged := x'.amlFlagged, updatedAt := x'.updatedAt }
  stamp : x'.updatedAt = x.updatedAt ∨ x.settlementStatus = .notQueued ∨
    x.settlementStatus = .completed

/-- A row that has been written since. -/
structure Txn.SameStamped (x x' : Txn) : Prop extends x.SameButFlag x' where
  stamped : x'.updatedAt = x.updatedAt

theorem Txn.SameButFlag.refl (x : Txn) : x.SameButFlag x := ⟨rfl, .inl rfl⟩

theorem Txn.SameButFlag.status (h : x.SameButFlag x') :
    x'.settlementStatus = x.settlementStatus := by
  rw [h.same]

theorem Txn.SameButFlag.cashin (h : x.SameButFlag x') : x'.cashinStatus = x.cashinStatus := by
  rw [h.same]

theorem Txn.SameButFlag.hash (h : x.SameButFlag x') : x'.xrplTxHash = x.xrplTxHash := by
  rw [h.same]

structure World.Like (s s' : World) : Prop where
  rest : s' = { s with txns := s'.txns }
  rows : ∀ t, Option.Rel Txn.SameButFlag (s.txns t) (s'.txns t)

structure Session.Like (l l' : Session) : Prop where
  rest : l' = { l with txnWrites := l'.txnWrites }
  rows : ∀ t, Option.Rel Txn.SameStamped (l.txnWrites t) (l'.txnWrites t)

/-! ## §2. Calls. -/

/-- The calls of settlement and cash-in that touch no transaction. -/
def Op.isBlind : Op → Bool
  | .now | .lockWallet _ | .setBalance _ _ _ | .refresh | .enqueue _ | .latestValidated
  | .completeRange _ _ | .lookup _ => true
  | _ => false

inductive AlikeOp : (o o' : Op) → (o.Res → o'.Res → Prop) → Prop where
  | blind (o : Op) (h : o.isBlind = true) : AlikeOp o o Eq
  | commit : AlikeOp .commit .commit Eq
  | select (t : Nat) :
      AlikeOp (.selectTxn t) (.selectTxn t) (Option.Rel Txn.SameButFlag)
  | update (t : Nat) {cond cond' : Txn → Bool} {values values' : Nat → Txn → Txn}
      (hc : ∀ x x', x.SameButFlag x' → cond' x' = cond x)
      (hv : ∀ now x x', x.SameButFlag x' → (values now x).SameStamped (values' now x')) :
      AlikeOp (.updateTxn t cond values) (.updateTxn t cond' values') Eq
  | updateAll {cond : Txn → Bool} {values : Nat → Txn → Txn}
      (hc : ∀ x x', x.SameButFlag x' → cond x' = cond x)
      (hv : ∀ now x x', x.SameButFlag x' → (values now x).SameStamped (values now x')) :
      AlikeOp (.updateTxns cond values) (.updateTxns cond values) Eq

/-- What is the same in two runs that differ by flags. -/
def unnoticed (S : Setting) : Likeness (platform S) where
  world := World.Like
  session := Session.Like
  op := AlikeOp

/-! ## §3. Calls that touch no transaction. -/

variable {f : Nat → Option Txn} {g : Nat → Option Txn}

/-- The same end, with the transactions of another run. -/
def withTxns {ρ : Type} (f g : Nat → Option Txn) (r : ρ × Session × World) : ρ × Session × World :=
  (r.1, { r.2.1 with txnWrites := f }, { r.2.2 with txns := g })

theorem consulted_withTxns :
    Session.consulted { l with txnWrites := f } { s with txns := g } = l.consulted s := rfl

theorem wallet_withTxns {u : Nat} :
    Session.wallet { l with txnWrites := f } { s with txns := g } u = l.wallet s u := rfl

theorem perform_blind (ho : o.isBlind = true) (v : Value) :
    perform S i { l with txnWrites := f } { s with txns := g } v o
      = (perform S i l s v o).map (withTxns f g) := by
  cases o with
  | now => rfl
  | refresh => rfl
  | enqueue m => rfl
  | latestValidated => rfl
  | lookup h => rfl
  | lockWallet u =>
    show (if (l.wallet s u).isNone then _ else if freeFor s.walletLock i u then _ else _) = _
    simp only [perform]
    split
    · rfl
    · split <;> rfl
  | setBalance u balance move =>
    simp only [perform, wallet_withTxns]
    cases l.wallet s u with
    | none => rfl
    | some w =>
      dsimp only
      split <;> rfl
  | completeRange low high =>
    simp only [perform, consulted_withTxns]
    cases v with
    | flag b =>
      show (if _ then none else some _) = Option.map _ (if _ then none else some _)
      rw [apply_ite (Option.map (withTxns f g))]
      rfl
    | _ => rfl
  | _ => cases ho

/-! ## §4. Statements on `transactions`. -/

theorem rel_map {α β γ δ : Type} {R : α → β → Prop} {T : γ → δ → Prop} {f : α → γ} {g : β → δ}
    {m : Option α} {n : Option β} (h : Option.Rel R m n) (hfg : ∀ a b, R a b → T (f a) (g b)) :
    Option.Rel T (m.map f) (n.map g) := by
  cases h with
  | none => exact .none
  | some hab => exact .some (hfg _ _ hab)

theorem rel_filter {α : Type} {R : α → α → Prop} {p q : α → Bool}
    (hpq : ∀ a b, R a b → q b = p a) {m n : Option α} (h : Option.Rel R m n) :
    Option.Rel R (m.filter p) (n.filter q) := by
  cases h with
  | none => exact .none
  | @some a b hab =>
    rw [Option.filter_some, Option.filter_some, hpq a b hab]
    by_cases hp : p a = true
    · rw [if_pos hp, if_pos hp]
      exact .some hab
    · rw [if_neg hp, if_neg hp]
      exact .none

theorem writeTxn_like {now : Nat} (hf : ∀ t, Option.Rel Txn.SameStamped (l.txnWrites t) (f t))
    (hx : x.SameButFlag x') (hy : y.SameStamped y') :
    (l.writeTxn now t (some x) y).Like
      (Session.writeTxn { l with txnWrites := f } now t (some x') y') where
  rest := by
    simp only [Session.writeTxn, hy.status, hy.cashin, hx.status, hx.cashin, Option.map_some]
  rows := by
    intro t'
    show Option.Rel _ (update l.txnWrites t (some y) t') (update f t (some y') t')
    by_cases ht : t' = t
    · subst ht
      simpa using Option.Rel.some hy
    · simpa [ht] using hf t'

section Statements

variable (hf : ∀ t, Option.Rel Txn.SameStamped (l.txnWrites t) (f t))
  (hg : ∀ t, Option.Rel Txn.SameButFlag (s.txns t) (g t))

include hf hg

/-- The row as the session sees it. -/
theorem txn_like (t : Nat) :
    Option.Rel Txn.SameButFlag (l.txn s t)
      (Session.txn { l with txnWrites := f } { s with txns := g } t) := by
  show Option.Rel _ ((l.txnWrites t).or (s.txns t)) ((f t).or (g t))
  have hwritten := hf t
  revert hwritten
  cases l.txnWrites t with
  | none =>
    intro h
    generalize f t = y at h
    cases h
    exact hg t
  | some x =>
    intro h
    generalize f t = y at h
    cases h with
    | some h => exact .some h.toSameButFlag

theorem perform_update_like {cond cond' : Txn → Bool} {values values' : Nat → Txn → Txn}
    (hc : ∀ x x', x.SameButFlag x' → cond' x' = cond x)
    (hv : ∀ now x x', x.SameButFlag x' → (values now x).SameStamped (values' now x')) (v : Value) :
    Option.Rel ((unnoticed S).Ends Eq) (perform S i l s v (.updateTxn t cond values))
      (perform S i { l with txnWrites := f } { s with txns := g } v
        (.updateTxn t cond' values')) := by
  have hrow := txn_like hf hg t
  simp only [perform]
  revert hrow
  cases l.txn s t with
  | none =>
    intro h
    generalize Session.txn _ _ t = y at h ⊢
    cases h
    exact .some ⟨rfl, ⟨rfl, hf⟩, ⟨rfl, hg⟩⟩
  | some x =>
    intro h
    generalize Session.txn _ _ t = y at h ⊢
    cases h with
    | some hx =>
      dsimp only
      rw [hc _ _ hx]
      by_cases hhit : cond x = true
      · by_cases hfree : freeFor s.txnLock i t = true
        · simp only [hhit, hfree, if_true]
          exact .some ⟨rfl, writeTxn_like hf hx (hv _ _ _ hx), ⟨rfl, hg⟩⟩
        · simp only [hhit, hfree, if_true]
          exact .none
      · simp only [hhit]
        exact .some ⟨rfl, ⟨rfl, hf⟩, ⟨rfl, hg⟩⟩

/-- The rows one UPDATE over the table matches. -/
theorem matching_like {cond : Txn → Bool} (hc : ∀ x x', x.SameButFlag x' → cond x' = cond x)
    (t : Nat) :
    Option.Rel Txn.SameButFlag (l.matching s cond t)
      (Session.matching { l with txnWrites := f } { s with txns := g } cond t) := by
  have hrow := txn_like hf hg t
  unfold Session.matching
  show Option.Rel _ (if t < s.nextId then _ else none) (if t < s.nextId then _ else none)
  by_cases ht : t < s.nextId
  · rw [if_pos ht, if_pos ht]
    exact rel_filter hc hrow
  · rw [if_neg ht, if_neg ht]
    exact .none

theorem perform_updateAll_like {cond : Txn → Bool} {values : Nat → Txn → Txn}
    (hc : ∀ x x', x.SameButFlag x' → cond x' = cond x)
    (hv : ∀ now x x', x.SameButFlag x' → (values now x).SameStamped (values now x')) (v : Value) :
    Option.Rel ((unnoticed S).Ends Eq) (perform S i l s v (.updateTxns cond values))
      (perform S i { l with txnWrites := f } { s with txns := g } v (.updateTxns cond values)) := by
  have hrow := matching_like hf hg hc
  -- the same rows match on both sides, so that the same locks are asked for
  have hsome : ∀ t, (Session.matching { l with txnWrites := f } { s with txns := g } cond t).isSome
      = (l.matching s cond t).isSome := by
    intro t
    have h := hrow t
    revert h
    generalize Session.matching { l with txnWrites := f } { s with txns := g } cond t = m'
    generalize l.matching s cond t = m
    intro h
    cases h <;> rfl
  simp only [perform, hsome]
  by_cases hfree : ∀ t < s.nextId, (l.matching s cond t).isSome = true →
      freeFor s.txnLock i t = true
  · rw [if_pos hfree, if_pos hfree]
    refine .some ⟨rfl, ⟨?_, ?_⟩, ⟨rfl, hg⟩⟩
    · -- the statuses a matched row takes are the same on both sides
      simp only [Session.writeTxns, Session.mk.injEq, true_and, and_true]
      constructor
      · funext t
        have h := hrow t
        revert h
        generalize Session.matching { l with txnWrites := f } { s with txns := g } cond t = m'
        generalize l.matching s cond t = m
        intro h
        cases h with
        | none => rfl
        | some hx => simp only [hx.status, (hv _ _ _ hx).status]
      · funext t
        have h := hrow t
        revert h
        generalize Session.matching { l with txnWrites := f } { s with txns := g } cond t = m'
        generalize l.matching s cond t = m
        intro h
        cases h with
        | none => rfl
        | some hx => simp only [hx.cashin, (hv _ _ _ hx).cashin]
    · intro t
      have h := hrow t
      show Option.Rel _ (((l.matching s cond t).map _).or _) ((Option.map _ _).or (f t))
      revert h
      generalize Session.matching { l with txnWrites := f } { s with txns := g } cond t = m'
      generalize l.matching s cond t = m
      intro h
      cases h with
      | none => exact hf t
      | some hx => exact .some (hv _ _ _ hx)
  · rw [if_neg hfree, if_neg hfree]
    exact .none

theorem commit_like : (s.commit i l).Like
    (World.commit i { l with txnWrites := f } { s with txns := g }) where
  rest := by
    have howner : (World.commit i { l with txnWrites := f } { s with txns := g }).txnOwner
        = (s.commit i l).txnOwner := by
      funext t
      simp only [World.commit, World.releaseAll]
      have hwritten := hf t
      have hstored := hg t
      revert hwritten hstored
      generalize f t = y
      generalize g t = z
      generalize l.txnWrites t = y₀
      generalize s.txns t = z₀
      intro hwritten hstored
      cases hwritten with
      | none => rfl
      | some hy =>
        cases hstored with
        | none => simp only [ownerAfter, hy.status, hy.stamped, Option.map_none]
        | some hz => simp only [ownerAfter, hy.status, hy.stamped, hz.status, Option.map_some]
    unfold World.commit World.releaseAll at howner ⊢
    dsimp only at howner
    rw [howner]
    rfl
  rows := txn_like hf hg

/-- A call that touches no transaction leaves its session's as they are. -/
theorem perform_blind_like (ho : o.isBlind = true) (v : Value) :
    Option.Rel ((unnoticed S).Ends Eq) (perform S i l s v o)
      (perform S i { l with txnWrites := f } { s with txns := g } v o) := by
  rw [perform_blind (f := f) (g := g) ho v]
  have hown : ∀ r ∈ perform S i l s v o, r = withTxns l.txnWrites s.txns r := by
    intro r hr
    have h : perform S i l s v o = (perform S i l s v o).map (withTxns l.txnWrites s.txns) :=
      perform_blind ho v
    rw [Option.mem_def.mp hr] at h
    exact Option.some.inj h
  cases hrun : perform S i l s v o with
  | none => exact .none
  | some r =>
    have hr : r = withTxns l.txnWrites s.txns r := hown r hrun
    have htxns : r.2.1.txnWrites = l.txnWrites := by rw [hr]; rfl
    have hstored : r.2.2.txns = s.txns := by rw [hr]; rfl
    refine .some ⟨?_, ⟨rfl, ?_⟩, ⟨rfl, ?_⟩⟩
    · show LikeAnswers Eq r.1 r.1
      cases r.1 <;> rfl
    · rw [htxns]
      exact hf
    · rw [hstored]
      exact hg

end Statements

/-! ## §5. Like calls end alike. -/

variable {o' : Op} {V : o.Res → o'.Res → Prop}

theorem perform_like (ho : AlikeOp o o' V) (hl : l.Like l') (hs : s.Like s') (v : Value) :
    Option.Rel ((unnoticed S).Ends V) (perform S i l s v o) (perform S i l' s' v o') := by
  rw [hl.rest, hs.rest]
  cases ho with
  | blind _ h => exact perform_blind_like hl.rows hs.rows h v
  | commit => exact .some ⟨rfl, ⟨rfl, fun _ => .none⟩, commit_like hl.rows hs.rows⟩
  | select t => exact .some ⟨txn_like hl.rows hs.rows t, ⟨rfl, hl.rows⟩, ⟨rfl, hs.rows⟩⟩
  | update t hc hv => exact perform_update_like hl.rows hs.rows hc hv v
  | updateAll hc hv => exact perform_updateAll_like hl.rows hs.rows hc hv v

/-- Like calls are calls of one kind. -/
theorem AlikeOp.kind (ho : AlikeOp o o' V) :
    o'.isStatement = o.isStatement ∧ o'.losesResponse = o.losesResponse ∧
      ∀ e, o'.mayRaise e = o.mayRaise e := by
  cases ho with
  | update t hc hv => exact ⟨rfl, rfl, fun e => by cases e <;> rfl⟩
  | _ => exact ⟨rfl, rfl, fun e => rfl⟩

/-- What a like call raises, it raises without effect. -/
theorem AlikeOp.afterRaises_eq (ho : AlikeOp o o' V) (e : Exn) (s : World) :
    afterRaises o e s = (if o.mayRaise e then some s else none) := by
  cases ho with
  | blind _ h => cases o <;> cases h <;> rfl
  | _ => rfl

theorem AlikeOp.afterRaises_eq' (ho : AlikeOp o o' V) (e : Exn) (s : World) :
    afterRaises o' e s = (if o'.mayRaise e then some s else none) := by
  cases ho with
  | blind _ h => cases o <;> cases h <;> rfl
  | _ => rfl

theorem permitted_like (ho : AlikeOp o o' V) (hl : l.Like l') (hs : s.Like s') :
    permitted S l' s' o' = permitted S l s o := by
  rw [hl.rest, hs.rest]
  cases ho with
  | blind _ h => cases o <;> cases h <;> rfl
  | commit => rfl
  | select t => rfl
  | updateAll hc hv => rfl
  | @update t cond cond' values values' hc hv =>
    have hrow := txn_like hl.rows hs.rows t
    simp only [permitted]
    revert hrow
    generalize Session.txn { l with txnWrites := l'.txnWrites } { s with txns := s'.txns } t = y
    generalize l.txn s t = x
    intro hrow
    cases hrow with
    | none => rfl
    | some hx =>
      have hy := hv s.clock _ _ hx
      simp only [Option.all_some, hc _ _ hx, hy.status, hy.hash, hx.hash]

theorem fail_like (hk : o'.isStatement = o.isStatement) (hl : l.Like l') :
    (l.fail o).Like (l'.fail o') where
  rest := by
    rw [hl.rest]
    simp only [Session.fail, hk]
  rows := hl.rows

/-- **What tells rows apart only by flag and idle stamp goes unnoticed**, whatever the call. -/
theorem unnoticed_sound : (unnoticed S).Sound := by
  intro i o o' V c l l' w w' (ho : AlikeOp o o' V) (hl : l.Like l') (hw : w.Like w')
  have htick : (w.tick S c).Like (w'.tick S c) := ⟨by rw [hw.rest]; rfl, hw.rows⟩
  obtain ⟨hst, hloses, hmay⟩ := ho.kind
  have hfailed : l'.failed = l.failed := by rw [hl.rest]
  have hperform := perform_like (S := S) (i := i) ho hl htick c.value
  show Option.Rel _ (exec S i o c l w) (exec S i o' c l' w')
  -- call by call: the same answers are open to both sides, and each leads to like ends
  unfold exec
  rw [permitted_like ho hl htick]
  by_cases hp : permitted S l (w.tick S c) o = true
  · rw [if_pos hp, if_pos hp]
    unfold answer
    cases c.mode with
    | returns =>
      dsimp only
      rw [hst, hfailed]
      by_cases hbad : (l.failed && o.isStatement) = true
      · rw [if_pos hbad, if_pos hbad]
        exact .none
      · rw [if_neg hbad, if_neg hbad]
        exact hperform
    | raises e =>
      dsimp only
      rw [ho.afterRaises_eq, ho.afterRaises_eq', hmay]
      by_cases hm : o.mayRaise e = true
      · rw [if_pos hm, if_pos hm]
        exact .some ⟨rfl, fail_like hst hl, htick⟩
      · rw [if_neg hm, if_neg hm]
        exact .none
    | raisesAfter e =>
      dsimp only
      rw [hst, hfailed, hloses, hmay]
      by_cases hbad : (l.failed && o.isStatement) = true
      · rw [if_pos hbad, if_pos hbad]
        exact .none
      · rw [if_neg hbad, if_neg hbad]
        by_cases hlost : (o.losesResponse && o.mayRaise e) = true
        · rw [if_pos hlost, if_pos hlost]
          exact rel_map hperform fun x y h => ⟨rfl, fail_like hst h.session, h.world⟩
        · rw [if_neg hlost, if_neg hlost]
          exact .none
  · rw [if_neg hp, if_neg hp]
    exact .none

/-! ## §6. The operations on a send. -/

theorem blind_alike (h : o.isBlind = true) :
    Alike (unnoticed S) Eq (call o : Program o.Res) (call o) :=
  Alike.call (M := platform S) (L := unnoticed S) (AlikeOp.blind o h)

theorem commit_alike : Alike (unnoticed S) Eq (call .commit : Program Unit) (call .commit) :=
  Alike.call (M := platform S) (L := unnoticed S) AlikeOp.commit

section Operations

open CashinService
open SettlementWorker

variable {txn txn' : Txn}

/-- Values that keep the flag and put a stamp of their own leave the rows alike. -/
theorem sameStamped_of {values values' : Txn → Txn} (h : x.SameButFlag x')
    (hv : ∀ flag stamp, values' { x with amlFlagged := flag, updatedAt := stamp }
      = { values x with amlFlagged := flag }) : (values x).SameStamped (values' x') := by
  have hrow : values' x' = { values x with amlFlagged := x'.amlFlagged } := by
    rw [h.same]
    exact hv _ _
  exact ⟨⟨by rw [hrow], .inl (by rw [hrow])⟩, by rw [hrow]⟩

theorem isIn_like {fromStatuses : List SettlementStatus} (h : x.SameButFlag x') :
    isIn fromStatuses x' = isIn fromStatuses x := by
  rw [isIn, isIn, h.status]

theorem failSettlement_alike {reason : String} {txHash : Option Nat}
    {fromStatuses : List SettlementStatus} :
    Alike (unnoticed S) Eq (failSettlement t reason txHash fromStatuses)
      (failSettlement t reason txHash fromStatuses) := by
  unfold failSettlement
  refine .call_bind (.update t (fun x x' h => isIn_like h)
    fun now x x' h => sameStamped_of h fun _ _ => rfl) fun hit hit' h => ?_
  subst h
  split
  · refine .call_bind .commit fun _ _ _ => .call_bind (.blind _ rfl) fun _ _ _ => .ret rfl
  · exact .call_bind .commit fun _ _ _ => .ret rfl

theorem publish_alike : Alike (unnoticed S) Eq (publish t) (publish t) := by
  unfold publish
  refine .bind (.attempt (blind_alike rfl)) fun answer answer' h => ?_
  cases answer with
  | ok a =>
    cases answer' with
    | ok a' => exact .ret rfl
    | error e => cases h
  | error e =>
    cases answer' with
    | ok a' => cases h
    | error e' =>
      obtain rfl : e = e' := h
      exact failSettlement_alike.bind fun _ _ _ => .ret rfl

/-- `requeue_stuck`, by whoever loaded the row before or after. -/
theorem requeueStuck_alike (h : txn.SameButFlag txn') :
    Alike (unnoticed S) Eq (requeueStuckChecked t txn) (requeueStuckChecked t txn') := by
  unfold requeueStuckChecked
  rw [h.status]
  split
  · exact publish_alike
  · exact .raise _

/-- `claim` -/
theorem claim_alike :
    Alike (unnoticed S) (Option.Rel Txn.SameButFlag) (claim t) (claim t) := by
  unfold claim reload
  refine .call_bind (.update t (fun x x' h => ?_)
    fun now x x' h => sameStamped_of h fun _ _ => rfl) fun hit hit' h =>
      .call_bind .commit fun _ _ _ => ?_
  · rw [claimable, claimable, h.status, h.cashin, h.hash]
  · subst h
    split
    · refine .bind (.call_bind (.select t) fun found found' h => ?_) fun x x' h => .ret (.some h)
      cases h with
      | none => exact .raise _
      | some h => exact .ret h
    · exact .ret .none

/-- `complete_settlement`, by whoever loaded the row before or after. -/
theorem completeSettlement_alike (h : txn.SameButFlag txn') {txHash : Option Nat}
    {fromStatuses : List SettlementStatus} :
    Alike (unnoticed S) Eq (completeSettlement t txn txHash fromStatuses)
      (completeSettlement t txn' txHash fromStatuses) := by
  have hrecipient : txn'.recipientUserId = txn.recipientUserId := by rw [h.same]
  have hamount : txn'.uctusdAmount = txn.uctusdAmount := by rw [h.same]; rfl
  unfold completeSettlement lockRecipientWallet
  refine .call_bind (.update t (fun x x' h => isIn_like h)
    fun now x x' h => sameStamped_of h fun _ _ => rfl) fun hit hit' h => ?_
  subst h
  split
  · rw [hrecipient]
    refine .bind (R := Eq) ?_ fun wallet wallet' h => .bind (R := Eq) ?_ fun _ _ _ =>
      .call_bind .commit fun _ _ _ => .call_bind (.blind _ rfl) fun _ _ _ => .ret rfl
    · cases txn.recipientUserId with
      | none => exact .ret rfl
      | some u =>
        refine .call_bind (.blind _ rfl) fun found found' h => ?_
        subst h
        cases found <;> exact .ret rfl
    · subst h
      cases wallet with
      | none => exact .ret rfl
      | some w =>
        unfold credit
        rw [hamount]
        exact blind_alike (o := .setBalance _ _ _) rfl
  · exact .call_bind .commit fun _ _ _ => .ret rfl

/-- A row that can be retried. -/
def Txn.isRetryable (x : Txn) : Prop :=
  x.settlementStatus = .failed ∨ x.settlementStatus = .processing

/-- Somebody goes by the stamp of such a row. -/
theorem stamp_of_retryable (h : x.SameButFlag x') (hx : x.isRetryable) :
    x'.updatedAt = x.updatedAt := by
  rcases h.stamp with hstamp | hstatus | hstatus
  · exact hstamp
  · rcases hx with hx | hx <;> rw [hx] at hstatus <;> cases hstatus
  · rcases hx with hx | hx <;> rw [hx] at hstatus <;> cases hstatus

/-- The compare-and-set of a retry, by whoever loaded the row before or after. -/
theorem isUntouched_like (htxn : txn.SameButFlag txn') (hr : txn.isRetryable)
    (h : x.SameButFlag x') : isUntouched txn' x' = isUntouched txn x := by
  unfold isUntouched
  rw [h.status, htxn.status, stamp_of_retryable htxn hr]
  by_cases hstatus : x.settlementStatus = txn.settlementStatus
  · have hx : x.isRetryable := by rwa [Txn.isRetryable, hstatus]
    rw [stamp_of_retryable h hx]
  · -- nobody gets as far as the stamp
    have hne : (x.settlementStatus == txn.settlementStatus) = false := beq_false_of_ne hstatus
    rw [hne, Bool.false_and, Bool.false_and]

theorem retryable_alike (h : txn.SameButFlag txn') :
    Alike (unnoticed S) (fun b b' => b' = b ∧ (b = true → txn.isRetryable)) (retryable txn)
      (retryable txn') := by
  unfold retryable
  rw [h.status]
  cases hstatus : txn.settlementStatus with
  | failed => exact .ret ⟨rfl, fun _ => .inl hstatus⟩
  | processing =>
    refine .bind (blind_alike rfl) fun now now' hnow => ?_
    subst hnow
    rw [stamp_of_retryable h (.inr hstatus)]
    exact .ret ⟨rfl, fun _ => .inr hstatus⟩
  | _ =>
    refine .ret ⟨rfl, fun hb => ?_⟩
    cases hb

theorem consultLedger_alike (h : txn.SameButFlag txn') {txHash : Nat} :
    Alike (unnoticed S) Eq (consultLedger txn txHash) (consultLedger txn' txHash) := by
  have hsame : consultLedger txn' txHash = consultLedger txn txHash := by rw [h.same]; rfl
  rw [hsame]
  unfold consultLedger refuseUnlessProvablyDead
  refine .bind (blind_alike (o := .lookup _) rfl) fun code code' hcode => ?_
  subst hcode
  cases code with
  | some code => exact .ret rfl
  | none =>
    refine .bind (R := Eq) ?_ fun _ _ _ => .ret rfl
    split
    · refine .bind (blind_alike rfl) fun latest latest' hlatest => ?_
      subst hlatest
      split
      · exact .raise _
      · refine .bind (blind_alike (o := .completeRange _ _) rfl) fun complete complete' hc => ?_
        subst hc
        split
        · exact .ret rfl
        · exact .raise _
    · exact .raise _

theorem requeue_alike (h : txn.SameButFlag txn') (hr : txn.isRetryable) :
    Alike (unnoticed S) Eq (requeue t txn) (requeue t txn') := by
  have harchived : ∀ now, archivedAttempts txn' now = archivedAttempts txn now := by
    intro now
    rw [h.same]
    rfl
  unfold requeue
  refine .call_bind (.update t (fun x x' hx => isUntouched_like h hr hx)
    fun now x x' hx => sameStamped_of hx fun _ _ => ?_) fun hit hit' hhit =>
      .bind commit_alike fun _ _ _ => ?_
  · simp only [retired, harchived]
  · subst hhit
    split
    · exact .bind (blind_alike (o := .refresh) rfl) fun _ _ _ =>
        publish_alike.bind fun _ _ _ => .ret rfl
    · exact .raise _

theorem reconcileOrRequeue_alike (h : txn.SameButFlag txn') (hr : txn.isRetryable) :
    Alike (unnoticed S) Eq (reconcileOrRequeue t txn) (reconcileOrRequeue t txn') := by
  unfold reconcileOrRequeue
  rw [h.hash, h.status]
  cases txn.xrplTxHash with
  | none => exact requeue_alike h hr
  | some txHash =>
    refine .bind (consultLedger_alike h) fun code code' hcode => ?_
    subst hcode
    split
    · exact (completeSettlement_alike h).bind fun _ _ _ => .ret rfl
    · exact requeue_alike h hr

/-- `retry_settlement`, by whoever loaded the row before or after. -/
theorem retrySettlement_alike (h : txn.SameButFlag txn') :
    Alike (unnoticed S) Eq (retrySettlement t txn) (retrySettlement t txn') := by
  unfold retrySettlement
  refine .bind (retryable_alike h) fun b b' hb => ?_
  obtain ⟨rfl, hb⟩ := hb
  rw [h.cashin]
  split
  next hgo => exact reconcileOrRequeue_alike h (hb (Bool.and_eq_true_iff.mp hgo).1)
  next => exact .raise _

/-- `expire_stale_cashins` -/
theorem expireStaleCashins_alike :
    Alike (unnoticed S) Eq expireStaleCashins expireStaleCashins := by
  unfold expireStaleCashins
  refine .call_bind (.blind _ rfl) fun asked asked' h => ?_
  subst h
  refine .call_bind (.updateAll (fun x x' h => ?_)
    fun now x x' h => sameStamped_of h fun _ _ => rfl) fun _ _ _ => commit_alike
  have hcreated : x'.createdAt = x.createdAt := by rw [h.same]
  rw [isStale, isStale, isPending, isPending, h.cashin, hcreated]

end Operations

end Orbyt
