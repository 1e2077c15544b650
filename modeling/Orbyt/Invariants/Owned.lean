/-
  Orbyt.Invariants.Owned — what every cash-out rests on

  A cash-out is on a wallet that is there, and one that was approved bears the time of its
  approval.  A request is inserted only by a session that has locked the wallet it is on, so that
  it has seen it; from then on neither a wallet nor an approval goes away.

  Nothing is assumed of a run.

  Main results:
    * `body_owning` — every program follows the typestate;
    * `owned_reach` — so it is with every stored request, in every reachable state.
-/
import Orbyt.Invariants.Lifecycle
import Orbyt.Lib.Typestate

namespace Orbyt

open Interleave
open Interleave.Prog

variable {S : Setting} {i : Nat} {o : Op} {c : Choice} {l l' : Session} {s s' : World} {e : Entry}

/-! ## §1. Requests. -/

/-- An approved request bears the time of its approval. -/
def CashOutRequest.Stamped (q : CashOutRequest) : Prop :=
  q.status = .approved → q.approvedAt.isSome = true

/-- Every stored request is on a stored wallet. -/
structure World.Owned (s : World) : Prop where
  wallet : ∀ r q, s.reqs r = some q → (s.wallets q.walletId).isSome = true
  stamped : ∀ r q, s.reqs r = some q → q.Stamped

/-- So is every request that a session has written, on a wallet that it sees. -/
structure Session.Owned (l : Session) (s : World) : Prop where
  wallet : ∀ r q, l.reqWrites r = some q → (l.wallet s q.walletId).isSome = true
  stamped : ∀ r q, l.reqWrites r = some q → q.Stamped

/-- What is stored is seen. -/
theorem Session.wallet_isSome {u : Nat} (h : (s.wallets u).isSome = true) :
    (l.wallet s u).isSome = true := by
  unfold Session.wallet
  cases l.walletWrites u with
  | none => exact h
  | some w => rfl

theorem Session.Owned.reads (h : l.Owned s) (hs : s.Owned) {r : Nat} {q : CashOutRequest}
    (hq : l.req s r = some q) : (l.wallet s q.walletId).isSome = true ∧ q.Stamped := by
  rcases Option.or_eq_some_iff.mp hq with hw | ⟨-, hst⟩
  · exact ⟨h.wallet r q hw, h.stamped r q hw⟩
  · exact ⟨l.wallet_isSome (hs.wallet r q hst), hs.stamped r q hst⟩

/-- An UPDATE of a request keeps it stamped. -/
theorem ReqUpdate.stamped {r : Nat} {cond : CashOutRequest → Bool}
    {values : Nat → CashOutRequest → CashOutRequest} (h : ReqUpdate e r cond values) (now : Nat)
    {q : CashOutRequest} (hq : q.Stamped) : (values now q).Stamped := by
  cases h with
  | approve r admin => exact fun _ => rfl
  | complete r txHash stamp => exact nofun
  | reconcileComplete r txHash stamp => exact nofun
  | fail r reason txHash => exact nofun
  | unpublished r admin reason => exact nofun
  | reject r admin reason => exact nofun
  | reconcileFail r txHash reason => exact nofun
  | claim r asked => exact hq
  | release r => exact hq
  | remember r signed => exact hq
  | hold r reason => exact hq

/-! ## §2. The typestate. -/

/-- The wallet that was found. -/
structure Owning where
  found : Option Nat

def Owning.allows (a : Owning) : Op → Prop
  | .insertReq row => ∃ u, a.found = some u ∧
      ∀ key now, (row key now).walletId = u ∧ (row key now).status = .requested
  | .updateReq r cond values => ∃ e, ReqUpdate e r cond values
  | _ => True

def Owning.next (a : Owning) : (o : Op) → Except Exn o.Res → Owning
  | .lockWallet u, .ok (some _) => ⟨some u⟩
  | _, _ => a

def owning : Typestate calls Exn := ⟨Owning, Owning.allows, Owning.next⟩

/-- Whoever opens no request may do what its list has. -/
theorem may_owning (he : ∀ form, e ≠ .createRequest form) (a : Owning) (ho : e.may o) :
    owning.allows a o := by
  cases o with
  | insertReq row =>
    obtain ⟨form, pricing, heq, -⟩ := ho
    exact absurd heq (he form)
  | updateReq r cond values => exact ⟨e, ho⟩
  | _ => trivial

theorem createRequest_owning {form : CashOutForm} (a : Owning) :
    FollowsEnd owning (CashoutService.createRequest form) a := by
  unfold CashoutService.createRequest
  refine Follows.call_bind (A := owning) trivial (fun found => ?_) fun _ => trivial
  cases found with
  | none => exact trivial
  | some w =>
    -- from here on the wallet is there
    refine Follows.call_bind (A := owning) trivial (fun held => ?_) fun _ => trivial
    dsimp only
    split
    · trivial
    · refine Follows.call_bind (A := owning) trivial (fun pricing => ?_) fun _ => trivial
      split
      · refine Follows.call_bind (A := owning) ?_ (fun r => ?_) fun _ => trivial
        · exact ⟨form.recipientId, rfl, fun _ _ => ⟨rfl, rfl⟩⟩
        · refine Follows.call_bind (A := owning) trivial (fun _ => ?_) fun _ => trivial
          exact Follows.call_bind (A := owning) trivial (fun _ => trivial) fun _ => trivial
      · trivial

/-- **EVERY PROGRAM** follows the typestate. -/
theorem body_owning (e : Entry) (a : Owning) : FollowsEnd owning (body S e) a := by
  by_cases he : ∃ form, e = .createRequest form
  · obtain ⟨form, rfl⟩ := he
    exact Follows.bind (createRequest_owning a) fun _ _ _ => trivial
  · have hother : ∀ form, e ≠ .createRequest form := fun form h => he ⟨form, h⟩
    exact (Follows.of_uses (A := owning) (F := e.may) (I := fun _ => True)
      (fun _ q ho _ => ⟨may_owning hother q ho, fun _ => trivial⟩) (body_uses S e) trivial).toEnd

/-! ## §3. What a call does. -/

/-- The wallet objects of a session stay until it commits. -/
theorem exec_walletWrites_stay {r : Except Exn o.Res} (ho : o ≠ .commit)
    (hx : exec S i o c l s = some (r, l', s')) {u : Nat} (hu : (l.walletWrites u).isSome = true) :
    (l'.walletWrites u).isSome = true := by
  have hupdate : ∀ {k : Nat} {w : Wallet},
      l'.walletWrites = Function.update l.walletWrites k (some w) →
      (l'.walletWrites u).isSome = true := by
    intro k w heq
    rw [heq]
    by_cases huk : u = k
    · rw [huk, Function.update_self]
      rfl
    · rwa [Function.update_of_ne huk]
  cases o with
  | commit => exact absurd rfl ho
  | setBalance k balance move =>
    rcases exec_setBalance hx with ⟨-, -, heq⟩ | ⟨-, -, w, -, heq, -⟩
    · rwa [heq]
    · exact hupdate heq
  | setTrustLine k =>
    rcases exec_setTrustLine hx with ⟨-, heq | ⟨w, -, heq⟩⟩
    · rwa [heq]
    · exact hupdate heq
  | insertWallet k w =>
    rcases exec_insertWallet hx with ⟨-, heq | ⟨-, heq⟩⟩
    · rwa [heq]
    · exact hupdate heq
  | _ => rwa [(exec_sameWallets rfl hx).1]

/-- A wallet that a session sees it goes on seeing. -/
theorem exec_wallet_isSome {r : Except Exn o.Res} (hx : exec S i o c l s = some (r, l', s'))
    {u : Nat} (hu : (l.wallet s u).isSome = true) : (l'.wallet s' u).isSome = true := by
  by_cases ho : o = .commit
  · subst ho
    rcases exec_commit hx with ⟨-, rfl, rfl⟩ | ⟨-, rfl, -⟩
    · exact hu
    · -- what it saw is stored now
      have hstored : (((s.tick S c).commit i l).wallets u).isSome = true := hu
      exact Session.wallet_isSome hstored
  · have hkept : s'.wallets u = s.wallets u := congrFun (exec_uncommitted ho hx).wallets u
    cases hw : l.walletWrites u with
    | none =>
      have hs : (s.wallets u).isSome = true := by rwa [Session.wallet, hw] at hu
      exact Session.wallet_isSome (by rwa [hkept])
    | some w =>
      have hl' := exec_walletWrites_stay ho hx (u := u) (by rw [hw]; rfl)
      rw [Session.wallet, Option.isSome_or, hl', Bool.true_or]

/-- Whoever locks a wallet sees it. -/
theorem exec_lockWallet_isSome {u : Nat} {w : Wallet}
    (hx : exec S i (.lockWallet u) c l s = some (.ok (some w), l', s')) :
    (l'.wallet s' u).isSome = true := by
  rcases exec_plain rfl hx with ⟨e, hr, -⟩ | ⟨-, hp⟩
  · cases hr
  · simp only [perform] at hp
    split at hp
    · cases hp
    next hn =>
      split at hp
      · simp only [Option.some.injEq, Prod.mk.injEq] at hp
        obtain ⟨-, rfl, rfl⟩ := hp
        have hview : (l.wallet (s.tick S c) u).isSome = true := by
          simpa [Option.isSome_iff_ne_none] using hn
        exact hview
      · cases hp

/-! ## §4. Every program follows the typestate. -/

/-- What the typestate means: the wallet is there, and the session's requests are in order. -/
structure Owning.Means (a : Owning) (l : Session) (s : World) : Prop where
  found : ∀ u, a.found = some u → (l.wallet s u).isSome = true
  owned : l.Owned s

theorem Owning.Means.start (e : Entry) : (Owning.mk none).Means (Session.start e) s where
  found := fun _ h => by cases h
  owned.wallet := fun _ _ h => by cases h
  owned.stamped := fun _ _ h => by cases h

/-- Wallets are there for good. -/
theorem Owning.Means.others {a : Owning} (h : a.Means l s) (hw : Others i s s') : a.Means l s' := by
  have hsees : ∀ u, (l.wallet s u).isSome = true → (l.wallet s' u).isSome = true := by
    intro u hu
    unfold Session.wallet at hu ⊢
    rw [Option.isSome_or, Bool.or_eq_true] at hu ⊢
    exact hu.imp_right (hw.wallets u)
  exact ⟨fun u hu => hsees u (h.found u hu),
    fun r q hq => hsees q.walletId (h.owned.wallet r q hq), h.owned.stamped⟩

theorem World.Owned.of_same (h : s.Owned) (hr : s'.reqs = s.reqs)
    (hw : ∀ u, (s.wallets u).isSome = true → (s'.wallets u).isSome = true) : s'.Owned where
  wallet := fun r q hq => hw q.walletId (h.wallet r q (hr ▸ hq))
  stamped := fun r q hq => h.stamped r q (hr ▸ hq)

/-- An allowed call keeps what the typestate means, and what is stored. -/
theorem owning_call {a : Owning} {r : Except Exn o.Res} (hs : s.Owned) (ha : a.Means l s)
    (hallow : a.allows o) (hx : exec S i o c l s = some (r, l', s')) :
    s'.Owned ∧ (a.next o r).Means l' s' := by
  -- the rows that the session has written since
  have howned : l'.Owned s' := by
    have hrow : ∀ k q', l'.reqWrites k = some q' →
        (l'.wallet s' q'.walletId).isSome = true ∧ q'.Stamped := by
      intro k q' hq'
      rcases exec_reqWrites hx hq' with hold | ⟨q, cond, values, now, hq, -, rfl, rfl⟩ |
          ⟨row, now, rfl, -, rfl⟩
      · exact ⟨exec_wallet_isSome hx (ha.owned.wallet k q' hold), ha.owned.stamped k q' hold⟩
      · obtain ⟨e, hup⟩ := hallow
        obtain ⟨hwallet, hstamped⟩ := ha.owned.reads hs hq
        rw [(hup.terms now q).wallet]
        exact ⟨exec_wallet_isSome hx hwallet, hup.stamped now hstamped⟩
      · obtain ⟨u, hu, hterms⟩ := hallow
        obtain ⟨hwallet, hstatus⟩ := hterms _ now
        rw [hwallet]
        refine ⟨exec_wallet_isSome hx (ha.found u hu), fun happroved => ?_⟩
        rw [hstatus] at happroved
        cases happroved
    exact ⟨fun k q' hq' => (hrow k q' hq').1, fun k q' hq' => (hrow k q' hq').2⟩
  constructor
  · by_cases ho : o = .commit
    · subst ho
      rcases exec_commit hx with ⟨-, -, rfl⟩ | ⟨-, rfl, -⟩
      · exact hs.of_same rfl fun _ h => h
      · -- what the session saw is stored now
        refine ⟨fun k q hq => ?_, fun k q hq => ?_⟩
        · exact (ha.owned.reads hs (show l.req s k = some q from hq)).1
        · exact (ha.owned.reads hs (show l.req s k = some q from hq)).2
    · have hkept := exec_uncommitted ho hx
      refine hs.of_same hkept.reqs fun u hu => ?_
      rw [hkept.wallets]
      exact hu
  · refine ⟨fun u hu => ?_, howned⟩
    cases o with
    | lockWallet k =>
      cases r with
      | error exc => exact exec_wallet_isSome hx (ha.found u hu)
      | ok found =>
        cases found with
        | none => exact exec_wallet_isSome hx (ha.found u hu)
        | some w =>
          obtain rfl : k = u := Option.some.inj hu
          exact exec_lockWallet_isSome hx
    | _ => exact exec_wallet_isSome hx (ha.found u hu)

theorem owning_sound (S : Setting) :
    owning.Sound (rules S) (fun _ => Owning.mk none) World.Owned
      (fun _ a l s => Owning.Means a l s) where
  body := fun e => body_owning e _
  spawn := fun e s _ hs =>
    And.intro (World.Owned.of_same hs rfl fun _ h => h) (Owning.Means.start e)
  call := fun i a o c l s r l' s' _ hs _ ha hallow hx => owning_call hs ha hallow hx
  close := fun i s _ hs => hs.of_same rfl fun _ h => h
  env := fun v s s' _ hs hx => by
    rw [(env_eq hx).1]
    exact hs.of_same rfl fun _ h => h

/-- **CASH-OUTS REST ON WALLETS**, in every reachable state. -/
theorem owned_reach {w : World} (hw : w.Orderly) (ho : w.Owned) {k : Config (platform S)}
    (h : Reach (M := platform S) w k) : k.world.Owned :=
  ((owning_sound S).reach (rules_kept S)
    (fun _ _ _ _ _ _ ha hmoves => ha.others hmoves.others) hw ho h).world

theorem World.Owned.initial (clock validated : Nat) (held : Nat → Bool) :
    (World.initial clock validated held).Owned where
  wallet := fun _ _ h => by cases h
  stamped := fun _ _ h => by cases h

end Orbyt
