/-
  Orbyt.Invariants.Recipients — who may be linked and who may be paid

  A recipient is a user who is no admin and not the sender.  What a request has come to know of
  users and beneficiaries on its way to a link is followed as a typestate: the users that a
  lookup without admins has found, and the link that a beneficiary carries already.  Roles and
  owners never change, so what it knows stays true whatever the others do.

  Main results:
    * `body_linking`  — every request follows the typestate;
    * `routed_reach`  — in every reachable state, links and transactions go to recipients.
-/
import Orbyt.Invariants.Accounts
import Orbyt.Lib.Typestate

namespace Orbyt.Directory

open Interleave
open PyText
open Function (update)

variable {S : Setting} {i j u k r : Nat} {sender : Nat} {o : Op} {c : Choice} {l l' : Session}
  {s s' : World} {col : Column}

/-! ## §1. Recipients. -/

/-- A user who is no admin. -/
def World.Member (s : World) (r : Nat) : Prop := ∃ y, s.users r = some y ∧ y.isAdmin = false

/-- Somebody whom `sender` may pay. -/
def World.Payee (s : World) (r sender : Nat) : Prop := s.Member r ∧ r ≠ sender

theorem World.Member.moves (h : s.Member r) (hm : s.Moves S j s') : s'.Member r := by
  obtain ⟨y, hy, ha⟩ := h
  obtain ⟨y', hy', hrole⟩ := hm.users r y hy
  exact ⟨y', hy', hrole.trans ha⟩

theorem World.Payee.moves (h : s.Payee r sender) (hm : s.Moves S j s') : s'.Payee r sender :=
  ⟨h.1.moves hm, h.2⟩

/-- Links and transactions go to recipients. -/
structure World.Routed (s : World) : Prop where
  links : ∀ k b r, s.beneficiaries k = some b → b.recipientUserId = some r → s.Payee r b.senderId
  transactions : ∀ t x, s.transactions t = some x → s.Payee x.recipientUserId x.senderId

/-! ## §2. The typestate. -/

/-- What a request knows of a user or of a beneficiary. -/
inductive Fact where
  | member (r : Nat)
  | payee (r sender : Nat)
  | owner (k sender : Nat)
  deriving DecidableEq

/-- Requests that write users, and requests that link.  No request sees the `wrong` owner. -/
inductive Linking where
  | accounts
  | linking (facts : List Fact)
  | wrong

/-- The facts make `r` a recipient for `sender`. -/
def Routable (facts : List Fact) (r sender : Nat) : Prop :=
  (Fact.member r ∈ facts ∧ r ≠ sender) ∨ Fact.payee r sender ∈ facts

theorem Routable.mono {facts facts' : List Fact} (h : Routable facts r sender)
    (hsub : facts ⊆ facts') : Routable facts' r sender :=
  h.imp (fun h => ⟨hsub h.1, h.2⟩) fun h => hsub h

/-- An UPDATE that keeps the owner, and the link or a recipient in its place. -/
def Relinks (facts : List Fact) (sender : Nat) (values : Beneficiary → Beneficiary) : Prop :=
  ∀ b, b.senderId = sender → (values b).senderId = sender ∧
    ∀ r, (values b).recipientUserId = some r → b.recipientUserId = some r ∨ Routable facts r sender

def Linking.Allows : Linking → Op → Prop
  | .accounts, .insertBeneficiary _ | .accounts, .updateBeneficiary _ _
  | .accounts, .insertTransaction _ => False
  | .accounts, _ => True
  | .linking facts, .insertBeneficiary row =>
      ∀ r, row.recipientUserId = some r → Routable facts r row.senderId
  | .linking facts, .updateBeneficiary k values =>
      ∃ sender, Fact.owner k sender ∈ facts ∧ Relinks facts sender values
  | .linking facts, .insertTransaction row => Routable facts row.recipientUserId row.senderId
  | .linking _, .insertUser _ | .linking _, .updateUser _ _ | .linking _, .rollback => False
  | .linking _, _ | .wrong, _ => True

/-- What is known of a beneficiary that has been read. -/
def Beneficiary.facts (k : Nat) (b : Beneficiary) : List Fact :=
  .owner k b.senderId :: (b.recipientUserId.map (.payee · b.senderId)).toList

def Linking.next : Linking → (o : Op) → Except Exn o.Res → Linking
  | .linking facts, .userBy _ _ true, .ok (some r) => .linking (.member r :: facts)
  | .linking facts, .getBeneficiary k u, .ok (some b) =>
      if b.senderId = u then .linking (b.facts k ++ facts) else .wrong
  | q, _, _ => q

@[reducible] def linking : Typestate calls Exn := ⟨Linking, Linking.Allows, Linking.next⟩

def Entry.linking : Entry → Linking
  | .register _ | .seed _ | .profileUpdate _ _ => .accounts
  | _ => .linking []

/-! ## §3. What a state means. -/

def Fact.Holds (l : Session) (s : World) : Fact → Prop
  | .member r => s.Member r
  | .payee r sender => s.Payee r sender
  | .owner k sender => ∃ b, l.beneficiary s k = some b ∧ b.senderId = sender

/-- What is written in the open transaction goes to recipients. -/
structure Session.Routes (l : Session) (s : World) : Prop where
  links : ∀ k b r, l.beneficiaryWrites k = some b → b.recipientUserId = some r →
    s.Payee r b.senderId
  transactions : ∀ t x, l.transactionWrites t = some x → s.Payee x.recipientUserId x.senderId

def Linking.Means (l : Session) (s : World) : Linking → Prop
  | .accounts => (∀ k, l.beneficiaryWrites k = none) ∧ ∀ t, l.transactionWrites t = none
  | .linking facts => (∀ u, l.userWrites u = none) ∧ (∀ f ∈ facts, f.Holds l s) ∧ l.Routes s
  | .wrong => False

theorem Routable.payee {facts : List Fact} (h : Routable facts r sender)
    (hf : ∀ f ∈ facts, f.Holds l s) : s.Payee r sender := by
  obtain ⟨hmem, hne⟩ | hmem := h
  · exact ⟨hf _ hmem, hne⟩
  · exact hf _ hmem

theorem Fact.Holds.moves {f : Fact} (h : f.Holds l s) (hm : s.Moves S i s') : f.Holds l s' := by
  cases f with
  | member r => exact World.Member.moves h hm
  | payee r sender => exact World.Payee.moves h hm
  | owner k sender =>
    obtain ⟨b, hb, hown⟩ := h
    obtain hb | ⟨hnone, hb⟩ := Option.or_eq_some_iff.mp hb
    · exact ⟨b, by simp [Session.beneficiary, hb], hown⟩
    · obtain ⟨b', hb', hown'⟩ := hm.owner k b hb
      exact ⟨b', by simp [Session.beneficiary, hnone, hb'], hown'.trans hown⟩

theorem Linking.Means.moves {q : Linking} (h : q.Means l s) (hm : s.Moves S i s') :
    q.Means l s' := by
  cases q with
  | accounts => exact h
  | linking facts =>
    obtain ⟨hu, hf, hr⟩ := h
    exact ⟨hu, fun f hmem => (hf f hmem).moves hm,
      fun k b r hb he => (hr.links k b r hb he).moves hm,
      fun t x hx => (hr.transactions t x hx).moves hm⟩
  | wrong => exact h

theorem userBy_some {value : Text} {notAdmin : Bool}
    (h : l.userBy s col value notAdmin = some r) :
    ∃ y, l.user s r = some y ∧ y.get col = value ∧ (notAdmin = true → y.isAdmin = false) := by
  have hp := List.find?_some h
  obtain ⟨y, hy, hc⟩ := (Option.any_eq_true _ _).mp hp
  simp only [Bool.and_eq_true, beq_iff_eq, Bool.not_eq_true', Bool.and_eq_false_iff] at hc
  exact ⟨y, hy, hc.1, fun hn => hc.2.resolve_left (by rw [hn]; decide)⟩

/-! ## §4. A call. -/

/-- What a request learns from an answer is so. -/
theorem next_means {r : Except Exn o.Res} {q : Linking} (hr : s.Routed) (hm : q.Means l s)
    (h : exec S i o c l s = some (r, l', s')) : (q.next o r).Means l s := by
  have hp := (exec_perform h).2
  cases q with
  | accounts => cases o <;> exact hm
  | wrong => exact hm.elim
  | linking facts =>
    obtain ⟨hu, hf, hroutes⟩ := hm
    have hsame : (Linking.linking facts).Means l s := ⟨hu, hf, hroutes⟩
    cases o with
    | userBy col value notAdmin =>
      cases notAdmin with
      | false => exact hsame
      | true =>
        obtain ⟨rfl, -⟩ | ⟨rfl, -⟩ := lookup_spec hp
        · exact hsame
        -- an account that is found is stored, and no admin
        · cases hfound : l.userBy s col value true with
          | none => exact hsame
          | some v =>
            refine ⟨hu, fun f hmem => ?_, hroutes⟩
            obtain rfl | hmem := List.mem_cons.mp hmem
            · obtain ⟨y, hy, -, hadmin⟩ := userBy_some hfound
              rw [Session.user, hu v, Option.none_or] at hy
              exact ⟨y, hy, hadmin rfl⟩
            · exact hf f hmem
    | getBeneficiary k u =>
      cases hp
      cases hfound : (l.beneficiary s k).filter (fun b => b.senderId == u && b.isActive) with
      | none => exact hsame
      | some b =>
        obtain ⟨hb, hsender⟩ := Option.filter_eq_some_iff.mp hfound
        have hsender : b.senderId = u := beq_iff_eq.mp (Bool.and_eq_true_iff.mp hsender).1
        show (if b.senderId = u then Linking.linking (b.facts k ++ facts) else .wrong).Means l s
        rw [if_pos hsender]
        refine ⟨hu, fun f hmem => ?_, hroutes⟩
        obtain hmem | hmem := List.mem_append.mp hmem
        -- the link of the beneficiary is one it routes by, or a stored one
        · obtain rfl | hmem := List.mem_cons.mp hmem
          · exact ⟨b, hb, rfl⟩
          · rw [Option.mem_toList, Option.map_eq_some_iff] at hmem
            obtain ⟨v, hv, rfl⟩ := hmem
            obtain hb | ⟨-, hb⟩ := Option.or_eq_some_iff.mp hb
            · exact hroutes.links k b v hb hv
            · exact hr.links k b v hb hv
        · exact hf f hmem
    | _ => exact hsame

theorem World.Routed.rows (h : s.Routed) (hrows : SameRows s s') : s'.Routed := by
  have hpayee : ∀ r sender, s.Payee r sender → s'.Payee r sender := by
    rintro r sender ⟨⟨y, hy, ha⟩, hne⟩
    exact ⟨⟨y, by rw [hrows.users, hy], ha⟩, hne⟩
  refine ⟨fun k b r hb he => hpayee _ _ ?_, fun t x hx => hpayee _ _ ?_⟩
  · rw [hrows.beneficiaries] at hb
    exact h.links k b r hb he
  · rw [hrows.transactions] at hx
    exact h.transactions t x hx

/-- **COMMIT** stores links and transactions that go to recipients. -/
theorem commit_routed {q : Linking} (h : s.Routed) (hl : l.Held S i s) (hm : q.Means l s) :
    (s.commit i l).Routed := by
  have hmember : ∀ r sender, s.Payee r sender → (s.commit i l).Payee r sender := by
    rintro r sender ⟨⟨y, hy, ha⟩, hne⟩
    refine ⟨?_, hne⟩
    show ∃ y, (l.userWrites r).or (s.users r) = some y ∧ y.isAdmin = false
    cases hw : l.userWrites r with
    | none => exact ⟨y, hy, ha⟩
    | some z => exact ⟨z, rfl, (hl.role r z y hw hy).trans ha⟩
  have hroutes : l.Routes s := by
    cases q with
    | accounts =>
      refine ⟨fun k b r hb => ?_, fun t x hx => ?_⟩
      · rw [hm.1 k] at hb
        cases hb
      · rw [hm.2 t] at hx
        cases hx
    | linking facts => exact hm.2.2
    | wrong => exact hm.elim
  refine ⟨fun k b r hb he => hmember _ _ ?_, fun t x hx => hmember _ _ ?_⟩
  · obtain hb | ⟨-, hb⟩ := Option.or_eq_some_iff.mp hb
    · exact hroutes.links k b r hb he
    · exact h.links k b r hb he
  · obtain hx | ⟨-, hx⟩ := Option.or_eq_some_iff.mp hx
    · exact hroutes.transactions t x hx
    · exact h.transactions t x hx

theorem Linking.Means.reset {q : Linking} (h : q.Means l s) (hu : ∀ u, l'.userWrites u = none)
    (hb : ∀ k, l'.beneficiaryWrites k = none) (ht : ∀ t, l'.transactionWrites t = none)
    (hview : ∀ k b, l.beneficiary s k = some b → l'.beneficiary s' k = some b)
    (hmember : ∀ r, s.Member r → s'.Member r) : q.Means l' s' := by
  cases q with
  | accounts => exact ⟨hb, ht⟩
  | wrong => exact h.elim
  | linking facts =>
    refine ⟨hu, fun f hmem => ?_, ⟨fun k b r hk => ?_, fun t x hx => ?_⟩⟩
    · have hf := h.2.1 f hmem
      cases f with
      | member r => exact hmember r hf
      | payee r sender => exact ⟨hmember r hf.1, hf.2⟩
      | owner k sender =>
        obtain ⟨b, hb', hown⟩ := hf
        exact ⟨b, hview k b hb', hown⟩
    · rw [hb k] at hk
      cases hk
    · rw [ht t] at hx
      cases hx

/-- **EVERY ALLOWED CALL** keeps links and transactions on recipients. -/
theorem exec_routed {r : Except Exn o.Res} {q : Linking} (hr : s.Routed) (hl : l.Held S i s)
    (hm : q.Means l s) (ha : q.Allows o) (h : exec S i o c l s = some (r, l', s')) :
    s'.Routed ∧ (q.next o r).Means l' s' := by
  have hnext := next_means hr hm h
  cases exec_effect h with
  | quiet hrows hlocks hl' =>
    have hmoved := hnext.moves (hlocks.moves hrows i)
    refine ⟨hr.rows hrows, ?_⟩
    obtain rfl | rfl := hl'
    · exact hmoved
    · cases hq : q.next o r with
      | accounts =>
        rw [hq] at hmoved
        exact hmoved
      | linking facts =>
        rw [hq] at hmoved
        exact ⟨hmoved.1, fun f hmem => by have := hmoved.2.1 f hmem; cases f <;> exact this,
          hmoved.2.2.links, hmoved.2.2.transactions⟩
      | wrong =>
        rw [hq] at hmoved
        exact hmoved
  | insertUser hrows hlocks hw =>
    cases q with
    | accounts => exact ⟨hr.rows hrows, hm⟩
    | wrong => exact hm.elim
    | linking facts => exact ha.elim
  | updateUser hrows hlocks hx hw =>
    cases q with
    | accounts => exact ⟨hr.rows hrows, hm⟩
    | wrong => exact hm.elim
    | linking facts => exact ha.elim
  | @insertBeneficiary row s' hrows hlocks hlock hnamed =>
    cases q with
    | accounts => exact ha.elim
    | wrong => exact hm.elim
    | linking facts =>
      obtain ⟨hu, hf, hroutes⟩ := hm.moves (hlocks.moves hrows i)
      refine ⟨hr.rows hrows, hu, fun f hmem => ?_, fun k b v hb he => ?_, hroutes.transactions⟩
      · have hold := hf f hmem
        cases f with
        | owner k sender =>
          -- what was read is not the new row
          obtain ⟨b, hb, hown⟩ := hold
          have hk : k ≠ s.nextId := by
            rintro rfl
            obtain hb | ⟨-, hb⟩ := Option.or_eq_some_iff.mp hb
            · exact Nat.lt_irrefl _ (hl.saved _ b hb).1
            · rw [hrows.beneficiaries] at hb
              exact Nat.lt_irrefl _ (hl.regular.saved _ b hb).1
          refine ⟨b, ?_, hown⟩
          simpa [Session.beneficiary, update, hk] using hb
        | _ => exact hold
      · by_cases hk : k = s.nextId
        · subst hk
          obtain rfl : row = b := by simpa using hb
          exact (ha v he).payee hf
        · exact hroutes.links k b v (by simpa [update, hk] using hb) he
  | @updateBeneficiary k values b s' hrows hlocks hb hlock =>
    cases q with
    | accounts => exact ha.elim
    | wrong => exact hm.elim
    | linking facts =>
      obtain ⟨sender, hmem, hrelinks⟩ := ha
      obtain ⟨b', hb', hown⟩ := hm.2.1 _ hmem
      obtain rfl : b = b' := Option.some.inj (hb.symm.trans hb')
      obtain ⟨hsender, hlink⟩ := hrelinks b hown
      have hbpayee : ∀ v, b.recipientUserId = some v → s'.Payee v sender := by
        intro v hv
        rw [← hown]
        have hpayee : s.Payee v b.senderId := by
          obtain hb | ⟨-, hb⟩ := Option.or_eq_some_iff.mp hb
          · exact hm.2.2.links k b v hb hv
          · exact hr.links k b v hb hv
        exact hpayee.moves (hlocks.moves hrows i)
      obtain ⟨hu, hf, hroutes⟩ := hm.moves (hlocks.moves hrows i)
      refine ⟨hr.rows hrows, hu, fun f hmem' => ?_, fun k' x v hx he => ?_, hroutes.transactions⟩
      · have hold := hf f hmem'
        cases f with
        | owner k' sender' =>
          obtain ⟨x, hx, hxown⟩ := hold
          by_cases hk : k' = k
          · subst hk
            have hx' : l.beneficiary s k' = some x := by
              rw [Session.beneficiary, ← hrows.beneficiaries]
              exact hx
            obtain rfl : b = x := Option.some.inj (hb.symm.trans hx')
            exact ⟨values b, by simp [Session.beneficiary], hsender.trans (hown.symm.trans hxown)⟩
          · exact ⟨x, by simpa [Session.beneficiary, update, hk] using hx, hxown⟩
        | _ => exact hold
      · by_cases hk : k' = k
        · subst hk
          obtain rfl : values b = x := by simpa using hx
          rw [hsender]
          obtain hv | hv := hlink v he
          · exact hbpayee v hv
          · exact hv.payee hf
        · exact hroutes.links k' x v (by simpa [update, hk] using hx) he
  | @insertTransaction row s' hrows hlocks =>
    cases q with
    | accounts => exact ha.elim
    | wrong => exact hm.elim
    | linking facts =>
      obtain ⟨hu, hf, hroutes⟩ := hm.moves (hlocks.moves hrows i)
      refine ⟨hr.rows hrows, hu, fun f hmem => ?_, hroutes.links, fun t x hx => ?_⟩
      · have hold := hf f hmem
        cases f <;> exact hold
      · by_cases ht : t = s.nextId
        · subst ht
          obtain rfl : row = x := by simpa [Session.writeTransaction] using hx
          exact Routable.payee ha hf
        · exact hroutes.transactions t x (by simpa [Session.writeTransaction, update, ht] using hx)
  | commit =>
    refine ⟨commit_routed hr hl hm, hnext.reset (fun _ => rfl) (fun _ => rfl) (fun _ => rfl)
      (fun k b hb => ?_) fun v hv => ?_⟩
    · show Option.or none ((l.beneficiaryWrites k).or (s.beneficiaries k)) = some b
      rw [Option.none_or]
      exact hb
    · obtain ⟨y, hy, hadmin⟩ := hv
      show ∃ y, (l.userWrites v).or (s.users v) = some y ∧ y.isAdmin = false
      cases hw : l.userWrites v with
      | none => exact ⟨y, hy, hadmin⟩
      | some z => exact ⟨z, rfl, (hl.role v z y hw hy).trans hadmin⟩
  | rollback =>
    cases q with
    | accounts => exact ⟨hr.rows ⟨rfl, rfl, rfl⟩, fun _ => rfl, fun _ => rfl⟩
    | wrong => exact hm.elim
    | linking facts => exact ha.elim

/-! ## §5. Every request follows. -/

open Prog (Uses)

theorem accounts_follow {α : Type} {p : Program α} (h : Uses Accounting p) :
    FollowsEnd linking p .accounts := by
  refine Follows.toEnd (Follows.of_uses (A := linking) (I := fun q => q = Linking.accounts)
    ?_ h rfl)
  rintro o q ⟨-, ho⟩ rfl
  cases o with
  | insertBeneficiary row => cases ho
  | updateBeneficiary k values => cases ho
  | insertTransaction row => cases ho
  | _ => exact ⟨trivial, fun _ => rfl⟩

/-- Of a lookup's answer, that it is a recipient. -/
def Resolved (facts : List Fact) (sender : Nat) (a : Option Nat) (q : Linking) : Prop :=
  ∃ facts', q = .linking facts' ∧ facts ⊆ facts' ∧ ∀ r, a = some r → Routable facts' r sender

theorem matchBy_follows {facts : List Fact} {detail : Option Text} :
    Follows linking (Resolved facts sender) (fun _ _ => True) (matchBy col detail sender)
      (.linking facts) := by
  unfold matchBy
  split
  · exact ⟨facts, rfl, List.Subset.refl _, nofun⟩
  · refine Follows.call_bind (A := linking) trivial (fun a => ?_) fun _ => trivial
    cases a with
    | none => exact ⟨facts, rfl, List.Subset.refl _, nofun⟩
    | some v =>
      refine ⟨.member v :: facts, rfl, List.subset_cons_self .., fun r hr => ?_⟩
      obtain ⟨he, hne⟩ := Option.filter_eq_some_iff.mp hr
      cases he
      exact .inl ⟨List.mem_cons_self .., by simpa using hne⟩

theorem resolveRecipient_follows {facts : List Fact} {email mobile : Option Text} :
    Follows linking (Resolved facts sender) (fun _ _ => True) (resolveRecipient email mobile sender)
      (.linking facts) := by
  unfold resolveRecipient
  refine Follows.bind matchBy_follows fun a q hq => ?_
  obtain ⟨facts', rfl, hsub, hr⟩ := hq
  split
  · exact ⟨facts', rfl, hsub, hr⟩
  · refine matchBy_follows.mono ?_ fun _ _ _ => trivial
    rintro b q ⟨facts'', rfl, hsub', hr'⟩
    exact ⟨facts'', rfl, List.Subset.trans hsub hsub', hr'⟩

theorem flushBeneficiary_follows {facts : List Fact} {b new : Beneficiary}
    (howner : Fact.owner k sender ∈ facts)
    (hlink : ∀ r, new.recipientUserId = some r → b.recipientUserId = some r ∨
      Routable facts r sender) :
    Follows linking (fun _ q => q = .linking facts) (fun _ _ => True) (flushBeneficiary k b new)
      (.linking facts) := by
  unfold flushBeneficiary
  split
  · exact (rfl : Linking.linking facts = .linking facts)
  · refine ⟨⟨sender, howner, fun x hx => ⟨hx, fun r hr => ?_⟩⟩, fun a => ?_⟩
    · have hr : assigned b.recipientUserId new.recipientUserId x.recipientUserId = some r := hr
      unfold assigned at hr
      split at hr
      next => exact .inl hr
      next hne =>
        obtain hold | hroutable := hlink r hr
        · exact absurd (hr.trans hold.symm) hne
        · exact .inr hroutable
    · cases a <;> trivial

theorem createBeneficiary_follows {facts : List Fact} {fullName payoutCurrency : Text}
    {email mobile : Option Text} :
    FollowsEnd linking (createBeneficiary u fullName email mobile payoutCurrency)
      (.linking facts) := by
  unfold createBeneficiary
  split
  · trivial
  · refine Follows.bind resolveRecipient_follows fun a q hq => ?_
    obtain ⟨facts', rfl, -, hr⟩ := hq
    cases parseCurrency payoutCurrency with
    | none => trivial
    | some currency =>
      refine Follows.call_bind (A := linking) (fun r he => hr r he) (fun _ => ?_) fun _ => trivial
      refine Follows.call_bind (A := linking) trivial (fun _ => ?_) fun _ => trivial
      exact Follows.call_bind (A := linking) trivial (fun _ => trivial) fun _ => trivial

theorem updateBeneficiary_follows {facts : List Fact} {b : Beneficiary}
    {fullName payoutCurrency : Text}
    {email mobile : Option Text} (howner : Fact.owner k b.senderId ∈ facts) :
    FollowsEnd linking (updateBeneficiary k b fullName email mobile payoutCurrency)
      (.linking facts) := by
  unfold updateBeneficiary
  split
  · trivial
  · cases parseCurrency payoutCurrency with
    | none => trivial
    | some currency =>
      refine Follows.bind (flushBeneficiary_follows howner fun r he => .inl he) fun _ q hq => ?_
      subst hq
      refine Follows.bind resolveRecipient_follows fun a q hq => ?_
      obtain ⟨facts', rfl, hsub, hr⟩ := hq
      refine Follows.bind (flushBeneficiary_follows (hsub howner) fun r he => .inr (hr r he))
        fun _ q hq => ?_
      subst hq
      refine Follows.call_bind (A := linking) trivial (fun _ => ?_) fun _ => trivial
      exact ⟨trivial, fun a => by cases a <;> trivial⟩

theorem deleteBeneficiary_follows {facts : List Fact} {b : Beneficiary}
    (howner : Fact.owner k b.senderId ∈ facts) :
    FollowsEnd linking (deleteBeneficiary k b) (.linking facts) := by
  unfold deleteBeneficiary
  refine Follows.bind (flushBeneficiary_follows howner fun r he => .inl he) fun _ q hq => ?_
  subst hq
  exact ⟨trivial, fun a => by cases a <;> trivial⟩

theorem refreshRecipientLink_follows {facts : List Fact} {b : Beneficiary}
    (howner : Fact.owner k b.senderId ∈ facts)
    (hlink : ∀ r, b.recipientUserId = some r → Routable facts r b.senderId) :
    Follows linking (Resolved facts b.senderId) (fun _ _ => True) (refreshRecipientLink k b)
      (.linking facts) := by
  unfold refreshRecipientLink
  split
  next r he =>
    refine ⟨facts, rfl, List.Subset.refl _, fun v hv => ?_⟩
    obtain rfl := Option.some.inj hv
    exact hlink r he
  next =>
    refine Follows.bind resolveRecipient_follows fun a q hq => ?_
    obtain ⟨facts', rfl, hsub, hr⟩ := hq
    refine Follows.bind (flushBeneficiary_follows (hsub howner) fun r he => .inr (hr r he))
      fun _ q hq => ?_
    subst hq
    exact ⟨facts', rfl, hsub, hr⟩

/-- What never happens may go on as it likes. -/
theorem follows_wrong {α : Type} (p : Program α) : FollowsEnd linking p .wrong := by
  induction p with
  | ret a => trivial
  | raise e => trivial
  | op o f ih => exact ⟨trivial, fun r => ih r⟩

/-- What a request knows once it has read a beneficiary of its own. -/
theorem next_own {facts : List Fact} {b : Beneficiary} (h : b.senderId = u) :
    linking.next (.linking facts) (.getBeneficiary k u) (.ok (some b))
      = .linking (b.facts k ++ facts) :=
  if_pos h

theorem next_wrong {facts : List Fact} {b : Beneficiary} (h : b.senderId ≠ u) :
    linking.next (.linking facts) (.getBeneficiary k u) (.ok (some b)) = .wrong :=
  if_neg h

theorem createRemittance_follows {facts : List Fact} {x : User} :
    FollowsEnd linking (createRemittance u x k) (.linking facts) := by
  unfold createRemittance
  split
  · trivial
  · refine Follows.call_bind (A := linking) trivial (fun _ => ?_) fun _ => trivial
    refine Follows.call_bind (A := linking) trivial (fun a => ?_) fun _ => trivial
    cases a with
    | none => trivial
    | some b =>
      by_cases hu : b.senderId = u
      · subst hu
        show Follows linking _ _ _ (linking.next (.linking facts) (.getBeneficiary k b.senderId) _)
        rw [next_own rfl]
        have howner : Fact.owner k b.senderId ∈ b.facts k ++ facts := by simp [Beneficiary.facts]
        have hlink : ∀ r, b.recipientUserId = some r → Routable (b.facts k ++ facts) r b.senderId :=
          fun r he => .inr (by simp [Beneficiary.facts, he])
        refine Follows.bind (refreshRecipientLink_follows howner hlink) fun a q hq => ?_
        obtain ⟨facts', rfl, hsub, hr⟩ := hq
        cases a with
        | none => trivial
        | some recipient =>
          refine Follows.call_bind (A := linking) trivial (fun _ => ?_) fun _ => trivial
          refine Follows.call_bind (A := linking) (hr recipient rfl) (fun t => ?_) fun _ => trivial
          refine Follows.call_bind (A := linking) trivial (fun _ => ?_) fun _ => trivial
          exact Follows.call_bind (A := linking) trivial (fun _ => trivial) fun _ => trivial
      · show Follows linking _ _ _ (linking.next (.linking facts) (.getBeneficiary k u) _)
        rw [next_wrong hu]
        exact follows_wrong _

theorem asUser_follows {act : User → Program Reply} {q : Linking}
    (h : ∀ x, FollowsEnd linking (act x) q) (hq : ∀ r, q.next (.loadUser u) r = q)
    (ha : q.Allows (.loadUser u)) : FollowsEnd linking (asUser u act) q := by
  unfold asUser
  refine Follows.call_bind (A := linking) ha (fun a => ?_) fun _ => trivial
  show Follows linking _ _ _ (q.next (.loadUser u) (.ok a))
  rw [hq]
  cases a with
  | none => trivial
  | some x => exact h x

theorem orForm_follows {saving : Program Reply} {q : Linking} (h : FollowsEnd linking saving q) :
    FollowsEnd linking (orForm saving) q := by
  unfold orForm
  refine Follows.attempt_bind h (fun _ _ _ => trivial) fun exc _ _ => ?_
  cases exc <;> trivial

/-- A request that edits a beneficiary of its user. -/
theorem ofOwn_follows {facts : List Fact} {q : Option Beneficiary → Program Reply}
    (hnone : FollowsEnd linking (q none) (.linking facts))
    (hsome : ∀ b, b.senderId = u → FollowsEnd linking (q (some b))
      (.linking (b.facts k ++ facts))) :
    FollowsEnd linking (Prog.bind (call (.getBeneficiary k u)) q) (.linking facts) := by
  refine Follows.call_bind (A := linking) trivial (fun a => ?_) fun _ => trivial
  cases a with
  | none => exact hnone
  | some b =>
    show Follows linking _ _ _ (linking.next (.linking facts) (.getBeneficiary k u) (.ok (some b)))
    by_cases hu : b.senderId = u
    · rw [next_own hu]
      exact hsome b hu
    · rw [next_wrong hu]
      exact follows_wrong _

theorem route_linking (e : Entry) : FollowsEnd linking (route S e) e.linking := by
  cases e with
  | register form => exact accounts_follow uses_register
  | seed settings => exact accounts_follow uses_seedAdmin
  | profileUpdate u form => exact accounts_follow uses_profileUpdate
  | create u form =>
    refine asUser_follows (fun _ => orForm_follows ?_) (fun _ => rfl) trivial
    exact Follows.bind createBeneficiary_follows fun _ _ _ => trivial
  | editSave u k form =>
    refine asUser_follows (fun _ => ofOwn_follows trivial fun b hb => ?_) (fun _ => rfl) trivial
    refine orForm_follows (Follows.bind (updateBeneficiary_follows ?_) fun _ _ _ => trivial)
    simp [Beneficiary.facts]
  | delete u k =>
    refine asUser_follows (fun _ => ofOwn_follows trivial fun b hb => ?_) (fun _ => rfl) trivial
    refine Follows.bind (deleteBeneficiary_follows ?_) fun _ _ _ => trivial
    simp [Beneficiary.facts]
  | send u k =>
    refine asUser_follows (fun x => ?_) (fun _ => rfl) trivial
    split
    · trivial
    · refine Follows.attempt_bind createRemittance_follows (fun _ _ _ => trivial) fun exc _ _ => ?_
      cases exc <;> trivial

theorem body_linking (e : Entry) : FollowsEnd linking (body S e) e.linking := by
  have hrespond : ∀ reply q, FollowsEnd linking (call (.respond reply)) q := fun reply q =>
    ⟨by cases q <;> trivial, fun r => by cases r <;> trivial⟩
  unfold body
  exact Follows.attempt_bind (route_linking e) (fun reply q _ => hrespond reply q)
    fun exc q _ => hrespond _ q

/-! ## §6. Every reachable state. -/

theorem routed_initial : World.initial.Routed where
  links := by
    intro k b r hb
    cases hb
  transactions := by
    intro t x hx
    cases hx

/-- A request that has just started has written nothing and knows nothing. -/
theorem start_means (e : Entry) : e.linking.Means (Session.start e) s := by
  have hlinking : (Linking.linking []).Means (Session.start e) s := by
    refine ⟨fun _ => rfl, ⟨fun f hf => (List.not_mem_nil hf).elim, fun k b r hb => ?_,
      fun t x hx => ?_⟩⟩
    · cases hb
    · cases hx
  cases e with
  | register form => exact ⟨fun _ => rfl, fun _ => rfl⟩
  | seed settings => exact ⟨fun _ => rfl, fun _ => rfl⟩
  | profileUpdate u form => exact ⟨fun _ => rfl, fun _ => rfl⟩
  | _ => exact hlinking

/-- The typestate is sound: links and transactions are kept on recipients. -/
theorem linking_sound (S : Setting) :
    Typestate.Sound (M := accounts S) linking (accountsDiscipline S) Entry.linking World.Routed
      (fun _ q l s => q.Means l s) where
  body := body_linking
  spawn := by
    intro e s _ hr
    refine ⟨hr.rows ⟨rfl, rfl, rfl⟩, ?_⟩
    exact start_means e
  call := by
    intro i q o c l s r l' s' _ hr hl hm ha h
    exact exec_routed hr hl hm ha h
  close := by
    intro i s _ hr
    exact hr.rows ⟨rfl, rfl, rfl⟩
  env := by
    intro v s s' hs hr h
    have hm := ((accounts_kept S).env v s s' hs h).2 0
    cases v with
    | submit u =>
      cases h
      exact hr.rows ⟨rfl, rfl, rfl⟩
    | review u approved =>
      obtain ⟨x, -, -, rfl⟩ := review_moves h
      exact ⟨fun k b r hb he => (hr.links k b r hb he).moves hm,
        fun t x hx => (hr.transactions t x hx).moves hm⟩

/-- **LINKS AND TRANSACTIONS GO TO RECIPIENTS**, in every reachable state. -/
theorem routed_reach {c : Config (accounts S)} (h : Reach World.initial c) : c.world.Routed :=
  ((linking_sound S).reach (accounts_kept S) (fun _ _ _ _ _ _ hm hmoves => hm.moves hmoves)
    regular_initial routed_initial h).world

end Orbyt.Directory
