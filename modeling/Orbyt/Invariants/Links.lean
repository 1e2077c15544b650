/-
  Orbyt.Invariants.Links — the account behind a beneficiary, over whole histories

  `_resolve_recipient` as a function of the stored rows, and what each request makes of the
  links when nothing else runs: creating, editing and sending link to whom it finds at that
  moment, and none of them touches an account.  So a link is what `_resolve_recipient` finds for
  the saved details as long as no registration and no profile edit changes that.

  Main results:
    * `resolveRecipient_alone` — what `_resolve_recipient` returns is `World.resolve`;
    * `matched_story`          — the request of a history that made a link, whom it found then, and
      what can have changed whom it finds since.
-/
import Orbyt.Invariants.Accounts
import Orbyt.Lib.Serial

namespace Orbyt.Directory

open Interleave
open PyText
open Function (update)

variable {S : Setting} {i u k r sender : Nat} {o : Op} {c : Choice} {l l' : Session}
  {s s' w w' : World} {col : Column} {value : Text} {detail email mobile : Option Text}

/-! ## §1. Whom `_resolve_recipient` finds. -/

/-- The member that a SELECT finds among the stored rows. -/
def World.userBy (s : World) (col : Column) (value : Text) : Option Nat :=
  (List.range s.nextId).find? (fun v => (s.users v).any (fun y =>
    y.get col == value && !y.isAdmin))

def World.matchBy (s : World) (col : Column) (detail : Option Text) (senderId : Nat) : Option Nat :=
  (detail.bind given).bind (fun value =>
    (s.userBy col (col.normalise value)).filter (· != senderId))

/-- `_resolve_recipient`, of the stored rows. -/
def World.resolve (s : World) (email mobile : Option Text) (senderId : Nat) : Option Nat :=
  (s.matchBy .email email senderId).or (s.matchBy .mobile mobile senderId)

theorem given_eq_some {t v : Text} : given t = some v ↔ t = v ∧ v ≠ [] := by
  unfold given
  split
  next h =>
    constructor
    · intro he
      cases he
    · rintro ⟨rfl, hne⟩
      exact absurd h hne
  next h =>
    constructor
    · intro he
      obtain rfl := Option.some.inj he
      exact ⟨rfl, h⟩
    · rintro ⟨rfl, -⟩
      rfl

theorem userBy_found (h : s.userBy col value = some r) :
    ∃ y, s.users r = some y ∧ y.get col = value ∧ y.isAdmin = false := by
  unfold World.userBy at h
  have hp := List.find?_some h
  obtain ⟨y, hy, hc⟩ := (Option.any_eq_true _ _).mp hp
  rw [Bool.and_eq_true, beq_iff_eq, Bool.not_eq_true'] at hc
  exact ⟨y, hy, hc⟩

/-- Where no two users share a value, the lookup finds whoever has it. -/
theorem userBy_eq_some (hs : s.Regular) : s.userBy col value = some r ↔
    ∃ y, s.users r = some y ∧ y.get col = value ∧ y.isAdmin = false := by
  constructor
  · intro h
    exact userBy_found h
  · rintro ⟨y, hy, hvalue, hadmin⟩
    have hfound : (s.users r).any (fun y => y.get col == value && !y.isAdmin) = true := by
      simp [hy, hvalue, hadmin]
    cases hfind : s.userBy col value with
    | none =>
      have hnot := List.find?_eq_none.mp hfind r (List.mem_range.mpr (hs.named r y hy))
      exact absurd hfound hnot
    | some v =>
      obtain ⟨z, hz, hvalue', -⟩ := userBy_found hfind
      rw [hs.unique v r z y col hz hy (hvalue'.trans hvalue.symm)]

theorem matchBy_eq_some (hs : s.Regular) : s.matchBy col detail sender = some r ↔
    r ≠ sender ∧ ∃ v y, detail = some v ∧ v ≠ [] ∧ s.users r = some y ∧
      y.get col = col.normalise v ∧ y.isAdmin = false := by
  simp only [World.matchBy, Option.bind_eq_some_iff, given_eq_some, Option.filter_eq_some_iff,
    userBy_eq_some hs]
  constructor
  · rintro ⟨v, ⟨t, rfl, rfl, hne⟩, ⟨y, hy, hvalue, hadmin⟩, hsender⟩
    exact ⟨by simpa using hsender, t, y, rfl, hne, hy, hvalue, hadmin⟩
  · rintro ⟨hsender, v, y, rfl, hne, hy, hvalue, hadmin⟩
    exact ⟨v, ⟨v, rfl, rfl, hne⟩, ⟨y, hy, hvalue, hadmin⟩, by simpa using hsender⟩

/-- What a lookup reads of an account. -/
def User.contact (x : User) : Text × Text × Bool := (x.email, x.mobile, x.isAdmin)

def SameContacts (s s' : World) : Prop :=
  ∀ v, (s'.users v).map User.contact = (s.users v).map User.contact

theorem SameContacts.user (h : SameContacts s s') {v : Nat} {y : User} (hy : s.users v = some y) :
    ∃ y', s'.users v = some y' ∧ (∀ col, y'.get col = y.get col) ∧ y'.isAdmin = y.isAdmin := by
  have hv := h v
  rw [hy, Option.map_some, Option.map_eq_some_iff] at hv
  obtain ⟨y', hy', hcontact⟩ := hv
  simp only [User.contact, Prod.mk.injEq] at hcontact
  refine ⟨y', hy', fun col => ?_, hcontact.2.2⟩
  cases col with
  | email => exact hcontact.1
  | mobile => exact hcontact.2.1

theorem SameContacts.symm (h : SameContacts s s') : SameContacts s' s := fun v => (h v).symm

theorem matchBy_le (hs : s.Regular) (hs' : s'.Regular) (h : SameContacts s s')
    (hr : s.matchBy col detail sender = some r) : s'.matchBy col detail sender = some r := by
  obtain ⟨hsender, v, y, hdetail, hne, hy, hvalue, hadmin⟩ := (matchBy_eq_some hs).mp hr
  obtain ⟨y', hy', hget, hrole⟩ := h.user hy
  exact (matchBy_eq_some hs').mpr
    ⟨hsender, v, y', hdetail, hne, hy', (hget col).trans hvalue, hrole.trans hadmin⟩

/-- Whom it finds depends on the accounts' contact details and roles only. -/
theorem resolve_congr (hs : s.Regular) (hs' : s'.Regular) (h : SameContacts s s') :
    s'.resolve email mobile sender = s.resolve email mobile sender := by
  have hmatch : ∀ col detail, s'.matchBy col detail sender = s.matchBy col detail sender := by
    intro col detail
    apply Option.ext
    intro r
    exact ⟨matchBy_le hs' hs h.symm, matchBy_le hs hs' h⟩
  simp only [World.resolve, hmatch]

theorem normalise_normalise (col : Column) (t : Text) :
    col.normalise (col.normalise t) = col.normalise t := by
  cases col with
  | email => exact normal_normal t
  | mobile => exact strip_strip

/-- A member has an email and a mobile number. -/
theorem get_ne_nil (hs : s.Regular) {y : User} (hy : s.users r = some y) (ha : y.isAdmin = false) :
    y.get col ≠ [] := by
  have hfound := (hs.proper r y hy).found ha
  cases col with
  | email => exact hfound.1
  | mobile => exact hfound.2

theorem matchBy_saved (hs : s.Regular) :
    s.matchBy col (detail.map col.normalise) sender = s.matchBy col detail sender := by
  apply Option.ext
  intro r
  rw [matchBy_eq_some hs, matchBy_eq_some hs]
  refine and_congr_right fun _ => ?_
  constructor
  · rintro ⟨v, y, hdetail, hne, hy, hvalue, hadmin⟩
    obtain ⟨t, rfl, rfl⟩ := Option.map_eq_some_iff.mp hdetail
    refine ⟨t, y, rfl, ?_, hy, hvalue.trans (normalise_normalise col t), hadmin⟩
    rintro rfl
    exact hne (by cases col <;> decide)
  · rintro ⟨t, y, rfl, -, hy, hvalue, hadmin⟩
    refine ⟨col.normalise t, y, rfl, ?_, hy, ?_, hadmin⟩
    · rw [← hvalue]
      exact get_ne_nil hs hy hadmin
    · rw [normalise_normalise, hvalue]

/-- It finds the same account for the details as they are saved. -/
theorem resolve_saved (hs : s.Regular) :
    s.resolve (email.map normal) (mobile.map strip) sender = s.resolve email mobile sender := by
  have hemail : s.matchBy .email (email.map normal) sender = s.matchBy .email email sender :=
    matchBy_saved hs
  have hmobile : s.matchBy .mobile (mobile.map strip) sender = s.matchBy .mobile mobile sender :=
    matchBy_saved hs
  simp only [World.resolve, hemail, hmobile]

/-- Whoever is found has one of the details. -/
theorem resolve_contact (hs : s.Regular) {b : Beneficiary} (hb : b.Proper)
    (h : s.resolve b.email b.mobile sender = some r) :
    ∃ y, s.users r = some y ∧ (b.email = some y.email ∨ b.mobile = some y.mobile) := by
  obtain hr | ⟨-, hr⟩ := Option.or_eq_some_iff.mp h
  · obtain ⟨-, v, y, hdetail, -, hy, hvalue, -⟩ := (matchBy_eq_some hs).mp hr
    refine ⟨y, hy, .inl ?_⟩
    rw [hdetail, show y.email = normal v from hvalue, hb.email v hdetail]
  · obtain ⟨-, v, y, hdetail, -, hy, hvalue, -⟩ := (matchBy_eq_some hs).mp hr
    refine ⟨y, hy, .inr ?_⟩
    rw [hdetail, show y.mobile = strip v from hvalue, hb.mobile v hdetail]

/-! ## §2. A request that writes no account. -/

/-- A request from `w` on, when nothing else runs: the rows are those of `w`, and it sees the
beneficiaries `f` and the transactions `g`. -/
structure Sees (w : World) (f : Nat → Option Beneficiary) (g : Nat → Option Transaction)
    (l : Session) (s : World) : Prop where
  rows : SameRows w s
  nextId : w.nextId ≤ s.nextId
  userWrites : ∀ u, l.userWrites u = none
  view : l.beneficiary s = f
  booked : (fun t => (l.transactionWrites t).or (s.transactions t)) = g

/-- What a request has stored. -/
structure Stores (w : World) (f : Nat → Option Beneficiary) (g : Nat → Option Transaction)
    (s : World) : Prop where
  users : s.users = w.users
  beneficiaries : s.beneficiaries = f
  transactions : s.transactions = g

variable {f : Nat → Option Beneficiary} {g : Nat → Option Transaction}

theorem SameRows.trans {s'' : World} (h : SameRows s s') (h' : SameRows s' s'') : SameRows s s'' :=
  ⟨h'.users.trans h.users, h'.beneficiaries.trans h.beneficiaries,
    h'.transactions.trans h.transactions⟩

/-- Nothing has been stored. -/
theorem SameRows.stores (h : SameRows w s) : Stores w w.beneficiaries w.transactions s :=
  ⟨h.users, h.beneficiaries, h.transactions⟩

/-- A session that has written nothing sees what is stored. -/
theorem Sees.start (e : Entry) (h : SameRows w s) (hn : w.nextId ≤ s.nextId) :
    Sees w w.beneficiaries w.transactions (Session.start e) s :=
  ⟨h, hn, fun _ => rfl, funext fun k => congrFun h.beneficiaries k,
    funext fun t => congrFun h.transactions t⟩

/-- Calls that write nothing and end no transaction. -/
def Op.reads : Op → Bool
  | .insertUser _ | .updateUser _ _ | .insertBeneficiary _ | .updateBeneficiary _ _
  | .insertTransaction _ | .commit | .rollback => false
  | _ => true

theorem Sees.congr (h : Sees w f g l s) (hrows : SameRows s s') (hn : s.nextId ≤ s'.nextId)
    (hu : l'.userWrites = l.userWrites) (hb : l'.beneficiaryWrites = l.beneficiaryWrites)
    (ht : l'.transactionWrites = l.transactionWrites) : Sees w f g l' s' := by
  refine ⟨h.rows.trans hrows, Nat.le_trans h.nextId hn, fun u => ?_, ?_, ?_⟩
  · rw [hu, h.userWrites]
  · rw [← h.view]
    unfold Session.beneficiary
    rw [hb, hrows.beneficiaries]
  · rw [← h.booked, ht, hrows.transactions]

theorem Sees.reads {r : Except Exn o.Res} (h : Sees w f g l s) (ho : o.reads = true)
    (hx : exec S i o c l s = some (r, l', s')) : Sees w f g l' s' := by
  cases exec_effect hx with
  | quiet hrows hlocks hl =>
    obtain rfl | rfl := hl
    · exact h.congr hrows hlocks.nextId rfl rfl rfl
    · exact h.congr hrows hlocks.nextId rfl rfl rfl
  | _ => cases ho

/-- What a request has come to when an exception leaves it. -/
def Fails (w : World) (_ : Exn) (_ : Session) (s : World) : Prop := SameRows w s

/-- A call that only reads, then the rest. -/
theorem Sees.call_bind {α : Type} {Q : α → Session → World → Prop} {p : o.Res → Program α}
    (h : Sees w f g l s) (ho : o.reads = true)
    (hok : ∀ a l' s', Sees w f g l' s' →
      Alone (M := accounts S) i Q (Fails w) (p a) l' s') :
    Alone (M := accounts S) i Q (Fails w) (Prog.bind (call o) p) l s := by
  refine Alone.call_bind (M := accounts S) fun c r l' s' hx => ?_
  have hsees := h.reads ho hx
  cases r with
  | ok a => exact hok a l' s' hsees
  | error e => exact hsees.rows

/-- The lookup finds whom it finds among the rows of `w`. -/
theorem Sees.found (hw : w.Regular) (h : Sees w f g l s) :
    l.userBy s col value true = w.userBy col value := by
  have hs : s.Regular := h.rows.regular h.nextId hw
  have hstored : l.userBy s col value true = s.userBy col value := by
    simp [Session.userBy, World.userBy, Session.user, h.userWrites]
  rw [hstored]
  apply Option.ext
  intro r
  rw [userBy_eq_some hs, userBy_eq_some hw, h.rows.users]

/-! ## §3. What the functions do. -/

theorem matchBy_alone (hw : w.Regular) (h : Sees w f g l s) :
    Alone (M := accounts S) i (fun a l' s' => a = w.matchBy col detail sender ∧ Sees w f g l' s')
      (Fails w) (matchBy col detail sender) l s := by
  unfold matchBy World.matchBy
  cases detail.bind given with
  | none => exact ⟨rfl, h⟩
  | some value =>
    refine Alone.call_bind (M := accounts S) fun c r l' s' hx => ?_
    have hsees := h.reads rfl hx
    obtain ⟨rfl, -⟩ | ⟨rfl, -⟩ := lookup_spec (exec_perform hx).2
    · exact hsees.rows
    · exact ⟨by rw [h.found hw]; rfl, hsees⟩

/-- **`_resolve_recipient`** returns whom the stored rows resolve to. -/
theorem resolveRecipient_alone (hw : w.Regular) (h : Sees w f g l s) :
    Alone (M := accounts S) i
      (fun a l' s' => a = w.resolve email mobile sender ∧ Sees w f g l' s') (Fails w)
      (resolveRecipient email mobile sender) l s := by
  unfold resolveRecipient
  refine Alone.bind (matchBy_alone hw h) fun a l₁ s₁ hfirst => ?_
  obtain ⟨rfl, hsees⟩ := hfirst
  split
  next r hr => exact ⟨by rw [World.resolve, hr]; rfl, hsees⟩
  next hr =>
    refine (matchBy_alone hw hsees).mono ?_ fun _ _ _ h => h
    rintro a l₂ s₂ ⟨rfl, hsees'⟩
    exact ⟨by rw [World.resolve, hr]; rfl, hsees'⟩

/-- Nothing else has assigned to the row, so the UPDATE stores the object. -/
theorem editedBeneficiary_self {b new : Beneficiary} (h : new.senderId = b.senderId) :
    editedBeneficiary b new b = new := by
  simp only [editedBeneficiary, assigned_self, ← h]

/-- A row is written in the open transaction. -/
theorem Sees.write {b : Beneficiary} (h : Sees w f g l s) (hrows : SameRows s s')
    (hn : s.nextId ≤ s'.nextId) :
    Sees w (update f k (some b)) g
      { l with beneficiaryWrites := update l.beneficiaryWrites k (some b) } s' := by
  refine ⟨h.rows.trans hrows, Nat.le_trans h.nextId hn, h.userWrites, ?_, ?_⟩
  · funext k'
    rw [← h.view]
    show (update l.beneficiaryWrites k (some b) k').or (s'.beneficiaries k') = _
    rw [hrows.beneficiaries]
    by_cases hk : k' = k
    · subst hk
      rw [Function.update_self, Function.update_self, Option.some_or]
    · rw [Function.update_of_ne hk, Function.update_of_ne hk, Session.beneficiary]
  · rw [← h.booked, hrows.transactions]

/-- A transaction is written in the open transaction. -/
theorem Sees.book {x : Transaction} (h : Sees w f g l s) :
    Sees w f (update g s.nextId (some x)) (l.writeTransaction s.nextId x) s.nextKey := by
  refine ⟨h.rows.trans ⟨rfl, rfl, rfl⟩, Nat.le_trans h.nextId (Nat.le_succ _), h.userWrites,
    h.view, ?_⟩
  funext t
  rw [← h.booked]
  show (update l.transactionWrites s.nextId (some x) t).or (s.transactions t) = _
  by_cases ht : t = s.nextId
  · subst ht
    rw [Function.update_self, Function.update_self, Option.some_or]
  · rw [Function.update_of_ne ht, Function.update_of_ne ht]

theorem flushBeneficiary_alone {b new : Beneficiary} (h : Sees w f g l s) (hb : f k = some b)
    (hsender : new.senderId = b.senderId) :
    Alone (M := accounts S) i (fun _ l' s' => Sees w (update f k (some new)) g l' s') (Fails w)
      (flushBeneficiary k b new) l s := by
  unfold flushBeneficiary
  split
  next he =>
    subst he
    show Sees w (update f k (some new)) g l s
    rw [← hb, Function.update_eq_self]
    exact h
  next =>
    rw [← h.view] at hb
    intro c r l' s' hx
    have hp := (exec_perform hx).2
    simp only [perform, hb, editedBeneficiary_self hsender] at hp
    obtain ⟨rfl, rfl, rfl⟩ | ⟨rfl, rfl, hrows, hlocks, -⟩ := writeBeneficiary_spec hp
    · exact h.rows
    · exact h.write hrows hlocks.nextId

/-- **COMMIT** stores what the request sees. -/
theorem Sees.commit {r' : Except Exn Unit} (h : Sees w f g l s)
    (hx : exec S i .commit c l s = some (r', l', s')) :
    Stores w f g s' := by
  obtain rfl : s.commit i l = s' := by
    have hp := (exec_perform hx).2
    cases hp
    rfl
  refine ⟨?_, h.view, h.booked⟩
  funext u
  show (l.userWrites u).or (s.users u) = w.users u
  rw [h.userWrites, Option.none_or, h.rows.users]

theorem Stores.rows (h : Stores w f g s) (hrows : SameRows s s') : Stores w f g s' :=
  ⟨hrows.users.trans h.users, hrows.beneficiaries.trans h.beneficiaries,
    hrows.transactions.trans h.transactions⟩

theorem Stores.reads {r : Except Exn o.Res} (h : Stores w f g s) (ho : o.reads = true)
    (hx : exec S i o c l s = some (r, l', s')) : Stores w f g s' := by
  cases exec_effect hx with
  | quiet hrows => exact h.rows hrows
  | _ => cases ho

/-- The commit, then the rest. -/
theorem Sees.commit_bind {α : Type} {Q : α → Session → World → Prop} {p : Unit → Program α}
    (h : Sees w f g l s)
    (hok : ∀ l' s', Stores w f g s' → Alone (M := accounts S) i Q (Fails w) (p ()) l' s') :
    Alone (M := accounts S) i Q (Fails w) (Prog.bind (call .commit) p) l s := by
  intro c r l' s' hx
  have hstores := h.commit hx
  have hp := (exec_perform hx).2
  cases hp
  exact hok _ _ hstores

/-- The refresh after the commit, then the rest. -/
theorem Stores.refresh_bind {α : Type} {Q : α → Session → World → Prop} {p : Unit → Program α}
    (h : Stores w f g s)
    (hok : ∀ l' s', Stores w f g s' → Alone (M := accounts S) i Q (Fails w) (p ()) l' s') :
    Alone (M := accounts S) i Q (Fails w) (Prog.bind (call .refresh) p) l s := by
  intro c r l' s' hx
  have hstores := h.reads rfl hx
  have hp := (exec_perform hx).2
  cases hp
  exact hok _ _ hstores

/-- The beneficiary of a user, as it is stored, then the rest. -/
theorem Sees.getBeneficiary_bind {α : Type} {Q : α → Session → World → Prop}
    {p : Option Beneficiary → Program α} (h : Sees w f g l s)
    (hok : ∀ a l' s', Sees w f g l' s' →
      (∀ b, a = some b → f k = some b ∧ b.senderId = u ∧ b.isActive = true) →
      Alone (M := accounts S) i Q (Fails w) (p a) l' s') :
    Alone (M := accounts S) i Q (Fails w) (Prog.bind (call (.getBeneficiary k u)) p) l s := by
  intro c r l' s' hx
  have hsees := h.reads rfl hx
  have hp := (exec_perform hx).2
  cases hp
  refine hok _ _ _ hsees fun b hb => ?_
  obtain ⟨hfound, hown⟩ := Option.filter_eq_some_iff.mp hb
  obtain ⟨hsender, hactive⟩ := Bool.and_eq_true_iff.mp hown
  rw [h.view] at hfound
  exact ⟨hfound, beq_iff_eq.mp hsender, hactive⟩

/-! ## §4. What a request makes of links and transactions. -/

/-- Accounts are left alone, an active link is as it was or whom the saved details resolve to,
and a new transaction goes where its beneficiary is linked. -/
structure Outcome (w s : World) : Prop where
  users : s.users = w.users
  links : ∀ k b r, s.beneficiaries k = some b → b.isActive = true → b.recipientUserId = some r →
    w.beneficiaries k = some b ∨ w.resolve b.email b.mobile b.senderId = some r
  transactions : ∀ t x, s.transactions t = some x → w.transactions t = some x ∨
    ∃ b, s.beneficiaries x.beneficiaryId = some b ∧ b.isActive = true ∧
      b.senderId = x.senderId ∧ b.recipientUserId = some x.recipientUserId

theorem SameRows.outcome (h : SameRows w s) : Outcome w s where
  users := h.users
  links := by
    intro k b r hb _ _
    rw [h.beneficiaries] at hb
    exact .inl hb
  transactions := by
    intro t x hx
    rw [h.transactions] at hx
    exact .inl hx

theorem Outcome.rows (h : Outcome w s) (hrows : SameRows s s') : Outcome w s' := by
  refine ⟨hrows.users.trans h.users, ?_, ?_⟩
  · rw [hrows.beneficiaries]
    exact h.links
  · rw [hrows.transactions, hrows.beneficiaries]
    exact h.transactions

/-- One beneficiary is written. -/
theorem Stores.outcome {b : Beneficiary}
    (h : Stores w (update w.beneficiaries k (some b)) g s)
    (hlink : ∀ r, b.isActive = true → b.recipientUserId = some r →
      w.beneficiaries k = some b ∨ w.resolve b.email b.mobile b.senderId = some r)
    (hbooked : ∀ t x, g t = some x → w.transactions t = some x ∨ (x.beneficiaryId = k ∧
      b.isActive = true ∧ b.senderId = x.senderId ∧ b.recipientUserId = some x.recipientUserId)) :
    Outcome w s := by
  refine ⟨h.users, fun k' b' r hb hactive hr => ?_, fun t x hx => ?_⟩
  · rw [h.beneficiaries] at hb
    by_cases hk : k' = k
    · subst hk
      obtain rfl : b = b' := by simpa using hb
      exact hlink r hactive hr
    · exact .inl (by simpa [update, hk] using hb)
  · rw [h.transactions] at hx
    obtain hold | ⟨rfl, hnew⟩ := hbooked t x hx
    · exact .inl hold
    · exact .inr ⟨b, by rw [h.beneficiaries, Function.update_self], hnew⟩

theorem createBeneficiary_alone (hw : w.Regular) {fullName payoutCurrency : Text}
    (h : Sees w w.beneficiaries w.transactions l s) :
    Alone (M := accounts S) i (fun _ _ s' => Outcome w s') (Fails w)
      (createBeneficiary u fullName email mobile payoutCurrency) l s := by
  unfold createBeneficiary
  split
  · exact h.rows
  · refine Alone.bind (resolveRecipient_alone hw h) fun a l₁ s₁ hr => ?_
    obtain ⟨rfl, h₁⟩ := hr
    cases parseCurrency payoutCurrency with
    | none => exact h₁.rows
    | some currency =>
      have hnext : SameRows s₁ s₁.nextKey := ⟨rfl, rfl, rfl⟩
      refine Alone.call_bind (M := accounts S) fun c r l₂ s₂ hx => ?_
      obtain ⟨rfl, rfl, rfl⟩ | ⟨rfl, rfl, hrows, hlocks, -⟩ :=
        writeBeneficiary_spec (exec_perform hx).2
      · exact h₁.rows.trans hnext
      · have hn : s₁.nextId ≤ s₂.nextId := Nat.le_trans (Nat.le_succ _) hlocks.nextId
        refine Sees.commit_bind (h₁.write (hnext.trans hrows) hn) fun l₃ s₃ h₃ => ?_
        refine h₃.refresh_bind fun l₄ s₄ h₄ => ?_
        refine h₄.outcome (fun r _ he => .inr ?_) fun t x hx => .inl hx
        exact (resolve_saved hw).trans he

theorem updateBeneficiary_alone (hw : w.Regular) {b : Beneficiary} {fullName payoutCurrency : Text}
    (h : Sees w w.beneficiaries w.transactions l s) (hb : w.beneficiaries k = some b) :
    Alone (M := accounts S) i (fun _ _ s' => Outcome w s') (Fails w)
      (updateBeneficiary k b fullName email mobile payoutCurrency) l s := by
  unfold updateBeneficiary
  split
  · exact h.rows
  · cases parseCurrency payoutCurrency with
    | none => exact h.rows
    | some currency =>
      refine Alone.bind (flushBeneficiary_alone h hb rfl) fun _ l₁ s₁ h₁ => ?_
      refine Alone.bind (resolveRecipient_alone hw h₁) fun a l₂ s₂ hr => ?_
      obtain ⟨rfl, h₂⟩ := hr
      refine Alone.bind (flushBeneficiary_alone h₂ (Function.update_self ..) rfl)
        fun _ l₃ s₃ h₃ => ?_
      rw [Function.update_idem] at h₃
      refine h₃.commit_bind fun l₄ s₄ h₄ => ?_
      intro c r l₅ s₅ hx
      have h₅ := h₄.reads rfl hx
      cases (exec_perform hx).2
      refine h₅.outcome (fun r _ he => .inr ?_) fun t x hx => .inl hx
      exact (resolve_saved hw).trans he

theorem deleteBeneficiary_alone {b : Beneficiary}
    (h : Sees w w.beneficiaries w.transactions l s) (hb : w.beneficiaries k = some b) :
    Alone (M := accounts S) i (fun _ _ s' => Outcome w s') (Fails w) (deleteBeneficiary k b)
      l s := by
  unfold deleteBeneficiary
  refine Alone.bind (flushBeneficiary_alone h hb rfl) fun _ l₁ s₁ h₁ => ?_
  intro c r l₂ s₂ hx
  have h₂ := h₁.commit hx
  cases (exec_perform hx).2
  exact h₂.outcome (fun r hactive _ => by cases hactive) fun t x hx => .inl hx

/-- A link that is there is kept, else it is whom the saved details resolve to. -/
theorem refreshRecipientLink_alone (hw : w.Regular) {b : Beneficiary} (h : Sees w f g l s)
    (hb : f k = some b) :
    Alone (M := accounts S) i
      (fun a l' s' => Sees w (update f k (some { b with recipientUserId := a })) g l' s' ∧
        (a = b.recipientUserId ∨ a = w.resolve b.email b.mobile b.senderId)) (Fails w)
      (refreshRecipientLink k b) l s := by
  unfold refreshRecipientLink
  split
  next r hr =>
    refine ⟨?_, .inl hr.symm⟩
    have hsame : { b with recipientUserId := some r } = b := by rw [← hr]
    rw [hsame, ← hb, Function.update_eq_self]
    exact h
  next hr =>
    refine Alone.bind (resolveRecipient_alone hw h) fun a l₁ s₁ hfound => ?_
    obtain ⟨rfl, h₁⟩ := hfound
    refine Alone.bind (flushBeneficiary_alone h₁ hb rfl) fun _ l₂ s₂ h₂ => ?_
    exact ⟨h₂, .inr rfl⟩

theorem createRemittance_alone (hw : w.Regular) {x : User}
    (h : Sees w w.beneficiaries w.transactions l s) :
    Alone (M := accounts S) i (fun _ _ s' => Outcome w s') (Fails w) (createRemittance u x k)
      l s := by
  unfold createRemittance
  split
  · exact h.rows
  · refine h.call_bind rfl fun _ l₁ s₁ h₁ => ?_
    refine h₁.getBeneficiary_bind fun a l₂ s₂ h₂ hown => ?_
    cases a with
    | none => exact h₂.rows
    | some b =>
      obtain ⟨hb, hsender, hactive⟩ := hown b rfl
      refine Alone.bind (refreshRecipientLink_alone hw h₂ hb) fun a l₃ s₃ hlink => ?_
      obtain ⟨h₃, hlink⟩ := hlink
      cases a with
      | none => exact h₃.rows
      | some recipient =>
        refine h₃.call_bind rfl fun _ l₄ s₄ h₄ => ?_
        intro c r l₅ s₅ hx
        cases (exec_perform hx).2
        have h₅ := h₄.book (x := ⟨u, k, recipient⟩)
        refine h₅.commit_bind fun l₆ s₆ h₆ => h₆.refresh_bind fun l₇ s₇ h₇ => ?_
        refine h₇.outcome (fun r _ he => ?_) fun t x hx => ?_
        · obtain hold | hfound := hlink
          · left
            rw [hb, hold]
          · exact .inr (hfound.symm.trans he)
        · by_cases ht : t = s₄.nextId
          · subst ht
            obtain rfl : (⟨u, k, recipient⟩ : Transaction) = x := by simpa using hx
            exact .inr ⟨rfl, hactive, hsender, rfl⟩
          · exact .inl (by simpa [update, ht] using hx)

/-! ## §5. Every request. -/

/-- The requests that write accounts. -/
def Entry.isAccount : Entry → Bool
  | .register _ | .seed _ | .profileUpdate _ _ => true
  | _ => false

theorem asUser_alone {act : User → Program Reply} (h : Sees w f g l s)
    (hact : ∀ x l' s', Sees w f g l' s' →
      Alone (M := accounts S) i (fun _ _ s'' => Outcome w s'') (Fails w) (act x) l' s') :
    Alone (M := accounts S) i (fun _ _ s' => Outcome w s') (Fails w) (asUser u act) l s := by
  unfold asUser
  refine h.call_bind rfl fun a l' s' h' => ?_
  cases a with
  | none => exact h'.rows.outcome
  | some x => exact hact x l' s' h'

theorem orForm_alone {saving : Program Reply}
    (h : Alone (M := accounts S) i (fun _ _ s' => Outcome w s') (Fails w) saving l s) :
    Alone (M := accounts S) i (fun _ _ s' => Outcome w s') (Fails w) (orForm saving) l s := by
  unfold orForm
  refine Alone.attempt_bind h (fun _ _ _ hout => hout) fun e l' s' hfail => ?_
  have hrows : SameRows w s' := hfail
  cases e with
  | valueError text => exact hrows.outcome
  | _ => exact hrows

theorem route_alone (hw : w.Regular) {e : Entry} (he : e.isAccount = false)
    (h : Sees w w.beneficiaries w.transactions l s) :
    Alone (M := accounts S) i (fun _ _ s' => Outcome w s') (Fails w) (route S e) l s := by
  cases e with
  | register form => cases he
  | seed settings => cases he
  | profileUpdate u form => cases he
  | create u form =>
    refine asUser_alone h fun _ l₁ s₁ h₁ => orForm_alone ?_
    exact Alone.bind (createBeneficiary_alone hw h₁) fun _ _ _ hout => hout
  | editSave u k form =>
    refine asUser_alone h fun _ l₁ s₁ h₁ => h₁.getBeneficiary_bind fun a l₂ s₂ h₂ hown => ?_
    cases a with
    | none => exact h₂.rows.outcome
    | some b =>
      refine orForm_alone ?_
      exact Alone.bind (updateBeneficiary_alone hw h₂ (hown b rfl).1) fun _ _ _ hout => hout
  | delete u k =>
    refine asUser_alone h fun _ l₁ s₁ h₁ => h₁.getBeneficiary_bind fun a l₂ s₂ h₂ hown => ?_
    cases a with
    | none => exact h₂.rows.outcome
    | some b => exact Alone.bind (deleteBeneficiary_alone h₂ (hown b rfl).1) fun _ _ _ hout => hout
  | send u k =>
    refine asUser_alone h fun x l₁ s₁ h₁ => ?_
    split
    · exact h₁.rows.outcome
    · refine Alone.attempt_bind (createRemittance_alone hw h₁) (fun _ _ _ hout => hout)
        fun e l₂ s₂ hfail => ?_
      have hrows : SameRows w s₂ := hfail
      cases e with
      | remittance text => exact hrows.outcome
      | noQuote text => exact hrows.outcome
      | _ => exact hrows

theorem respond_alone {reply : Reply} (h : Outcome w s) :
    Alone (M := accounts S) i (fun _ _ s' => Outcome w s') (fun _ _ s' => Outcome w s')
      (call (.respond reply)) l s := by
  intro c r l' s' hx
  have hp := (exec_perform hx).2
  cases hp
  exact h

/-- **A REQUEST THAT WRITES NO ACCOUNT**, when nothing else runs. -/
theorem outcome_completes {e : Entry} (hw : w.Regular) (he : e.isAccount = false)
    (h : Completes (accounts S) e w w') : Outcome w w' := by
  refine h.post ?_ fun w₁ hout => hout.rows ⟨rfl, rfl, rfl⟩
  have hstart : Sees w w.beneficiaries w.transactions (Session.start e)
      { w with nextTid := w.nextTid + 1 } := Sees.start e ⟨rfl, rfl, rfl⟩ (Nat.le_refl _)
  show Alone (M := accounts S) _ _ _ (body S e) _ _
  unfold body
  refine Alone.attempt_bind (route_alone hw he hstart) (fun reply l' s' hout => respond_alone hout)
    fun e l' s' hfail => respond_alone ?_
  have hrows : SameRows w s' := hfail
  exact hrows.outcome

/-- Nothing but accounts is written. -/
def OnlyAccounts (w : World) (l : Session) (s : World) : Prop :=
  s.beneficiaries = w.beneficiaries ∧ ∀ k, l.beneficiaryWrites k = none

theorem onlyAccounts_exec {r : Except Exn o.Res} (ho : Accounting o) (h : OnlyAccounts w l s)
    (hx : exec S i o c l s = some (r, l', s')) : OnlyAccounts w l' s' := by
  obtain ⟨hb, hnone⟩ := h
  cases exec_effect hx with
  | quiet hrows hlocks hl =>
    obtain rfl | rfl := hl
    · exact ⟨hrows.beneficiaries.trans hb, hnone⟩
    · exact ⟨hrows.beneficiaries.trans hb, hnone⟩
  | insertUser hrows => exact ⟨hrows.beneficiaries.trans hb, hnone⟩
  | updateUser hrows => exact ⟨hrows.beneficiaries.trans hb, hnone⟩
  | insertBeneficiary => cases ho.2
  | updateBeneficiary => cases ho.2
  | insertTransaction => cases ho.2
  | commit =>
    refine ⟨?_, fun _ => rfl⟩
    funext k
    show (l.beneficiaryWrites k).or (s.beneficiaries k) = w.beneficiaries k
    rw [hnone, Option.none_or, hb]
  | rollback => exact ⟨hb, fun _ => rfl⟩

theorem accounts_complete {e : Entry} (he : e.isAccount = true)
    (h : Completes (accounts S) e w w') : w'.beneficiaries = w.beneficiaries := by
  have huses : Prog.Uses Accounting (route S e) := by
    cases e with
    | register form => exact uses_register
    | seed settings => exact uses_seedAdmin
    | profileUpdate u form => exact uses_profileUpdate
    | _ => cases he
  refine h.post (R := fun (s : World) => s.beneficiaries = w.beneficiaries) ?_ fun w₁ hb => hb
  have halone := Alone.of_uses (M := accounts S) (i := w.nextTid) (F := Accounting)
    (A := OnlyAccounts w) (fun o c l s r l' s' ho hl hx => onlyAccounts_exec ho hl hx)
    (uses_body huses fun _ => ⟨trivial, rfl⟩)
    (l := Session.start e) (w := { w with nextTid := w.nextTid + 1 }) ⟨rfl, fun _ => rfl⟩
  exact halone.mono (fun _ _ _ h => h.1) fun _ _ _ h => h.1

/-! ## §6. Histories. -/

/-- Requests one after another, whatever they are. -/
abbrev History (S : Setting) : World → World → Prop :=
  Serial (M := accounts S) fun _ _ _ => True

theorem serial_regular {ok : Entry → World → World → Prop}
    (h : Serial (M := accounts S) ok World.initial w) : w.Regular := by
  obtain ⟨c, hc, rfl, -⟩ := h.reach
  exact ((accounts_kept S).reach regular_initial hc).world

/-- A move of the environment changes no contact detail. -/
theorem env_contacts {v : Env} (h : World.env v w = some w') :
    SameContacts w w' ∧ w'.beneficiaries = w.beneficiaries := by
  cases v with
  | submit u =>
    cases h
    exact ⟨fun _ => rfl, rfl⟩
  | review u approved =>
    obtain ⟨x, hx, -, rfl⟩ := review_moves h
    refine ⟨fun v => ?_, rfl⟩
    show (update w.users u _ v).map User.contact = _
    by_cases hv : v = u
    · subst hv
      rw [Function.update_self, hx]
      rfl
    · rw [Function.update_of_ne hv]

/-- The request that made beneficiary `k` the row `b`, and linked it to whom `_resolve_recipient`
found for the details of `b`. -/
structure LinksTo (k : Nat) (b : Beneficiary) (r : Nat) (p : Passage (accounts S)) : Prop where
  changed : p.before.beneficiaries k ≠ some b
  saved : p.after.beneficiaries k = some b
  found : p.after.resolve b.email b.mobile b.senderId = some r

/-- A registration, a seeding or a profile edit that changes whom `_resolve_recipient` finds for
the details of `b`. -/
structure Disturbs (b : Beneficiary) (p : Passage (accounts S)) : Prop where
  account : ∃ e, p.entry = some e ∧ e.isAccount = true
  changed : p.after.resolve b.email b.mobile b.senderId
    ≠ p.before.resolve b.email b.mobile b.senderId

/-- The passage that linked the row `b` of beneficiary `k` to `r`, the row since then, and whom
`_resolve_recipient` finds for it in the end. -/
def LinkStory (k : Nat) (b : Beneficiary) (r : Nat) (ps : List (Passage (accounts S)))
    (w : World) : Prop :=
  ∃ before p after, ps = before ++ p :: after ∧ LinksTo k b r p ∧
    (∀ q ∈ after, q.after.beneficiaries k = some b) ∧
    (w.resolve b.email b.mobile b.senderId = some r ∨ ∃ q ∈ after, Disturbs b q)

/-- A passage that leaves the row as it is. -/
theorem LinkStory.later {b : Beneficiary} {ps : List (Passage (accounts S))} {entry : Option Entry}
    (h : LinkStory k b r ps w) (hb : w'.beneficiaries k = some b)
    (hresolve : w'.resolve b.email b.mobile b.senderId = w.resolve b.email b.mobile b.senderId ∨
      ∃ e, entry = some e ∧ e.isAccount = true) :
    LinkStory k b r (ps ++ [⟨entry, w, w'⟩]) w' := by
  obtain ⟨before, p, after, rfl, hlinks, hsince, hend⟩ := h
  refine ⟨before, p, after ++ [⟨entry, w, w'⟩], by simp, hlinks, fun q hq => ?_, ?_⟩
  · rcases List.mem_append.mp hq with hq | hq
    · exact hsince q hq
    · obtain rfl := List.mem_singleton.mp hq
      exact hb
  · rcases hend with hfound | ⟨q, hq, hdisturbs⟩
    · by_cases hsame : w'.resolve b.email b.mobile b.senderId
          = w.resolve b.email b.mobile b.senderId
      · exact .inl (hsame.trans hfound)
      · exact .inr ⟨_, List.mem_append_right _ (List.mem_singleton.mpr rfl),
          hresolve.resolve_left hsame, hsame⟩
    · exact .inr ⟨q, List.mem_append_left _ hq, hdisturbs⟩

/-- **A LINK WAS MATCHED**: at one passage of the story the saved details resolved to it, and they
do in the end unless an account has changed that since. -/
theorem matched_story {ps : List (Passage (accounts S))} (h : Story World.initial ps w) :
    ∀ k b r, w.beneficiaries k = some b → b.isActive = true → b.recipientUserId = some r →
      LinkStory k b r ps w := by
  induction h with
  | initial =>
    intro k b r hb
    cases hb
  | @run ps e w w' hstory hrun ih =>
    intro k b r hb hactive hr
    have hw := serial_regular hstory.serial
    have hw' := serial_regular (hstory.serial.run hrun trivial)
    cases he : e.isAccount with
    | true =>
      rw [accounts_complete he hrun] at hb
      exact (ih k b r hb hactive hr).later (by rw [accounts_complete he hrun, hb])
        (.inr ⟨e, rfl, he⟩)
    | false =>
      have hout := outcome_completes hw he hrun
      have hsame : SameContacts w w' := fun v => by rw [hout.users]
      have hresolve : w'.resolve b.email b.mobile b.senderId
          = w.resolve b.email b.mobile b.senderId := resolve_congr hw hw' hsame
      by_cases hold : w.beneficiaries k = some b
      · exact (ih k b r hold hactive hr).later hb (.inl hresolve)
      · have hfound := (hout.links k b r hb hactive hr).resolve_left hold
        rw [← hresolve] at hfound
        exact ⟨ps, _, [], rfl, ⟨hold, hb, hfound⟩, nofun, .inl hfound⟩
  | @env ps v w w' hstory hv ih =>
    intro k b r hb hactive hr
    have hw := serial_regular hstory.serial
    have hw' := serial_regular (hstory.serial.env hv)
    obtain ⟨hsame, hbens⟩ := env_contacts hv
    have hold : w.beneficiaries k = some b := by rw [← hbens]; exact hb
    exact (ih k b r hold hactive hr).later hb (.inl (resolve_congr hw hw' hsame))

end Orbyt.Directory
