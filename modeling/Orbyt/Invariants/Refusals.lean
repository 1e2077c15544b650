/-
  Orbyt.Invariants.Refusals — how registrations and profile edits end

  What such a request has done to the users is followed as a phase: nothing yet, a profile in
  hand, a row written, a row committed.  A request is answered only from a phase that fits the
  answer.  All this is under three conditions on the run: a profile is edited by one request at
  a time, every new account finds its email and mobile number free, and no text is one that its
  column cannot hold.  Where one of the last two fails an exception escapes that nobody expects.

  Main results:
    * `body_conduct`      — every request goes through the phases;
    * `documented_reach`  — in every reachable state whoever is answered is answered as
      documented.
-/
import Orbyt.Invariants.Accounts
import Orbyt.Lib.Typestate

namespace Orbyt.Directory

open Interleave
open PyText
open Function (update)

variable {S : Setting} {i u v : Nat} {o : Op} {c : Choice} {l l' : Session} {s s' : World}
  {e : Entry} {x y row : User} {col : Column}

/-! ## §1. The phases of a request. -/

/-- The same contact details. -/
def User.Alike (x y : User) : Prop := ∀ col, x.get col = y.get col

inductive Phase where
  /-- Of a request that is neither a registration nor the edit of a profile. -/
  | free
  /-- No row is written. -/
  | clean
  /-- The profile of `u` is in hand, and it was `x`. -/
  | loaded (u : Nat) (x : User)
  /-- The row of `u` is written in the open transaction. -/
  | pending (u : Nat) (row : User)
  /-- The database has refused the row. -/
  | failed
  | settled (u : Nat) (row : User)
  | never

/-- What may be answered. -/
def Phase.Answers : Entry → Phase → Reply → Prop
  | .register _, .clean, reply => ∃ errors, reply = .page 400 errors
  | .register form, .settled _ row, reply =>
      reply = welcome ∧ row.email = normal form.email ∧ row.mobile = strip form.mobile
  | .profileUpdate _ _, .clean, reply =>
      reply = .redirect "/login" none ∨ ∃ errors, reply = .page 400 errors
  | .profileUpdate v form, .loaded u x, reply => (∃ errors, reply = .page 400 errors) ∨
      (∃ changed, reply = profileSaved changed) ∧
        v = u ∧ x.email = normal form.email ∧ x.mobile = strip form.mobile
  | .profileUpdate v form, .settled u row, reply => (∃ changed, reply = profileSaved changed) ∧
      v = u ∧ row.email = normal form.email ∧ row.mobile = strip form.mobile
  | _, _, _ => False

def Entry.edits : Entry → Bool
  | .profileUpdate _ _ => true
  | _ => false

def Phase.Allows (e : Entry) : Phase → Op → Prop
  | .free, _ | .never, _ => True
  | .clean, .userBy _ _ _ | .clean, .taken _ _ _ | .clean, .activeKyc _ | .clean, .refresh => True
  | .clean, .loadUser _ => e.edits = true
  | .clean, .insertUser _ => e.edits = false
  | .loaded _ _, .taken _ _ _ | .loaded _ _, .activeKyc _ => True
  | .loaded u x, .updateUser v values => v = u ∧ ∀ y, y.Alike x → (values y).Alike (values x)
  | .pending _ _, .commit | .failed, .rollback | .settled _ _, .refresh => True
  | phase, .respond reply => phase.Answers e reply
  | _, _ => False

def Phase.next : Phase → (o : Op) → Except Exn o.Res → Phase
  | .free, _, _ => .free
  | .clean, .loadUser u, .ok (some x) => .loaded u x
  | .clean, .insertUser row, .ok u => .pending u row
  | .loaded u x, .updateUser _ values, .ok _ => .pending u (values x)
  | .loaded _ _, .updateUser _ _, .error .integrityError => .failed
  | .pending u row, .commit, .ok _ => .settled u row
  | .failed, .rollback, .ok _ => .clean
  | phase, _, .ok _ => phase
  | _, _, .error _ => .never

structure Conduct where
  entry : Entry
  phase : Phase

@[reducible] def conduct : Typestate calls Exn where
  State := Conduct
  allows := fun q o => q.phase.Allows q.entry o
  next := fun q o r => ⟨q.entry, q.phase.next o r⟩

def Entry.phase : Entry → Phase
  | .register _ | .profileUpdate _ _ => .clean
  | _ => .free

def Entry.conduct (e : Entry) : Conduct := ⟨e, e.phase⟩

/-! ## §2. What a phase means. -/

/-- The profile of `u` is in the hands of `i`, and looks like `x`. -/
def World.Has (s : World) (i u : Nat) (x : User) : Prop :=
  s.editing u = some i ∧ ∃ y, s.users u = some y ∧ y.Alike x

def Phase.Means (e : Entry) (i : Nat) (l : Session) (s : World) : Phase → Prop
  | .free => e.phase = .free
  | .clean => (∀ v, l.userWrites v = none) ∧ ∀ v, l.written v = none
  | .loaded u x => (∀ v, l.userWrites v = none) ∧ (∀ v, l.written v = none) ∧ s.Has i u x
  | .pending u row => (∀ v, l.written v = none) ∧ (∃ z, l.userWrites u = some z ∧ z.Alike row) ∧
      (e.edits = true → s.editing u = some i)
  | .failed => ∀ v, l.written v = none
  | .settled u row => (∃ z, l.written u = some z ∧ z.Alike row) ∧ (e.edits = true → s.Has i u row)
  | .never => False

def Conduct.Means (i : Nat) (q : Conduct) (l : Session) (s : World) : Prop :=
  l.entry = q.entry ∧ q.phase.Means q.entry i l s

theorem World.Has.moves (ha : S.apart = true) (h : s.Has i u x) (hm : s.Moves S i s') :
    s'.Has i u x := by
  obtain ⟨hediting, y, hy, hlike⟩ := h
  obtain ⟨hediting', hrow⟩ := hm.editing ha u hediting
  obtain ⟨y', hy', hget⟩ := hrow y hy
  exact ⟨hediting', y', hy', fun col => (hget col).trans (hlike col)⟩

/-- **WHAT A PHASE MEANS STAYS SO**, whatever the others do. -/
theorem Phase.Means.moves {phase : Phase} (ha : S.apart = true) (h : phase.Means e i l s)
    (hm : s.Moves S i s') : phase.Means e i l s' := by
  cases phase with
  | loaded u x => exact ⟨h.1, h.2.1, h.2.2.moves ha hm⟩
  | pending u row => exact ⟨h.1, h.2.1, fun he => (hm.editing ha u (h.2.2 he)).1⟩
  | settled u row => exact ⟨h.1, fun he => (h.2 he).moves ha hm⟩
  | _ => exact h

/-! ## §3. A call. -/

theorem exec_entry {r : Except Exn o.Res} (h : exec S i o c l s = some (r, l', s')) :
    l'.entry = l.entry := by
  cases exec_effect h with
  | quiet hrows hlocks hl =>
    obtain rfl | rfl := hl
    · rfl
    · rfl
  | _ => rfl

/-- Where every text fits its column a lookup is answered. -/
theorem lookup_fits {α : Type} {answer : α} {value : Text} {r : Except Exn α}
    (hfit : S.fitting = true) (h : lookup S value l s answer = some (r, l', s')) :
    r = .ok answer ∧ l' = l ∧ s' = s := by
  obtain ⟨-, hnot, -⟩ | hok := lookup_spec h
  · rw [hfit] at hnot
    cases hnot
  · exact hok

/-- The profile of a user is taken in hand. -/
theorem loadUser_conduct {r : Except Exn (Option User)} (he : l.entry.edits = true)
    (hclean : Phase.clean.Means e i l s)
    (hp : perform S i l s c (.loadUser u) = some (r, l', s')) :
    (Phase.clean.next (.loadUser u) r).Means e i l' s' := by
  obtain ⟨hidle, hwritten⟩ := hclean
  simp only [perform] at hp
  split at hp
  next =>
    split at hp
    · cases hp
    · cases hp
      cases hx : l.user s u with
      | none => exact ⟨hidle, hwritten⟩
      | some x =>
        rw [Session.user, hidle u, Option.none_or] at hx
        exact ⟨hidle, hwritten, Function.update_self .., x, hx, fun _ => rfl⟩
  next hnot =>
    cases hentry : l.entry with
    | profileUpdate v form => exact absurd hentry (hnot v form)
    | _ =>
      rw [hentry] at he
      cases he

/-- A new account is written, where its email and mobile number are free. -/
theorem insertUser_conduct {r : Except Exn Nat} (hun : S.uncontested = true)
    (hfit : S.fitting = true) (he : e.edits = false) (hclean : Phase.clean.Means e i l s)
    (hp : perform S i l s c (.insertUser row) = some (r, l', s')) :
    (Phase.clean.next (.insertUser row) r).Means e i l' s' := by
  obtain ⟨-, hnot, -⟩ | ⟨-, hnot, -⟩ | ⟨rfl, rfl, -⟩ := writeUser_spec hp
  · rw [hfit] at hnot
    cases hnot
  · rw [hun] at hnot
    cases hnot
  · refine ⟨hclean.2, ⟨row, Function.update_self .., fun _ => rfl⟩, fun hedits => ?_⟩
    rw [he] at hedits
    cases hedits

/-- The row of a profile in hand is written, or refused. -/
theorem updateUser_conduct {r : Except Exn Unit} {values : User → User} (ha : S.apart = true)
    (hfit : S.fitting = true) (hvalues : ∀ y, y.Alike x → (values y).Alike (values x))
    (hloaded : (Phase.loaded u x).Means e i l s)
    (hp : perform S i l s c (.updateUser u values) = some (r, l', s')) :
    ((Phase.loaded u x).next (.updateUser u values) r).Means e i l' s' := by
  obtain ⟨hidle, hwritten, hediting, y, hy, hlike⟩ := hloaded
  have hview : l.user s u = some y := by rw [Session.user, hidle u, Option.none_or, hy]
  simp only [perform, hview] at hp
  split at hp
  · cases hp
  · obtain ⟨-, hnot, -⟩ | ⟨rfl, -, rfl, rfl⟩ | ⟨rfl, rfl, -, hlocks, -⟩ := writeUser_spec hp
    · rw [hfit] at hnot
      cases hnot
    · exact hwritten
    · exact ⟨hwritten, ⟨values y, Function.update_self .., hvalues y hlike⟩,
        fun _ => hlocks.editing ha u i hediting⟩

/-- The written row is committed. -/
theorem commit_conduct {r : Except Exn Unit} (hpending : (Phase.pending u row).Means e i l s)
    (hp : perform S i l s c .commit = some (r, l', s')) :
    ((Phase.pending u row).next .commit r).Means e i l' s' := by
  obtain ⟨-, ⟨z, hz, hlike⟩, hediting⟩ := hpending
  cases hp
  refine ⟨⟨z, ?_, hlike⟩, fun he => ⟨hediting he, z, ?_, hlike⟩⟩
  · show (l.userWrites u).or (l.written u) = some z
    rw [hz, Option.some_or]
  · show (l.userWrites u).or (s.users u) = some z
    rw [hz, Option.some_or]

/-- **EVERY ALLOWED CALL** leads to the next phase. -/
theorem exec_conduct {q : Conduct} {r : Except Exn o.Res} (ha : S.apart = true)
    (hun : S.uncontested = true) (hfit : S.fitting = true) (hm : q.Means i l s)
    (hallow : q.phase.Allows q.entry o) (h : exec S i o c l s = some (r, l', s')) :
    Conduct.Means i ⟨q.entry, q.phase.next o r⟩ l' s' := by
  obtain ⟨e, phase⟩ := q
  obtain ⟨hentry, hphase⟩ := hm
  refine ⟨(exec_entry h).trans hentry, ?_⟩
  dsimp only at hentry hphase hallow ⊢
  have hp := (exec_perform h).2
  -- by what the session has done so far, and then by what it may do next
  cases phase with
  | never => exact hphase.elim
  | free => exact hphase
  | clean =>
    cases o with
    | userBy col value notAdmin =>
      obtain ⟨rfl, rfl, rfl⟩ := lookup_fits hfit hp
      exact hphase
    | taken col value u =>
      obtain ⟨rfl, rfl, rfl⟩ := lookup_fits hfit hp
      exact hphase
    | activeKyc u =>
      cases hp
      exact hphase
    | refresh =>
      cases hp
      exact hphase
    | respond reply =>
      cases hp
      exact hphase
    | loadUser u => exact loadUser_conduct (hentry ▸ hallow) hphase hp
    | insertUser row => exact insertUser_conduct hun hfit hallow hphase hp
    | _ => exact hallow.elim
  -- a row is loaded: it is written once, with the values of the form
  | loaded u x =>
    cases o with
    | taken col value u =>
      obtain ⟨rfl, rfl, rfl⟩ := lookup_fits hfit hp
      exact hphase
    | activeKyc u =>
      cases hp
      exact hphase
    | respond reply =>
      cases hp
      exact hphase
    | updateUser v values =>
      obtain ⟨rfl, hvalues⟩ := hallow
      exact updateUser_conduct ha hfit hvalues hphase hp
    | _ => exact hallow.elim
  -- a row is flushed: nothing but COMMIT may follow
  | pending u row =>
    cases o with
    | commit => exact commit_conduct hphase hp
    | respond reply => cases e <;> exact hallow.elim
    | _ => exact hallow.elim
  -- the flush was refused: nothing but ROLLBACK may follow
  | failed =>
    cases o with
    | rollback =>
      cases hp
      exact ⟨fun _ => rfl, hphase⟩
    | respond reply => cases e <;> exact hallow.elim
    | _ => exact hallow.elim
  | settled u row =>
    cases o with
    | refresh =>
      cases hp
      exact hphase
    | respond reply =>
      cases hp
      exact hphase
    | _ => exact hallow.elim

/-! ## §4. Every request follows. -/

/-- What never happens may go on as it likes. -/
theorem follows_never {α : Type} {Q : α → Conduct → Prop} {E : Exn → Conduct → Prop}
    (hQ : ∀ a, Q a ⟨e, .never⟩) (hE : ∀ exc, E exc ⟨e, .never⟩) (p : Program α) :
    Follows conduct Q E p ⟨e, .never⟩ := by
  induction p with
  | ret a => exact hQ a
  | raise exc => exact hE exc
  | op o f ih =>
    refine ⟨trivial, fun r => ?_⟩
    have hnever : Phase.never.next o r = .never := by cases r <;> cases o <;> rfl
    show Follows conduct _ _ (f r) ⟨e, Phase.never.next o r⟩
    rw [hnever]
    exact ih r

theorem follows_free {α : Type} (p : Program α) : FollowsEnd conduct p ⟨e, .free⟩ := by
  induction p with
  | ret a => trivial
  | raise exc => trivial
  | op o f ih => exact ⟨trivial, fun r => ih r⟩

/-- What is raised where nothing is written. -/
def RaisedClean (p : Exn → Prop) (e : Entry) (exc : Exn) (q : Conduct) : Prop :=
  q = ⟨e, .never⟩ ∨ (p exc ∧ q = ⟨e, .clean⟩)

def Exn.isValueError (exc : Exn) : Prop := ∃ text, exc = .valueError text

/-- A reply that may be given from where the request has come to. -/
def Fits (reply : Reply) (q : Conduct) : Prop := q.phase.Allows q.entry (.respond reply)

theorem createUser_follows {form : RegisterForm} :
    Follows conduct (fun _ q => Fits welcome q)
      (RaisedClean Exn.isValueError (.register form))
      (createUser S form.fullName form.email form.mobile form.password false)
      ⟨.register form, .clean⟩ := by
  unfold createUser
  refine Follows.call_bind (A := conduct) trivial (fun a => ?_) fun _ => .inl rfl
  cases a with
  | some _ => exact .inr ⟨⟨_, rfl⟩, rfl⟩
  | none =>
    refine Follows.call_bind (A := conduct) trivial (fun a => ?_) fun _ => .inl rfl
    cases a with
    | some _ => exact .inr ⟨⟨_, rfl⟩, rfl⟩
    | none =>
      unfold saveUser
      cases S.hashRefusal form.password with
      | some text => exact .inr ⟨⟨_, rfl⟩, rfl⟩
      | none =>
        refine Follows.call_bind (A := conduct) rfl (fun u => ?_) fun _ => .inl rfl
        refine Follows.call_bind (A := conduct) trivial (fun _ => ?_) fun _ => .inl rfl
        refine Follows.call_bind (A := conduct) trivial (fun _ => ?_) fun _ => .inl rfl
        exact ⟨rfl, rfl, rfl⟩

theorem register_follows {form : RegisterForm} :
    Follows conduct Fits (fun _ q => q = ⟨.register form, .never⟩) (register S form)
      ⟨.register form, .clean⟩ := by
  unfold register
  split
  · refine Follows.attempt_bind createUser_follows (fun _ q hq => hq) fun exc q hq => ?_
    obtain rfl | ⟨⟨text, rfl⟩, rfl⟩ := hq
    · exact follows_never (Q := Fits) (E := fun _ q => q = ⟨.register form, .never⟩)
        (fun _ => trivial) (fun _ => rfl) _
    · exact ⟨[text], rfl⟩
  · exact ⟨_, rfl⟩

/-- What `update_profile` raises, with the profile in hand or given up. -/
def RaisedProfile (e : Entry) (u : Nat) (x : User) (exc : Exn) (q : Conduct) : Prop :=
  q = ⟨e, .never⟩ ∨
    ((∃ text, exc = .profileError text) ∧ (q = ⟨e, .loaded u x⟩ ∨ q = ⟨e, .clean⟩))

theorem nameIsEditable_follows {E : Exn → Conduct → Prop} {phase : Phase}
    (hphase : phase = .loaded u x ∨ phase = .clean) (hE : ∀ exc, E exc ⟨e, .never⟩) :
    Follows conduct (fun _ q => q = ⟨e, phase⟩) E (nameIsEditable v y) ⟨e, phase⟩ := by
  unfold nameIsEditable
  split
  · exact (rfl : (⟨e, phase⟩ : Conduct) = ⟨e, phase⟩)
  · obtain rfl | rfl := hphase
    · exact Follows.call_bind (A := conduct) trivial (fun _ => rfl) fun exc => hE exc
    · exact Follows.call_bind (A := conduct) trivial (fun _ => rfl) fun exc => hE exc

theorem newName_follows {fullName : Option Text} :
    Follows conduct (fun _ q => q = ⟨e, .loaded u x⟩) (RaisedProfile e u x) (newName u x fullName)
      ⟨e, .loaded u x⟩ := by
  have hraised : ∀ text, RaisedProfile e u x (.profileError text) ⟨e, .loaded u x⟩ :=
    fun text => .inr ⟨⟨text, rfl⟩, .inl rfl⟩
  unfold newName
  split
  · exact (rfl : (⟨e, .loaded u x⟩ : Conduct) = ⟨e, .loaded u x⟩)
  · split
    · exact (rfl : (⟨e, .loaded u x⟩ : Conduct) = ⟨e, .loaded u x⟩)
    · refine Follows.bind (nameIsEditable_follows (.inl rfl) fun _ => .inl rfl) fun a q hq => ?_
      subst hq
      split
      · exact hraised _
      · split
        · exact hraised _
        · exact (rfl : (⟨e, .loaded u x⟩ : Conduct) = ⟨e, .loaded u x⟩)

theorem checkTaken_follows {value text : Text} :
    Follows conduct (fun _ q => q = ⟨e, .loaded u x⟩) (RaisedProfile e u x)
      (checkTaken u x col value text) ⟨e, .loaded u x⟩ := by
  unfold checkTaken
  split
  · exact (rfl : (⟨e, .loaded u x⟩ : Conduct) = ⟨e, .loaded u x⟩)
  · refine Follows.call_bind (A := conduct) trivial (fun a => ?_) fun _ => .inl rfl
    split
    · exact .inr ⟨⟨text, rfl⟩, .inl rfl⟩
    · exact (rfl : (⟨e, .loaded u x⟩ : Conduct) = ⟨e, .loaded u x⟩)

/-- The UPDATE changes what the form changes, on any row that looks like the loaded one. -/
theorem editedUser_alike {email mobile name : Text} (h : y.Alike x) :
    (editedUser x email mobile name y).Alike (editedUser x email mobile name x) := by
  intro col
  cases col with
  | email =>
    have hemail : y.email = x.email := h .email
    show assigned x.email email y.email = assigned x.email email x.email
    rw [hemail]
  | mobile =>
    have hmobile : y.mobile = x.mobile := h .mobile
    show assigned x.mobile mobile y.mobile = assigned x.mobile mobile x.mobile
    rw [hmobile]

theorem saveProfile_follows {form : ProfileForm} {name : Text} :
    Follows conduct (fun changed q => Fits (profileSaved changed) q)
      (RaisedProfile (.profileUpdate u form) u x)
      (saveProfile u x (normal form.email) (strip form.mobile) name)
      ⟨.profileUpdate u form, .loaded u x⟩ := by
  unfold saveProfile
  refine Follows.attempt_bind (A := conduct)
    (R := fun _ q => q = ⟨.profileUpdate u form,
      .settled u (editedUser x (normal form.email) (strip form.mobile) name x)⟩)
    (X := fun exc q => q = ⟨.profileUpdate u form, .never⟩ ∨
      (exc = .integrityError ∧ q = ⟨.profileUpdate u form, .failed⟩)) ?_ ?_ ?_
  · refine Follows.call_bind (A := conduct) ⟨rfl, fun y hy => editedUser_alike hy⟩ (fun _ => ?_)
      fun exc => ?_
    · refine ⟨trivial, fun r => ?_⟩
      cases r with
      | ok a => exact (rfl : (_ : Conduct) = _)
      | error exc => exact .inl rfl
    · cases exc with
      | integrityError => exact .inr ⟨rfl, rfl⟩
      | _ => exact .inl rfl
  · rintro a q rfl
    refine ⟨⟨true, rfl⟩, rfl, ?_, ?_⟩
    · exact assigned_self x.email (normal form.email)
    · exact assigned_self x.mobile (strip form.mobile)
  · intro exc q hq
    obtain rfl | ⟨rfl, rfl⟩ := hq
    · exact follows_never (fun _ => trivial) (fun _ => .inl rfl) _
    · refine Follows.call_bind (A := conduct) trivial (fun _ => ?_) fun _ => .inl rfl
      refine Follows.call_bind (A := conduct) trivial (fun _ => ?_) fun _ => .inl rfl
      exact .inr ⟨⟨_, rfl⟩, .inr rfl⟩

theorem updateProfile_follows {form : ProfileForm} :
    Follows conduct (fun changed q => Fits (profileSaved changed) q)
      (RaisedProfile (.profileUpdate u form) u x)
      (updateProfile u x form.email form.mobile form.fullName)
      ⟨.profileUpdate u form, .loaded u x⟩ := by
  unfold updateProfile
  split
  · exact .inr ⟨⟨_, rfl⟩, .inl rfl⟩
  · split
    · exact .inr ⟨⟨_, rfl⟩, .inl rfl⟩
    · unfold saveChanges
      refine Follows.bind newName_follows fun name q hq => ?_
      subst hq
      refine Follows.bind checkTaken_follows fun _ q hq => ?_
      subst hq
      refine Follows.bind checkTaken_follows fun _ q hq => ?_
      subst hq
      split
      next hsame =>
        obtain ⟨hemail, hmobile, -⟩ := hsame
        exact .inr ⟨⟨false, rfl⟩, rfl, hemail.symm, hmobile.symm⟩
      next => exact saveProfile_follows

theorem profileUpdate_follows {form : ProfileForm} :
    Follows conduct Fits (fun _ q => q = ⟨.profileUpdate u form, .never⟩) (profileUpdate u form)
      ⟨.profileUpdate u form, .clean⟩ := by
  unfold profileUpdate
  refine Follows.call_bind (A := conduct) rfl (fun a => ?_) fun _ => rfl
  cases a with
  | none => exact .inl rfl
  | some x =>
    refine Follows.attempt_bind updateProfile_follows (fun _ q hq => hq) fun exc q hq => ?_
    obtain rfl | ⟨⟨text, rfl⟩, hphase⟩ := hq
    · exact follows_never (Q := Fits) (E := fun _ q => q = ⟨.profileUpdate u form, .never⟩)
        (fun _ => trivial) (fun _ => rfl) _
    · obtain rfl | rfl := hphase
      · refine Follows.bind (nameIsEditable_follows (.inl rfl) fun _ => rfl) fun _ q hq => ?_
        subst hq
        exact .inl ⟨[text], rfl⟩
      · refine Follows.bind (nameIsEditable_follows (x := x) (u := u) (.inr rfl) fun _ => rfl)
          fun _ q hq => ?_
        subst hq
        exact .inr ⟨[text], rfl⟩

theorem body_conduct (e : Entry) : FollowsEnd conduct (body S e) e.conduct := by
  have hrespond : ∀ reply q, Fits reply q → FollowsEnd conduct (call (.respond reply)) q :=
    fun reply q hfits => ⟨hfits, fun r => by cases r <;> trivial⟩
  unfold body
  cases e with
  | register form =>
    refine Follows.attempt_bind register_follows (fun reply q hq => hrespond reply q hq)
      fun exc q hq => ?_
    subst hq
    exact follows_never (fun _ => trivial) (fun _ => trivial) _
  | profileUpdate u form =>
    refine Follows.attempt_bind profileUpdate_follows (fun reply q hq => hrespond reply q hq)
      fun exc q hq => ?_
    subst hq
    exact follows_never (fun _ => trivial) (fun _ => trivial) _
  | _ => exact follows_free _

/-! ## §5. Every reachable state. -/

theorem conduct_sound (ha : S.apart = true) (hun : S.uncontested = true) (hfit : S.fitting = true) :
    Typestate.Sound (M := accounts S) conduct (accountsDiscipline S) Entry.conduct (fun _ => True)
      Conduct.Means where
  body := body_conduct
  spawn := by
    intro e s _ _
    refine ⟨trivial, rfl, ?_⟩
    cases e with
    | register form => exact ⟨fun _ => rfl, fun _ => rfl⟩
    | profileUpdate u form => exact ⟨fun _ => rfl, fun _ => rfl⟩
    | _ => rfl
  call := by
    intro i q o c l s r l' s' _ _ _ hm hallow h
    exact ⟨trivial, exec_conduct ha hun hfit hm hallow h⟩
  close := fun _ _ _ _ => trivial
  env := fun _ _ _ _ _ _ => trivial

/-- How a registration or the edit of a profile may end: with the normalised details stored, or
with a refusal and no row written. -/
def Documented : Entry → Reply → Session → World → Prop
  | .register form, reply, l, _ =>
      (reply = welcome ∧ ∃ u x, l.written u = some x ∧ x.email = normal form.email ∧
        x.mobile = strip form.mobile) ∨
      ((∃ errors, reply = .page 400 errors) ∧ ∀ v, l.written v = none)
  | .profileUpdate u form, reply, l, s =>
      ((∃ changed, reply = profileSaved changed) ∧ ∃ x, s.users u = some x ∧
        x.email = normal form.email ∧ x.mobile = strip form.mobile) ∨
      ((reply = .redirect "/login" none ∨ ∃ errors, reply = .page 400 errors) ∧
        ∀ v, l.written v = none)
  | _, _, _, _ => True

/-- What is answered from a phase is as documented. -/
theorem documented_of_answers {phase : Phase} {reply : Reply} (hm : phase.Means e i l s)
    (h : phase.Allows e (.respond reply)) : Documented e reply l s := by
  cases e with
  | register form =>
    cases phase with
    | free => cases hm
    | never => exact hm.elim
    | clean => exact .inr ⟨h, hm.2⟩
    | settled u row =>
      obtain ⟨⟨z, hz, hlike⟩, -⟩ := hm
      obtain ⟨hreply, hemail, hmobile⟩ := h
      exact .inl ⟨hreply, u, z, hz, (hlike .email).trans hemail, (hlike .mobile).trans hmobile⟩
    | _ => exact h.elim
  | profileUpdate v form =>
    cases phase with
    | free => cases hm
    | never => exact hm.elim
    | clean => exact .inr ⟨h, hm.2⟩
    | loaded u x =>
      obtain ⟨-, hwritten, -, y, hy, hlike⟩ := hm
      obtain herrors | ⟨hreply, rfl, hemail, hmobile⟩ := h
      · exact .inr ⟨.inr herrors, hwritten⟩
      · exact .inl ⟨hreply, y, hy, (hlike .email).trans hemail, (hlike .mobile).trans hmobile⟩
    | settled u row =>
      obtain ⟨hreply, rfl, hemail, hmobile⟩ := h
      obtain ⟨-, y, hy, hlike⟩ := hm.2 rfl
      exact .inl ⟨hreply, y, hy, (hlike .email).trans hemail, (hlike .mobile).trans hmobile⟩
    | _ => exact h.elim
  | _ => trivial

theorem documented_reach (ha : S.apart = true) (hun : S.uncontested = true)
    (hfit : S.fitting = true) {k : Config (accounts S)} (h : Reach World.initial k) {reply : Reply}
    {f : Except Exn Unit → Program Unit}
    (hth : k.threads i = some ⟨l, .op (.respond reply) f⟩) :
    Documented l.entry reply l k.world := by
  have hholds := (conduct_sound ha hun hfit).reach (accounts_kept S)
    (fun _ _ _ _ _ _ hm hmoves => ⟨hm.1, hm.2.moves ha hmoves⟩) regular_initial trivial h
  obtain ⟨q, hfollows, hentry, hphase⟩ := hholds.threads i _ hth
  rw [hentry]
  exact documented_of_answers hphase hfollows.1

end Orbyt.Directory
