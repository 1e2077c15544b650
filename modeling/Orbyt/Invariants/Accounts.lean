/-
  Orbyt.Invariants.Accounts — what every request keeps of the three tables

  `exec_effect` says once what a call can do; everything else is derived from it.  A row that
  a session is writing is locked, and so is every value that the write brings to a unique
  column (`Held`), so nobody else can commit the same value meanwhile, and the rows as the
  session sees them have no value twice.  What a session sees of the others' moves is that
  users stay, with the role they have, and that what it has locked is left alone (`Moves`).

  Main results:
    * `exec_effect`     — what a call can do;
    * `accounts_kept`   — in every reachable state no two users share an email or a mobile
      number, and what is stored is normalised.
-/
import Orbyt.Platform.BeneficiaryService
import Orbyt.Rules.Calls

namespace Orbyt.Directory

open Interleave
open PyText
open Function (update)

variable {S : Setting} {i j u v k : Nat} {o : Op} {c : Choice} {l l' : Session} {s s' s'' : World}
  {r : Except Exn o.Res} {x y new : User}
  {old' : Option User} {col : Column} {t : Text}

/-! ## §1. What a call can do. -/

/-- The stored rows are the same. -/
structure SameRows (s s' : World) : Prop where
  users : s'.users = s.users
  beneficiaries : s'.beneficiaries = s.beneficiaries
  transactions : s'.transactions = s.transactions

/-- Nothing that is locked is given up. -/
structure MoreLocks (S : Setting) (s s' : World) : Prop where
  nextId : s.nextId ≤ s'.nextId
  user : ∀ u j, s.userLock u = some j → s'.userLock u = some j
  beneficiary : ∀ k j, s.beneficiaryLock k = some j → s'.beneficiaryLock k = some j
  key : ∀ col key j, s.keyLock col key = some j → s'.keyLock col key = some j
  editing : S.apart = true → ∀ u j, s.editing u = some j → s'.editing u = some j

theorem SameRows.refl (s : World) : SameRows s s := ⟨rfl, rfl, rfl⟩
theorem MoreLocks.refl (S : Setting) (s : World) : MoreLocks S s s :=
  ⟨Nat.le_refl _, fun _ _ h => h, fun _ _ h => h, fun _ _ _ h => h, fun _ _ _ h => h⟩

/-- The write of `new` over the row `u`, which is `old` in the session's eyes. -/
structure Wrote (i u : Nat) (old : Option User) (new : User) (l : Session)
    (s s' : World) : Prop where
  named : u < s'.nextId
  lock : s'.userLock u = some i
  keys : ∀ col, changes old new col = true → s'.keyLock col (new.get col) = some i
  free : ∀ col v y, changes old new col = true → v ≠ u → v < s'.nextId → l.user s v = some y →
    y.get col ≠ new.get col

/-- What the call `o` of program `i` can make of its session and of the world. -/
inductive Effect (S : Setting) (i : Nat) (l : Session) (s : World) :
    Op → Session → World → Prop where
  | quiet {o : Op} {l' : Session} {s' : World} (hrows : SameRows s s') (hlocks : MoreLocks S s s')
      (hl : l' = l ∨ l' = l.fail) : Effect S i l s o l' s'
  | insertUser {row : User} {s' : World} (hrows : SameRows s s') (hlocks : MoreLocks S s s')
      (hw : Wrote i s.nextId none row l s s') :
      Effect S i l s (.insertUser row)
        { l with userWrites := update l.userWrites s.nextId (some row) } s'
  | updateUser {u : Nat} {values : User → User} {x : User} {s' : World} (hrows : SameRows s s')
      (hlocks : MoreLocks S s s')
      (hx : l.user s u = some x) (hw : u < s.nextId → Wrote i u (some x) (values x) l s s')
      (hediting : S.apart = true → s.editing u = some i) :
      Effect S i l s (.updateUser u values)
        { l with userWrites := update l.userWrites u (some (values x)) } s'
  | insertBeneficiary {row : Beneficiary} {s' : World} (hrows : SameRows s s')
      (hlocks : MoreLocks S s s')
      (hlock : s'.beneficiaryLock s.nextId = some i) (hnamed : s.nextId < s'.nextId) :
      Effect S i l s (.insertBeneficiary row)
        { l with beneficiaryWrites := update l.beneficiaryWrites s.nextId (some row) } s'
  | updateBeneficiary {k : Nat} {values : Beneficiary → Beneficiary} {b : Beneficiary} {s' : World}
      (hrows : SameRows s s') (hlocks : MoreLocks S s s')
      (hb : l.beneficiary s k = some b) (hlock : s'.beneficiaryLock k = some i) :
      Effect S i l s (.updateBeneficiary k values)
        { l with beneficiaryWrites := update l.beneficiaryWrites k (some (values b)) } s'
  | insertTransaction {row : Transaction} {s' : World} (hrows : SameRows s s')
      (hlocks : MoreLocks S s s') :
      Effect S i l s (.insertTransaction row) (l.writeTransaction s.nextId row) s'
  | commit : Effect S i l s .commit l.committed (s.commit i l)
  | rollback : Effect S i l s .rollback l.reset (s.releaseAll i)

theorem freeFor_update {lock : Nat → Option Nat} (h : freeFor lock i u = true) :
    ∀ v j, lock v = some j → update lock u (some i) v = some j := by
  intro v j hv
  by_cases hvu : v = u
  · subst hvu
    unfold freeFor at h
    rw [hv, Option.all_some, beq_iff_eq] at h
    rw [Function.update_self, h]
  · rw [Function.update_of_ne hvu, hv]

/-- **THE WRITE OF A USER**, or its refusal. -/
theorem writeUser_spec {α : Type} {answer : α} {old : Option User} {r : Except Exn α}
    (h : writeUser S i u old new l s answer = some (r, l', s')) :
    (r = .error .dataError ∧ S.fitting = false ∧ l' = l.fail ∧ s' = s) ∨
    (r = .error .integrityError ∧ (S.uncontested && old.isNone) = false ∧ l' = l.fail ∧ s' = s) ∨
    (r = .ok answer ∧ l' = { l with userWrites := update l.userWrites u (some new) } ∧
      SameRows s s' ∧ MoreLocks S s s' ∧ (u < s.nextId → Wrote i u old new l s s')) := by
  unfold writeUser at h
  split at h
  · split at h
    · cases h
    next hfit =>
      cases h
      exact .inl ⟨rfl, by simpa using hfit, rfl, rfl⟩
  split at h
  · cases h
  next hfree =>
    obtain ⟨hrow, hkeys⟩ := Bool.and_eq_true_iff.mp (by simpa using hfree)
    split at h
    next hconflict =>
      split at h
      · cases h
      next hun =>
        cases h
        exact .inr (.inl ⟨rfl, Bool.not_eq_true _ ▸ hun, rfl, rfl⟩)
    next hconflict =>
      cases h
      -- an index entry of another session is none that the write takes
      have htakes : ∀ col key j, s.keyLock col key = some j → takes old new col key = true →
        j = i := by
        intro col key j hlock ht
        unfold takes at ht
        obtain ⟨hchange, hkey⟩ := Bool.and_eq_true_iff.mp ht
        have hcol := List.all_eq_true.mp hkeys col (by cases col <;> simp)
        rw [hchange, Bool.not_true, Bool.false_or, Bool.and_eq_true] at hcol
        obtain hkey | hkey := Bool.or_eq_true_iff.mp hkey
        · rw [beq_iff_eq] at hkey
          subst hkey
          have := hcol.1
          rw [hlock, Option.all_some, beq_iff_eq] at this
          exact this
        · rw [beq_iff_eq, Option.map_eq_some_iff] at hkey
          obtain ⟨x, rfl, rfl⟩ := hkey
          have := hcol.2
          rw [Option.all_some, hlock, Option.all_some, beq_iff_eq] at this
          exact this
      refine .inr (.inr ⟨rfl, rfl, ⟨rfl, rfl, rfl⟩, ⟨Nat.le_refl _, freeFor_update hrow,
        fun _ _ h => h, fun col key j hlock => ?_, fun _ _ _ h => h⟩, fun hu => ?_⟩)
      · show (if takes old new col key then some i else s.keyLock col key) = some j
        split
        next ht => rw [htakes col key j hlock ht]
        next => exact hlock
      · refine ⟨hu, Function.update_self .., fun col hchange => ?_,
          fun col v y hchange hv hlt hy he => ?_⟩
        · show (if takes old new col (new.get col) then some i else _) = some i
          rw [if_pos]
          unfold takes
          rw [hchange, beq_self_eq_true]
          rfl
        · apply hconflict
          unfold Session.conflict
          rw [List.any_eq_true]
          refine ⟨v, List.mem_range.mpr hlt, ?_⟩
          rw [hy, Option.any_some, Bool.and_eq_true]
          refine ⟨by simpa using hv, ?_⟩
          rw [List.any_eq_true]
          exact ⟨col, by cases col <;> simp, by simp [hchange, he]⟩

theorem lookup_spec {α : Type} {answer : α} {value : Text} {r : Except Exn α}
    (h : lookup S value l s answer = some (r, l', s')) :
    (r = .error .dataError ∧ S.fitting = false ∧ l' = l.fail ∧ s' = s) ∨
      (r = .ok answer ∧ l' = l ∧ s' = s) := by
  unfold lookup at h
  split at h
  · split at h
    · cases h
    next hfit =>
      cases h
      exact .inl ⟨rfl, by simpa using hfit, rfl, rfl⟩
  · cases h
    exact .inr ⟨rfl, rfl, rfl⟩

theorem writeBeneficiary_spec {α : Type} {answer : α} {row : Beneficiary} {r : Except Exn α}
    (h : writeBeneficiary S i k row l s answer = some (r, l', s')) :
    (r = .error .dataError ∧ l' = l.fail ∧ s' = s) ∨
    (r = .ok answer ∧ l' = { l with beneficiaryWrites := update l.beneficiaryWrites k (some row) } ∧
      SameRows s s' ∧ MoreLocks S s s' ∧ s'.beneficiaryLock k = some i ∧ s'.nextId = s.nextId) := by
  unfold writeBeneficiary at h
  split at h
  · split at h
    · cases h
    · cases h
      exact .inl ⟨rfl, rfl, rfl⟩
  split at h
  next hfree =>
    cases h
    exact .inr ⟨rfl, rfl, ⟨rfl, rfl, rfl⟩, ⟨Nat.le_refl _, fun _ _ h => h, freeFor_update hfree,
      fun _ _ _ h => h, fun _ _ _ h => h⟩, Function.update_self .., rfl⟩
  · cases h

theorem moreLocks_nextKey (h : MoreLocks S s.nextKey s') : MoreLocks S s s' :=
  ⟨Nat.le_trans (Nat.le_succ _) h.nextId, h.user, h.beneficiary, h.key, h.editing⟩

theorem exec_perform (h : exec S i o c l s = some (r, l', s')) :
    (l.failed && !o.always) = false ∧ perform S i l s c o = some (r, l', s') := by
  unfold exec at h
  split at h
  · cases h
  next hf => exact ⟨by simpa using hf, h⟩

/-- **WHAT A CALL CAN DO.** -/
theorem exec_effect (h : exec S i o c l s = some (r, l', s')) : Effect S i l s o l' s' := by
  have hp := (exec_perform h).2
  have hstay : ∀ {l₁ : Session}, l₁ = l ∨ l₁ = l.fail → Effect S i l s o l₁ s :=
    fun hl => .quiet (.refl s) (.refl S s) hl
  cases o with
  | loadUser u =>
    simp only [perform] at hp
    split at hp
    · split at hp
      · cases hp
      next hfree =>
        cases hp
        -- the profile form: with forms kept apart, no other one has marked the account
        refine .quiet ⟨rfl, rfl, rfl⟩ ⟨Nat.le_refl _, fun _ _ h => h, fun _ _ h => h,
          fun _ _ _ h => h, fun ha => ?_⟩ (.inl rfl)
        rw [ha] at hfree
        exact freeFor_update (by simpa using hfree)
    · cases hp
      exact hstay (.inl rfl)
  | userBy col value notAdmin =>
    obtain ⟨-, -, rfl, rfl⟩ | ⟨-, rfl, rfl⟩ := lookup_spec hp
    · exact hstay (.inr rfl)
    · exact hstay (.inl rfl)
  | taken col value u =>
    obtain ⟨-, -, rfl, rfl⟩ | ⟨-, rfl, rfl⟩ := lookup_spec hp
    · exact hstay (.inr rfl)
    · exact hstay (.inl rfl)
  | insertUser row =>
    obtain ⟨-, -, rfl, rfl⟩ | ⟨-, -, rfl, rfl⟩ | ⟨-, rfl, hrows, hlocks, hw⟩ := writeUser_spec hp
    · exact .quiet ⟨rfl, rfl, rfl⟩ (moreLocks_nextKey (.refl S _)) (.inr rfl)
    · exact .quiet ⟨rfl, rfl, rfl⟩ (moreLocks_nextKey (.refl S _)) (.inr rfl)
    · obtain ⟨hnamed, hlock, hkeys, hfree⟩ := hw (Nat.lt_succ_self _)
      exact .insertUser ⟨hrows.users, hrows.beneficiaries, hrows.transactions⟩
        (moreLocks_nextKey hlocks) ⟨hnamed, hlock, hkeys, hfree⟩
  | updateUser u values =>
    simp only [perform] at hp
    split at hp
    next x hx =>
      split at hp
      · cases hp
      next hediting =>
        obtain ⟨-, -, rfl, rfl⟩ | ⟨-, -, rfl, rfl⟩ | ⟨-, rfl, hrows, hlocks, hw⟩ :=
          writeUser_spec hp
        · exact hstay (.inr rfl)
        · exact hstay (.inr rfl)
        · exact .updateUser hrows hlocks hx hw fun ha => by simpa [ha] using hediting
    · cases hp
  | lockUser u =>
    simp only [perform] at hp
    split at hp
    next hfree =>
      cases hp
      exact .quiet ⟨rfl, rfl, rfl⟩ ⟨Nat.le_refl _, freeFor_update hfree, fun _ _ h => h,
        fun _ _ _ h => h, fun _ _ _ h => h⟩ (.inl rfl)
    · cases hp
  | insertBeneficiary row =>
    obtain ⟨-, rfl, rfl⟩ | ⟨-, rfl, hrows, hlocks, hlock, hnext⟩ := writeBeneficiary_spec hp
    · exact .quiet ⟨rfl, rfl, rfl⟩ (moreLocks_nextKey (.refl S _)) (.inr rfl)
    · exact .insertBeneficiary ⟨hrows.users, hrows.beneficiaries, hrows.transactions⟩
        (moreLocks_nextKey hlocks) hlock (hnext ▸ Nat.lt_succ_self _)
  | updateBeneficiary k values =>
    simp only [perform] at hp
    split at hp
    next b hb =>
      obtain ⟨-, rfl, rfl⟩ | ⟨-, rfl, hrows, hlocks, hlock, -⟩ := writeBeneficiary_spec hp
      · exact hstay (.inr rfl)
      · exact .updateBeneficiary hrows hlocks hb hlock
    · cases hp
  | payable =>
    simp only [perform] at hp
    split at hp <;> cases hp <;> exact hstay (.inl rfl)
  | insertTransaction row =>
    cases hp
    exact .insertTransaction ⟨rfl, rfl, rfl⟩ (moreLocks_nextKey (.refl S _))
  | commit =>
    cases hp
    exact .commit
  | rollback =>
    cases hp
    exact .rollback
  | activeKyc u =>
    cases hp
    exact hstay (.inl rfl)
  | getBeneficiary k senderId =>
    cases hp
    exact hstay (.inl rfl)
  | refresh =>
    cases hp
    exact hstay (.inl rfl)
  | respond reply =>
    cases hp
    exact hstay (.inl rfl)

/-! ## §2. What holds of rows and sessions. -/

/-- A stored account: normalised, and a sender or recipient can be found. -/
structure User.Proper (x : User) : Prop where
  email : normal x.email = x.email
  mobile : strip x.mobile = x.mobile
  found : x.isAdmin = false → x.email ≠ [] ∧ x.mobile ≠ []

structure Beneficiary.Proper (b : Beneficiary) : Prop where
  email : ∀ t, b.email = some t → normal t = t
  mobile : ∀ t, b.mobile = some t → strip t = t

structure World.Regular (s : World) : Prop where
  named : ∀ u x, s.users u = some x → u < s.nextId
  unique : ∀ u v x y col, s.users u = some x → s.users v = some y → x.get col = y.get col → u = v
  proper : ∀ u x, s.users u = some x → x.Proper
  saved : ∀ k b, s.beneficiaries k = some b → k < s.nextId ∧ b.Proper

/-- What is written in the open transaction of program `i`, over regular rows. -/
structure Session.Held (S : Setting) (i : Nat) (l : Session) (s : World) : Prop where
  regular : s.Regular
  named : ∀ u x, l.userWrites u = some x → u < s.nextId ∧ s.userLock u = some i ∧ x.Proper
  role : ∀ u x y, l.userWrites u = some x → s.users u = some y → x.isAdmin = y.isAdmin
  key : ∀ u x col, l.userWrites u = some x →
    (∃ y, s.users u = some y ∧ y.get col = x.get col) ∨ s.keyLock col (x.get col) = some i
  unique : ∀ u v x y col, l.user s u = some x → l.user s v = some y → x.get col = y.get col → u = v
  saved : ∀ k b, l.beneficiaryWrites k = some b →
    k < s.nextId ∧ s.beneficiaryLock k = some i ∧ b.Proper
  owner : ∀ k b b', l.beneficiaryWrites k = some b → s.beneficiaries k = some b' →
    b.senderId = b'.senderId
  edits : S.apart = true → ∀ u x y, l.userWrites u = some x → s.users u = some y →
    s.editing u = some i

/-- What program `j` sees of the others' moves. -/
structure World.Moves (S : Setting) (j : Nat) (s s' : World) : Prop where
  regular : s.Regular → s'.Regular
  nextId : s.nextId ≤ s'.nextId
  users : ∀ u x, s.users u = some x → ∃ x', s'.users u = some x' ∧ x'.isAdmin = x.isAdmin
  row : ∀ u, s.userLock u = some j → s'.userLock u = some j ∧ s'.users u = s.users u
  key : ∀ col key, s.keyLock col key = some j → s'.keyLock col key = some j ∧
    ∀ u x', s'.users u = some x' → x'.get col = key → ∃ x, s.users u = some x ∧ x.get col = key
  beneficiary : ∀ k, s.beneficiaryLock k = some j →
    s'.beneficiaryLock k = some j ∧ s'.beneficiaries k = s.beneficiaries k
  owner : ∀ k b, s.beneficiaries k = some b →
    ∃ b', s'.beneficiaries k = some b' ∧ b'.senderId = b.senderId
  editing : S.apart = true → ∀ u, s.editing u = some j → s'.editing u = some j ∧
    ∀ x, s.users u = some x → ∃ x', s'.users u = some x' ∧ ∀ col, x'.get col = x.get col

theorem World.Moves.refl (S : Setting) (j : Nat) (s : World) : s.Moves S j s where
  regular := fun h => h
  nextId := Nat.le_refl _
  users := fun _ x h => ⟨x, h, rfl⟩
  row := fun _ h => ⟨h, rfl⟩
  key := fun _ _ h => ⟨h, fun _ x hx hk => ⟨x, hx, hk⟩⟩
  beneficiary := fun _ h => ⟨h, rfl⟩
  owner := fun _ b h => ⟨b, h, rfl⟩
  editing := fun _ _ h => ⟨h, fun x hx => ⟨x, hx, fun _ => rfl⟩⟩

theorem World.Moves.trans (h : s.Moves S j s') (h' : s'.Moves S j s'') : s.Moves S j s'' where
  regular := fun hs => h'.regular (h.regular hs)
  nextId := Nat.le_trans h.nextId h'.nextId
  users := by
    intro u x hx
    obtain ⟨x', hx', hrole⟩ := h.users u x hx
    obtain ⟨x'', hx'', hrole'⟩ := h'.users u x' hx'
    exact ⟨x'', hx'', hrole'.trans hrole⟩
  row := by
    intro u hu
    obtain ⟨hu', hrow⟩ := h.row u hu
    obtain ⟨hu'', hrow'⟩ := h'.row u hu'
    exact ⟨hu'', hrow'.trans hrow⟩
  key := by
    intro col key hk
    obtain ⟨hk', hback⟩ := h.key col key hk
    obtain ⟨hk'', hback'⟩ := h'.key col key hk'
    refine ⟨hk'', fun u x'' hx'' he => ?_⟩
    obtain ⟨x', hx', he'⟩ := hback' u x'' hx'' he
    exact hback u x' hx' he'
  beneficiary := by
    intro k hk
    obtain ⟨hk', hrow⟩ := h.beneficiary k hk
    obtain ⟨hk'', hrow'⟩ := h'.beneficiary k hk'
    exact ⟨hk'', hrow'.trans hrow⟩
  owner := by
    intro k b hb
    obtain ⟨b', hb', hown⟩ := h.owner k b hb
    obtain ⟨b'', hb'', hown'⟩ := h'.owner k b' hb'
    exact ⟨b'', hb'', hown'.trans hown⟩
  editing := by
    intro ha u hu
    obtain ⟨hu', hrow⟩ := h.editing ha u hu
    obtain ⟨hu'', hrow'⟩ := h'.editing ha u hu'
    refine ⟨hu'', fun x hx => ?_⟩
    obtain ⟨x', hx', hget⟩ := hrow x hx
    obtain ⟨x'', hx'', hget'⟩ := hrow' x' hx'
    exact ⟨x'', hx'', fun col => (hget' col).trans (hget col)⟩

theorem SameRows.user (h : SameRows s s') (l : Session) : l.user s' = l.user s := by
  funext u
  simp only [Session.user, h.users]

theorem SameRows.regular (h : SameRows s s') (hn : s.nextId ≤ s'.nextId) (hs : s.Regular) :
    s'.Regular where
  named := by
    rw [h.users]
    exact fun u x hx => Nat.lt_of_lt_of_le (hs.named u x hx) hn
  unique := by
    rw [h.users]
    exact hs.unique
  proper := by
    rw [h.users]
    exact hs.proper
  saved := by
    rw [h.beneficiaries]
    exact fun k b hb => ⟨Nat.lt_of_lt_of_le (hs.saved k b hb).1 hn, (hs.saved k b hb).2⟩

/-- Taking locks shows the others nothing. -/
theorem MoreLocks.moves (hlocks : MoreLocks S s s') (hrows : SameRows s s') (j : Nat) :
    s.Moves S j s' where
  regular := hrows.regular hlocks.nextId
  nextId := hlocks.nextId
  users := by
    rw [hrows.users]
    exact fun u x hx => ⟨x, hx, rfl⟩
  row := fun u hu => ⟨hlocks.user u j hu, by rw [hrows.users]⟩
  key := by
    rw [hrows.users]
    exact fun col key hk => ⟨hlocks.key col key j hk, fun u x hx he => ⟨x, hx, he⟩⟩
  beneficiary := fun k hk => ⟨hlocks.beneficiary k j hk, by rw [hrows.beneficiaries]⟩
  owner := by
    rw [hrows.beneficiaries]
    exact fun k b hb => ⟨b, hb, rfl⟩
  editing := by
    rw [hrows.users]
    exact fun ha u hu => ⟨hlocks.editing ha u j hu, fun x hx => ⟨x, hx, fun _ => rfl⟩⟩

/-! ## §3. What others do to a session. -/

theorem Session.Held.user_named (hl : l.Held S i s) (h : l.user s u = some x) : u < s.nextId := by
  obtain h | ⟨-, h⟩ := Option.or_eq_some_iff.mp h
  · exact (hl.named u x h).1
  · exact hl.regular.named u x h

/-- **A SESSION'S WRITES SURVIVE** what others do. -/
theorem Session.Held.moves (hl : l.Held S j s) (hm : s.Moves S j s') : l.Held S j s' := by
  have hs' := hm.regular hl.regular
  have hrow : ∀ u x, l.userWrites u = some x → s'.users u = s.users u :=
    fun u x hx => (hm.row u (hl.named u x hx).2.1).2
  have hkey : ∀ u x col, l.userWrites u = some x →
      (∃ y, s'.users u = some y ∧ y.get col = x.get col) ∨ s'.keyLock col (x.get col) = some j := by
    intro u x col hx
    obtain ⟨y, hy, he⟩ | hk := hl.key u x col hx
    · left
      rw [hrow u x hx]
      exact ⟨y, hy, he⟩
    · exact .inr (hm.key col _ hk).1
  -- a written value is no other row's, stored before or since
  have hapart : ∀ u v x y col, l.userWrites u = some x → l.userWrites v = none →
      s'.users v = some y → x.get col = y.get col → u = v := by
    intro u v x y col hx hv hy he
    have hview : l.user s u = some x := by simp [Session.user, hx]
    obtain ⟨z, hz, hze⟩ | hk := hkey u x col hx
    · exact hs'.unique u v z y col hz hy (hze.trans he)
    · obtain ⟨z, hz, hze⟩ | hk := hl.key u x col hx
      · have hz' : s'.users u = some z := by rw [hrow u x hx, hz]
        exact hs'.unique u v z y col hz' hy (hze.trans he)
      · obtain ⟨z, hz, hze⟩ := (hm.key col _ hk).2 v y hy he.symm
        have hview' : l.user s v = some z := by simp [Session.user, hv, hz]
        exact hl.unique u v x z col hview hview' hze.symm
  refine ⟨hs', fun u x hx => ?_, fun u x y hx hy => ?_, hkey, fun u v x y col hx hy he => ?_,
    fun k b hb => ?_, fun k b b' hb hb' => ?_, fun ha u x y hx hy => ?_⟩
  · obtain ⟨hn, hlock, hproper⟩ := hl.named u x hx
    exact ⟨Nat.lt_of_lt_of_le hn hm.nextId, (hm.row u hlock).1, hproper⟩
  · rw [hrow u x hx] at hy
    exact hl.role u x y hx hy
  · obtain hx | ⟨hu, hx⟩ := Option.or_eq_some_iff.mp hx
    · obtain hy | ⟨hv, hy⟩ := Option.or_eq_some_iff.mp hy
      · exact hl.unique u v x y col (by simp [Session.user, hx]) (by simp [Session.user, hy]) he
      · exact hapart u v x y col hx hv hy he
    · obtain hy | ⟨-, hy⟩ := Option.or_eq_some_iff.mp hy
      · exact (hapart v u y x col hy hu hx he.symm).symm
      · exact hs'.unique u v x y col hx hy he
  · obtain ⟨hn, hlock, hproper⟩ := hl.saved k b hb
    exact ⟨Nat.lt_of_lt_of_le hn hm.nextId, (hm.beneficiary k hlock).1, hproper⟩
  · rw [(hm.beneficiary k (hl.saved k b hb).2.1).2] at hb'
    exact hl.owner k b b' hb hb'
  · rw [hrow u x hx] at hy
    exact (hm.editing ha u (hl.edits ha u x y hx hy)).1

/-! ## §4. What a session does. -/

theorem Session.Held.congr (hl : l.Held S i s) (hu : l'.userWrites = l.userWrites)
    (hb : l'.beneficiaryWrites = l.beneficiaryWrites) : l'.Held S i s := by
  have hview : l'.user s = l.user s := by
    funext u
    simp only [Session.user, hu]
  refine ⟨hl.regular, ?_, ?_, ?_, ?_, ?_, ?_, ?_⟩
  · rw [hu]
    exact hl.named
  · rw [hu]
    exact hl.role
  · rw [hu]
    exact hl.key
  · rw [hview]
    exact hl.unique
  · rw [hb]
    exact hl.saved
  · rw [hb]
    exact hl.owner
  · rw [hu]
    exact hl.edits

/-- A session without writes. -/
theorem Session.held_of_none (hs : s.Regular) (hu : ∀ u, l.userWrites u = none)
    (hb : ∀ k, l.beneficiaryWrites k = none) : l.Held S i s := by
  have hview : l.user s = s.users := by
    funext u
    simp only [Session.user, hu u, Option.none_or]
  refine ⟨hs, fun u x hx => ?_, fun u x y hx => ?_, fun u x col hx => ?_, ?_, fun k b hb' => ?_,
    fun k b b' hb' => ?_, fun _ u x y hx => ?_⟩
  · simp [hu] at hx
  · simp [hu] at hx
  · simp [hu] at hx
  · rw [hview]
    exact hs.unique
  · simp [hb] at hb'
  · simp [hb] at hb'
  · simp [hu] at hx

theorem eq_of_not_changes (h : changes old' new col = false) :
    ∃ x, old' = some x ∧ x.get col = new.get col := by
  unfold changes at h
  rw [bne_eq_false_iff_eq, Option.map_eq_some_iff] at h
  exact h

/-- **ONE MORE ROW WRITTEN.** -/
theorem Session.Held.write {old : Option User} (hl : l.Held S i s)
    (hrows : SameRows s s') (hlocks : MoreLocks S s s') (hw : Wrote i u old new l s s')
    (hold : l.user s u = old) (hproper : new.Proper)
    (hrole : ∀ y, s.users u = some y → new.isAdmin = y.isAdmin)
    (hediting : S.apart = true → ∀ y, s.users u = some y → s'.editing u = some i) :
    Session.Held S i { l with userWrites := update l.userWrites u (some new) } s' := by
  have hl' := hl.moves (hlocks.moves hrows i)
  have hview : ∀ v, v ≠ u → ((update l.userWrites u (some new)) v).or (s'.users v) =
    l.user s v := by
    intro v hv
    rw [Function.update_of_ne hv, hrows.users]
    rfl
  -- the new row against the others, which the session sees as before
  have hapart : ∀ v y col, v ≠ u → l.user s v = some y → new.get col ≠ y.get col := by
    intro v y col hv hy he
    cases hc : changes old new col with
    | true =>
      have hlt := Nat.lt_of_lt_of_le (hl.user_named hy) hlocks.nextId
      exact hw.free col v y hc hv hlt hy he.symm
    | false =>
      obtain ⟨x, hx, hxe⟩ := eq_of_not_changes hc
      exact hv (hl.unique v u y x col hy (hold.trans hx) (hxe.trans he).symm)
  refine ⟨hl'.regular, fun v x hx => ?_, fun v x y hx hy => ?_, fun v x col hx => ?_,
    fun v v' x y col hx hy he => ?_, hl'.saved, hl'.owner, fun ha v x y hx hy => ?_⟩
  · by_cases hv : v = u
    · subst hv
      obtain rfl : new = x := by simpa using hx
      exact ⟨hw.named, hw.lock, hproper⟩
    · exact hl'.named v x (by simpa [update, hv] using hx)
  · by_cases hv : v = u
    · subst hv
      obtain rfl : new = x := by simpa using hx
      exact hrole y (by rw [← hrows.users, hy])
    · exact hl'.role v x y (by simpa [update, hv] using hx) hy
  · by_cases hv : v = u
    · subst hv
      obtain rfl : new = x := by simpa using hx
      cases hc : changes old new col with
      | true => exact .inr (hw.keys col hc)
      | false =>
        obtain ⟨x, hx, hxe⟩ := eq_of_not_changes hc
        rw [← hxe]
        obtain hx | ⟨-, hx⟩ := Option.or_eq_some_iff.mp (hold.trans hx)
        · exact hl'.key v x col hx
        · exact .inl ⟨x, by rw [hrows.users, hx], rfl⟩
    · exact hl'.key v x col (by simpa [update, hv] using hx)
  · change ((update l.userWrites u (some new)) v).or (s'.users v) = some x at hx
    change ((update l.userWrites u (some new)) v').or (s'.users v') = some y at hy
    by_cases hv : v = u
    · subst hv
      by_cases hv' : v' = v
      · exact hv'.symm
      · obtain rfl : new = x := by simpa using hx
        rw [hview v' hv'] at hy
        exact absurd he (hapart v' y col hv' hy)
    · rw [hview v hv] at hx
      by_cases hv' : v' = u
      · subst hv'
        obtain rfl : new = y := by simpa using hy
        exact absurd he.symm (hapart v x col hv hx)
      · rw [hview v' hv'] at hy
        exact hl.unique v v' x y col hx hy he
  · by_cases hv : v = u
    · subst hv
      rw [hrows.users] at hy
      exact hediting ha y hy
    · exact hl'.edits ha v x y (by simpa [update, hv] using hx) hy

theorem filter_ne_some {lock : Option Nat} (h : lock = some j) (hij : j ≠ i) :
    lock.filter (· != i) = some j := by
  rw [h, Option.filter_some, if_pos (by simpa using hij)]

theorem commit_regular (hl : l.Held S i s) : (s.commit i l).Regular := by
  refine ⟨fun u x hx => hl.user_named (s := s) hx, fun u v x y col hx hy he =>
    hl.unique u v x y col hx hy he, fun u x hx => ?_, fun k b hb => ?_⟩
  · obtain hx | ⟨-, hx⟩ := Option.or_eq_some_iff.mp hx
    · exact (hl.named u x hx).2.2
    · exact hl.regular.proper u x hx
  · obtain hb | ⟨-, hb⟩ := Option.or_eq_some_iff.mp hb
    · exact ⟨(hl.saved k b hb).1, (hl.saved k b hb).2.2⟩
    · exact hl.regular.saved k b hb

/-- **COMMIT** stores what the session sees, and shows the others no more than their `Moves`. -/
theorem commit_moves (hl : l.Held S i s) (hj : j ≠ i) : s.Moves S j (s.commit i l) where
  regular := fun _ => commit_regular hl
  nextId := Nat.le_refl _
  users := by
    intro u x hx
    show ∃ x', (l.userWrites u).or (s.users u) = some x' ∧ _
    cases hw : l.userWrites u with
    | none => exact ⟨x, hx, rfl⟩
    | some z => exact ⟨z, rfl, hl.role u z x hw hx⟩
  row := by
    intro u hu
    refine ⟨filter_ne_some hu hj, ?_⟩
    show (l.userWrites u).or (s.users u) = s.users u
    cases hw : l.userWrites u with
    | none => rfl
    | some z =>
      -- a row that the session writes is locked by it
      rw [(hl.named u z hw).2.1] at hu
      exact absurd (Option.some.inj hu).symm hj
  key := by
    intro col key hk
    refine ⟨filter_ne_some hk hj, fun u x' hx' he => ?_⟩
    obtain hx' | ⟨-, hx'⟩ := Option.or_eq_some_iff.mp hx'
    · obtain ⟨y, hy, hye⟩ | hlock := hl.key u x' col hx'
      · exact ⟨y, hy, hye.trans he⟩
      · rw [he, hk] at hlock
        exact absurd (Option.some.inj hlock) hj
    · exact ⟨x', hx', he⟩
  beneficiary := by
    intro k hk
    refine ⟨filter_ne_some hk hj, ?_⟩
    show (l.beneficiaryWrites k).or (s.beneficiaries k) = s.beneficiaries k
    cases hw : l.beneficiaryWrites k with
    | none => rfl
    | some z =>
      rw [(hl.saved k z hw).2.1] at hk
      exact absurd (Option.some.inj hk).symm hj
  owner := by
    intro k b hb
    show ∃ b', (l.beneficiaryWrites k).or (s.beneficiaries k) = some b' ∧ _
    cases hw : l.beneficiaryWrites k with
    | none => exact ⟨b, hb, rfl⟩
    | some z => exact ⟨z, rfl, hl.owner k z b hw hb⟩
  editing := by
    intro ha u hu
    refine ⟨hu, fun x hx => ?_⟩
    show ∃ x', (l.userWrites u).or (s.users u) = some x' ∧ _
    cases hw : l.userWrites u with
    | none => exact ⟨x, hx, fun _ => rfl⟩
    | some z =>
      -- the profile is in the hands of `j`
      rw [hl.edits ha u z x hw hx] at hu
      exact absurd (Option.some.inj hu).symm hj

theorem release_regular (hs : s.Regular) : (s.releaseAll i).Regular :=
  ⟨hs.named, hs.unique, hs.proper, hs.saved⟩

theorem release_moves (hj : j ≠ i) : s.Moves S j (s.releaseAll i) where
  regular := release_regular
  nextId := Nat.le_refl _
  users := fun _ x hx => ⟨x, hx, rfl⟩
  row := fun _ hu => ⟨filter_ne_some hu hj, rfl⟩
  key := fun _ _ hk => ⟨filter_ne_some hk hj, fun _ x hx he => ⟨x, hx, he⟩⟩
  beneficiary := fun _ hk => ⟨filter_ne_some hk hj, rfl⟩
  owner := fun _ b hb => ⟨b, hb, rfl⟩
  editing := fun _ _ hu => ⟨hu, fun x hx => ⟨x, hx, fun _ => rfl⟩⟩

/-! ## §5. The discipline. -/

/-- A row that is written is proper, and neither a role nor an owner changes. -/
def Lawful : Op → Prop
  | .insertUser row => row.Proper
  | .updateUser _ values => ∀ x, x.Proper → (values x).Proper ∧ (values x).isAdmin = x.isAdmin
  | .insertBeneficiary row => row.Proper
  | .updateBeneficiary _ values =>
      ∀ b, b.Proper → (values b).Proper ∧ (values b).senderId = b.senderId
  | _ => True

@[reducible] def accountsDiscipline (S : Setting) : Discipline (accounts S) where
  may := fun _ => Lawful
  world := World.Regular
  session := Session.Held S
  moves := World.Moves S
  refl := World.Moves.refl S
  trans := World.Moves.trans
  stable := Session.Held.moves

/-! ## §6. Every call keeps it. -/

/-- A call leaves the others what they may see, and its own session in order. -/
def Keeps (S : Setting) (i : Nat) (l' : Session) (s s' : World) : Prop :=
  (∀ j, j ≠ i → s.Moves S j s') ∧ l'.Held S i s'

theorem Session.Held.keeps (hl : l.Held S i s) (hrows : SameRows s s') (hlocks : MoreLocks S s s')
    (hl' : Session.Held S i l s' → l'.Held S i s') : Keeps S i l' s s' :=
  ⟨fun j _ => hlocks.moves hrows j, hl' (hl.moves (hlocks.moves hrows i))⟩

/-- One more beneficiary written. -/
theorem Session.Held.writeBeneficiary {b : Beneficiary} (hl : l.Held S i s) (hk : k < s.nextId)
    (hlock : s.beneficiaryLock k = some i) (hproper : b.Proper)
    (howner : ∀ b', s.beneficiaries k = some b' → b.senderId = b'.senderId) :
    Session.Held S i { l with beneficiaryWrites := update l.beneficiaryWrites k (some b) } s := by
  refine ⟨hl.regular, hl.named, hl.role, hl.key, hl.unique, fun k' x hx => ?_,
    fun k' x b' hx hb' => ?_, hl.edits⟩
  · by_cases hk' : k' = k
    · subst hk'
      obtain rfl : b = x := by simpa using hx
      exact ⟨hk, hlock, hproper⟩
    · exact hl.saved k' x (by simpa [update, hk'] using hx)
  · by_cases hk' : k' = k
    · subst hk'
      obtain rfl : b = x := by simpa using hx
      exact howner b' hb'
    · exact hl.owner k' x b' (by simpa [update, hk'] using hx) hb'

/-- **EVERY CALL** keeps what holds of rows and sessions. -/
theorem exec_keeps (ho : Lawful o) (hl : l.Held S i s) (h : exec S i o c l s = some (r, l', s')) :
    Keeps S i l' s s' := by
  -- the next key names no row yet, neither here nor in another session
  have hfresh : ∀ n, s.nextId ≤ n → s.users n = none ∧ s.beneficiaries n = none := by
    intro n hn
    constructor
    · cases hx : s.users n with
      | none => rfl
      | some x =>
        have := hl.regular.named n x hx
        omega
    · cases hb : s.beneficiaries n with
      | none => rfl
      | some b =>
        have := (hl.regular.saved n b hb).1
        omega
  cases exec_effect h with
  | quiet hrows hlocks hl' =>
    refine hl.keeps hrows hlocks fun hh => ?_
    obtain rfl | rfl := hl'
    · exact hh
    · exact hh.congr rfl rfl
  | insertUser hrows hlocks hw =>
    have hnone := (hfresh s.nextId (Nat.le_refl _)).1
    -- nor does this session know a row under it
    have hview : l.user s s.nextId = none := by
      cases hx : l.user s s.nextId with
      | none => rfl
      | some x => exact absurd (hl.user_named hx) (Nat.lt_irrefl _)
    have hfree : ∀ y, s.users s.nextId ≠ some y := by
      intro y hy
      rw [hnone] at hy
      cases hy
    exact ⟨fun j _ => hlocks.moves hrows j, hl.write hrows hlocks hw hview ho
      (fun y hy => absurd hy (hfree y)) fun _ y hy => absurd hy (hfree y)⟩
  | @updateUser u values x s' hrows hlocks hx hw hediting =>
    have hproper : x.Proper := by
      obtain hx | ⟨-, hx⟩ := Option.or_eq_some_iff.mp hx
      · exact (hl.named u x hx).2.2
      · exact hl.regular.proper u x hx
    obtain ⟨hnew, hrole⟩ := ho x hproper
    refine ⟨fun j _ => hlocks.moves hrows j, hl.write hrows hlocks (hw (hl.user_named hx)) hx hnew
      (fun y hy => ?_) fun ha _ _ => hlocks.editing ha u i (hediting ha)⟩
    -- an UPDATE keeps the role, which is read off the stored row
    rw [hrole]
    obtain hx | ⟨-, hx⟩ := Option.or_eq_some_iff.mp hx
    · exact hl.role u x y hx hy
    · rw [hx] at hy
      rw [Option.some.inj hy]
  | insertBeneficiary hrows hlocks hlock hnamed =>
    refine hl.keeps hrows hlocks fun hh => hh.writeBeneficiary hnamed hlock ho fun b' hb' => ?_
    rw [hrows.beneficiaries, (hfresh s.nextId (Nat.le_refl _)).2] at hb'
    cases hb'
  | @updateBeneficiary k values b s' hrows hlocks hb hlock =>
    have hsaved : k < s.nextId ∧ b.Proper := by
      obtain hb | ⟨-, hb⟩ := Option.or_eq_some_iff.mp hb
      · exact ⟨(hl.saved k b hb).1, (hl.saved k b hb).2.2⟩
      · exact hl.regular.saved k b hb
    obtain ⟨hnew, howner⟩ := ho b hsaved.2
    refine hl.keeps hrows hlocks fun hh => hh.writeBeneficiary
      (Nat.lt_of_lt_of_le hsaved.1 hlocks.nextId) hlock hnew fun b' hb' => ?_
    -- an edit keeps the owner
    rw [howner]
    rw [hrows.beneficiaries] at hb'
    obtain hb | ⟨-, hb⟩ := Option.or_eq_some_iff.mp hb
    · exact hl.owner k b b' hb hb'
    · rw [hb] at hb'
      rw [Option.some.inj hb']
  | insertTransaction hrows hlocks => exact hl.keeps hrows hlocks fun hh => hh.congr rfl rfl
  | commit =>
    exact ⟨fun j hj => commit_moves hl hj,
      Session.held_of_none (commit_regular hl) (fun _ => rfl) fun _ => rfl⟩
  | rollback =>
    exact ⟨fun j hj => release_moves hj,
      Session.held_of_none (release_regular hl.regular) (fun _ => rfl) fun _ => rfl⟩

/-! ## §7. Footprints. -/

open Prog (Uses uses_call uses_bind uses_attempt)

/-- Calls that write a beneficiary or a transaction. -/
def Op.links : Op → Bool
  | .insertBeneficiary _ | .updateBeneficiary _ _ | .insertTransaction _ => true
  | _ => false

/-- What registering, seeding and editing a profile do. -/
def Accounting (o : Op) : Prop := Lawful o ∧ o.links = false

theorem emailIsValid_ne (h : emailIsValid (normal t) = true) : normal t ≠ [] := by
  intro he
  rw [he] at h
  exact absurd h (by decide)

theorem mobileIsValid_ne (h : mobileIsValid (strip t) = true) : strip t ≠ [] := by
  intro he
  rw [he] at h
  exact absurd h (by decide)

theorem uses_saveUser {row : User} {password : Text} (h : row.Proper) :
    Uses Accounting (saveUser S row password) := by
  unfold saveUser
  cases S.hashRefusal password with
  | some text => trivial
  | none =>
    exact uses_bind (uses_call ⟨h, rfl⟩) fun _ => uses_bind (uses_call ⟨trivial, rfl⟩) fun _ =>
      uses_bind (uses_call ⟨trivial, rfl⟩) fun _ => trivial

/-- The row of a form whose formats are valid, or of an admin. -/
theorem create_proper {fullName email mobile : Text} {isAdmin : Bool}
    (h : isAdmin = false → normal email ≠ [] ∧ strip mobile ≠ []) :
    (User.create fullName (normal email) (strip mobile) isAdmin).Proper :=
  ⟨normal_normal email, strip_strip, h⟩

theorem uses_createUser {fullName email mobile password : Text} {isAdmin : Bool}
    (h : isAdmin = false → normal email ≠ [] ∧ strip mobile ≠ []) :
    Uses Accounting (createUser S fullName email mobile password isAdmin) := by
  unfold createUser
  refine uses_bind (uses_call ⟨trivial, rfl⟩) fun a => ?_
  cases a with
  | some _ => trivial
  | none =>
    refine uses_bind (uses_call ⟨trivial, rfl⟩) fun b => ?_
    cases b with
    | some _ => trivial
    | none => exact uses_saveUser (create_proper h)

/-- What a form without errors has. -/
theorem formErrors_nil {form : RegisterForm} (h : formErrors form = []) :
    normal form.email ≠ [] ∧ strip form.mobile ≠ [] := by
  unfold formErrors at h
  simp only [List.append_eq_nil_iff] at h
  obtain ⟨⟨hemail, hmobile⟩, -⟩ := h
  constructor
  · apply emailIsValid_ne
    by_contra hn
    rw [if_neg hn] at hemail
    cases hemail
  · apply mobileIsValid_ne
    by_contra hn
    rw [if_neg hn] at hmobile
    cases hmobile

theorem uses_register {form : RegisterForm} : Uses Accounting (register S form) := by
  unfold register
  split
  next h =>
    refine uses_bind (uses_attempt (uses_createUser fun _ => formErrors_nil h)) fun a => ?_
    split <;> trivial
  next => trivial

theorem uses_seedAdmin {settings : AdminSettings} : Uses Accounting (seedAdmin S settings) := by
  unfold seedAdmin
  refine uses_bind (uses_call ⟨trivial, rfl⟩) fun a => ?_
  cases a with
  | some _ => trivial
  | none =>
    dsimp only
    cases S.hashRefusal settings.adminPassword with
    | some text => trivial
    | none =>
      have hproper : (User.create settings.adminName (normal settings.adminEmail)
          (strip settings.adminMobile) true).Proper := create_proper nofun
      exact uses_bind (uses_call ⟨hproper, rfl⟩) fun _ => uses_bind (uses_call ⟨trivial, rfl⟩)
        fun _ => trivial

theorem uses_nameIsEditable {P : Op → Prop} (h : P (.activeKyc u)) :
    Uses P (nameIsEditable u x) := by
  unfold nameIsEditable
  split
  · trivial
  · exact uses_bind (uses_call h) fun _ => trivial

theorem uses_newName {P : Op → Prop} {fullName : Option Text} (h : P (.activeKyc u)) :
    Uses P (newName u x fullName) := by
  unfold newName
  split
  · trivial
  · split
    · trivial
    · refine uses_bind (uses_nameIsEditable h) fun editable => ?_
      split
      · trivial
      · split <;> trivial

theorem uses_checkTaken {P : Op → Prop} {value text : Text} (h : P (.taken col value u)) :
    Uses P (checkTaken u x col value text) := by
  unfold checkTaken
  split
  · trivial
  · refine uses_bind (uses_call h) fun taken => ?_
    split <;> trivial

theorem assigned_self {α : Type} [DecidableEq α] (x y : α) : assigned x y x = y := by
  unfold assigned
  split
  next h => exact h.symm
  next => rfl

/-- What a profile form may change an attribute to. -/
structure Checked (x : User) (email mobile : Text) : Prop where
  email : email = x.email ∨ normal email = email ∧ email ≠ []
  mobile : mobile = x.mobile ∨ strip mobile = mobile ∧ mobile ≠ []

theorem editedUser_proper {email mobile name : Text} (h : Checked x email mobile) (hy : y.Proper) :
    (editedUser x email mobile name y).Proper := by
  have hemail : normal (assigned x.email email y.email) = assigned x.email email y.email ∧
      (y.email ≠ [] → assigned x.email email y.email ≠ []) := by
    unfold assigned
    split
    next => exact ⟨hy.email, fun h => h⟩
    next hne =>
      obtain ⟨hn, hne'⟩ := h.email.resolve_left hne
      exact ⟨hn, fun _ => hne'⟩
  have hmobile : strip (assigned x.mobile mobile y.mobile) = assigned x.mobile mobile y.mobile ∧
      (y.mobile ≠ [] → assigned x.mobile mobile y.mobile ≠ []) := by
    unfold assigned
    split
    next => exact ⟨hy.mobile, fun h => h⟩
    next hne =>
      obtain ⟨hn, hne'⟩ := h.mobile.resolve_left hne
      exact ⟨hn, fun _ => hne'⟩
  exact ⟨hemail.1, hmobile.1, fun ha =>
    ⟨hemail.2 (hy.found ha).1, hmobile.2 (hy.found ha).2⟩⟩

theorem uses_saveProfile {email mobile name : Text} (h : Checked x email mobile) :
    Uses Accounting (saveProfile u x email mobile name) := by
  have hlawful : Lawful (.updateUser u (editedUser x email mobile name)) := fun y hy =>
    ⟨editedUser_proper h hy, rfl⟩
  unfold saveProfile
  refine uses_bind (uses_attempt (uses_bind (uses_call ⟨hlawful, rfl⟩) fun _ =>
    uses_call ⟨trivial, rfl⟩)) fun a => ?_
  split
  · trivial
  · exact uses_bind (uses_call ⟨trivial, rfl⟩) fun _ => uses_bind (uses_call ⟨trivial, rfl⟩)
      fun _ => trivial
  · trivial

theorem uses_updateProfile {email mobile : Text} {fullName : Option Text} :
    Uses Accounting (updateProfile u x email mobile fullName) := by
  unfold updateProfile
  split
  · trivial
  next hemail =>
    split
    · trivial
    next hmobile =>
      have hchecked : Checked x (normal email) (strip mobile) := by
        constructor
        · by_cases he : normal email = x.email
          · exact .inl he
          · right
            refine ⟨normal_normal email, emailIsValid_ne ?_⟩
            simpa [he] using hemail
        · by_cases he : strip mobile = x.mobile
          · exact .inl he
          · right
            refine ⟨strip_strip, mobileIsValid_ne ?_⟩
            simpa [he] using hmobile
      unfold saveChanges
      refine uses_bind (uses_newName ⟨trivial, rfl⟩) fun name =>
        uses_bind (uses_checkTaken ⟨trivial, rfl⟩) fun _ =>
        uses_bind (uses_checkTaken ⟨trivial, rfl⟩) fun _ => ?_
      split
      · trivial
      · exact uses_saveProfile hchecked

theorem uses_profileUpdate {form : ProfileForm} : Uses Accounting (profileUpdate u form) := by
  unfold profileUpdate
  refine uses_bind (uses_call ⟨trivial, rfl⟩) fun a => ?_
  cases a with
  | none => trivial
  | some user =>
    refine uses_bind (uses_attempt uses_updateProfile) fun b => ?_
    split
    · trivial
    · exact uses_bind (uses_nameIsEditable ⟨trivial, rfl⟩) fun _ => trivial
    · trivial

theorem uses_matchBy {P : Op → Prop} {detail : Option Text}
    (h : ∀ value, P (.userBy col value true)) :
    Uses P (matchBy col detail u) := by
  unfold matchBy
  split
  · trivial
  · exact uses_bind (uses_call (h _)) fun _ => trivial

theorem uses_resolveRecipient {P : Op → Prop} {email mobile : Option Text}
    (h : ∀ col value, P (.userBy col value true)) : Uses P (resolveRecipient email mobile u) := by
  unfold resolveRecipient
  refine uses_bind (uses_matchBy (h .email)) fun a => ?_
  split
  · trivial
  · exact uses_matchBy (h .mobile)

theorem normal_of_given {value t : Text} (h : ((given value).map normal) = some t) :
    normal t = t := by
  obtain ⟨v, -, rfl⟩ := Option.map_eq_some_iff.mp h
  exact normal_normal v

theorem strip_of_given {value t : Text} (h : ((given value).map strip) = some t) : strip t = t := by
  obtain ⟨v, -, rfl⟩ := Option.map_eq_some_iff.mp h
  exact strip_strip

theorem uses_createBeneficiary {fullName email mobile payoutCurrency : Text} :
    Uses Lawful (createBeneficiary u fullName (given email) (given mobile) payoutCurrency) := by
  unfold createBeneficiary
  split
  · trivial
  · refine uses_bind (uses_resolveRecipient fun _ _ => trivial) fun r => ?_
    cases parseCurrency payoutCurrency with
    | none => trivial
    | some currency =>
      refine uses_bind (uses_call ⟨fun t => normal_of_given, fun t => strip_of_given⟩) fun _ => ?_
      exact uses_bind (uses_call trivial) fun _ => uses_bind (uses_call trivial) fun _ => trivial

/-- What an edit assigns is normalised. -/
theorem uses_flushBeneficiary {b new : Beneficiary}
    (hemail : new.email = b.email ∨ ∀ t, new.email = some t → normal t = t)
    (hmobile : new.mobile = b.mobile ∨ ∀ t, new.mobile = some t → strip t = t) :
    Uses Lawful (flushBeneficiary k b new) := by
  unfold flushBeneficiary
  split
  · trivial
  · refine uses_call fun x hx => ⟨⟨fun t ht => ?_, fun t ht => ?_⟩, rfl⟩
    · have ht : assigned b.email new.email x.email = some t := ht
      unfold assigned at ht
      split at ht
      next => exact hx.email t ht
      next hne => exact hemail.resolve_left hne t ht
    · have ht : assigned b.mobile new.mobile x.mobile = some t := ht
      unfold assigned at ht
      split at ht
      next => exact hx.mobile t ht
      next hne => exact hmobile.resolve_left hne t ht

theorem uses_updateBeneficiary {b : Beneficiary} {fullName email mobile payoutCurrency : Text} :
    Uses Lawful (updateBeneficiary k b fullName (given email) (given mobile) payoutCurrency) := by
  unfold updateBeneficiary
  split
  · trivial
  · cases parseCurrency payoutCurrency with
    | none => trivial
    | some currency =>
      refine uses_bind (uses_flushBeneficiary (.inr fun t => normal_of_given)
        (.inr fun t => strip_of_given)) fun _ => ?_
      refine uses_bind (uses_resolveRecipient fun _ _ => trivial) fun r => ?_
      refine uses_bind (uses_flushBeneficiary (.inl rfl) (.inl rfl)) fun _ => ?_
      exact uses_bind (uses_call trivial) fun _ => uses_call trivial

theorem uses_asUser {P : Op → Prop} {act : User → Program Reply} (h : P (.loadUser u))
    (hact : ∀ x, Uses P (act x)) : Uses P (asUser u act) := by
  unfold asUser
  refine uses_bind (uses_call h) fun a => ?_
  cases a with
  | none => trivial
  | some user => exact hact user

theorem uses_orForm {P : Op → Prop} {saving : Program Reply} (h : Uses P saving) :
    Uses P (orForm saving) := by
  unfold orForm
  refine uses_bind (uses_attempt h) fun a => ?_
  split <;> trivial

theorem uses_createRemittance : Uses Lawful (createRemittance u x k) := by
  unfold createRemittance
  split
  · trivial
  · refine uses_bind (uses_call trivial) fun _ => uses_bind (uses_call trivial) fun a => ?_
    cases a with
    | none => trivial
    | some ben =>
      refine uses_bind (?_ : Uses Lawful (refreshRecipientLink k ben)) fun b => ?_
      · unfold refreshRecipientLink
        split
        · trivial
        · refine uses_bind (uses_resolveRecipient fun _ _ => trivial) fun r => ?_
          exact uses_bind (uses_flushBeneficiary (.inl rfl) (.inl rfl)) fun _ => trivial
      · cases b with
        | none => trivial
        | some recipient =>
          exact uses_bind (uses_call trivial) fun _ => uses_bind (uses_call trivial) fun _ =>
            uses_bind (uses_call trivial) fun _ => uses_bind (uses_call trivial) fun _ => trivial

theorem uses_route (e : Entry) : Uses Lawful (route S e) := by
  cases e with
  | register form => exact uses_register.mono fun _ h => h.1
  | seed settings => exact uses_seedAdmin.mono fun _ h => h.1
  | profileUpdate u form => exact uses_profileUpdate.mono fun _ h => h.1
  | create u form =>
    exact uses_asUser trivial fun _ => uses_orForm (uses_bind uses_createBeneficiary
      fun _ => trivial)
  | editSave u k form =>
    refine uses_asUser trivial fun _ => uses_bind (uses_call trivial) fun a => ?_
    cases a with
    | none => trivial
    | some ben => exact uses_orForm (uses_bind uses_updateBeneficiary fun _ => trivial)
  | delete u k =>
    refine uses_asUser trivial fun _ => uses_bind (uses_call trivial) fun a => ?_
    cases a with
    | none => trivial
    | some ben =>
      exact uses_bind (uses_bind (uses_flushBeneficiary (.inl rfl) (.inl rfl)) fun _ =>
        uses_call trivial) fun _ => trivial
  | send u k =>
    refine uses_asUser trivial fun x => ?_
    split
    · trivial
    · refine uses_bind (uses_attempt uses_createRemittance) fun a => ?_
      split <;> trivial

theorem uses_body {P : Op → Prop} {e : Entry} (h : Uses P (route S e))
    (hr : ∀ reply, P (.respond reply)) :
    Uses P (body S e) := by
  unfold body
  refine uses_bind (uses_attempt h) fun a => ?_
  cases a with
  | ok reply => exact uses_call (hr reply)
  | error exc => exact uses_call (hr _)

/-! ## §8. The discipline is kept. -/

theorem review_moves {approved : Bool} (h : World.env (.review u approved) s = some s') :
    ∃ x, s.users u = some x ∧ s.userLock u = none ∧
      s' = { s with users := update s.users u (some { x with kycApproved := approved }) } := by
  simp only [World.env] at h
  split at h
  next x hx =>
    split at h
    next hlock => exact ⟨x, hx, by simpa using hlock, (Option.some.inj h).symm⟩
    · cases h
  · cases h

/-- A review changes nothing that is looked up or locked. -/
theorem review_user {approved : Bool} {s s' : World} {x : User} (hx : s.users u = some x)
    (hs' : s' = { s with users := update s.users u (some { x with kycApproved := approved }) })
    {v : Nat} {y : User} (hy : s'.users v = some y) :
    ∃ y₀ a, s.users v = some y₀ ∧ y = { y₀ with kycApproved := a } := by
  subst hs'
  by_cases hv : v = u
  · subst hv
    obtain rfl := Option.some.inj ((Function.update_self v _ s.users).symm.trans hy)
    exact ⟨x, approved, hx, rfl⟩
  · exact ⟨y, y.kycApproved, by simpa [update, hv] using hy, rfl⟩

theorem accounts_kept (S : Setting) : (accountsDiscipline S).Kept where
  uses := fun e => uses_body (uses_route e) fun _ => trivial
  spawn := by
    intro s e hs
    have hregular : ({ s with nextTid := s.nextTid + 1 } : World).Regular :=
      ⟨hs.named, hs.unique, hs.proper, hs.saved⟩
    have hrows : SameRows s { s with nextTid := s.nextTid + 1 } := ⟨rfl, rfl, rfl⟩
    have hlocks : MoreLocks S s { s with nextTid := s.nextTid + 1 } :=
      ⟨Nat.le_refl _, fun _ _ h => h, fun _ _ h => h, fun _ _ _ h => h, fun _ _ _ h => h⟩
    exact ⟨hregular, Session.held_of_none hregular (fun _ => rfl) fun _ => rfl,
      fun j => hlocks.moves hrows j⟩
  call := by
    intro e i o c l s r l' s' ho _ hl h
    obtain ⟨hmoves, hl'⟩ := exec_keeps ho hl h
    exact ⟨⟨hl'.regular, hmoves⟩, hl'⟩
  close := by
    intro i s hs
    refine ⟨⟨hs.named, hs.unique, hs.proper, hs.saved⟩, fun j hj => ?_⟩
    have hm := release_moves (S := S) (s := s) hj
    exact ⟨fun hs => ⟨hs.named, hs.unique, hs.proper, hs.saved⟩, hm.nextId, hm.users, hm.row,
      hm.key, hm.beneficiary, hm.owner,
      fun _ u hu => ⟨filter_ne_some hu hj, fun x hx => ⟨x, hx, fun _ => rfl⟩⟩⟩
  env := by
    intro v s s' hs h
    cases v with
    | submit u =>
      cases h
      have hrows : SameRows s { s with submitted := update s.submitted u true } := ⟨rfl, rfl, rfl⟩
      have hlocks : MoreLocks S s { s with submitted := update s.submitted u true } :=
        ⟨Nat.le_refl _, fun _ _ h => h, fun _ _ h => h, fun _ _ _ h => h, fun _ _ _ h => h⟩
      exact ⟨hrows.regular (Nat.le_refl _) hs, fun j => hlocks.moves hrows j⟩
    | review u approved =>
      obtain ⟨x, hx, hfree, rfl⟩ := review_moves h
      -- behind each row of the reviewed table stands the row it was
      have hback :=
        fun v y (hy : (update s.users u (some { x with kycApproved := approved })) v = some y) =>
        review_user hx rfl (v := v) hy
      have hregular :
        ({ s with users := update s.users u (some { x with kycApproved := approved }) } :
          World).Regular := by
        refine ⟨fun v y hy => ?_, fun v v' y y' col hy hy' he => ?_, fun v y hy => ?_, hs.saved⟩
        · obtain ⟨y₀, -, hy₀, -⟩ := hback v y hy
          exact hs.named v y₀ hy₀
        · obtain ⟨y₀, a, hy₀, rfl⟩ := hback v y hy
          obtain ⟨y₀', a', hy₀', rfl⟩ := hback v' y' hy'
          exact hs.unique v v' y₀ y₀' col hy₀ hy₀' (by cases col <;> exact he)
        · obtain ⟨y₀, a, hy₀, rfl⟩ := hback v y hy
          have hp := hs.proper v y₀ hy₀
          exact ⟨hp.email, hp.mobile, hp.found⟩
      refine ⟨hregular, fun j => ⟨fun _ => hregular, Nat.le_refl _, fun v y hy => ?_,
        fun v hv => ⟨hv, ?_⟩,
        fun col key hk => ⟨hk, fun v y hy he => ?_⟩, fun _ hk => ⟨hk, rfl⟩,
        fun _ b hb => ⟨b, hb, rfl⟩, fun _ v hv => ⟨hv, fun y hy => ?_⟩⟩⟩
      · by_cases hvu : v = u
        · subst hvu
          obtain rfl : x = y := by rw [hx] at hy; exact Option.some.inj hy
          exact ⟨_, Function.update_self .., rfl⟩
        · exact ⟨y, (Function.update_of_ne hvu ..).trans hy, rfl⟩
      · have hvu : v ≠ u := by
          -- the reviewed row is locked by no one
          rintro rfl
          rw [hfree] at hv
          cases hv
        exact Function.update_of_ne hvu ..
      · obtain ⟨y₀, a, hy₀, rfl⟩ := hback v y hy
        exact ⟨y₀, hy₀, by cases col <;> exact he⟩
      · by_cases hvu : v = u
        · subst hvu
          obtain rfl : x = y := by rw [hx] at hy; exact Option.some.inj hy
          exact ⟨_, Function.update_self .., fun col => by cases col <;> rfl⟩
        · exact ⟨y, (Function.update_of_ne hvu ..).trans hy, fun _ => rfl⟩

theorem regular_initial : World.initial.Regular where
  named := by
    intro u x hx
    cases hx
  unique := by
    intro u v x y col hx
    cases hx
  proper := by
    intro u x hx
    cases hx
  saved := by
    intro k b hb
    cases hb

end Orbyt.Directory
