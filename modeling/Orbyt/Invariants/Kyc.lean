/-
  Orbyt.Invariants.Kyc — submissions and the status of their user

  `World.Agreed` is the invariant: a pending submission is its user's latest one, and
  `users.kyc_status` is the status of the latest submission.  Two locks carry it: while a
  KYC post holds its user's row, and while a review holds a pending submission, nobody
  else changes that user's submissions (`Protects`).

  Main results:
    * `kyc_kept`  — what every call of every program keeps, by its footprint;
    * `kyc_sound` — when posts are checked at the write, every program is safe.
-/
import Orbyt.Platform.Kyc
import Orbyt.Rules.Calls

namespace Orbyt.Kyc

open Interleave
open PyText
open Function (update)

variable {S : Setting} {i j : Nat} {o : Op} {c : Choice} {l l' : Session} {s s' : World}
  {r : Except Exn o.Res}

/-! ## §1. A call raises or performs. -/

@[simp] theorem tick_clock : (s.tick c).clock = s.clock + 1 + c.dt := rfl
@[simp] theorem tick_users : (s.tick c).users = s.users := rfl
@[simp] theorem tick_subs : (s.tick c).subs = s.subs := rfl

theorem exec_inv (h : exec S i o c l s = some (r, l', s')) :
    (o.isStatement = true ∧ (∃ e, r = .error e) ∧ l' = l.fail ∧ s' = s.tick c) ∨
      ((l.failed && o.isStatement) = false ∧
        ∃ r₀ l₀, perform S i l (s.tick c) c o = some (r₀, l₀, s') ∧
          ((r = r₀ ∧ l' = l₀) ∨ (o.losesResponse = true ∧ (∃ e, r = .error e) ∧
            l' = l₀.fail))) := by
  unfold exec answer at h
  split at h
  · split at h
    · cases h
    next hf => exact .inr ⟨by simpa using hf, r, l', h, .inl ⟨rfl, rfl⟩⟩
  · split at h
    next ho =>
      cases h
      exact .inl ⟨ho, ⟨_, rfl⟩, rfl, rfl⟩
    · cases h
  · split at h
    · cases h
    next hf =>
      split at h
      next hl =>
        obtain ⟨⟨r₀, l₀, w⟩, hw, heq⟩ := Option.map_eq_some_iff.mp h
        cases heq
        exact .inr ⟨by simp [hf], r₀, l₀, hw, .inr ⟨hl, ⟨_, rfl⟩, rfl⟩⟩
      · cases h
  · cases h

theorem commit_or_plain (o : Op) : o = .commit ∨ o.losesResponse = false := by
  cases o with
  | commit => exact .inl rfl
  | _ => exact .inr rfl

theorem exec_plain (ho : o.losesResponse = false) (h : exec S i o c l s = some (r, l', s')) :
    (o.isStatement = true ∧ (∃ e, r = .error e) ∧ l' = l.fail ∧ s' = s.tick c) ∨
      ((l.failed && o.isStatement) = false ∧ perform S i l (s.tick c) c o = some (r, l', s')) := by
  rcases exec_inv h with hr | ⟨hf, r₀, l₀, hp, ⟨rfl, rfl⟩ | ⟨hlose, -, -⟩⟩
  · exact .inl hr
  · exact .inr ⟨hf, hp⟩
  · rw [ho] at hlose
    cases hlose

/-- COMMIT: nothing happens, or the session's writes become the stored rows. -/
theorem exec_commit {r : Except Exn Unit} (h : exec S i .commit c l s = some (r, l', s')) :
    (l' = l.fail ∧ s' = s.tick c) ∨
      (l.failed = false ∧ s' = (s.tick c).commit i l ∧
        (l' = l.committed ∨ l' = l.committed.fail)) := by
  rcases exec_inv h with ⟨-, -, rfl, rfl⟩ | ⟨hf, r₀, l₀, hp, hr⟩
  · exact .inl ⟨rfl, rfl⟩
  · cases hp
    refine .inr ⟨by simpa [Op.isStatement] using hf, rfl, ?_⟩
    rcases hr with ⟨-, rfl⟩ | ⟨-, -, rfl⟩
    · exact .inl rfl
    · exact .inr rfl

theorem exec_today {r : Except Exn Date} (h : exec S i .today c l s = some (r, l', s')) :
    ∃ d, r = .ok d ∧ l' = l ∧ s' = s.tick c := by
  rcases exec_plain rfl h with ⟨ho, -⟩ | ⟨-, hp⟩
  · cases ho
  · cases hp
    exact ⟨_, rfl, rfl, rfl⟩

theorem exec_now {r : Except Exn Nat} (h : exec S i .now c l s = some (r, l', s')) :
    ∃ n, r = .ok n ∧ l' = l ∧ s' = s.tick c := by
  rcases exec_plain rfl h with ⟨ho, -⟩ | ⟨-, hp⟩
  · cases ho
  · cases hp
    exact ⟨_, rfl, rfl, rfl⟩

theorem exec_selectUser {u : Nat} {r : Except Exn (Option User)}
    (h : exec S i (.selectUser u) c l s = some (r, l', s')) :
    ((∃ e, r = .error e) ∧ l' = l.fail) ∨
      (r = .ok (l.identify s u) ∧ l.failed = false ∧ s' = s.tick c ∧
        l' = { l with userCopy := update l.userCopy u (l.identify s u) }) := by
  rcases exec_plain rfl h with ⟨-, he, rfl, -⟩ | ⟨hf, hp⟩
  · exact .inl ⟨he, rfl⟩
  · cases hp
    exact .inr ⟨rfl, by simpa [Op.isStatement] using hf, rfl, rfl⟩

theorem exec_selectSubmission {k : Nat} {r : Except Exn (Option Submission)}
    (h : exec S i (.selectSubmission k) c l s = some (r, l', s')) :
    ((∃ e, r = .error e) ∧ l' = l.fail) ∨
      (r = .ok (l.sub s k) ∧ l.failed = false ∧ s' = s.tick c ∧ l' = l) := by
  rcases exec_plain rfl h with ⟨-, he, rfl, -⟩ | ⟨hf, hp⟩
  · exact .inl ⟨he, rfl⟩
  · cases hp
    exact .inr ⟨rfl, by simpa [Op.isStatement] using hf, rfl, rfl⟩

theorem exec_updateSubmission {k : Nat} {cond : Submission → Bool}
    {values : Submission → Submission} {r : Except Exn Bool}
    (h : exec S i (.updateSubmission k cond values) c l s = some (r, l', s')) :
    ((∃ e, r = .error e) ∧ l' = l.fail) ∨ (r = .ok false ∧ l' = l) ∨
      ∃ x, r = .ok true ∧ l.failed = false ∧ l.sub s k = some x ∧ cond x = true ∧
        l' = { l with subWrites := update l.subWrites k (some (values x)) } ∧
        s'.subLock k = some i := by
  rcases exec_plain rfl h with ⟨-, he, rfl, -⟩ | ⟨hf, hp⟩
  · exact .inl ⟨he, rfl⟩
  · right
    simp only [perform] at hp
    split at hp
    next x hx =>
      split at hp
      next hc =>
        split at hp
        · cases hp
          exact .inr ⟨x, rfl, by simpa [Op.isStatement] using hf, hx, hc, rfl,
            Function.update_self _ _ _⟩
        · cases hp
      · cases hp
        exact .inl ⟨rfl, rfl⟩
    · cases hp
      exact .inl ⟨rfl, rfl⟩

/-- The flush is an UPDATE unless the object already has the status. -/
theorem exec_setKycStatus {u : Nat} {status : KycStatus} {r : Except Exn Unit}
    (h : exec S i (.setKycStatus u status) c l s = some (r, l', s')) :
    ((∃ e, r = .error e) ∧ l' = l.fail) ∨
      ∃ copy x, r = .ok () ∧ l.failed = false ∧ l.userCopy u = some copy ∧
        l.user s u = some x ∧
        (copy.kycStatus ≠ status →
          (S.checkedAtWrite = true → status = .pending → x.kycStatus ≠ .pending) ∧
          l' = l.setStatus u copy x status ∧ s'.userLock u = some i) := by
  rcases exec_plain rfl h with ⟨-, he, rfl, -⟩ | ⟨hf, hp⟩
  · exact .inl ⟨he, rfl⟩
  · right
    simp only [perform] at hp
    split at hp
    next copy x hcopy hx =>
      have hlive : l.failed = false := by simpa [Op.isStatement] using hf
      split at hp
      next he =>
        cases hp
        exact ⟨copy, x, rfl, hlive, hcopy, hx, fun hne => absurd he hne⟩
      · split at hp
        · cases hp
        next hcheck =>
          split at hp
          · cases hp
            refine ⟨copy, x, rfl, hlive, hcopy, hx, fun _ => ⟨fun hS hst hp => ?_, rfl,
              Function.update_self _ _ _⟩⟩
            simp [hS, hst, hp] at hcheck
          · cases hp
    · cases hp

theorem exec_insertSubmission {row : Nat → Submission} {r : Except Exn Nat}
    (h : exec S i (.insertSubmission row) c l s = some (r, l', s')) :
    ((∃ e, r = .error e) ∧ l' = l.fail) ∨
      ∃ k, r = .ok k ∧ l.failed = false ∧ s.clock < k ∧ l.sub s k = none ∧
        l' = { l with subWrites := update l.subWrites k (some (row k)) } ∧
        s'.subLock k = some i := by
  rcases exec_plain rfl h with ⟨-, he, rfl, -⟩ | ⟨hf, hp⟩
  · exact .inl ⟨he, rfl⟩
  · right
    simp only [perform] at hp
    split at hp
    next hc =>
      rw [Bool.and_eq_true, Option.isNone_iff_eq_none] at hc
      cases hp
      refine ⟨(s.tick c).clock, rfl, by simpa [Op.isStatement] using hf, ?_, hc.1, rfl,
        Function.update_self _ _ _⟩
      rw [tick_clock]
      omega
    · cases hp

/-! ## §2. What any call but COMMIT does to the world. -/

/-- Stored rows stay and locks are taken by `i` only. -/
structure Uncommitted (i : Nat) (s s' : World) : Prop where
  clock : s'.clock = s.clock
  users : s'.users = s.users
  subs : s'.subs = s.subs
  userLock : Takes i s.userLock s'.userLock
  subLock : Takes i s.subLock s'.subLock

theorem Uncommitted.refl (i : Nat) (s : World) : Uncommitted i s s :=
  ⟨rfl, rfl, rfl, fun _ => .inl rfl, fun _ => .inl rfl⟩

theorem perform_uncommitted (ho : o.losesResponse = false)
    (h : perform S i l s c o = some (r, l', s')) :
    Uncommitted i s s' := by
  cases o with
  | commit => cases ho
  | updateSubmission k cond values =>
    simp only [perform] at h
    split at h
    · split at h
      · split at h
        next hf =>
          cases h
          exact { Uncommitted.refl i s with subLock := Takes.update hf }
        · cases h
      · cases h; exact .refl i s
    · cases h; exact .refl i s
  | setKycStatus u status =>
    simp only [perform] at h
    split at h
    · split at h
      · cases h; exact .refl i s
      · split at h
        · cases h
        · split at h
          next hf =>
            cases h
            exact { Uncommitted.refl i s with userLock := Takes.update hf }
          · cases h
    · cases h
  | insertSubmission row =>
    simp only [perform] at h
    split at h
    next hf =>
      cases h
      rw [Bool.and_eq_true] at hf
      exact { Uncommitted.refl i s with subLock := Takes.update hf.2 }
    · cases h
  | today => cases h; exact .refl i s
  | now => cases h; exact .refl i s
  | selectUser u => cases h; exact .refl i s
  | activeKyc u => cases h; exact .refl i s
  | selectSubmission k => cases h; exact .refl i s
  | refresh => cases h; exact .refl i s

theorem exec_uncommitted (ho : o.losesResponse = false) (h : exec S i o c l s = some (r, l', s')) :
    Uncommitted i (s.tick c) s' := by
  rcases exec_plain ho h with ⟨-, -, -, rfl⟩ | ⟨-, hp⟩
  · exact .refl i _
  · exact perform_uncommitted ho hp

/-! ## §3. What every call keeps, by its footprint. -/

/-- A submission is only ever decided, and then it stays as it is. -/
structure Submission.Decides (x x' : Submission) : Prop where
  userId : x'.userId = x.userId
  final : x.status ≠ .pending → x' = x

theorem Submission.Decides.refl (x : Submission) : x.Decides x := ⟨rfl, fun _ => rfl⟩

theorem Submission.Decides.trans {x x' x'' : Submission} (h : x.Decides x') (h' : x'.Decides x'') :
    x.Decides x'' where
  userId := h'.userId.trans h.userId
  final := fun hx => by
    have hx' := h.final hx
    subst hx'
    exact h'.final hx

/-- The statements a program may make. -/
def Entry.may (e : Entry) : Op → Prop
  | .updateSubmission _ cond values => cond = isPending ∧
      ∃ decision admin now reason, decision ≠ .pending ∧
        values = decided decision admin now reason
  | .insertSubmission row => ∃ u form source, e = .kycSubmit u form ∧
      row = newSubmission u form source
  | _ => True

structure World.Regular (s : World) : Prop where
  named : ∀ k x, s.subs k = some x → x.submittedAt = k ∧ k ≤ s.clock

structure Session.Locked (i : Nat) (l : Session) (s : World) : Prop where
  users : ∀ u y, l.userWrites u = some y → s.userLock u = some i ∧
    ∃ x, s.users u = some x ∧ y.isAdmin = x.isAdmin
  subs : ∀ k y, l.subWrites k = some y → s.subLock k = some i ∧ y.submittedAt = k ∧
    k ≤ s.clock ∧ ∀ x, s.subs k = some x → x.Decides y

/-- What a program sees when another one moves: rows it has locked stay as they are. -/
structure Others (j : Nat) (s s' : World) : Prop where
  clock : s.clock ≤ s'.clock
  users : ∀ u x, s.users u = some x → ∃ x', s'.users u = some x' ∧ x'.isAdmin = x.isAdmin
  subs : ∀ k x, s.subs k = some x → ∃ x', s'.subs k = some x' ∧ x.Decides x'
  userLock : ∀ u x, s.userLock u = some j → s.users u = some x →
    s'.userLock u = some j ∧ s'.users u = some x
  subLock : ∀ k, s.subLock k = some j → s'.subLock k = some j ∧ s'.subs k = s.subs k

theorem Others.refl (j : Nat) (s : World) : Others j s s where
  clock := Nat.le_refl _
  users := fun _ x hx => ⟨x, hx, rfl⟩
  subs := fun _ x hx => ⟨x, hx, .refl x⟩
  userLock := fun _ _ hu hx => ⟨hu, hx⟩
  subLock := fun _ hk => ⟨hk, rfl⟩

theorem Others.trans {s'' : World} (h : Others j s s') (h' : Others j s' s'') :
    Others j s s'' where
  clock := Nat.le_trans h.clock h'.clock
  users := fun u x hx => by
    obtain ⟨y, hy, hyx⟩ := h.users u x hx
    obtain ⟨z, hz, hzy⟩ := h'.users u y hy
    exact ⟨z, hz, hzy.trans hyx⟩
  subs := fun k x hx => by
    obtain ⟨y, hy, hxy⟩ := h.subs k x hx
    obtain ⟨z, hz, hyz⟩ := h'.subs k y hy
    exact ⟨z, hz, hxy.trans hyz⟩
  userLock := fun u x hu hx => by
    obtain ⟨hu', hx'⟩ := h.userLock u x hu hx
    exact h'.userLock u x hu' hx'
  subLock := fun k hk => by
    obtain ⟨hk', he⟩ := h.subLock k hk
    obtain ⟨hk'', he'⟩ := h'.subLock k hk'
    exact ⟨hk'', he'.trans he⟩

theorem Others.tick : Others j s (s.tick c) :=
  { Others.refl j s with clock := by rw [tick_clock]; omega }

theorem Uncommitted.others (h : Uncommitted i s s') : Others j s s' where
  clock := Nat.le_of_eq h.clock.symm
  users := fun u x hx => ⟨x, by rw [h.users]; exact hx, rfl⟩
  subs := fun k x hx => ⟨x, by rw [h.subs]; exact hx, .refl x⟩
  userLock := fun u x hu hx => ⟨h.userLock.keeps hu, by rw [h.users]; exact hx⟩
  subLock := fun k hk => ⟨h.subLock.keeps hk, by rw [h.subs]⟩

/-- A row that another program has locked is not among the writes of `i`. -/
theorem Session.Locked.unwritten (h : l.Locked i s) (hij : j ≠ i) :
    (∀ u, s.userLock u = some j → l.userWrites u = none) ∧
      ∀ k, s.subLock k = some j → l.subWrites k = none := by
  constructor
  · intro u hu
    cases hw : l.userWrites u with
    | none => rfl
    | some y =>
      rw [(h.users u y hw).1] at hu
      cases hu
      exact absurd rfl hij
  · intro k hk
    cases hw : l.subWrites k with
    | none => rfl
    | some y =>
      rw [(h.subs k y hw).1] at hk
      cases hk
      exact absurd rfl hij

theorem commit_others (hl : l.Locked i s) (hij : j ≠ i) : Others j s (s.commit i l) := by
  obtain ⟨husers, hsubs⟩ := hl.unwritten hij
  constructor
  · exact Nat.le_refl _
  · intro u x hx
    show ∃ x', (l.userWrites u).or (s.users u) = some x' ∧ _
    cases hw : l.userWrites u with
    | none => exact ⟨x, hx, rfl⟩
    | some y =>
      obtain ⟨-, x', hx', hy⟩ := hl.users u y hw
      rw [hx] at hx'
      cases hx'
      exact ⟨y, rfl, hy⟩
  · intro k x hx
    show ∃ x', (l.subWrites k).or (s.subs k) = some x' ∧ _
    cases hw : l.subWrites k with
    | none => exact ⟨x, hx, .refl x⟩
    | some y => exact ⟨y, rfl, (hl.subs k y hw).2.2.2 x hx⟩
  · intro u x hu hx
    refine ⟨release_other hij hu, ?_⟩
    show (l.userWrites u).or (s.users u) = some x
    rw [husers u hu]
    exact hx
  · intro k hk
    refine ⟨release_other hij hk, ?_⟩
    show (l.subWrites k).or (s.subs k) = s.subs k
    rw [hsubs k hk]
    rfl

theorem World.Regular.tick (h : s.Regular) : (s.tick c).Regular :=
  ⟨fun k x hx => ⟨(h.named k x hx).1, by rw [tick_clock]; have := (h.named k x hx).2; omega⟩⟩

theorem World.Regular.commit (h : s.Regular) (hl : l.Locked i s) : (s.commit i l).Regular := by
  refine ⟨fun k x hx => ?_⟩
  have hx' : (l.subWrites k).or (s.subs k) = some x := hx
  cases hw : l.subWrites k with
  | none =>
    rw [hw] at hx'
    exact h.named k x hx'
  | some y =>
    rw [hw] at hx'
    cases hx'
    obtain ⟨-, hname, hle, -⟩ := hl.subs k x hw
    exact ⟨hname, hle⟩

theorem World.Regular.of_uncommitted (h : s.Regular) (hu : Uncommitted i s s') : s'.Regular :=
  ⟨fun k x hx => by rw [hu.subs] at hx; rw [hu.clock]; exact h.named k x hx⟩

theorem Session.Locked.of_others (h : l.Locked i s) (ho : Others i s s') : l.Locked i s' where
  users := fun u y hy => by
    obtain ⟨hlock, x, hx, he⟩ := h.users u y hy
    obtain ⟨hlock', hx'⟩ := ho.userLock u x hlock hx
    exact ⟨hlock', x, hx', he⟩
  subs := fun k y hy => by
    obtain ⟨hlock, hname, hle, hdec⟩ := h.subs k y hy
    obtain ⟨hlock', hsame⟩ := ho.subLock k hlock
    exact ⟨hlock', hname, Nat.le_trans hle ho.clock, by rw [hsame]; exact hdec⟩

theorem Session.Locked.of_uncommitted (h : l.Locked i s) (hu : Uncommitted i s s') :
    l.Locked i s' := h.of_others hu.others

/-- The session with its writes on locked rows, one of which is new. -/
theorem perform_locked {e : Entry} (hm : e.may o) (ho : o.losesResponse = false) (hs : s.Regular)
    (h : l.Locked i s) (hx : perform S i l s c o = some (r, l', s')) : l'.Locked i s' := by
  have hu := perform_uncommitted ho hx
  have hold := h.of_uncommitted hu
  cases o with
  | commit => cases ho
  | updateSubmission k cond values =>
    obtain ⟨rfl, decision, admin, now, reason, hd, rfl⟩ := hm
    simp only [perform] at hx
    split at hx
    next x hsub =>
      split at hx
      next hc =>
        split at hx
        · cases hx
          refine ⟨hold.users, fun k' y hy => ?_⟩
          by_cases hk : k' = k
          · subst hk
            obtain rfl : _ = y := by simpa [update] using hy
            have hpending : x.status = .pending := by simpa [isPending] using hc
            refine ⟨Function.update_self _ _ _, ?_⟩
            -- the row updated is the stored one, or the one this transaction has written
            have hrow : x.submittedAt = k' ∧ k' ≤ s.clock ∧ ∀ x', s.subs k' = some x' →
              x'.Decides x := by
              cases hw : l.subWrites k' with
              | none =>
                have hstored : s.subs k' = some x := by simpa [Session.sub, hw] using hsub
                obtain ⟨h₁, h₂⟩ := hs.named k' x hstored
                refine ⟨h₁, h₂, fun x' hx' => ?_⟩
                rw [hstored] at hx'
                cases hx'
                exact .refl x
              | some w =>
                obtain rfl : w = x := by simpa [Session.sub, hw] using hsub
                exact (h.subs k' w hw).2
            obtain ⟨h₁, h₂, h₃⟩ := hrow
            refine ⟨h₁, h₂, fun x' hx' => ⟨(h₃ x' hx').userId, fun hn => ?_⟩⟩
            -- a decided row is not pending, so that the condition has kept it out
            rw [← (h₃ x' hx').final hn] at hn
            exact absurd hpending hn
          · exact hold.subs k' y (by simpa [update, hk] using hy)
        · cases hx
      · cases hx; exact h
    · cases hx; exact h
  | setKycStatus u status =>
    simp only [perform] at hx
    split at hx
    next copy x hcopy hx₀ =>
      split at hx
      · cases hx; exact h
      · split at hx
        · cases hx
        · split at hx
          · cases hx
            refine ⟨fun u' y hy => ?_, hold.subs⟩
            by_cases hu' : u' = u
            · subst hu'
              obtain rfl : _ = y := by simpa [update, Session.setStatus] using hy
              refine ⟨Function.update_self _ _ _, ?_⟩
              show ∃ x', s.users u' = some x' ∧ x.isAdmin = x'.isAdmin
              cases hw : l.userWrites u' with
              | none => exact ⟨x, by simpa [Session.user, hw] using hx₀, rfl⟩
              | some w =>
                obtain rfl : w = x := by simpa [Session.user, hw] using hx₀
                exact (h.users u' w hw).2
            · exact hold.users u' y (by simpa [update, hu', Session.setStatus] using hy)
          · cases hx
    · cases hx
  | insertSubmission row =>
    obtain ⟨u, form, source, -, rfl⟩ := hm
    simp only [perform] at hx
    split at hx
    next hf =>
      cases hx
      rw [Bool.and_eq_true, Option.isNone_iff_eq_none] at hf
      refine ⟨hold.users, fun k' y hy => ?_⟩
      by_cases hk : k' = s.clock
      · subst hk
        obtain rfl : _ = y := by simpa [update] using hy
        refine ⟨Function.update_self _ _ _, rfl, Nat.le_refl _, fun x hx => ?_⟩
        -- the key is new, nothing stored stands under it
        obtain ⟨-, hnone⟩ := Option.or_eq_none_iff.mp hf.1
        rw [show s.subs s.clock = none from hnone] at hx
        cases hx
      · exact hold.subs k' y (by simpa [update, hk] using hy)
    · cases hx
  | today => cases hx; exact h
  | now => cases hx; exact h
  | selectUser u => cases hx; exact ⟨h.users, h.subs⟩
  | activeKyc u => cases hx; exact h
  | selectSubmission k => cases hx; exact h
  | refresh => cases hx; exact h

/-- Every program, with the statements of its list. -/
@[reducible] def rules (S : Setting) : Discipline (kyc S) where
  may := Entry.may
  world := World.Regular
  session := Session.Locked
  moves := Others
  refl := Others.refl
  trans := Others.trans
  stable := Session.Locked.of_others

theorem Session.Locked.empty (hu : ∀ u, l.userWrites u = none) (hk : ∀ k, l.subWrites k = none) :
    l.Locked i s where
  users := fun u y hy => by rw [hu u] at hy; cases hy
  subs := fun k y hy => by rw [hk k] at hy; cases hy

theorem exec_kept {e : Entry} (hm : e.may o) (hs : s.Regular) (h : l.Locked i s)
    (hx : exec S i o c l s = some (r, l', s')) :
    (s'.Regular ∧ ∀ j, j ≠ i → Others j s s') ∧ l'.Locked i s' := by
  have htick : l.Locked i (s.tick c) := h.of_others .tick
  rcases commit_or_plain o with rfl | ho
  · rcases exec_commit hx with ⟨rfl, rfl⟩ | ⟨-, rfl, hl'⟩
    · exact ⟨⟨hs.tick, fun _ _ => .tick⟩, ⟨htick.users, htick.subs⟩⟩
    · refine ⟨⟨hs.tick.commit htick, fun j hij => Others.tick.trans (commit_others htick hij)⟩, ?_⟩
      rcases hl' with rfl | rfl <;> exact .empty (fun _ => rfl) fun _ => rfl
  · have hu := exec_uncommitted ho hx
    refine ⟨⟨hs.tick.of_uncommitted hu, fun _ _ => Others.tick.trans hu.others⟩, ?_⟩
    rcases exec_plain ho hx with ⟨-, -, rfl, rfl⟩ | ⟨-, hp⟩
    · exact ⟨htick.users, htick.subs⟩
    · exact perform_locked hm ho hs.tick htick hp

theorem releaseAll_others (hij : j ≠ i) : Others j s (s.releaseAll i) :=
  { Others.refl j s with
    userLock := fun _ _ hu hx => ⟨release_other hij hu, hx⟩
    subLock := fun _ hk => ⟨release_other hij hk, rfl⟩ }

theorem env_others {v : Env} (hx : World.env v s = some s') : Others j s s' := by
  cases v with
  | wait dt =>
    cases hx
    exact { Others.refl j s with clock := Nat.le_add_right _ _ }
  | register u fullName isAdmin =>
    simp only [World.env] at hx
    split at hx
    next hn =>
      cases hx
      -- the new row is none of the old ones
      have hold : ∀ v x, s.users v = some x →
          update s.users u (some (User.create fullName isAdmin)) v = some x := by
        intro v x hv
        rw [Function.update_of_ne, hv]
        rintro rfl
        rw [hv] at hn
        cases hn
      exact { Others.refl j s with
        users := fun v x hv => ⟨x, hold v x hv, rfl⟩
        userLock := fun v x hu hv => ⟨hu, hold v x hv⟩ }
    · cases hx

theorem World.Regular.env {v : Env} (h : s.Regular) (hx : World.env v s = some s') :
    s'.Regular := by
  cases v with
  | wait dt =>
    cases hx
    exact ⟨fun k x hk =>
      ⟨(h.named k x hk).1, Nat.le_trans (h.named k x hk).2 (Nat.le_add_right _ _)⟩⟩
  | register u fullName isAdmin =>
    simp only [World.env] at hx
    split at hx
    · cases hx; exact ⟨h.named⟩
    · cases hx

/-! ## §4. Footprints. -/

section Footprints

open Prog

variable {P : Op → Prop} {e : Entry}

theorem uses_asAdmin {admin : Nat} {act : Program Reply} (hact : Uses e.may act) :
    Uses e.may (asAdmin admin act) := by
  unfold asAdmin
  refine uses_bind (uses_call trivial) fun found => ?_
  cases found with
  | none => trivial
  | some user =>
    dsimp only
    split
    · exact hact
    · trivial

theorem uses_onSubmission {k : Nat} {act : Submission → Option User → Program Reply}
    (hact : ∀ x user, Uses e.may (act x user)) : Uses e.may (onSubmission k act) := by
  unfold onSubmission
  refine uses_bind (uses_call trivial) fun found => ?_
  cases found with
  | none => trivial
  | some x =>
    refine uses_bind (uses_call trivial) fun user => uses_bind ?_ fun _ => hact x user
    unfold loadReviewer
    split
    · trivial
    · exact uses_bind (uses_call trivial) fun _ => trivial

theorem uses_review {k admin : Nat} {x : Submission} {decision : SubmissionStatus}
    {userStatus : KycStatus} {reason : Option Text} (hd : decision ≠ .pending) :
    Uses e.may (review k x admin decision userStatus reason) := by
  unfold review
  refine uses_bind (uses_call trivial) fun now =>
    uses_bind (uses_call ⟨rfl, decision, admin, now, reason, hd, rfl⟩) fun hit => ?_
  split
  · unfold settleUser
    refine uses_bind (uses_call trivial) fun found => ?_
    cases found with
    | none => trivial
    | some user =>
      exact uses_bind (uses_call trivial) fun _ => uses_bind (uses_call trivial) fun _ =>
        uses_call trivial
  · exact uses_bind (uses_call trivial) fun _ => trivial

theorem uses_refuse {u : Nat} {error : String} : Uses e.may (refuse u error) :=
  uses_bind (uses_call trivial) fun _ => trivial

theorem uses_kycSubmit (u : Nat) (form : KycForm) :
    Uses (Entry.may (.kycSubmit u form)) (kycSubmit u form) := by
  unfold kycSubmit
  refine uses_bind (uses_call trivial) fun found => ?_
  cases found with
  | none => trivial
  | some user =>
    dsimp only
    split
    · trivial
    · split
      · trivial
      · split
        · exact uses_refuse
        next source _ =>
          unfold trySubmit submitKyc saveSubmission
          refine uses_bind (uses_attempt ?_) fun answer => ?_
          · refine uses_bind (uses_call trivial) fun today => ?_
            split
            · trivial
            · split
              · trivial
              · exact uses_bind (uses_call trivial) fun _ =>
                  uses_bind (uses_call ⟨u, form, source, rfl, rfl⟩) fun _ =>
                    uses_bind (uses_call trivial) fun _ =>
                      uses_bind (uses_call trivial) fun _ => trivial
          · split
            · trivial
            · exact uses_refuse
            · exact uses_refuse
            · trivial

theorem uses_discard {p : Program Reply} (h : Uses e.may p) : Uses e.may (discard p) :=
  uses_bind h fun _ => trivial

/-- **NO OTHER STATEMENTS**: a program makes only the calls of its list. -/
theorem body_uses : ∀ e : Entry, Uses e.may (body e)
  | .kycSubmit u form => uses_discard (uses_kycSubmit u form)
  | .kycApprove k admin => by
      refine uses_discard (uses_asAdmin (uses_onSubmission fun x user => ?_))
      refine uses_bind (uses_attempt (uses_review (by decide))) fun answer => ?_
      split <;> trivial
  | .kycReject k admin reason => by
      refine uses_discard (uses_asAdmin (uses_onSubmission fun x user => ?_))
      refine uses_bind (uses_attempt ?_) fun answer => ?_
      · unfold rejectKyc
        split
        · trivial
        · exact uses_review (by decide)
      · split <;> trivial

end Footprints

/-- **EVERY PROGRAM KEEPS ITS LOCKED ROWS**, by its footprint. -/
theorem kyc_kept (S : Setting) : (rules S).Kept where
  uses := body_uses
  spawn := fun s _ hs => ⟨⟨hs.named⟩, .empty (fun _ => rfl) (fun _ => rfl),
    fun j => ⟨Nat.le_refl _, (Others.refl j s).users, (Others.refl j s).subs,
      (Others.refl j s).userLock, (Others.refl j s).subLock⟩⟩
  call := fun _ _ _ _ _ _ _ _ _ hm hs hl hx => exec_kept hm hs hl hx
  close := fun _ _ hs => ⟨⟨hs.named⟩, fun _ hij => releaseAll_others hij⟩
  env := fun _ _ _ hs hx => ⟨hs.env hx, fun _ => env_others hx⟩

/-! ## §5. The invariant. -/

/-- The last of its user's submissions. -/
def World.LatestOf (s : World) (k : Nat) (y : Submission) : Prop :=
  s.subs k = some y ∧ ∀ k' y', s.subs k' = some y' → y'.userId = y.userId → k' ≤ k

structure World.Agreed (s : World) : Prop where
  owned : ∀ k y, s.subs k = some y → ∃ x, s.users y.userId = some x ∧ x.isAdmin = false
  single : ∀ k y, s.subs k = some y → y.status = .pending → s.LatestOf k y
  latest : ∀ k y x, s.LatestOf k y → s.users y.userId = some x →
    x.kycStatus = y.status.kycStatus
  nobody : ∀ u x, s.users u = some x → (∀ k y, s.subs k = some y → y.userId ≠ u) →
    x.kycStatus = (User.create x.fullName x.isAdmin).kycStatus

/-- A user with a pending submission is pending. -/
theorem World.Agreed.pending (h : s.Agreed) {k : Nat} {y : Submission} {x : User}
    (hk : s.subs k = some y) (hp : y.status = .pending) (hx : s.users y.userId = some x) :
    x.kycStatus = .pending := by
  rw [h.latest k y x (h.single k y hk hp) hx, hp]
  rfl

/-- An account that is neither approved nor pending is not an admin's. -/
theorem World.Agreed.sender (h : s.Agreed) {u : Nat} {x : User} (hx : s.users u = some x)
    (happroved : x.kycStatus ≠ .approved) : x.isAdmin = false := by
  by_contra hadmin
  rw [Bool.not_eq_false] at hadmin
  apply happroved
  rw [h.nobody u x hx, hadmin]
  · rfl
  · intro k y hk hy
    obtain ⟨x', hx', hn⟩ := h.owned k y hk
    rw [hy, hx] at hx'
    cases hx'
    rw [hadmin] at hn
    cases hn

theorem World.Agreed.congr (h : s.Agreed) (hu : s'.users = s.users) (hk : s'.subs = s.subs) :
    s'.Agreed := by
  constructor
  · rw [hu, hk]; exact h.owned
  · unfold World.LatestOf; rw [hk]; exact h.single
  · unfold World.LatestOf; rw [hu, hk]; exact h.latest
  · rw [hu, hk]; exact h.nobody

/-- The user `u` has the same submissions in both worlds. -/
def SameSubs (u : Nat) (s s' : World) : Prop :=
  ∀ k y, y.userId = u → (s'.subs k = some y ↔ s.subs k = some y)

/-- What the two locks of `j` keep the others from doing. -/
structure Protects (j : Nat) (s s' : World) : Prop where
  user : ∀ u x, s.userLock u = some j → s.users u = some x → x.kycStatus ≠ .pending →
    s'.userLock u = some j ∧ s'.users u = some x ∧ SameSubs u s s'
  sub : ∀ k y x, s.subLock k = some j → s.subs k = some y → y.status = .pending →
    s.users y.userId = some x →
      s'.subLock k = some j ∧ s'.users y.userId = some x ∧ SameSubs y.userId s s'

theorem SameSubs.refl (u : Nat) (s : World) : SameSubs u s s := fun _ _ _ => Iff.rfl

theorem SameSubs.trans {s'' : World} {u : Nat} (h : SameSubs u s s') (h' : SameSubs u s' s'') :
    SameSubs u s s'' := fun k y hy => (h' k y hy).trans (h k y hy)

theorem Protects.trans {s'' : World} (h : Protects j s s') (h' : Protects j s' s'') :
    Protects j s s'' where
  user := fun u x hl hx hp => by
    obtain ⟨hl₁, hx₁, hsame⟩ := h.user u x hl hx hp
    obtain ⟨hl₂, hx₂, hsame'⟩ := h'.user u x hl₁ hx₁ hp
    exact ⟨hl₂, hx₂, hsame.trans hsame'⟩
  sub := fun k y x hl hk hp hx => by
    obtain ⟨hl₁, hx₁, hsame⟩ := h.sub k y x hl hk hp hx
    obtain ⟨hl₂, hx₂, hsame'⟩ := h'.sub k y x hl₁ ((hsame k y rfl).mpr hk) hp hx₁
    exact ⟨hl₂, hx₂, hsame.trans hsame'⟩

/-- Stored rows stay as they are and the locks of `j` stay with it. -/
theorem Protects.of_same (hu : s'.users = s.users) (hk : s'.subs = s.subs)
    (huser : ∀ u, s.userLock u = some j → s'.userLock u = some j)
    (hsub : ∀ k, s.subLock k = some j → s'.subLock k = some j) : Protects j s s' where
  user := fun u x hl hx _ => ⟨huser u hl, by rw [hu]; exact hx, fun k y _ => by rw [hk]⟩
  sub := fun k y x hl _ _ hx => ⟨hsub k hl, by rw [hu]; exact hx, fun k y _ => by rw [hk]⟩

theorem Protects.refl (j : Nat) (s : World) : Protects j s s :=
  .of_same rfl rfl (fun _ h => h) fun _ h => h

theorem Uncommitted.protects (h : Uncommitted i s s') : Protects j s s' :=
  .of_same h.users h.subs (fun _ hu => h.userLock.keeps hu) fun _ hk => h.subLock.keeps hk

/-- The submissions and the statuses of their users. -/
@[reducible] def agreement (S : Setting) : Protocol (rules S) where
  known := fun _ => True
  inv := World.Agreed
  rely := Protects
  refl := Protects.refl
  trans := Protects.trans

/-! ## §6. Calls that change no row. -/

/-- Nothing is written, or nothing that is will be committed. -/
def Session.Clear (l : Session) : Prop :=
  l.failed = true ∨ (l.userWrites = fun _ => none) ∧ l.subWrites = fun _ => none

def Op.isQuiet : Op → Bool
  | .updateSubmission _ _ _ | .setKycStatus _ _ | .insertSubmission _ => false
  | _ => true

theorem plain_keeps (ho : o.losesResponse = false) (ha : s.Agreed)
    (hx : exec S i o c l s = some (r, l', s')) :
    (agreement S).keeps i s s' := by
  have hu := exec_uncommitted ho hx
  refine ⟨ha.congr hu.users hu.subs, fun j _ => ?_⟩
  exact (Protects.of_same rfl rfl (fun _ h => h) fun _ h => h : Protects j s (s.tick c)).trans
    hu.protects

theorem quiet_call (ho : o.isQuiet = true) (ha : s.Agreed) (hl : l.Clear)
    (hx : exec S i o c l s = some (r, l', s')) : (agreement S).keeps i s s' ∧ l'.Clear := by
  rcases commit_or_plain o with rfl | hcommit
  · rcases exec_commit hx with ⟨rfl, rfl⟩ | ⟨hf, rfl, hl'⟩
    · exact ⟨⟨ha.congr rfl rfl, fun _ _ => .of_same rfl rfl (fun _ h => h) fun _ h => h⟩, .inl rfl⟩
    · obtain ⟨hu, hk⟩ := hl.resolve_left (by simp [hf])
      have husers : ((s.tick c).commit i l).users = s.users := by
        funext u
        show (l.userWrites u).or (s.users u) = s.users u
        rw [hu]
        rfl
      have hsubs : ((s.tick c).commit i l).subs = s.subs := by
        funext k
        show (l.subWrites k).or (s.subs k) = s.subs k
        rw [hk]
        rfl
      refine ⟨⟨ha.congr husers hsubs, fun j hij => .of_same husers hsubs
        (fun _ h => release_other hij h) fun _ h => release_other hij h⟩, ?_⟩
      rcases hl' with rfl | rfl
      · exact .inr ⟨rfl, rfl⟩
      · exact .inl rfl
  · refine ⟨plain_keeps hcommit ha hx, ?_⟩
    rcases exec_plain hcommit hx with ⟨-, -, rfl, -⟩ | ⟨-, hp⟩
    · exact .inl rfl
    · cases o with
      | commit => cases hcommit
      | updateSubmission | setKycStatus | insertSubmission => cases ho
      | today | now | selectUser | activeKyc | selectSubmission | refresh => cases hp; exact hl

/-- **QUIET PROGRAMS** keep the agreement. -/
theorem quiet_uses {α : Type} {p : Program α} (hu : Prog.Uses (fun o : Op => o.isQuiet = true) p)
    (hl : l.Clear) :
    Safe (agreement S) i (fun _ l' _ => l'.Clear) (fun _ l' _ => l'.Clear) p l s := by
  refine Safe.of_uses (P := agreement S) (F := fun o : Op => o.isQuiet = true)
    (A := fun (l' : Session) (_ : World) => l'.Clear) ?_ ?_ hu hl
  · intro (l₁ : Session) s₁ s₂ h _ _ _
    exact h
  · intro (o : Op) hq (l₁ : Session) (s₁ : World) h hh c r l' s' hx _
    exact quiet_call hq hh.inv h hx

/-! ## §7. Committing one submission with its user. -/

/-- The session has written one submission `k` and the row of its user `u`, with the same
status, and no other submission of the user is later or pending. -/
structure Settles (i u k : Nat) (x : User) (y : Submission) (l : Session) (s : World) : Prop where
  users : l.userWrites = update (fun _ => none) u (some x)
  subs : l.subWrites = update (fun _ => none) k (some y)
  lock : s.userLock u = some i
  lockSub : s.subLock k = some i
  owner : y.userId = u
  status : x.kycStatus = y.status.kycStatus
  sender : x.isAdmin = false
  before : ∀ y₀, s.subs k = some y₀ → y₀.userId = u
  last : ∀ k' y', s.subs k' = some y' → y'.userId = u → k' ≤ k
  others : ∀ k' y', s.subs k' = some y' → y'.userId = u → k' ≠ k → y'.status ≠ .pending

namespace Settles

variable {u k : Nat} {x : User} {y : Submission}

theorem user_same (h : Settles i u k x y l s) {v : Nat} (hv : v ≠ u) :
    (s.commit i l).users v = s.users v := by
  show (l.userWrites v).or (s.users v) = s.users v
  rw [h.users, Function.update_of_ne hv]
  rfl

theorem user_new (h : Settles i u k x y l s) : (s.commit i l).users u = some x := by
  show (l.userWrites u).or (s.users u) = some x
  rw [h.users, Function.update_self]
  rfl

theorem sub_same (h : Settles i u k x y l s) {k' : Nat} (hk : k' ≠ k) :
    (s.commit i l).subs k' = s.subs k' := by
  show (l.subWrites k').or (s.subs k') = s.subs k'
  rw [h.subs, Function.update_of_ne hk]
  rfl

theorem sub_new (h : Settles i u k x y l s) : (s.commit i l).subs k = some y := by
  show (l.subWrites k).or (s.subs k) = some y
  rw [h.subs, Function.update_self]
  rfl

/-- A submission of the new state is the written one or an old one. -/
theorem sub_cases (h : Settles i u k x y l s) {k' : Nat} {y' : Submission}
    (hk : (s.commit i l).subs k' = some y') :
    (k' = k ∧ y' = y) ∨ (k' ≠ k ∧ s.subs k' = some y') := by
  by_cases he : k' = k
  · subst he
    rw [h.sub_new] at hk
    exact .inl ⟨rfl, (Option.some.inj hk).symm⟩
  · exact .inr ⟨he, (h.sub_same he).symm.trans hk⟩

/-- Nobody else's submissions change. -/
theorem sameSubs (h : Settles i u k x y l s) {v : Nat} (hv : v ≠ u) :
    SameSubs v s (s.commit i l) := by
  intro k' y' hy'
  by_cases he : k' = k
  · subst he
    constructor
    · intro hk'
      rw [h.sub_new] at hk'
      cases hk'
      exact absurd (hy'.symm.trans h.owner) hv
    · intro hk'
      exact absurd (hy'.symm.trans (h.before y' hk')) hv
  · rw [h.sub_same he]

/-- **THE AGREEMENT IS KEPT**: the written submission is the latest of its user. -/
theorem agreed (h : Settles i u k x y l s) (ha : s.Agreed) : (s.commit i l).Agreed := by
  constructor
  · intro k' y' hk'
    rcases h.sub_cases hk' with ⟨-, rfl⟩ | ⟨-, hk'⟩
    · exact ⟨x, h.owner ▸ h.user_new, h.sender⟩
    · obtain ⟨x', hx', hn⟩ := ha.owned k' y' hk'
      by_cases hu : y'.userId = u
      · exact ⟨x, hu ▸ h.user_new, h.sender⟩
      · exact ⟨x', (h.user_same hu).trans hx', hn⟩
  · intro k' y' hk' hp
    refine ⟨hk', fun k₂ y₂ hk₂ hy₂ => ?_⟩
    rcases h.sub_cases hk' with ⟨rfl, rfl⟩ | ⟨hne, hk''⟩
    · rcases h.sub_cases hk₂ with ⟨rfl, -⟩ | ⟨-, hk₂⟩
      · exact Nat.le_refl _
      · exact h.last k₂ y₂ hk₂ (hy₂.trans h.owner)
    · have hu : y'.userId ≠ u := fun hu => h.others k' y' hk'' hu hne hp
      exact (ha.single k' y' hk'' hp).2 k₂ y₂ ((h.sameSubs hu k₂ y₂ hy₂).mp hk₂) hy₂
  · intro k' y' x' hlatest hx'
    by_cases hu : y'.userId = u
    · have he : k' = k ∧ y' = y := by
        rcases h.sub_cases hlatest.1 with he | ⟨hne, hk'⟩
        · exact he
        · have hle := hlatest.2 k y h.sub_new (h.owner.trans hu.symm)
          have hge := h.last k' y' hk' hu
          omega
      obtain ⟨rfl, rfl⟩ := he
      rw [h.owner, h.user_new] at hx'
      cases hx'
      exact h.status
    · rw [h.user_same hu] at hx'
      refine ha.latest k' y' x' ⟨(h.sameSubs hu k' y' rfl).mp hlatest.1, ?_⟩ hx'
      intro k₂ y₂ hk₂ hy₂
      exact hlatest.2 k₂ y₂ ((h.sameSubs hu k₂ y₂ hy₂).mpr hk₂) hy₂
  · intro v x' hx' hnone
    have hv : v ≠ u := fun hv => hnone k y h.sub_new (hv ▸ h.owner)
    rw [h.user_same hv] at hx'
    exact ha.nobody v x' hx' fun k' y' hk' hy' =>
      hnone k' y' ((h.sameSubs hv k' y' hy').mpr hk') hy'

theorem protects (h : Settles i u k x y l s) (hij : j ≠ i) : Protects j s (s.commit i l) := by
  constructor
  · intro v x' hl hx' _
    have hv : v ≠ u := by
      rintro rfl
      rw [h.lock] at hl
      cases hl
      exact hij rfl
    exact ⟨release_other hij hl, (h.user_same hv).trans hx', h.sameSubs hv⟩
  · intro k' y' x' hl hk' hp hx'
    have hu : y'.userId ≠ u := by
      intro hu
      have hk : k' ≠ k := by
        rintro rfl
        rw [h.lockSub] at hl
        cases hl
        exact hij rfl
      exact h.others k' y' hk' hu hk hp
    exact ⟨release_other hij hl, (h.user_same hu).trans hx', h.sameSubs hu⟩

/-- COMMIT of a session that settles keeps the protocol and leaves nothing written. -/
theorem commit_call (h : Settles i u k x y l s) (ha : s.Agreed) {r : Except Exn Unit}
    (hx : exec S i .commit c l s = some (r, l', s')) :
    (agreement S).keeps i s s' ∧ l'.Clear := by
  have hsame : ∀ j, Protects j s (s.tick c) :=
    fun _ => .of_same rfl rfl (fun _ h => h) fun _ h => h
  have htick : Settles i u k x y l (s.tick c) := { h with }
  have ha' : (s.tick c).Agreed := ha.congr rfl rfl
  rcases exec_commit hx with ⟨rfl, rfl⟩ | ⟨-, rfl, hl'⟩
  · exact ⟨⟨ha', fun j _ => hsame j⟩, .inl rfl⟩
  · refine ⟨⟨htick.agreed ha', fun j hij => (hsame j).trans (htick.protects hij)⟩, ?_⟩
    rcases hl' with rfl | rfl
    · exact .inr ⟨rfl, rfl⟩
    · exact .inl rfl

end Settles

/-! ## §8. A post's two rows. -/

/-- The user row is flushed as `pending` over one that is not. -/
structure Flushed (i u : Nat) (x : User) (l : Session) (s : World) : Prop where
  live : l.failed = false
  users : l.userWrites = update (fun _ => none) u (some { x with kycStatus := .pending })
  lock : s.userLock u = some i
  stored : s.users u = some x
  notPending : x.kycStatus ≠ .pending
  sender : x.isAdmin = false

/-- And so is the submission `k`, later than all the others of the user. -/
structure Posted (i u : Nat) (x : User) (k : Nat) (y : Submission) (l : Session) (s : World) :
    Prop extends Flushed i u x l s where
  subs : l.subWrites = update (fun _ => none) k (some y)
  owner : y.userId = u
  pending : y.status = .pending
  lockSub : s.subLock k = some i
  new : s.subs k = none
  last : ∀ k' y', s.subs k' = some y' → y'.userId = u → k' < k

theorem Flushed.sees {u : Nat} {x : User} (h : Flushed i u x l s)
    (hs : (agreement S).Sees i s s') : Flushed i u x l s' := by
  obtain ⟨hlock, hx, -⟩ := hs.rely.user u x h.lock h.stored h.notPending
  exact ⟨h.live, h.users, hlock, hx, h.notPending, h.sender⟩

theorem Posted.sees {u k : Nat} {x : User} {y : Submission} (h : Posted i u x k y l s)
    (hs : (agreement S).Sees i s s') : Posted i u x k y l s' := by
  obtain ⟨-, -, hsame⟩ := hs.rely.user u x h.lock h.stored h.notPending
  obtain ⟨hlock, hk⟩ := hs.moves.subLock k h.lockSub
  exact ⟨h.toFlushed.sees hs, h.subs, h.owner, h.pending, hlock, hk.trans h.new,
    fun k' y' hk' hy' => h.last k' y' ((hsame k' y' hy').mp hk') hy'⟩

/-- No old submission of the user is pending, for the user is not. -/
theorem Posted.settles {u k : Nat} {x : User} {y : Submission} (h : Posted i u x k y l s)
    (ha : s.Agreed) : Settles i u k { x with kycStatus := .pending } y l s where
  users := h.users
  subs := h.subs
  lock := h.lock
  lockSub := h.lockSub
  owner := h.owner
  status := by rw [h.pending]; rfl
  sender := h.sender
  before := fun y₀ hk => by rw [h.new] at hk; cases hk
  last := fun k' y' hk' hy' => Nat.le_of_lt (h.last k' y' hk' hy')
  others := fun k' y' hk' hy' _ hp => h.notPending (ha.pending hk' hp (hy' ▸ h.stored))

/-! ## §9. A review's two rows. -/

/-- The pending submission `k` is decided. -/
structure Taken (i k : Nat) (y y' : Submission) (l : Session) (s : World) : Prop where
  live : l.failed = false
  subs : l.subWrites = update (fun _ => none) k (some y')
  owner : y'.userId = y.userId
  lockSub : s.subLock k = some i
  stored : s.subs k = some y
  pending : y.status = .pending
  user : ∃ x, s.users y.userId = some x ∧ x.isAdmin = false

/-- And its user's row is flushed with the same status. -/
structure Reviewed (i k : Nat) (y y' : Submission) (x : User) (l : Session) (s : World) :
    Prop extends Taken i k y y' l s where
  users : l.userWrites =
    update (fun _ => none) y.userId (some { x with kycStatus := y'.status.kycStatus })
  lock : s.userLock y.userId = some i
  storedUser : s.users y.userId = some x
  sender : x.isAdmin = false

theorem Taken.sees {k : Nat} {y y' : Submission} (h : Taken i k y y' l s)
    (hs : (agreement S).Sees i s s') : Taken i k y y' l s' := by
  obtain ⟨x, hx, hn⟩ := h.user
  obtain ⟨hlock, hx', hsame⟩ := hs.rely.sub k y x h.lockSub h.stored h.pending hx
  exact { h with lockSub := hlock, stored := (hsame k y rfl).mpr h.stored, user := ⟨x, hx', hn⟩ }

theorem Taken.uncommitted {k : Nat} {y y' : Submission} (h : Taken i k y y' l s)
    (hu : Uncommitted i (s.tick c) s') : Taken i k y y' l s' :=
  { h with
    lockSub := hu.subLock.keeps h.lockSub
    stored := by rw [hu.subs]; exact h.stored
    user := by rw [hu.users]; exact h.user }

theorem Reviewed.sees {k : Nat} {y y' : Submission} {x : User} (h : Reviewed i k y y' x l s)
    (hs : (agreement S).Sees i s s') : Reviewed i k y y' x l s' := by
  obtain ⟨hlock, hx⟩ := hs.moves.userLock _ x h.lock h.storedUser
  exact { h.toTaken.sees hs with
    users := h.users, lock := hlock, storedUser := hx, sender := h.sender }

/-- The decided submission was its user's only pending one, and the latest. -/
theorem Reviewed.settles {k : Nat} {y y' : Submission} {x : User} (h : Reviewed i k y y' x l s)
    (ha : s.Agreed) :
    Settles i y.userId k { x with kycStatus := y'.status.kycStatus } y' l s where
  users := h.users
  subs := h.subs
  lock := h.lock
  lockSub := h.lockSub
  owner := h.owner
  status := rfl
  sender := h.sender
  before := fun y₀ hk => by rw [h.stored] at hk; cases hk; rfl
  last := (ha.single k y h.stored h.pending).2
  others := by
    intro k' y₂ hk' hy₂ hne hp
    have h₁ := (ha.single k y h.stored h.pending).2 k' y₂ hk' hy₂
    have h₂ := (ha.single k' y₂ hk' hp).2 k y h.stored hy₂.symm
    omega

/-! ## §10. The service. -/

/-- The account is a sender's. -/
def World.Sender (s : World) (u : Nat) : Prop := ∃ x, s.users u = some x ∧ x.isAdmin = false

theorem World.Sender.others {u : Nat} (h : s.Sender u) (ho : Others i s s') : s'.Sender u := by
  obtain ⟨x, hx, hn⟩ := h
  obtain ⟨x', hx', he⟩ := ho.users u x hx
  exact ⟨x', hx', he.trans hn⟩

theorem Session.Clear.user {u : Nat} (hl : l.Clear) (hf : l.failed = false) :
    l.user s u = s.users u := by
  obtain ⟨hu, -⟩ := hl.resolve_left (by simp [hf])
  unfold Session.user
  rw [hu]
  rfl

theorem Session.Clear.sub {k : Nat} (hl : l.Clear) (hf : l.failed = false) :
    l.sub s k = s.subs k := by
  obtain ⟨-, hk⟩ := hl.resolve_left (by simp [hf])
  unfold Session.sub
  rw [hk]
  rfl

/-- A call whose end is quiet: its session ends clear, and so do the rest's. -/
abbrev ends (S : Setting) (i : Nat) {α : Type} (p : Program α) (l : Session) (s : World) : Prop :=
  Safe (agreement S) i (fun _ l' _ => l'.Clear) (fun _ l' _ => l'.Clear) p l s

/-- Once the rows are written: COMMIT, then quiet calls. -/
theorem ends_of_settles {u k : Nat} {x : User} {y : Submission} {α : Type} {f : Unit → Program α}
    (h : ∀ s₁, (agreement S).Here i l s₁ → (agreement S).Sees i s s₁ → Settles i u k x y l s₁)
    (hf : Prog.Uses (fun o : Op => o.isQuiet = true) (f ())) :
    ends S i (Prog.bind (call .commit) f) l s := by
  refine Safe.call_bind fun _ s₁ hh hs c r l' s' hx _ => ?_
  obtain ⟨hk, hclear⟩ := (h s₁ hh hs).commit_call hh.inv hx
  refine ⟨hk, ?_⟩
  cases r with
  | ok a => exact quiet_uses hf hclear
  | error e => exact hclear

theorem exec_others (j : Nat) (ho : o.losesResponse = false)
    (hx : exec S i o c l s = some (r, l', s')) : Others j s s' :=
  Others.tick.trans (exec_uncommitted ho hx).others

/-- A post's INSERT and COMMIT. -/
theorem safe_insert {u : Nat} {x : User} {form : KycForm} {source : Text}
    (h : Flushed i u x l s) (hnosub : l.subWrites = fun _ => none) :
    ends S i (do
      let k ← call (.insertSubmission (newSubmission u form source))
      call .commit
      call .refresh
      return k) l s := by
  rw [Prog.bind_eq]
  refine Safe.call_bind fun _ s₁ hh hs c r l' s' hx hg' => ⟨plain_keeps rfl hh.inv hx, ?_⟩
  have h₁ := h.sees hs
  have hu := exec_uncommitted rfl hx
  rcases exec_insertSubmission hx with ⟨⟨e, rfl⟩, rfl⟩ | ⟨k, rfl, hf, hlt, hnone, rfl, hlock⟩
  · exact .inl rfl
  have hnew : s₁.subs k = none := (Option.or_eq_none_iff.mp hnone).2
  have hposted : Posted i u x k (newSubmission u form source k)
      { l with subWrites := update l.subWrites k (some (newSubmission u form source k)) } s' :=
    { live := hf, users := h₁.users, lock := hu.userLock.keeps h₁.lock
      stored := by rw [hu.users]; exact h₁.stored
      notPending := h₁.notPending, sender := h₁.sender
      subs := by rw [hnosub]
      owner := rfl, pending := rfl, lockSub := hlock
      new := by rw [hu.subs]; exact hnew
      last := fun k' y' hk' _ => by
        rw [hu.subs] at hk'
        have hle := (hh.world.named k' y' hk').2
        omega }
  exact ends_of_settles (fun s₂ hh₂ hs₂ => (hposted.sees hs₂).settles hh₂.inv)
    (Prog.uses_bind (Prog.uses_call rfl) fun _ => trivial)

theorem safe_saveSubmission (hS : S.checkedAtWrite = true) {u : Nat} {form : KycForm}
    {source : Text} {copy : User} (hl : l.Clear) (hcopy : l.userCopy u = some copy)
    (hp : copy.kycStatus ≠ .pending) (hu : s.Sender u) :
    ends S i (saveSubmission u form source) l s := by
  unfold saveSubmission
  rw [Prog.bind_eq]
  refine Safe.call_bind fun _ s₁ hh hs c r l' s' hx hg' => ⟨plain_keeps rfl hh.inv hx, ?_⟩
  have hu₁ : s'.Sender u := (hu.others hs.moves).others (exec_others i rfl hx)
  rcases exec_setKycStatus hx with ⟨⟨e, rfl⟩, rfl⟩ | ⟨copy', x, rfl, hf, hcopy', hx₀, hflush⟩
  · exact .inl rfl
  rw [hcopy] at hcopy'
  cases hcopy'
  obtain ⟨hcheck, rfl, hlock⟩ := hflush hp
  rw [hl.user hf] at hx₀
  have hstored : s'.users u = some x := by
    rw [(exec_uncommitted rfl hx).users]
    exact hx₀
  obtain ⟨x', hx', hn⟩ := hu₁
  rw [hstored] at hx'
  cases hx'
  obtain ⟨hnone, hnosub⟩ := hl.resolve_left (by simp [hf])
  have hflushed : Flushed i u x (l.setStatus u copy x .pending) s' :=
    ⟨hf, by unfold Session.setStatus; rw [hnone], hlock, hstored, hcheck hS rfl, hn⟩
  exact safe_insert hflushed hnosub

/-- **SUBMITTING**: the status is not pending at the flush, and stays so to the commit. -/
theorem safe_submitKyc (hS : S.checkedAtWrite = true) {u : Nat} {form : KycForm} {source : Text}
    {copy : User} (hl : l.Clear) (hcopy : l.userCopy u = some copy)
    (hp : copy.kycStatus ≠ .pending) (hu : s.Sender u) :
    ends S i (submitKyc u form source) l s := by
  unfold submitKyc
  rw [Prog.bind_eq]
  refine Safe.call_bind fun _ s₁ hh hs c r l' s' hx hg' => ⟨plain_keeps rfl hh.inv hx, ?_⟩
  have hu₁ : s'.Sender u := (hu.others hs.moves).others (exec_others i rfl hx)
  obtain ⟨today, rfl, rfl, -⟩ := exec_today hx
  show ends S i (if age today form.dateOfBirth < 18 then _ else _) l' s'
  split
  · exact safe_raise fun _ => hl
  · split
    · exact safe_raise fun _ => hl
    · exact safe_saveSubmission hS hl hcopy hp hu₁

/-- The route: the post is quiet unless the status it loads lets it through. -/
theorem safe_kycSubmit (hS : S.checkedAtWrite = true) {u : Nat} {form : KycForm}
    (hl : l.Clear) (hcopies : ∀ v, l.userCopy v = none) :
    ends S i (kycSubmit u form) l s := by
  unfold kycSubmit
  rw [Prog.bind_eq]
  refine Safe.call_bind fun _ s₁ hh hs c r l' s' hx hg' => ?_
  obtain ⟨hk, hclear⟩ := quiet_call rfl hh.inv hl hx
  refine ⟨hk, ?_⟩
  rcases exec_selectUser hx with ⟨⟨e, rfl⟩, -⟩ | ⟨rfl, hf, -, hl'⟩
  · exact hclear
  have hread : l.identify s₁ u = s₁.users u := by
    unfold Session.identify
    rw [hcopies u, hl.user hf]
    rfl
  rw [hread] at hl' ⊢
  cases hx₀ : s₁.users u with
  | none => exact (fun _ => hclear : ends S i (.ret (Reply.redirect "/login" none)) l' s')
  | some user =>
    show ends S i (if user.kycStatus = .approved then _ else _) l' s'
    split
    · exact safe_ret fun _ => hclear
    next happroved =>
      split
      · exact safe_ret fun _ => hclear
      next hpending =>
        have hrefuse : ∀ text l₁ s₂, l₁.Clear → ends S i (refuse u text) l₁ s₂ :=
          fun text _ _ h => quiet_uses (Prog.uses_bind (Prog.uses_call rfl) fun _ => trivial) h
        split
        · exact hrefuse _ _ _ hclear
        next source _ =>
          -- past both checks the session holds the copy it has checked
          have hcopy : l'.userCopy u = some user := by
            rw [hl', hx₀]
            exact Function.update_self _ _ _
          have hsender : s'.Sender u := World.Sender.others
            ⟨user, hx₀, hh.inv.sender hx₀ happroved⟩ (exec_others i rfl hx)
          unfold trySubmit
          rw [Prog.bind_eq]
          refine Safe.attempt_bind (safe_submitKyc hS hclear hcopy hpending hsender)
            (fun _ _ _ h => safe_ret fun _ => h) fun e l₁ s₂ h => ?_
          cases (e : Exn) with
          | valueError text => exact hrefuse _ _ _ h
          | reviewError text => exact hrefuse _ _ _ h
          | db cls => exact safe_raise fun _ => h
          | http n => exact safe_raise fun _ => h

/-! ## §11. A review. -/

/-- The session has loaded the submission's user while the submission was pending, if it
still is. -/
def Known (k u : Nat) (l : Session) (s : World) : Prop :=
  ∃ y, s.subs k = some y ∧ y.userId = u ∧
    (y.status = .pending → ∃ copy, l.userCopy u = some copy ∧ copy.kycStatus = .pending)

theorem Known.others {k u : Nat} (h : Known k u l s) (ho : Others i s s') : Known k u l s' := by
  obtain ⟨y, hy, hu, hcopy⟩ := h
  obtain ⟨y', hy', hdec⟩ := ho.subs k y hy
  refine ⟨y', hy', hdec.userId.trans hu, fun hp => hcopy ?_⟩
  by_contra hn
  rw [hdec.final hn] at hp
  exact hn hp

/-- From the flush of the decided submission's user to the end. -/
theorem safe_userStatus {k : Nat} {y y' : Submission} {copy : User} (h : Taken i k y y' l s)
    (hd : y'.status ≠ .pending) (hnone : l.userWrites = fun _ => none)
    (hcopy : l.userCopy y.userId = some copy) (hp : copy.kycStatus = .pending) :
    ends S i (do
      call (.setKycStatus y.userId y'.status.kycStatus)
      call .commit
      call .refresh) l s := by
  rw [Prog.bind_eq]
  refine Safe.call_bind fun _ s₁ hh hs c r l' s' hx hg' => ⟨plain_keeps rfl hh.inv hx, ?_⟩
  have h₁ := h.sees hs
  have hu := exec_uncommitted rfl hx
  rcases exec_setKycStatus hx with ⟨⟨e, rfl⟩, rfl⟩ | ⟨copy', x, rfl, hf, hcopy', hx₀, hflush⟩
  · exact .inl rfl
  rw [hcopy] at hcopy'
  cases hcopy'
  have hne : copy.kycStatus ≠ y'.status.kycStatus := by
    rw [hp]
    cases hst : y'.status with
    | pending => exact absurd hst hd
    | approved => decide
    | rejected => decide
  obtain ⟨-, rfl, hlock⟩ := hflush hne
  have hstored : s₁.users y.userId = some x := by
    unfold Session.user at hx₀
    rw [hnone] at hx₀
    exact hx₀
  obtain ⟨x', hx', hn⟩ := h₁.user
  rw [hstored] at hx'
  cases hx'
  have hreviewed : Reviewed i k y y' x (l.setStatus y.userId copy x y'.status.kycStatus) s' :=
    { h₁.uncommitted hu with
      users := by unfold Session.setStatus; rw [hnone]
      lock := hlock
      storedUser := by rw [hu.users]; exact hstored
      sender := hn }
  exact ends_of_settles (fun s₂ hh₂ hs₂ => (hreviewed.sees hs₂).settles hh₂.inv)
    (Prog.uses_call rfl)

/-- The user is selected again, as loaded. -/
theorem safe_settleUser {k : Nat} {y y' : Submission} {copy : User} (h : Taken i k y y' l s)
    (hd : y'.status ≠ .pending) (hnone : l.userWrites = fun _ => none)
    (hcopy : l.userCopy y.userId = some copy) (hp : copy.kycStatus = .pending) :
    ends S i (settleUser y.userId y'.status.kycStatus) l s := by
  unfold settleUser
  rw [Prog.bind_eq]
  refine Safe.call_bind fun _ s₁ hh hs c r l' s' hx hg' => ⟨plain_keeps rfl hh.inv hx, ?_⟩
  have hu := exec_uncommitted rfl hx
  rcases exec_selectUser hx with ⟨⟨e, rfl⟩, rfl⟩ | ⟨rfl, -, -, rfl⟩
  · exact .inl rfl
  have hread : l.identify s₁ y.userId = some copy := by
    unfold Session.identify
    rw [hcopy]
    rfl
  have htaken : Taken i k y y'
      { l with userCopy := update l.userCopy y.userId (l.identify s₁ y.userId) } s' :=
    { (h.sees hs).uncommitted hu with }
  rw [hread] at htaken ⊢
  exact safe_userStatus htaken hd hnone (Function.update_self _ _ _) hp

/-- **REVIEWING**: whoever decides a pending submission gives its user the same status. -/
theorem safe_review {k admin : Nat} {submission : Submission} {decision : SubmissionStatus}
    {reason : Option Text} (hd : decision ≠ .pending) (hl : l.Clear)
    (hknown : Known k submission.userId l s) :
    ends S i (review k submission admin decision decision.kycStatus reason) l s := by
  unfold review
  rw [Prog.bind_eq]
  refine Safe.call_bind fun _ s₁ hh hs c r l' s' hx hg' => ⟨plain_keeps rfl hh.inv hx, ?_⟩
  have hknown₁ : Known k submission.userId l s' :=
    (hknown.others hs.moves).others (exec_others i rfl hx)
  obtain ⟨now, rfl, rfl, -⟩ := exec_now hx
  clear hx hg' hh hs hknown
  show ends S i (Prog.bind (call (.updateSubmission k isPending _)) _) l' s'
  refine Safe.call_bind fun _ s₂ hh hs c r l'' s'' hx hg' => ⟨plain_keeps rfl hh.inv hx, ?_⟩
  have hu := exec_uncommitted rfl hx
  obtain ⟨y, hy, howner, hcopy⟩ := hknown₁.others hs.moves
  rcases exec_updateSubmission hx with ⟨⟨e, rfl⟩, rfl⟩ | ⟨rfl, rfl⟩ | ⟨x, rfl, hf, hx₀, hc,
    rfl, hlock⟩
  · exact .inl rfl
  · exact quiet_uses (Prog.uses_bind (Prog.uses_call rfl) fun _ => trivial) hl
  · rw [hl.sub hf, hy] at hx₀
    cases hx₀
    have hp : y.status = .pending := by simpa [isPending] using hc
    obtain ⟨copy, hcopy, hcp⟩ := hcopy hp
    obtain ⟨hnone, hnosub⟩ := hl.resolve_left (by simp [hf])
    have htaken : Taken i k y (decided decision admin now reason y)
        { l' with subWrites := update l'.subWrites k (some (decided decision admin now reason y)) }
        s'' :=
      { live := hf, subs := by rw [hnosub], owner := rfl, lockSub := hlock
        stored := by rw [hu.subs]; exact hy
        pending := hp
        user := by rw [hu.users]; exact hh.inv.owned k y hy }
    rw [← howner] at hcopy ⊢
    show ends S i (settleUser y.userId decision.kycStatus) _ s''
    exact safe_settleUser htaken hd hnone hcopy hcp

/-! ## §12. The admin's routes. -/

/-- Whoever is loaded is an admin. -/
def OnlyAdmins (l : Session) (s : World) : Prop :=
  ∀ v copy, l.userCopy v = some copy → ∃ x, s.users v = some x ∧ x.isAdmin = true

/-- What is loaded stays loaded when another user is. -/
theorem identify_keeps {u v : Nat} {copy : User} (h : l.userCopy u = some copy) :
    update l.userCopy v (l.identify s v) u = some copy := by
  by_cases hv : u = v
  · subst hv
    rw [Function.update_self]
    unfold Session.identify
    rw [h]
    rfl
  · rw [Function.update_of_ne hv, h]

/-- The submission with its user and its reviewer, then what is done with it. -/
theorem safe_onSubmission {k : Nat} {act : Submission → Option User → Program Reply}
    (hl : l.Clear) (hcopies : OnlyAdmins l s)
    (hact : ∀ x user l' s', l'.Clear → Known k x.userId l' s' → ends S i (act x user) l' s') :
    ends S i (onSubmission k act) l s := by
  unfold onSubmission
  rw [Prog.bind_eq]
  refine Safe.call_bind fun _ s₁ hh hs c r l' s' hx hg' => ⟨plain_keeps rfl hh.inv hx, ?_⟩
  have hcopies₁ : OnlyAdmins l s' := by
    intro v copy hv
    obtain ⟨x, hx₀, hadmin⟩ := hcopies v copy hv
    obtain ⟨x', hx', he⟩ := (hs.moves.trans (exec_others i rfl hx)).users v x hx₀
    exact ⟨x', hx', he.trans hadmin⟩
  rcases exec_selectSubmission hx with ⟨⟨e, rfl⟩, rfl⟩ | ⟨rfl, hf, hs', rfl⟩
  · exact .inl rfl
  rw [hl.sub hf]
  cases hy : s₁.subs k with
  | none =>
    exact (fun _ => hl : ends S i (.ret (Reply.redirect "/admin/kyc"
      (some ("Submission not found.", "danger")))) l' s')
  | some y =>
    have hy' : s'.subs k = some y := by rw [(exec_uncommitted rfl hx).subs]; exact hy
    clear hx hg' hh hs hcopies hs' hy
    show ends S i (Prog.bind (call (.selectUser y.userId)) _) l' s'
    refine Safe.call_bind fun _ s₂ hh hs c r l'' s'' hx hg' => ?_
    obtain ⟨hk, hclear⟩ := quiet_call rfl hh.inv hl hx
    refine ⟨hk, ?_⟩
    rcases exec_selectUser hx with ⟨⟨e, rfl⟩, -⟩ | ⟨rfl, -, -, hl''⟩
    · exact hclear
    have hknown : Known k y.userId l'' s'' := by
      obtain ⟨y₂, hy₂, hdec⟩ := hs.moves.subs k y hy'
      refine ⟨y₂, by rw [(exec_uncommitted rfl hx).subs]; exact hy₂, hdec.userId, fun hp => ?_⟩
      obtain ⟨x, hx₀, hn⟩ := hh.inv.owned k y₂ hy₂
      rw [hdec.userId] at hx₀
      refine ⟨x, ?_, hh.inv.pending hy₂ hp (hdec.userId ▸ hx₀)⟩
      -- an admin's account has no submissions, so this user has not been loaded before
      have hunloaded : l'.userCopy y.userId = none := by
        cases hc : l'.userCopy y.userId with
        | none => rfl
        | some copy =>
          obtain ⟨x', hx', hadmin⟩ := hcopies₁ _ _ hc
          obtain ⟨x₂, hx₂, he⟩ := hs.moves.users _ _ hx'
          rw [hx₀] at hx₂
          cases hx₂
          rw [he, hadmin] at hn
          cases hn
      rw [hl'']
      show update l'.userCopy y.userId (l'.identify s₂ y.userId) y.userId = some x
      rw [Function.update_self]
      unfold Session.identify
      rw [hunloaded, hl.user hf, hx₀]
      rfl
    clear hx hg' hh hs hl''
    show ends S i (Prog.bind (loadReviewer y) _) l'' s''
    refine Safe.bind (R := fun _ l₁ s₁ => l₁.Clear ∧ Known k y.userId l₁ s₁) ?_
      fun _ l₁ s₁ h => hact _ _ _ _ h.1 h.2
    unfold loadReviewer
    split
    · exact safe_ret fun _ => ⟨hclear, hknown⟩
    next reviewer _ =>
      rw [Prog.bind_eq]
      refine Safe.call_bind fun _ s₃ hh hs c r l₃ s₃' hx hg' => ?_
      obtain ⟨hk, hclear₃⟩ := quiet_call rfl hh.inv hclear hx
      refine ⟨hk, ?_⟩
      rcases exec_selectUser hx with ⟨⟨e, rfl⟩, -⟩ | ⟨rfl, -, -, hl₃⟩
      · exact hclear₃
      · intro _
        refine ⟨hclear₃, ?_⟩
        obtain ⟨y₂, hy₂, howner, hcopy⟩ :=
          (hknown.others hs.moves).others (exec_others i rfl hx)
        refine ⟨y₂, hy₂, howner, fun hp => ?_⟩
        obtain ⟨copy, hcopy, hcp⟩ := hcopy hp
        exact ⟨copy, by rw [hl₃]; exact identify_keeps hcopy, hcp⟩

theorem safe_asAdmin {admin : Nat} {act : Program Reply} (hl : l.Clear)
    (hcopies : ∀ v, l.userCopy v = none)
    (hact : ∀ l' s', l'.Clear → OnlyAdmins l' s' → ends S i act l' s') :
    ends S i (asAdmin admin act) l s := by
  unfold asAdmin
  rw [Prog.bind_eq]
  refine Safe.call_bind fun _ s₁ hh hs c r l' s' hx hg' => ?_
  obtain ⟨hk, hclear⟩ := quiet_call rfl hh.inv hl hx
  refine ⟨hk, ?_⟩
  rcases exec_selectUser hx with ⟨⟨e, rfl⟩, -⟩ | ⟨rfl, hf, -, hl'⟩
  · exact hclear
  have hread : l.identify s₁ admin = s₁.users admin := by
    unfold Session.identify
    rw [hcopies admin, hl.user hf]
    rfl
  rw [hread] at hl' ⊢
  cases hx₀ : s₁.users admin with
  | none => exact (fun _ => hclear : ends S i (.raise (Exn.http 302) : Program Reply) l' s')
  | some user =>
    show ends S i (if user.isAdmin = true then act else throw (.http 403)) l' s'
    split
    next hadmin =>
      refine hact l' s' hclear fun v copy hv => ?_
      rw [hl', hx₀] at hv
      by_cases he : v = admin
      · subst he
        exact ⟨user, by rw [(exec_uncommitted rfl hx).users]; exact hx₀, hadmin⟩
      · have hnone : l.userCopy v = some copy := by
          rw [← hv]
          exact (Function.update_of_ne he _ _).symm
        rw [hcopies v] at hnone
        cases hnone
    · exact safe_raise fun _ => hclear

/-- A new account has no submissions, and nobody has locked its row. -/
theorem env_agreed {v : Env} (ha : s.Agreed) (hx : World.env v s = some s') :
    s'.Agreed ∧ ∀ j, Protects j s s' := by
  cases v with
  | wait dt =>
    cases hx
    exact ⟨ha.congr rfl rfl, fun j => .of_same rfl rfl (fun _ h => h) fun _ h => h⟩
  | register u fullName isAdmin =>
    simp only [World.env] at hx
    split at hx
    next hn =>
      rw [Option.isNone_iff_eq_none] at hn
      cases hx
      have hold : ∀ v x, s.users v = some x →
          update s.users u (some (User.create fullName isAdmin)) v = some x := by
        intro v x hv
        rw [Function.update_of_ne, hv]
        rintro rfl
        rw [hn] at hv
        cases hv
      -- no submission is of the new account
      have howner : ∀ k y, s.subs k = some y → y.userId ≠ u := by
        rintro k y hk rfl
        obtain ⟨x, hx, -⟩ := ha.owned k y hk
        rw [hn] at hx
        cases hx
      refine ⟨⟨?_, ha.single, ?_, ?_⟩, fun j => ⟨?_, ?_⟩⟩
      · intro k y hk
        obtain ⟨x, hx, hadmin⟩ := ha.owned k y hk
        exact ⟨x, hold _ x hx, hadmin⟩
      · intro k y x hlatest hx
        have hx' : update s.users u (some (User.create fullName isAdmin)) y.userId = some x := hx
        rw [Function.update_of_ne (howner k y hlatest.1)] at hx'
        exact ha.latest k y x hlatest hx'
      · intro v x hx hnone
        have hx' : update s.users u (some (User.create fullName isAdmin)) v = some x := hx
        by_cases hv : v = u
        · subst hv
          rw [Function.update_self] at hx'
          cases hx'
          rfl
        · rw [Function.update_of_ne hv] at hx'
          exact ha.nobody v x hx' hnone
      · intro v x hl hx _
        exact ⟨hl, hold v x hx, .refl _ _⟩
      · intro k y x hl _ _ hx
        exact ⟨hl, hold _ x hx, .refl _ _⟩
    · cases hx

/-- **EVERY PROGRAM IS SAFE** when posts are checked at the write. -/
theorem kyc_sound (hS : S.checkedAtWrite = true) : (agreement S).Sound where
  spawn := fun s ha => ⟨ha.congr rfl rfl, fun j => .of_same rfl rfl (fun _ h => h) fun _ h => h⟩
  close := fun i s ha => ⟨ha.congr rfl rfl,
    fun j hij => .of_same rfl rfl (fun _ h => release_other hij h) fun _ h => release_other hij h⟩
  env := by
    intro v s s' _ _ ha hx
    exact env_agreed ha hx
  body := by
    intro s e _
    have hclear : Session.start.Clear := .inr ⟨rfl, rfl⟩
    have hdone : ∀ p : Program Reply, ends S ((kyc S).next s) p Session.start ((kyc S).spawn s) →
        SafeEnd (agreement S) ((kyc S).next s) (discard p) Session.start ((kyc S).spawn s) := by
      intro p hp
      exact Safe.bind (hp.mono (fun _ _ _ _ _ => trivial) fun _ _ _ _ _ => trivial)
        fun _ _ _ _ => safe_ret fun _ => trivial
    cases e with
    | kycSubmit u form => exact hdone _ (safe_kycSubmit hS hclear fun _ => rfl)
    | kycApprove k admin =>
      refine hdone _ (safe_asAdmin hclear (fun _ => rfl) fun l₁ s₁ hl₁ hcopies =>
        safe_onSubmission hl₁ hcopies fun x user l₂ s₂ hl₂ hknown => ?_)
      refine Safe.attempt_bind (safe_review (nofun : SubmissionStatus.approved ≠ .pending)
        hl₂ hknown)
        (fun _ _ _ h => safe_ret fun _ => h) fun e l₃ s₃ h => ?_
      cases (e : Exn) with
      | reviewError text => exact safe_ret fun _ => h
      | valueError text => exact safe_raise fun _ => h
      | db cls => exact safe_raise fun _ => h
      | http n => exact safe_raise fun _ => h
    | kycReject k admin reason =>
      refine hdone _ (safe_asAdmin hclear (fun _ => rfl) fun l₁ s₁ hl₁ hcopies =>
        safe_onSubmission hl₁ hcopies fun x user l₂ s₂ hl₂ hknown => ?_)
      have hreject : ends S ((kyc S).next s) (rejectKyc k x admin reason) l₂ s₂ := by
        unfold rejectKyc
        split
        · exact safe_raise fun _ => hl₂
        · exact safe_review (by decide) hl₂ hknown
      refine Safe.attempt_bind hreject (fun _ _ _ h => safe_ret fun _ => h) fun e l₃ s₃ h => ?_
      cases (e : Exn) with
      | reviewError text => exact safe_ret fun _ => h
      | valueError text => exact safe_ret fun _ => h
      | db cls => exact safe_raise fun _ => h
      | http n => exact safe_raise fun _ => h

end Orbyt.Kyc
