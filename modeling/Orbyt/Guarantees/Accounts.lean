/-
  Orbyt.Guarantees.Accounts — one account for each email and mobile number, and clean refusals

  Main results:
    * `identity_unique`          — under any interleaving no two users share an email or a mobile
      number; and where no new account loses a race and every text fits its column, each
      registration and each profile edit ends as documented;
    * `registration_loses_race`  — a registration whose email is taken between its checks and its
      INSERT ends in an exception that nobody catches.
-/
import Orbyt.Invariants.Refusals

namespace Orbyt.Directory

open Interleave
open PyText

variable {S : Setting} {k k' : Config (accounts S)} {i : Nat}

/-! ## §1. Runs. -/

/-- What a request is about to be answered. -/
def replyOf (k : Config (accounts S)) (i : Nat) : Option Reply :=
  match k.threads i with
  | some ⟨_, .op (.respond reply) _⟩ => some reply
  | _ => none

theorem replyOf_some {reply : Reply} (h : replyOf k i = some reply) :
    ∃ l f, k.threads i = some ⟨l, .op (.respond reply) f⟩ := by
  unfold replyOf at h
  split at h
  next l reply' f hth =>
    obtain rfl := Option.some.inj h
    exact ⟨l, f, hth⟩
  next => cases h

/-- A step of a request records in its session the rows that it changes. -/
theorem written_records {th : Thread (accounts S)} {ch : Choice} (hth : k.threads i = some th)
    (h : k.step (.call i ch) = some k') :
    ∃ th', k'.threads i = some th' ∧
      ∀ u, (k'.world.users u ≠ k.world.users u → th'.session.written u = k'.world.users u) ∧
        (th.session.written u ≠ none → th'.session.written u ≠ none) := by
  obtain ⟨l, o, f, r, l', s', hth₀, hx, rfl⟩ := Config.step_call h
  rw [hth] at hth₀
  obtain rfl := Option.some.inj hth₀
  refine ⟨⟨l', f r⟩, Function.update_self .., fun u => ?_⟩
  have hquiet : ∀ {s' : World} {l' : Session}, SameRows k.world s' → l'.written = l.written →
      (s'.users u ≠ k.world.users u → l'.written u = s'.users u) ∧
        (l.written u ≠ none → l'.written u ≠ none) := by
    intro s' l' hrows hw
    rw [hrows.users, hw]
    exact ⟨fun hne => absurd rfl hne, fun hne => hne⟩
  cases exec_effect hx with
  | quiet hrows hlocks hl =>
    obtain rfl | rfl := hl
    · exact hquiet hrows rfl
    · exact hquiet hrows rfl
  | insertUser hrows => exact hquiet hrows rfl
  | updateUser hrows => exact hquiet hrows rfl
  | insertBeneficiary hrows => exact hquiet hrows rfl
  | updateBeneficiary hrows => exact hquiet hrows rfl
  | insertTransaction hrows => exact hquiet hrows rfl
  | rollback => exact hquiet ⟨rfl, rfl, rfl⟩ rfl
  -- the only call that stores rows, and it stores those the session has written
  | commit =>
    show ((l.userWrites u).or (k.world.users u) ≠ k.world.users u →
        (l.userWrites u).or (l.written u) = (l.userWrites u).or (k.world.users u)) ∧
      (l.written u ≠ none → (l.userWrites u).or (l.written u) ≠ none)
    cases hw : l.userWrites u with
    | none => exact ⟨fun hne => absurd rfl hne, fun hne => hne⟩
    | some x => simp

/-! ## §2. Unique, and refused cleanly. -/

/-- **IDENTITY IS UNIQUE**, and where no new account loses a race and every text fits its column,
registrations and profile edits end as documented. -/
theorem identity_unique (h : Reach World.initial k) :
    (∀ u v x y, k.world.users u = some x → k.world.users v = some y →
      normal x.email = normal y.email ∨ x.mobile = y.mobile → u = v) ∧
    (∀ i th ch k', k.threads i = some th → k.step (.call i ch) = some k' →
      ∃ th', k'.threads i = some th' ∧
        ∀ u, (k'.world.users u ≠ k.world.users u → th'.session.written u = k'.world.users u) ∧
          (th.session.written u ≠ none → th'.session.written u ≠ none)) ∧
    (S.apart = true → S.uncontested = true → S.fitting = true →
      ∀ (i : Nat) (l : Session) (reply : Reply) (f : Except Exn Unit → Program Unit),
        k.threads i = some ⟨l, .op (.respond reply) f⟩ → Documented l.entry reply l k.world) := by
  have hregular := ((accounts_kept S).reach regular_initial h).world
  refine ⟨fun u v x y hx hy hsame => ?_, fun i th ch k' hth hs => written_records hth hs,
    fun ha hun hfit i l reply f hth => documented_reach ha hun hfit h hth⟩
  obtain hemail | hmobile := hsame
  · rw [(hregular.proper u x hx).email, (hregular.proper v y hy).email] at hemail
    exact hregular.unique u v x y .email hx hy hemail
  · exact hregular.unique u v x y .mobile hx hy hmobile

/-- Every new account finds its details free, and every text fits. -/
def Setting.careful : Setting where
  hashRefusal := fun _ => none
  apart := true
  uncontested := true
  fitting := true

/-- Nothing is promised of the run. -/
def Setting.racing : Setting where
  hashRefusal := fun _ => none
  apart := true
  uncontested := false
  fitting := false

def registration (fullName mobile : String) : RegisterForm :=
  ⟨fullName.toList, "thandi@example.com".toList, mobile.toList, "password".toList,
    "password".toList⟩

theorem identity_unique_careful :
    ∃ k : Config (accounts .careful), Reach World.initial k ∧
      ∃ l f, k.threads 0 = some ⟨l, .op (.respond welcome) f⟩ ∧
        Documented l.entry welcome l k.world := by
  have hrun : (Config.run (M := accounts .careful)
      (.start (.register (registration "Thandi M" "+27821234567")) :: List.replicate 5
        (.call 0 none))
      (Config.initial World.initial)).map (replyOf · 0) = some (some welcome) := by decide +kernel
  obtain ⟨k, hk, hreply⟩ := Reach.of_run_map hrun
  obtain ⟨l, f, hth⟩ := replyOf_some hreply
  exact ⟨k, hk, l, f, hth, (identity_unique hk).2.2 rfl rfl rfl 0 l welcome f hth⟩

/-- **A REGISTRATION LOSES A RACE.**  Both find the email free; the second INSERT is refused by the
unique constraint, and `create_user` lets the IntegrityError go. -/
theorem registration_loses_race :
    ∃ k : Config (accounts .racing), Reach World.initial k ∧
      ∃ l f, k.threads 1 = some ⟨l, .op (.respond (.serverError .integrityError)) f⟩ ∧
        l.entry = .register (registration "Thandi N" "+27837654321") ∧
        ¬ Documented l.entry (.serverError .integrityError) l k.world := by
  have hrun : (Config.run (M := accounts .racing)
      [.start (.register (registration "Thandi M" "+27821234567")),
        .start (.register (registration "Thandi N" "+27837654321")),
        .call 0 none, .call 0 none, .call 1 none, .call 1 none,
        .call 0 none, .call 0 none, .call 1 none]
      (Config.initial World.initial)).map
        (fun k => (replyOf k 1, (k.threads 1).map (·.session.entry)))
      = some (some (.serverError .integrityError),
          some (.register (registration "Thandi N" "+27837654321"))) := by decide +kernel
  obtain ⟨k, hk, hread⟩ := Reach.of_run_map hrun
  obtain ⟨hreply, hentry⟩ := Prod.mk.inj hread
  obtain ⟨l, f, hth⟩ := replyOf_some hreply
  rw [hth, Option.map_some, Option.some.injEq] at hentry
  refine ⟨k, hk, l, f, hth, hentry, ?_⟩
  rw [hentry]
  -- the documented answers are the redirect and the page with errors; this is neither
  rintro (⟨hwelcome, -⟩ | ⟨⟨errors, hpage⟩, -⟩)
  · cases hwelcome
  · cases hpage

end Orbyt.Directory
