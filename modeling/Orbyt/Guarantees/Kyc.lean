/-
  Orbyt.Guarantees.Kyc — one open submission, and a status that agrees with it

  Main results:
    * `kyc_agrees` — as long as no post flushes onto a status that is pending already, a
      sender has at most one pending submission, and `users.kyc_status` is the status of
      the most recent one;
    * `kyc_double_post` — two posts that both pass the route's check leave two pending
      submissions, and reviews of these leave a status that is not the recent one's.
-/
import Orbyt.Invariants.Kyc

namespace Orbyt.Kyc

open Interleave

variable {S : Setting}

/-! ## §1. The most recent submission. -/

/-- What `get_active_kyc` finds: the user's submission with the greatest `submitted_at`. -/
theorem getActiveKyc_spec (rows : Nat → Option Submission) (u n : Nat) :
    (getActiveKyc rows u n = none → ∀ k < n, ∀ y, rows k = some y → y.userId ≠ u) ∧
      ∀ x, getActiveKyc rows u n = some x → ∃ k < n, rows k = some x ∧ x.userId = u ∧
        ∀ k' < n, ∀ y, rows k' = some y → y.userId = u → y.submittedAt ≤ x.submittedAt := by
  induction n with
  | zero => exact ⟨fun _ k hk => absurd hk (Nat.not_lt_zero k), nofun⟩
  | succ n ih =>
    unfold getActiveKyc
    cases hrow : (rows n).filter (·.userId == u) with
    | none =>
      -- the row `n` is not the user's
      have hn : ∀ y, rows n = some y → y.userId ≠ u := by
        intro y hy hu
        rw [hy, Option.filter_some, if_pos (by simp [hu])] at hrow
        cases hrow
      refine ⟨fun h k hk y hy => ?_, fun x h => ?_⟩
      · rcases Nat.lt_succ_iff_lt_or_eq.mp hk with hk | rfl
        · exact ih.1 h k hk y hy
        · exact hn y hy
      · obtain ⟨k, hk, hx, hu, hmax⟩ := ih.2 x h
        refine ⟨k, Nat.lt_succ_of_lt hk, hx, hu, fun k' hk' y hy hyu => ?_⟩
        rcases Nat.lt_succ_iff_lt_or_eq.mp hk' with hk' | rfl
        · exact hmax k' hk' y hy hyu
        · exact absurd hyu (hn y hy)
    | some x =>
      obtain ⟨hx, hu⟩ := Option.filter_eq_some_iff.mp hrow
      rw [beq_iff_eq] at hu
      refine ⟨fun h => ?_, fun z h => ?_⟩
      · cases hbest : getActiveKyc rows u n <;> rw [hbest] at h <;> cases h
      · cases hbest : getActiveKyc rows u n with
        | none =>
          rw [hbest] at h
          cases h
          refine ⟨n, Nat.lt_succ_self n, hx, hu, fun k' hk' y hy hyu => ?_⟩
          rcases Nat.lt_succ_iff_lt_or_eq.mp hk' with hk' | rfl
          · exact absurd hyu (ih.1 hbest k' hk' y hy)
          · rw [hx] at hy
            cases hy
            exact Nat.le_refl _
        | some best =>
          rw [hbest] at h
          obtain ⟨k, hk, hb, hbu, hmax⟩ := ih.2 best hbest
          have hz : z = if best.submittedAt ≤ x.submittedAt then x else best :=
            (Option.some.inj h).symm
          split at hz
          next hle =>
            subst hz
            refine ⟨n, Nat.lt_succ_self n, hx, hu, fun k' hk' y hy hyu => ?_⟩
            rcases Nat.lt_succ_iff_lt_or_eq.mp hk' with hk' | rfl
            · exact Nat.le_trans (hmax k' hk' y hy hyu) hle
            · rw [hx] at hy
              cases hy
              exact Nat.le_refl _
          next hgt =>
            subst hz
            refine ⟨k, Nat.lt_succ_of_lt hk, hb, hbu, fun k' hk' y hy hyu => ?_⟩
            rcases Nat.lt_succ_iff_lt_or_eq.mp hk' with hk' | rfl
            · exact hmax k' hk' y hy hyu
            · rw [hx] at hy
              cases hy
              omega

/-- The status of a most recent submission. -/
def recentStatus : Option Submission → KycStatus
  | none => .notSubmitted
  | some y => y.status.kycStatus

theorem World.Agreed.recent {s : World} (ha : s.Agreed) (hs : s.Regular) {u : Nat} {x : User}
    (hx : s.users u = some x) (hadmin : x.isAdmin = false) :
    x.kycStatus = recentStatus (getActiveKyc s.subs u (s.clock + 1)) := by
  obtain ⟨hnone, hsome⟩ := getActiveKyc_spec s.subs u (s.clock + 1)
  cases hlast : getActiveKyc s.subs u (s.clock + 1) with
  | none =>
    rw [ha.nobody u x hx, hadmin]
    · rfl
    -- no submission at all
    · intro k y hk
      exact hnone hlast k (Nat.lt_succ_of_le (hs.named k y hk).2) y hk
  | some y =>
    -- the one found is the latest, as rows are named by the instants of their submission
    obtain ⟨k, -, hk, hu, hmax⟩ := hsome y hlast
    refine ha.latest k y x ⟨hk, fun k' y' hk' hy' => ?_⟩ (hu ▸ hx)
    have hle := hmax k' (Nat.lt_succ_of_le (hs.named k' y' hk').2) y' hk' (hy'.trans hu)
    rw [(hs.named k y hk).1, (hs.named k' y' hk').1] at hle
    exact hle

/-! ## §2. The guarantee. -/

/-- **KYC AGREEMENT**, in every reachable state of every run in which each post finds a
status that is not pending when it flushes its own. -/
theorem kyc_agrees (hS : S.checkedAtWrite = true) {clock : Nat} {c : Config (kyc S)}
    (hc : Reach (World.initial clock) c) (u : Nat) :
    (∀ k k' y y', c.world.subs k = some y → c.world.subs k' = some y' → y.userId = u →
      y'.userId = u → y.status = .pending → y'.status = .pending → k = k') ∧
    ∀ x, c.world.users u = some x → x.isAdmin = false →
      x.kycStatus = recentStatus (getActiveKyc c.world.subs u (c.world.clock + 1)) := by
  have hregular : (World.initial clock).Regular := ⟨nofun⟩
  have hstart : (World.initial clock).Agreed :=
    ⟨nofun, nofun, fun _ _ _ h => (by cases h.1), nofun⟩
  have ha : c.world.Agreed :=
    (kyc_sound hS).reach (kyc_kept S) hregular hstart (fun _ _ => trivial) hc
  refine ⟨fun k k' y y' hk hk' hu hu' hp hp' => ?_, fun x hx hadmin => ?_⟩
  -- a pending one is the latest of its user, so that of two each would be the later
  · have h₁ := (ha.single k y hk hp).2 k' y' hk' (hu'.trans hu.symm)
    have h₂ := (ha.single k' y' hk' hp').2 k y hk (hu.trans hu'.symm)
    omega
  · exact ha.recent ((kyc_kept S).reach hregular hc).world hx hadmin

/-! ## §3. Two posts at once. -/

variable (S)

/-- The next `n` calls of `i` answer. -/
def steps (i n : Nat) : List (Label (kyc S)) :=
  List.replicate n (.call i ⟨0, .returns, ⟨2026, 1, 1⟩⟩)

def anAdult : KycForm := ⟨⟨1990, 1, 1⟩, "9001015009087".toList, "Salary".toList, []⟩

/-- A sender and an admin have registered. -/
def registered : List (Label (kyc S)) :=
  [.env (.register 7 "Thandi" false), .env (.register 8 "Sipho" true)]

/-- A post as program `i`, from start to end. -/
def posting (i : Nat) : List (Label (kyc S)) :=
  .start (.kycSubmit 7 anAdult) :: steps S i 6 ++ [.stop i]

def approving (i k : Nat) : List (Label (kyc S)) :=
  .start (.kycApprove k 8) :: steps S i 9 ++ [.stop i]

def rejecting (i k : Nat) : List (Label (kyc S)) :=
  .start (.kycReject k 8 "blurred".toList) :: steps S i 9 ++ [.stop i]

/-- Two posts of one sender have loaded the user before either of them writes. -/
def doublePosting : List (Label (kyc S)) :=
  registered S ++ [.start (.kycSubmit 7 anAdult), .start (.kycSubmit 7 anAdult)]
    ++ steps S 0 1 ++ steps S 1 1 ++ steps S 0 5 ++ [.stop 0] ++ steps S 1 5 ++ [.stop 1]

variable {S}

/-- Posted, rejected, posted again and approved. -/
theorem kyc_agrees_resubmitted : ∃ c : Config (kyc ⟨true⟩), Reach (World.initial 0) c ∧
    c.world.users 7 = some ⟨"Thandi", false, .approved⟩ ∧
    KycStatus.approved = recentStatus (getActiveKyc c.world.subs 7 (c.world.clock + 1)) := by
  have hrun : (Config.run (registered ⟨true⟩ ++ posting ⟨true⟩ 0 ++ rejecting ⟨true⟩ 1 4
      ++ posting ⟨true⟩ 2 ++ approving ⟨true⟩ 3 19) (Config.initial (World.initial 0))).map
        (fun c => c.world.users 7) = some (some ⟨"Thandi", false, .approved⟩) := by
    decide +kernel
  obtain ⟨c, hc, hx⟩ := Reach.of_run_map hrun
  exact ⟨c, hc, hx, (kyc_agrees rfl hc 7).2 _ hx rfl⟩

/-- Two pending submissions; and once the later one is approved and the earlier one
rejected, the status is the earlier one's. -/
theorem kyc_double_post :
    (¬ ∀ c : Config (kyc ⟨false⟩), Reach (World.initial 0) c → ∀ k k' y y',
      c.world.subs k = some y → c.world.subs k' = some y' → y.userId = 7 → y'.userId = 7 →
        y.status = .pending → y'.status = .pending → k = k') ∧
    ¬ ∀ c : Config (kyc ⟨false⟩), Reach (World.initial 0) c → ∀ x, c.world.users 7 = some x →
      x.kycStatus = recentStatus (getActiveKyc c.world.subs 7 (c.world.clock + 1)) := by
  constructor
  · intro hall
    have hrun : (Config.run (doublePosting ⟨false⟩) (Config.initial (World.initial 0))).map
        (fun c => ((c.world.subs 5).map (fun y => (y.userId, y.status)),
          (c.world.subs 10).map (fun y => (y.userId, y.status))))
          = some (some (7, .pending), some (7, .pending)) := by
      decide +kernel
    obtain ⟨c, hc, hrows⟩ := Reach.of_run_map hrun
    obtain ⟨h₁, h₂⟩ := Prod.mk.inj hrows
    obtain ⟨y, hy, hfields⟩ := Option.map_eq_some_iff.mp h₁
    obtain ⟨y', hy', hfields'⟩ := Option.map_eq_some_iff.mp h₂
    obtain ⟨hu, hp⟩ := Prod.mk.inj hfields
    obtain ⟨hu', hp'⟩ := Prod.mk.inj hfields'
    have heq := hall c hc 5 10 y y' hy hy' hu hu' hp hp'
    cases heq
  · intro hall
    have hrun : (Config.run (doublePosting ⟨false⟩ ++ approving ⟨false⟩ 2 10
        ++ rejecting ⟨false⟩ 3 5) (Config.initial (World.initial 0))).map
          (fun c => ((c.world.users 7).map (·.kycStatus),
            recentStatus (getActiveKyc c.world.subs 7 (c.world.clock + 1))))
          = some (some .rejected, .approved) := by
      decide +kernel
    obtain ⟨c, hc, hend⟩ := Reach.of_run_map hrun
    obtain ⟨hstatus, hrecent⟩ := Prod.mk.inj hend
    obtain ⟨x, hx, hx'⟩ := Option.map_eq_some_iff.mp hstatus
    have heq := hall c hc x hx
    rw [hx', hrecent] at heq
    cases heq

end Orbyt.Kyc
