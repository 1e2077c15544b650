/-
  Orbyt.Recovery.Quiet — stopping what is in flight, and waiting

  A lock is held by a session that is still in flight, so that with everything in flight stopped
  nothing is locked.  From there on the platform is taken from one quiet state to the next: by a
  request that runs from start to end, by time that passes, by ledgers that close, and by a
  server that fills in its history.

  Main results:
    * `tidy_reach`   — every lock is held by whoever is in flight;
    * `leads_quiet`  — whatever is in flight can be stopped, and nothing else is changed;
    * `Leads.then`, `leads_request`, `leads_wait`, `leads_past`, `leads_hold` — from one quiet
      state to the next.
-/
import Orbyt.Invariants.Errands
import Orbyt.Recovery.Alone

namespace Orbyt

open Interleave
open ValidatedLedger
open Function (update)

variable {S : Setting} {i : Nat} {o : Op} {c : Choice} {l l' : Session} {s s' : World} {e : Entry}
  {k k' : Config (platform S)}

/-! ## §1. Who holds a lock. -/

/-- The holders of the locks are in flight. -/
def HeldBy (threads : Nat → Option (Thread (platform S))) (lock : Nat → Option Nat) : Prop :=
  ∀ key j, lock key = some j → (threads j).isSome = true

variable {threads threads' : Nat → Option (Thread (platform S))} {lock lock' : Nat → Option Nat}

theorem HeldBy.mono (h : HeldBy threads lock)
    (ht : ∀ j, (threads j).isSome = true → (threads' j).isSome = true) : HeldBy threads' lock :=
  fun key j hj => ht j (h key j hj)

theorem HeldBy.takes (h : HeldBy threads lock) (hi : (threads i).isSome = true)
    (ht : Takes i lock lock') : HeldBy threads lock' := by
  intro key j hj
  rcases ht key with he | ⟨-, he⟩
  · exact h key j (he ▸ hj)
  · obtain rfl : i = j := Option.some.inj (he.symm.trans hj)
    exact hi

/-- Whoever ends holds nothing any more. -/
theorem HeldBy.release (h : HeldBy threads lock)
    (ht : ∀ j, j ≠ i → (threads j).isSome = true → (threads' j).isSome = true) :
    HeldBy threads' (release lock i) := by
  intro key j hj
  obtain ⟨hlock, hne⟩ := Option.filter_eq_some_iff.mp hj
  exact ht j (by simpa using hne) (h key j hlock)

/-- Whoever is in flight has a name that was given out, and only they hold locks. -/
structure Tidy (k : Config (platform S)) : Prop where
  born : ∀ j, k.world.nextTid ≤ j → k.threads j = none
  txnLock : HeldBy k.threads k.world.txnLock
  reqLock : HeldBy k.threads k.world.reqLock
  walletLock : HeldBy k.threads k.world.walletLock

theorem Tidy.of_eq (h : Tidy k) (hw : k'.world.nextTid = k.world.nextTid)
    (ht : ∀ j, (k'.threads j).isSome = (k.threads j).isSome)
    (h₁ : HeldBy k.threads k'.world.txnLock) (h₂ : HeldBy k.threads k'.world.reqLock)
    (h₃ : HeldBy k.threads k'.world.walletLock) : Tidy k' where
  born := fun j hj => by
    have hnone := h.born j (hw ▸ hj)
    have hsome := ht j
    rw [hnone] at hsome
    exact Option.not_isSome_iff_eq_none.mp (by rw [hsome]; exact Bool.false_ne_true)
  txnLock := h₁.mono fun j hj => (ht j).trans hj
  reqLock := h₂.mono fun j hj => (ht j).trans hj
  walletLock := h₃.mono fun j hj => (ht j).trans hj

theorem Tidy.call (h : Tidy k) {f : Except Exn o.Res → Program Unit} {r : Except Exn o.Res}
    (hth : k.threads i = some ⟨l, .op o f⟩) (hx : exec S i o c l k.world = some (r, l', s')) :
    Tidy ⟨s', update k.threads i (some ⟨l', f r⟩)⟩ := by
  have hi : (k.threads i).isSome = true := by rw [hth]; rfl
  have hsame : ∀ j, (update k.threads i (some ⟨l', f r⟩) j).isSome = (k.threads j).isSome := by
    intro j
    by_cases hj : j = i
    · subst hj
      rw [Function.update_self, hi]
      rfl
    · rw [Function.update_of_ne hj]
  by_cases ho : o = .commit
  · subst ho
    rcases exec_commit hx with ⟨-, -, rfl⟩ | ⟨-, rfl, -⟩
    · exact h.of_eq rfl hsame h.txnLock h.reqLock h.walletLock
    · exact h.of_eq rfl hsame (h.txnLock.release fun _ _ hj => hj)
        (h.reqLock.release fun _ _ hj => hj) (h.walletLock.release fun _ _ hj => hj)
  · have hu := exec_uncommitted ho hx
    exact h.of_eq hu.nextTid hsame (h.txnLock.takes hi hu.txnLock) (h.reqLock.takes hi hu.reqLock)
      (h.walletLock.takes hi hu.walletLock)

theorem Tidy.step (h : Tidy k) {lab : Label (platform S)} (hs : k.step lab = some k') :
    Tidy k' := by
  cases lab with
  | start e =>
    injection hs with hs
    subst hs
    have hmore : ∀ j, (k.threads j).isSome = true →
        (update k.threads k.world.nextTid (some ⟨Session.start e, body S e⟩) j).isSome = true := by
      intro j hj
      by_cases hjn : j = k.world.nextTid
      · subst hjn
        rw [Function.update_self]
        rfl
      · rw [Function.update_of_ne hjn]
        exact hj
    refine ⟨fun j hj => ?_, h.txnLock.mono hmore, h.reqLock.mono hmore, h.walletLock.mono hmore⟩
    have hlt : k.world.nextTid < j := hj
    show update k.threads k.world.nextTid _ j = none
    rw [Function.update_of_ne (Nat.ne_of_gt hlt)]
    exact h.born j (Nat.le_of_lt hlt)
  | call i ch =>
    obtain ⟨l, o, f, r, l', s', hth, hx, rfl⟩ := Config.step_call hs
    exact h.call hth hx
  | stop i =>
    obtain ⟨_, _, rfl⟩ := Option.map_eq_some_iff.mp hs
    -- closing lets go of what the thread held, so that every lock left is of one still there
    have hothers : ∀ j, j ≠ i → (k.threads j).isSome = true →
        (update k.threads i none j).isSome = true := by
      intro j hj hsome
      rw [Function.update_of_ne hj]
      exact hsome
    refine ⟨fun j hj => ?_, h.txnLock.release hothers, h.reqLock.release hothers,
      h.walletLock.release hothers⟩
    show update k.threads i none j = none
    by_cases hji : j = i
    · subst hji
      exact Function.update_self _ _ _
    · rw [Function.update_of_ne hji]
      exact h.born j hj
  | env v =>
    obtain ⟨s', hv, rfl⟩ := Option.map_eq_some_iff.mp hs
    have heq := (env_eq hv).1
    rw [heq]
    exact ⟨h.born, h.txnLock, h.reqLock, h.walletLock⟩

/-- **EVERY LOCK** is held by whoever is in flight, in every reachable state. -/
theorem tidy_reach {clock validated : Nat} {held : Nat → Bool}
    (h : Reach (M := platform S) (World.initial clock validated held) k) : Tidy k := by
  induction h with
  | initial => exact ⟨fun _ _ => rfl, nofun, nofun, nofun⟩
  | step _ hs ih => exact ih.step hs

/-! ## §2. What may be done. -/

/-- Messages of the queue are delivered, an administrator retries or reconciles, the sweep runs,
calls are answered, whatever is in flight may end, and time and the ledger go on. -/
def Recovers (k : Config (platform S)) : Label (platform S) → Prop
  | .start (.settle t) => .settle t ∈ k.world.queue
  | .start (.burn r) => .burn r ∈ k.world.queue
  | .start (.settlementRetry _) | .start (.reconcile _) | .start .sweepUnpublished => True
  | .start _ => False
  | .call _ c => c.answers
  | .stop _ => True
  | .env _ => True

theorem recovers_grants : Grants (M := platform S) Recovers Choice.answers where
  call := fun _ _ _ hc => hc
  stop := fun _ _ => trivial
  env := fun _ _ => trivial

/-- Some such course of steps leads to a quiet state whose view and time are in `P`. -/
def Leads (k : Config (platform S)) (P : View → Nat → Prop) : Prop :=
  ∃ k', Course Recovers k k' ∧ Idle k' ∧ Still k'.world ∧ P k'.world.view k'.world.clock

/-- The platform is quiet. -/
structure Quiet (k : Config (platform S)) : Prop where
  idle : Idle k
  still : Still k.world

variable {P R : View → Nat → Prop}

theorem Quiet.leads (hq : Quiet k) (h : P k.world.view k.world.clock) : Leads k P :=
  ⟨k, .refl, hq.idle, hq.still, h⟩

/-- From one quiet state to the next. -/
theorem Leads.then (h : Leads k P)
    (hf : ∀ k' : Config (platform S), Quiet k' → P k'.world.view k'.world.clock → Leads k' R) :
    Leads k R := by
  obtain ⟨k₁, hcourse, hidle, hstill, hp⟩ := h
  obtain ⟨k₂, hcourse', hrest⟩ := hf k₁ ⟨hidle, hstill⟩ hp
  exact ⟨k₂, hcourse.trans hcourse', hrest⟩

theorem Leads.mono (h : Leads k P) (hP : ∀ v now, P v now → R v now) : Leads k R :=
  h.then fun _ hq hp => hq.leads (hP _ _ hp)

/-- One request, whatever it takes. -/
theorem leads_session {Q : Except Exn Unit → View → Nat → Prop} (hq : Quiet k)
    (hok : Recovers k (.start e))
    (hp : Can (M := platform S) Choice.answers k.world.nextTid
      (fun r l' s' => ∃ n' v' now', LeftAlone S k.world.nextTid e n' v' now' l' s' ∧
        (v'.stored = true ∧ v'.walletsStored = true) ∧ Q r v' now')
      (body S e) (Session.start e) { k.world with nextTid := k.world.nextTid + 1 }) :
    Leads k fun v' now' => ∃ r v, Q r v now' ∧ v' = v.settled := by
  obtain ⟨k', r, v', hcourse, hidle, hstill, hQ, hview⟩ :=
    request_alone recovers_grants hq.idle hok hp
  exact ⟨k', hcourse, hidle, hstill, r, v', hQ, hview⟩

/-- One request of at most `n` calls. -/
theorem leads_request {n : Nat} {Q : Except Exn Unit → View → Nat → Prop} (hq : Quiet k)
    (hok : Recovers k (.start e)) (hn : n * S.minTick ≤ jobTimeout)
    (hp : Brings S k.world.nextTid e n (body S e) k.world.view k.world.clock fun r _ v' now' =>
      (v'.stored = true ∧ v'.walletsStored = true) ∧ Q r v' now') :
    Leads k fun v' now' => ∃ r v, Q r v now' ∧ v' = v.settled :=
  leads_session hq hok (hp _ _ (hq.still.start e hn))

/-! ### Time and the ledger. -/

theorem leads_env {v : Env} (hq : Quiet k) (hv : World.env v k.world = some s')
    (hs : Still s') (hP : P s'.view s'.clock) : Leads k P := by
  obtain ⟨k', hcourse, hidle, hworld⟩ := Idle.env (M := platform S) recovers_grants hq.idle hv
  have hworld' : k'.world = s' := hworld
  refine ⟨k', hcourse, hidle, ?_, ?_⟩
  · rw [hworld']
    exact hs
  · rw [hworld']
    exact hP

/-- Time passes. -/
theorem leads_wait (hq : Quiet k) (dt : Nat) :
    Leads k fun v now => v = k.world.view ∧ now = k.world.clock + dt :=
  leads_env hq (v := .wait dt) rfl
    ⟨hq.still.txnLock, hq.still.reqLock, hq.still.walletLock, hq.still.fresh, hq.still.ids⟩
    ⟨rfl, rfl⟩

/-- The rest of a view stays when its ledger goes on. -/
def View.withLedger (v : View) (L : Ledger TxCode) : View := { v with ledger := L }

/-- A ledger closes with nothing in it. -/
theorem leads_empty (hq : Quiet k) :
    Leads k fun v now => now = k.world.clock ∧
      ∃ L, v = k.world.view.withLedger L ∧ L.validated = k.world.ledger.validated + 1 ∧
        L.included = k.world.ledger.included ∧ L.held = k.world.ledger.held := by
  have hincluded : (fun h => (k.world.ledger.included h).or
      ((([] : List (Nat × TxCode)).lookup h).map fun code =>
        (k.world.ledger.validated + 1, code))) = k.world.ledger.included := by
    funext h
    simp
  refine leads_env hq (v := .closeLedger []) rfl
    ⟨hq.still.txnLock, hq.still.reqLock, hq.still.walletLock, fun h hh => ⟨?_, ?_⟩, hq.still.ids⟩
    ⟨rfl, _, rfl, rfl, hincluded, rfl⟩
  · exact (congrFun hincluded h).trans (hq.still.fresh h hh).1
  · exact (hq.still.fresh h hh).2

/-- **LEDGERS CLOSE**, until any index is past. -/
theorem leads_past (index : Nat) : ∀ {k : Config (platform S)}, Quiet k →
    Leads k fun v now => now = k.world.clock ∧
      ∃ L, v = k.world.view.withLedger L ∧ index < L.validated ∧
        L.included = k.world.ledger.included ∧ L.held = k.world.ledger.held := by
  suffices hmore : ∀ (n : Nat) {k : Config (platform S)}, Quiet k →
      Leads k fun v now => now = k.world.clock ∧
        ∃ L, v = k.world.view.withLedger L ∧ k.world.ledger.validated + n ≤ L.validated ∧
          L.included = k.world.ledger.included ∧ L.held = k.world.ledger.held by
    intro k hq
    refine (hmore (index + 1) hq).mono fun v now h => ?_
    obtain ⟨hnow, L, hv, hle, hrest⟩ := h
    exact ⟨hnow, L, hv, by omega, hrest⟩
  intro n
  induction n with
  | zero =>
    intro k hq
    exact hq.leads ⟨rfl, k.world.ledger, rfl, Nat.le_refl _, rfl, rfl⟩
  | succ n ih =>
    intro k hq
    refine (leads_empty hq).then fun k₁ hq₁ h₁ => ?_
    obtain ⟨hnow₁, L₁, hv₁, hval₁, hinc₁, hheld₁⟩ := h₁
    refine (ih hq₁).mono fun v now h => ?_
    obtain ⟨hnow, L, hv, hle, hinc, hheld⟩ := h
    have hledger : k₁.world.ledger = L₁ := congrArg View.ledger hv₁
    rw [hledger] at hle hinc hheld
    refine ⟨hnow.trans hnow₁, L, ?_, by omega, hinc.trans hinc₁, hheld.trans hheld₁⟩
    rw [hv, hv₁]
    rfl

/-- **THE SERVER FILLS IN** its history of a window. -/
theorem leads_hold (low high : Nat) (hq : Quiet k) :
    Leads k fun v now => now = k.world.clock ∧
      ∃ L, v = k.world.view.withLedger L ∧ L.holds low high ∧
        L.validated = k.world.ledger.validated ∧ L.included = k.world.ledger.included := by
  suffices hmore : ∀ (n : Nat) {k : Config (platform S)}, Quiet k →
      Leads k fun v now => now = k.world.clock ∧
        ∃ L, v = k.world.view.withLedger L ∧ (∀ m, low ≤ m → m < low + n → L.held m = true) ∧
          L.validated = k.world.ledger.validated ∧ L.included = k.world.ledger.included by
    refine (hmore (high + 1 - low) hq).mono fun v now h => ?_
    obtain ⟨hnow, L, hv, hheld, hrest⟩ := h
    exact ⟨hnow, L, hv, fun m hlow hhigh => hheld m hlow (by omega), hrest⟩
  intro n
  induction n with
  | zero =>
    intro k hq
    exact hq.leads ⟨rfl, k.world.ledger, rfl, fun m hlow hlt => by omega, rfl, rfl⟩
  | succ n ih =>
    intro k hq
    refine (ih hq).then fun k₁ hq₁ h₁ => ?_
    obtain ⟨hnow₁, L₁, hv₁, hheld₁, hval₁, hinc₁⟩ := h₁
    have hledger : k₁.world.ledger = L₁ := congrArg View.ledger hv₁
    refine leads_env hq₁ (v := .hold (low + n) true) rfl
      ⟨hq₁.still.txnLock, hq₁.still.reqLock, hq₁.still.walletLock, hq₁.still.fresh, hq₁.still.ids⟩
      ⟨hnow₁, { L₁ with held := update L₁.held (low + n) true }, ?_, fun m hlow hlt => ?_, hval₁,
        hinc₁⟩
    · show ({ k₁.world with ledger := _ } : World).view = _
      have hview : ({ k₁.world with ledger :=
          { k₁.world.ledger with
            held := update k₁.world.ledger.held (low + n) true } } : World).view
          = k₁.world.view.withLedger
            { k₁.world.ledger with held := update k₁.world.ledger.held (low + n) true } := rfl
      rw [hview, hledger, hv₁]
      rfl
    · by_cases hm : m = low + n
      · rw [hm]
        exact Function.update_self _ _ _
      · show update L₁.held (low + n) true m = true
        rw [Function.update_of_ne hm]
        exact hheld₁ m hlow (by omega)

/-! ## §3. From any reachable state. -/

/-- **WHATEVER IS IN FLIGHT CAN END**, and nothing that is stored is changed. -/
theorem leads_quiet {clock validated : Nat} {held : Nat → Bool}
    (h : Reach (M := platform S) (World.initial clock validated held) k) :
    Leads k fun v now => v = k.world.view ∧ now = k.world.clock := by
  obtain ⟨k', hcourse, hidle, hview, hclock⟩ := stop_all (M := platform S) recovers_grants
    (P := fun s : World => s.view = k.world.view ∧ s.clock = k.world.clock)
    (fun _ _ hk => hk) k.world.nextTid (tidy_reach h).born ⟨rfl, rfl⟩
  have hk' := hcourse.reach h
  have htidy := tidy_reach hk'
  have hw := World.Orderly.initial clock validated held
  have hregular : k'.world.Regular := ((rules_kept S).reach hw hk').world.regular
  have hsubmitted : k'.world.Submitted :=
    (errands_reach hw (World.Submitted.initial clock validated held) hk').world
  -- nobody is left to hold a lock
  have hfree : ∀ {lock : Nat → Option Nat}, HeldBy k'.threads lock → ∀ key, lock key = none := by
    intro lock hheld key
    cases hlock : lock key with
    | none => rfl
    | some j =>
      have hsome := hheld key j hlock
      rw [hidle j] at hsome
      cases hsome
  have hexists : ∀ h, k'.world.handed h = true → h < k'.world.blobs.length := by
    intro h hh
    obtain ⟨b, hb⟩ := hregular.handed h hh
    exact (List.getElem?_eq_some_iff.mp hb).1
  refine ⟨k', hcourse, hidle, ⟨hfree htidy.txnLock, hfree htidy.reqLock, hfree htidy.walletLock,
    fun h hh => ⟨?_, ?_⟩, hregular.reqIds⟩, hview, hclock⟩
  · have hh' : k'.world.blobs.length ≤ h := hh
    cases hi : k'.world.ledger.included h with
    | none => exact hi
    | some r =>
      have hlt := hexists h (hregular.included h r hi).1
      omega
  · have hh' : k'.world.blobs.length ≤ h := hh
    show k'.world.malformed h = false
    rw [Bool.eq_false_iff]
    intro hm
    have hlt := hexists h (hsubmitted h hm)
    omega

end Orbyt
