/-
  Orbyt.Invariants.Limits — what a sender has used of a day and of a month

  A send is checked against the sum of the sender's rows since the start of the day, and
  inserted some time later, perhaps on another day.  The lock on the sender's row carries
  the check to the commit: meanwhile nobody adds a row of that sender (`NoNew`), and a row
  that counts may only stop counting.

  Main results:
    * `World.used_le`    — a window is never used more while no row is added;
    * `Booked.within`    — a row that fits the day and the month it is created in may be
      committed;
    * `allowance_reach`  — no sender is ever over a limit.
-/
import Orbyt.Invariants.Lifecycle
import Orbyt.Lib.Tables

namespace Orbyt

open Interleave
open Tables
open Function (update)

variable {S : Setting} {i j u : Nat} {o : Op} {c : Choice} {l l' : Session} {s s' : World}

/-! ## §1. Windows of time. -/

/-- What a row counts for in the window `W`: nothing once its cash-in has failed. -/
def Txn.counted (u : Nat) (W : Nat → Bool) (x : Txn) : Nat :=
  if x.senderId = u ∧ W x.createdAt = true ∧ x.cashinStatus ≠ .failed then x.zarAmount else 0

/-- What the sender `u` has used of the window. -/
def World.used (s : World) (u : Nat) (W : Nat → Bool) : Nat :=
  total (Txn.counted u W) s.txns s.nextId

def since (start τ : Nat) : Bool := decide (start ≤ τ)
def Calendar.inDay (cal : Calendar) (d τ : Nat) : Bool := cal.day τ == d
def Calendar.inMonth (cal : Calendar) (m τ : Nat) : Bool := cal.month (cal.day τ) == m

theorem Calendar.day_mono (cal : Calendar) {τ τ' : Nat} (h : τ ≤ τ') : cal.day τ ≤ cal.day τ' := by
  rw [← cal.dayStartUtc_le]
  exact Nat.le_trans ((cal.dayStartUtc_le _ _).mpr (Nat.le_refl _)) h

theorem Calendar.month_mono (cal : Calendar) {d d' : Nat} (h : d ≤ d') :
    cal.month d ≤ cal.month d' := by
  rw [← cal.firstOfMonth_le]
  exact Nat.le_trans ((cal.firstOfMonth_le _ _).mpr (Nat.le_refl _)) h

/-- A smaller window is used no more. -/
theorem Txn.counted_window {W W' : Nat → Bool} (h : ∀ τ, W τ = true → W' τ = true) (x : Txn) :
    x.counted u W ≤ x.counted u W' := by
  unfold Txn.counted
  split
  next hc => rw [if_pos ⟨hc.1, h _ hc.2.1, hc.2.2⟩]
  · exact Nat.zero_le _

theorem World.used_window {W W' : Nat → Bool} (h : ∀ τ, W τ = true → W' τ = true) :
    s.used u W ≤ s.used u W' := by
  refine total_mono fun t => ?_
  cases s.txns t with
  | none => exact Nat.le_refl _
  | some x => exact x.counted_window h

/-- The sum that `check_limit` reads. -/
theorem sumZarSince_used (start : Nat) : sumZarSince s.txns s.nextId u start =
    s.used u (since start) := by
  refine Finset.sum_congr rfl fun t _ => ?_
  cases s.txns t with
  | none => rfl
  | some x =>
    show (if x.countsSince u start = true then x.zarAmount else 0) = x.counted u (since start)
    unfold Txn.counted Txn.countsSince since
    by_cases h₁ : x.senderId = u <;> by_cases h₂ : start ≤ x.createdAt <;>
      by_cases h₃ : x.cashinStatus = .failed <;> simp [h₁, h₂, h₃]

/-! ## §2. Rows that follow a row. -/

/-- The row is still the same send, and has not come back from a failed cash-in. -/
structure Txn.Follows (x x' : Txn) : Prop where
  terms : x.SameTerms x'
  failed : x.cashinStatus = .failed → x'.cashinStatus = .failed

theorem Txn.Follows.refl (x : Txn) : x.Follows x := ⟨.refl x, id⟩

theorem Txn.Follows.trans {x x' x'' : Txn} (h : x.Follows x') (h' : x'.Follows x'') :
    x.Follows x'' := ⟨h.terms.trans h'.terms, fun hf => h'.failed (h.failed hf)⟩

theorem Txn.Follows.of_moves {x x' : Txn} (ht : x.SameTerms x') (hm : x.Moves x') :
    x.Follows x' where
  terms := ht
  failed := fun hf => by
    rcases hm.cashin with he | hedge
    · exact he.trans hf
    · rw [hf] at hedge
      cases hedge

theorem Txn.Follows.counted_le {x x' : Txn} (h : x.Follows x') (W : Nat → Bool) :
    x'.counted u W ≤ x.counted u W := by
  unfold Txn.counted Txn.zarAmount
  rw [h.terms.sender, h.terms.created, h.terms.quote]
  split
  next hc => rw [if_pos ⟨hc.1, hc.2.1, fun hf => hc.2.2 (h.failed hf)⟩]
  · exact Nat.zero_le _

/-- No row of `u` is new. -/
structure NoNew (u : Nat) (s s' : World) : Prop where
  nextId : s.nextId ≤ s'.nextId
  row : ∀ t x', s'.txns t = some x' → x'.senderId = u → ∃ x, s.txns t = some x ∧ x.Follows x'

theorem NoNew.of_eq (ht : s'.txns = s.txns) (hn : s.nextId ≤ s'.nextId) : NoNew u s s' :=
  ⟨hn, fun t x' hx' _ => ⟨x', by rw [← ht]; exact hx', .refl x'⟩⟩

theorem NoNew.trans {s'' : World} (h : NoNew u s s') (h' : NoNew u s' s'') : NoNew u s s'' where
  nextId := Nat.le_trans h.nextId h'.nextId
  row := fun t x'' hx'' hu => by
    obtain ⟨x', hx', hf'⟩ := h'.row t x'' hx'' hu
    obtain ⟨x, hx, hf⟩ := h.row t x' hx' (hf'.terms.sender.symm.trans hu)
    exact ⟨x, hx, hf.trans hf'⟩

/-- **A WINDOW IS USED NO MORE** while no row is added. -/
theorem World.used_le (hs : s.Regular) (h : NoNew u s s') (W : Nat → Bool) :
    s'.used u W ≤ s.used u W := by
  calc s'.used u W
      ≤ total (Txn.counted u W) s.txns s'.nextId := by
        refine total_mono fun t => ?_
        cases hx' : s'.txns t with
        | none => exact Nat.zero_le _
        | some x' =>
          by_cases hu : x'.senderId = u
          · obtain ⟨x, hx, hf⟩ := h.row t x' hx' hu
            rw [hx]
            exact hf.counted_le W
          · have hzero : x'.counted u W = 0 := if_neg fun hc => hu hc.1
            rw [worth_some, hzero]
            exact Nat.zero_le _
    _ = s.used u W := total_extend h.nextId hs.txnIds

/-! ## §3. The protocol. -/

/-- No sender has used more of a day or of a month than the tier allows. -/
structure World.Within (S : Setting) (s : World) : Prop where
  daily : ∀ u d, s.used u (S.calendar.inDay d) ≤ S.tier.dailyLimitZar
  monthly : ∀ u m, s.used u (S.calendar.inMonth m) ≤ S.tier.monthlyLimitZar

/-- The limits are about the stored sends only. -/
theorem World.Within.of_eq (h : s.Within S) (ht : s'.txns = s.txns) (hn : s'.nextId = s.nextId) :
    s'.Within S := by
  have hused : ∀ u W, s'.used u W = s.used u W := fun u W => by
    unfold World.used
    rw [ht, hn]
  exact ⟨fun u d => hused u _ ▸ h.daily u d, fun u m => hused u _ ▸ h.monthly u m⟩

theorem World.Within.initial (S : Setting) (clock validated : Nat) (held : Nat → Bool) :
    (World.initial clock validated held).Within S where
  daily := fun _ _ => Nat.zero_le _
  monthly := fun _ _ => Nat.zero_le _

theorem World.Within.of_noNew (h : s.Within S) (hs : s.Regular) (hn : ∀ u, NoNew u s s') :
    s'.Within S where
  daily := fun u _ => Nat.le_trans (World.used_le hs (hn u) _) (h.daily u _)
  monthly := fun u _ => Nat.le_trans (World.used_le hs (hn u) _) (h.monthly u _)

/-- Nobody adds a row of a sender whose row `j` has locked. -/
structure Spared (j : Nat) (s s' : World) : Prop where
  row : ∀ u, s.userLock u = some j → NoNew u s s'

theorem Spared.of_noNew (h : ∀ u, NoNew u s s') : Spared j s s' := ⟨fun u _ => h u⟩

/-- The lock itself is kept by `Meanwhile`. -/
@[reducible] def allowance (S : Setting) : Protocol (rules S) where
  known := fun _ => True
  inv := World.Within S
  rely := fun j s s' => Others j s s' ∧ Spared j s s'
  refl := fun j s => ⟨.refl j s, ⟨fun _ _ => .of_eq rfl (Nat.le_refl _)⟩⟩
  trans := fun h h' => ⟨h.1.trans h'.1, ⟨fun u hu =>
    (h.2.row u hu).trans (h'.2.row u (h.1.userLock u hu))⟩⟩

theorem tick_noNew : NoNew u s (s.tick S c) := .of_eq rfl (Nat.le_refl _)

/-- A call that does not commit adds no stored row. -/
theorem exec_noNew {r : Except Exn o.Res} (ho : o ≠ .commit)
    (hx : exec S i o c l s = some (r, l', s')) : NoNew u s s' := by
  have hu := exec_uncommitted ho hx
  exact .of_eq hu.txns hu.nextId

/-- A move that adds no row keeps the protocol. -/
theorem keeps_of_noNew (hh : (allowance S).Here i l s) (hn : ∀ u, NoNew u s s')
    (ho : ∀ j, j ≠ i → Others j s s') : (allowance S).keeps i s s' :=
  ⟨hh.inv.of_noNew hh.world.regular hn, fun j hj => ⟨ho j hj, .of_noNew hn⟩⟩

/-! ## §4. Sessions that write over stored rows only. -/

/-- Whatever the session has written follows a stored row. -/
def Session.OverStored (l : Session) (s : World) : Prop :=
  ∀ t x', l.txnWrites t = some x' → ∃ x, s.txns t = some x ∧ x.Follows x'

theorem Session.OverStored.empty (h : ∀ t, l.txnWrites t = none) : l.OverStored s :=
  fun t x' hx' => by rw [h t] at hx'; cases hx'

theorem Session.OverStored.others (h : l.OverStored s) (hl : l.Locked i s) (ho : Others i s s') :
    l.OverStored s' := fun t x' hx' => by
  rw [(ho.txnLock t (hl.txns t x' hx').1).2.1]
  exact h t x' hx'

theorem Session.OverStored.commit (h : l.OverStored s) : NoNew u s (s.commit i l) where
  nextId := Nat.le_refl _
  row := fun t x' hx' _ => by
    rcases Session.txn_cases hx' with hw | ⟨-, hx⟩
    · exact h t x' hw
    · exact ⟨x', hx, .refl x'⟩

/-- A row that the session reads follows a stored one. -/
theorem Session.OverStored.read (h : l.OverStored s) {t : Nat} {x : Txn} (hx : l.txn s t = some x) :
    ∃ x₀, s.txns t = some x₀ ∧ x₀.Follows x := by
  rcases Session.txn_cases hx with hw | ⟨-, ht⟩
  · exact h t x hw
  · exact ⟨x, ht, .refl x⟩

/-- An entry point that inserts no send. -/
def Entry.sendsNothing (e : Entry) : Prop := ∀ form, e ≠ .createRemittance form

theorem overStored_call {e : Entry} (he : e.sendsNothing) (hm : e.may o)
    (hh : (allowance S).Here i l s) (h : l.OverStored s) {r : Except Exn o.Res}
    (hx : exec S i o c l s = some (r, l', s')) :
    (allowance S).keeps i s s' ∧ l'.OverStored s' := by
  have hothers : ∀ j, j ≠ i → Others j s s' := fun j hj => exec_others hh.session.locked hx hj
  by_cases ho : o = .commit
  · subst ho
    rcases exec_commit hx with ⟨-, rfl, rfl⟩ | ⟨-, rfl, hl'⟩
    · exact ⟨keeps_of_noNew hh (fun _ => tick_noNew) hothers, h⟩
    · have htick : l.OverStored (s.tick S c) := h
      refine ⟨keeps_of_noNew hh (fun u => tick_noNew.trans htick.commit) hothers, ?_⟩
      rcases hl' with ⟨-, rfl⟩ | ⟨-, rfl⟩ <;> exact .empty fun _ => rfl
  · refine ⟨keeps_of_noNew hh (fun u => exec_noNew ho hx) hothers, ?_⟩
    have hu := exec_uncommitted ho hx
    have hsame : ∀ t, s'.txns t = s.txns t := fun t => by rw [hu.txns]; rfl
    cases o with
    | commit => exact absurd rfl ho
    | updateTxn t cond values =>
      rcases exec_updateTxn hx with ⟨-, -, rfl⟩ | ⟨-, rfl, -⟩ | ⟨x, -, -, hxt, hc, rfl, -⟩
      · intro t x' hx'
        rw [hsame]
        exact h t x' hx'
      · intro t x' hx'
        rw [hsame]
        exact h t x' hx'
      · intro t' x' hx'
        rw [hsame]
        by_cases ht : t' = t
        · subst ht
          obtain rfl : values s'.clock x = x' := by simpa [Session.writeTxn] using hx'
          -- what is written over a row counts no more than it: every UPDATE only moves it on
          obtain ⟨x₀, hx₀, hf⟩ := h.read hxt
          have hpaired := (hh.session.read_txn hh.world.lifecycle hxt).paired
          exact ⟨x₀, hx₀, hf.trans (.of_moves (hm.terms _ x) (hm.moves _ hpaired hc))⟩
        · exact h t' x' (by simpa [Session.writeTxn, update, ht] using hx')
    | updateTxns cond values =>
      obtain ⟨-, asked, rfl, rfl⟩ := hm
      rcases exec_updateTxns hx with ⟨-, rfl⟩ | ⟨-, rfl, -⟩
      · intro t x' hx'
        rw [hsame]
        exact h t x' hx'
      · intro t x' hx'
        rw [hsame]
        cases hmatch : l.matching (s.tick S c) (CashinService.isStale asked) t with
        | none => exact h t x' (by simpa [Session.writeTxns, hmatch] using hx')
        | some x =>
          obtain ⟨-, hxt, hc⟩ := matching_eq_some hmatch
          obtain rfl : CashinService.expired (s.tick S c).clock x = x' := by
            simpa [Session.writeTxns, hmatch] using hx'
          obtain ⟨x₀, hx₀, hf⟩ := h.read (x := x) hxt
          have hpaired := (hh.session.read_txn hh.world.lifecycle (x := x) hxt).paired
          exact ⟨x₀, hx₀, hf.trans (.of_moves ⟨rfl, rfl, rfl, rfl, rfl⟩
            (isStale_moves asked _ hpaired hc))⟩
    | insertTxn row =>
      obtain ⟨form, -, -, -, -, rfl, -⟩ := hm
      -- only the send form inserts
      exact absurd rfl (he form)
    | _ =>
      intro t x' hx'
      rw [hsame]
      rw [(exec_sameTxns rfl hx).1] at hx'
      exact h t x' hx'

/-- Programs that insert no send keep the limits. -/
theorem safe_sendsNothing {e : Entry} (he : e.sendsNothing) {α : Type} {p : Program α}
    (hu : Prog.Uses e.may p) (h : l.OverStored s) :
    Safe (allowance S) i (fun _ _ _ => True) (fun _ _ _ => True) p l s := by
  refine (Safe.of_uses (P := allowance S) (F := e.may)
    (A := fun (l' : Session) (s' : World) => l'.OverStored s') ?_ ?_ hu h).mono
      (fun _ _ _ _ _ => trivial) fun _ _ _ _ _ => trivial
  · intro (l₁ : Session) (s₁ : World) (s₂ : World) ha hg _ hs
    exact ha.others hg.session.locked hs.moves.others
  · intro (o : Op) hm (l₁ : Session) (s₁ : World) ha hh c r l' s' hx _
    exact overStored_call he hm hh ha hx

/-! ## §5. From the check to the insert. -/

/-- Nothing is written yet, and the sender's row is locked. -/
structure SenderHeld (i u : Nat) (l : Session) (s : World) : Prop where
  noTxns : ∀ t, l.txnWrites t = none
  lock : s.userLock u = some i

/-- What happens while the sender's row is locked. -/
structure Meantime (u : Nat) (s s' : World) : Prop where
  clock : s.clock ≤ s'.clock
  regular : s.Regular
  noNew : NoNew u s s'

theorem Meantime.trans {s'' : World} (h : Meantime u s s') (h' : Meantime u s' s'') :
    Meantime u s s'' :=
  ⟨Nat.le_trans h.clock h'.clock, h.regular, h.noNew.trans h'.noNew⟩

theorem SenderHeld.meantime (h : SenderHeld i u l s) (hg : (allowance S).Given i l s)
    (hs : (allowance S).Sees i s s') : Meantime u s s' :=
  ⟨hs.moves.others.clock, hg.world.regular, hs.rely.2.row u h.lock⟩

/-- `amount` fits what is left since the start of a day that is not after today, and of a
month that is not after this one. -/
structure Room (S : Setting) (u amount : Nat) (s : World) : Prop where
  daily : ∃ d, d ≤ S.calendar.day s.clock ∧
    s.used u (since (S.calendar.dayStartUtc d)) + amount ≤ S.tier.dailyLimitZar
  monthly : ∃ d, S.calendar.month d ≤ S.calendar.month (S.calendar.day s.clock) ∧
    s.used u (since (S.calendar.dayStartUtc (S.calendar.firstOfMonth d))) + amount
      ≤ S.tier.monthlyLimitZar

theorem Room.meantime {amount : Nat} (h : Room S u amount s) (hm : Meantime u s s') :
    Room S u amount s' where
  daily := by
    obtain ⟨d, hd, hle⟩ := h.daily
    have hused := World.used_le hm.regular hm.noNew (since (S.calendar.dayStartUtc d))
    exact ⟨d, Nat.le_trans hd (S.calendar.day_mono hm.clock), by omega⟩
  monthly := by
    obtain ⟨d, hd, hle⟩ := h.monthly
    have hused := World.used_le hm.regular hm.noNew
      (since (S.calendar.dayStartUtc (S.calendar.firstOfMonth d)))
    exact ⟨d, Nat.le_trans hd (S.calendar.month_mono (S.calendar.day_mono hm.clock)), by omega⟩

/-- The rows of a later day are among the rows since the start of an earlier one. -/
theorem Room.day {amount : Nat} (h : Room S u amount s) :
    s.used u (S.calendar.inDay (S.calendar.day s.clock)) + amount ≤ S.tier.dailyLimitZar := by
  obtain ⟨d, hd, hle⟩ := h.daily
  have hwindow : s.used u (S.calendar.inDay (S.calendar.day s.clock)) ≤
      s.used u (since (S.calendar.dayStartUtc d)) := by
    refine World.used_window fun τ hτ => ?_
    have hday : S.calendar.day τ = S.calendar.day s.clock := by
      simpa [Calendar.inDay] using hτ
    exact decide_eq_true ((S.calendar.dayStartUtc_le _ _).mpr (hday ▸ hd))
  omega

theorem Room.month {amount : Nat} (h : Room S u amount s) :
    s.used u (S.calendar.inMonth (S.calendar.month (S.calendar.day s.clock))) + amount
      ≤ S.tier.monthlyLimitZar := by
  obtain ⟨d, hd, hle⟩ := h.monthly
  have hwindow : s.used u (S.calendar.inMonth (S.calendar.month (S.calendar.day s.clock))) ≤
      s.used u (since (S.calendar.dayStartUtc (S.calendar.firstOfMonth d))) := by
    refine World.used_window fun τ hτ => ?_
    have hmonth : S.calendar.month (S.calendar.day τ) =
        S.calendar.month (S.calendar.day s.clock) := by
      simpa [Calendar.inMonth] using hτ
    exact decide_eq_true ((S.calendar.dayStartUtc_le _ _).mpr
      ((S.calendar.firstOfMonth_le _ _).mpr (hmonth ▸ hd)))
  omega

section Steps

variable {α : Type} {Q : α → Session → World → Prop}

/-- A call that writes no send. -/
theorem held_call (ho : o.writesTxns = false) (h : SenderHeld i u l s) :
    Safe (allowance S) i (fun a l' s' => ∃ s₁ c, exec S i o c l s₁ = some (.ok a, l', s') ∧
      SenderHeld i u l' s' ∧ Meantime u s s₁ ∧ Meantime u s₁ s')
      (fun _ _ _ => True) (call o) l s := by
  refine safe_call fun hg s₁ hh hs c r l' s' hx _ => ?_
  have hcommit : o ≠ .commit := by rintro rfl; cases ho
  have hu := exec_uncommitted hcommit hx
  refine ⟨keeps_of_noNew hh (fun _ => exec_noNew hcommit hx)
    fun j hj => exec_others hh.session.locked hx hj, ?_⟩
  have hlock : s₁.userLock u = some i := hs.moves.others.userLock u h.lock
  have hheld : SenderHeld i u l' s' :=
    ⟨fun t => by rw [(exec_sameTxns ho hx).1]; exact h.noTxns t, hu.userLock.keeps hlock⟩
  cases r with
  | error e => trivial
  | ok a =>
    refine ⟨s₁, c, hx, hheld, h.meantime hg hs, ?_, hh.world.regular, exec_noNew hcommit hx⟩
    rw [hu.clock, tick_clock]
    omega

/-- And then the rest. -/
theorem held_bind {f : o.Res → Program α} (ho : o.writesTxns = false) (h : SenderHeld i u l s)
    (hok : ∀ s₁ c a l' s', exec S i o c l s₁ = some (.ok a, l', s') → SenderHeld i u l' s' →
      Meantime u s s₁ → Meantime u s₁ s' →
        Safe (allowance S) i Q (fun _ _ _ => True) (f a) l' s') :
    Safe (allowance S) i Q (fun _ _ _ => True) (Prog.bind (call o) f) l s :=
  Safe.bind (held_call ho h) fun a l' s' ⟨s₁, c, hx, hheld, hm, hm'⟩ =>
    hok s₁ c a l' s' hx hheld hm hm'

theorem exec_sumZarSince {sender start : Nat} {a : Nat} (hn : ∀ t, l.txnWrites t = none)
    (hx : exec S i (.sumZarSince sender start) c l s = some (.ok a, l', s')) :
    a = s'.used sender (since start) := by
  rcases exec_plain rfl hx with ⟨e, he, -⟩ | ⟨-, hp⟩
  · cases he
  · simp only [perform] at hp
    cases hp
    have hread : l.txn (s.tick S c) = (s.tick S c).txns := by
      funext t
      unfold Session.txn
      rw [hn t]
      rfl
    rw [hread]
    exact sumZarSince_used start

theorem exec_limitTier {user : Nat} {found : Option LimitTier} (hS : S.fixedTier = true)
    (hx : exec S i (.limitTier user) c l s = some (.ok found, l', s')) : found = some S.tier := by
  rcases exec_plain rfl hx with ⟨e, he, -⟩ | ⟨-, hp⟩
  · cases he
  · simp only [perform, hS, Bool.true_and] at hp
    split at hp
    · split at hp
      · cases hp
      next found' _ hsame =>
        cases hp
        simpa using hsame
    · cases hp

/-- The day's sum, and the day that it starts on. -/
theorem held_dailyUsage (h : SenderHeld i u l s) :
    Safe (allowance S) i (fun used l' s' => SenderHeld i u l' s' ∧ Meantime u s s' ∧
      ∃ d, d ≤ S.calendar.day s'.clock ∧ s'.used u (since (S.calendar.dayStartUtc d)) = used)
      (fun _ _ _ => True) (LimitService.getDailyUsage S u) l s := by
  unfold LimitService.getDailyUsage
  rw [Prog.bind_eq]
  refine held_bind rfl h fun s₁ c now l₁ s₂ hx h₁ hm₁ hm₂ => ?_
  obtain ⟨hnow, -, -⟩ := exec_now hx
  cases hnow
  refine (held_call rfl h₁).mono ?_ fun _ _ _ _ _ => trivial
  rintro used l' s' - ⟨s₃, c', hx', h', hm₃, hm₄⟩
  have hm := hm₃.trans hm₄
  exact ⟨h', (hm₁.trans hm₂).trans hm, S.calendar.day s₂.clock, S.calendar.day_mono hm.clock,
    (exec_sumZarSince h₁.noTxns hx').symm⟩

/-- The month's sum, and a day of the month that it starts with. -/
theorem held_monthlyUsage (h : SenderHeld i u l s) :
    Safe (allowance S) i (fun used l' s' => SenderHeld i u l' s' ∧ Meantime u s s' ∧
      ∃ d, S.calendar.month d ≤ S.calendar.month (S.calendar.day s'.clock) ∧
        s'.used u (since (S.calendar.dayStartUtc (S.calendar.firstOfMonth d))) = used)
      (fun _ _ _ => True) (LimitService.getMonthlyUsage S u) l s := by
  unfold LimitService.getMonthlyUsage
  rw [Prog.bind_eq]
  refine held_bind rfl h fun s₁ c now l₁ s₂ hx h₁ hm₁ hm₂ => ?_
  obtain ⟨hnow, -, -⟩ := exec_now hx
  cases hnow
  refine (held_call rfl h₁).mono ?_ fun _ _ _ _ _ => trivial
  rintro used l' s' - ⟨s₃, c', hx', h', hm₃, hm₄⟩
  have hm := hm₃.trans hm₄
  exact ⟨h', (hm₁.trans hm₂).trans hm, S.calendar.day s₂.clock,
    S.calendar.month_mono (S.calendar.day_mono hm.clock), (exec_sumZarSince h₁.noTxns hx').symm⟩

/-- **THE CHECK**: what is allowed fits, and goes on fitting while the lock is held. -/
theorem held_checkTier {amount : Nat} (h : SenderHeld i u l s) :
    Safe (allowance S) i (fun check l' s' => SenderHeld i u l' s' ∧
      (check.allowed = true → Room S u amount s'))
      (fun _ _ _ => True) (LimitService.checkTier S S.tier u amount) l s := by
  unfold LimitService.checkTier
  split
  · exact safe_ret fun _ => ⟨h, nofun⟩
  · rw [Prog.bind_eq]
    refine Safe.bind (held_dailyUsage h) fun daily l₁ s₁ ⟨h₁, _, d, hd, hdaily⟩ => ?_
    refine Safe.bind (held_monthlyUsage h₁) fun monthly l₂ s₂ ⟨h₂, hm, m, hmonth, hmonthly⟩ => ?_
    dsimp only
    split
    · exact safe_ret fun _ => ⟨h₂, nofun⟩
    next hfits =>
      split
      · exact safe_ret fun _ => ⟨h₂, nofun⟩
      next hfits' =>
        refine safe_ret fun _ => ⟨h₂, fun _ => ⟨?_, m, hmonth, by omega⟩⟩
        have hused := World.used_le hm.regular hm.noNew (since (S.calendar.dayStartUtc d))
        exact ⟨d, Nat.le_trans hd (S.calendar.day_mono hm.clock), by omega⟩

theorem held_checkLimit {amount : Nat} (hS : S.fixedTier = true) (h : SenderHeld i u l s) :
    Safe (allowance S) i (fun check l' s' => SenderHeld i u l' s' ∧
      (check.allowed = true → Room S u amount s'))
      (fun _ _ _ => True) (LimitService.checkLimit S u amount) l s := by
  unfold LimitService.checkLimit
  rw [Prog.bind_eq]
  refine held_bind rfl h fun s₁ c found l₁ s₂ hx h₁ _ _ => ?_
  cases found with
  | none => exact safe_ret fun _ => ⟨h₁, nofun⟩
  | some tier =>
    obtain rfl : tier = S.tier := Option.some.inj (exec_limitTier hS hx)
    exact held_checkTier h₁

end Steps

/-! ## §6. The insert and its commit. -/

/-- One new row of the sender is written, and fits the day and the month it is created in. -/
structure Booked (S : Setting) (i u t : Nat) (x : Txn) (l : Session) (s : World) : Prop where
  writes : l.txnWrites = update (fun _ => none) t (some x)
  new : s.txns t = none
  below : t < s.nextId
  lockTxn : s.txnLock t = some i
  lock : s.userLock u = some i
  sender : x.senderId = u
  daily : s.used u (S.calendar.inDay (S.calendar.day x.createdAt)) + x.zarAmount
    ≤ S.tier.dailyLimitZar
  monthly : s.used u (S.calendar.inMonth (S.calendar.month (S.calendar.day x.createdAt)))
    + x.zarAmount ≤ S.tier.monthlyLimitZar

theorem Booked.meantime {t : Nat} {x : Txn} (h : Booked S i u t x l s) (ho : Others i s s')
    (hm : Meantime u s s') : Booked S i u t x l s' where
  writes := h.writes
  new := ((ho.txnLock t h.lockTxn).2.1).trans h.new
  below := Nat.lt_of_lt_of_le h.below hm.noNew.nextId
  lockTxn := (ho.txnLock t h.lockTxn).1
  lock := ho.userLock u h.lock
  sender := h.sender
  daily := by
    have hused := World.used_le hm.regular hm.noNew
      (S.calendar.inDay (S.calendar.day x.createdAt))
    have hfits := h.daily
    omega
  monthly := by
    have hused := World.used_le hm.regular hm.noNew
      (S.calendar.inMonth (S.calendar.month (S.calendar.day x.createdAt)))
    have hfits := h.monthly
    omega

/-- What the sender has used with the new row. -/
theorem Booked.used_commit {t : Nat} {x : Txn} (h : Booked S i u t x l s) (v : Nat)
    (W : Nat → Bool) : (s.commit i l).used v W = s.used v W + x.counted v W := by
  have htxns : (s.commit i l).txns = update s.txns t (some x) := by
    funext t'
    show (l.txnWrites t').or (s.txns t') = _
    rw [h.writes]
    by_cases ht : t' = t
    · subst ht
      rw [Function.update_self, Function.update_self]
      rfl
    · rw [Function.update_of_ne ht, Function.update_of_ne ht]
      rfl
  unfold World.used
  rw [htxns]
  exact total_insert h.below h.new x

theorem Booked.noNew {t v : Nat} {x : Txn} (h : Booked S i u t x l s) (hv : v ≠ u) :
    NoNew v s (s.commit i l) where
  nextId := Nat.le_refl _
  row := fun t' x' hx' hu => by
    rcases Session.txn_cases hx' with hw | ⟨-, hx⟩
    · rw [h.writes] at hw
      by_cases ht : t' = t
      · subst ht
        rw [Function.update_self] at hw
        cases hw
        exact absurd (hu.symm.trans h.sender) hv
      · rw [Function.update_of_ne ht] at hw
        cases hw
    · exact ⟨x', hx, .refl x'⟩

/-- **A SEND'S COMMIT** stays within the limits. -/
theorem Booked.within {t : Nat} {x : Txn} (h : Booked S i u t x l s) (hs : s.Within S) :
    (s.commit i l).Within S := by
  have hcount : ∀ v W, x.counted v W ≤ if v = u ∧ W x.createdAt = true then x.zarAmount else 0 := by
    intro v W
    unfold Txn.counted
    split
    next hc => rw [if_pos ⟨hc.1.symm.trans h.sender, hc.2.1⟩]
    · exact Nat.zero_le _
  constructor
  · intro v d
    rw [h.used_commit]
    have hle := hcount v (S.calendar.inDay d)
    have hdaily := hs.daily v d
    split at hle
    next hc =>
      obtain ⟨rfl, hd⟩ := hc
      obtain rfl : S.calendar.day x.createdAt = d := by simpa [Calendar.inDay] using hd
      have hfits := h.daily
      omega
    · omega
  · intro v m
    rw [h.used_commit]
    have hle := hcount v (S.calendar.inMonth m)
    have hmonthly := hs.monthly v m
    split at hle
    next hc =>
      obtain ⟨rfl, hd⟩ := hc
      obtain rfl : S.calendar.month (S.calendar.day x.createdAt) = m := by
        simpa [Calendar.inMonth] using hd
      have hfits := h.monthly
      omega
    · omega

/-- The INSERT, COMMIT, and what follows. -/
theorem safe_insert {form : SendForm} {recipientId : Nat} {quote : Quote} {last4 : String}
    {declined : Bool} (h : SenderHeld i form.senderId l s)
    (hroom : Room S form.senderId quote.zarAmount s) :
    Safe (allowance S) i (fun _ _ _ => True) (fun _ _ _ => True) (do
      let t ← call (.insertTxn (CashinService.newTransaction form recipientId quote last4 declined))
      call .commit
      call .refresh
      return t) l s := by
  rw [Prog.bind_eq]
  refine Safe.call_bind fun hg s₁ hh hs c r l' s' hx hg' => ?_
  have hnot : Op.insertTxn (CashinService.newTransaction form recipientId quote last4 declined)
      ≠ .commit := nofun
  have hu := exec_uncommitted hnot hx
  have hclock := exec_clock hx
  refine ⟨keeps_of_noNew hh (fun _ => exec_noNew hnot hx)
    fun j hj => exec_others hh.session.locked hx hj, ?_⟩
  rcases exec_insertTxn hx with ⟨⟨e, rfl⟩, -⟩ | ⟨rfl, -, hnone, rfl, hlock, hnext⟩
  · trivial
  -- the room that was checked is still there: no one else adds rows of this sender
  obtain ⟨-, hnew⟩ := Option.or_eq_none_iff.mp hnone
  have hm : Meantime form.senderId s s' := (h.meantime hg hs).trans
    ⟨by omega, hh.world.regular, exec_noNew hnot hx⟩
  have hroom' := hroom.meantime hm
  have hlockUser : s'.userLock form.senderId = some i :=
    hu.userLock.keeps (hs.moves.others.userLock _ h.lock)
  generalize hrow : CashinService.newTransaction form recipientId quote last4 declined s₁.nextId
    s'.clock = x at hx hg' ⊢
  have hcreated : x.createdAt = s'.clock := by rw [← hrow]; rfl
  have hamount : x.zarAmount = quote.zarAmount := by rw [← hrow]; rfl
  have hbooked : Booked S i form.senderId s₁.nextId x
      (l.writeTxn s'.clock s₁.nextId none x) s' :=
    { writes := by
        show update l.txnWrites s₁.nextId (some x) = _
        rw [funext h.noTxns]
      new := by rw [hu.txns]; exact hnew
      below := by omega
      lockTxn := hlock
      lock := hlockUser
      sender := by rw [← hrow]; rfl
      daily := by rw [hcreated, hamount]; exact hroom'.day
      monthly := by rw [hcreated, hamount]; exact hroom'.month }
  show Safe (allowance S) i _ _ (Prog.bind (call .commit) _) _ s'
  refine Safe.call_bind fun hg₂ s₂ hh₂ hs₂ c₂ r₂ l₂ s₂' hx₂ _ => ?_
  have hbooked₂ := hbooked.meantime hs₂.moves.others
    ⟨hs₂.moves.others.clock, hg₂.world.regular, hs₂.rely.2.row _ hlockUser⟩
  have hothers : ∀ j, j ≠ i → Others j s₂ s₂' :=
    fun j hj => exec_others hh₂.session.locked hx₂ hj
  -- after COMMIT only the refresh is left
  have hrest : l₂.OverStored s₂' → Safe (allowance S) i (fun _ _ _ => True) (fun _ _ _ => True)
      (do call .refresh; return s₁.nextId) l₂ s₂' := fun hl₂ =>
    safe_sendsNothing (e := .sweepUnpublished) nofun
      (Prog.uses_bind (Prog.uses_call trivial) fun _ => trivial) hl₂
  -- COMMIT fails and stores nothing, or stores the row, also where its response is lost
  rcases exec_commit hx₂ with ⟨⟨e, rfl⟩, -, rfl⟩ | ⟨-, rfl, hl₂⟩
  · exact ⟨keeps_of_noNew hh₂ (fun _ => tick_noNew) hothers, trivial⟩
  · have htick : Booked S i form.senderId s₁.nextId x _ (s₂.tick S c₂) :=
      hbooked₂.meantime Others.tick ⟨by rw [tick_clock]; omega, hh₂.world.regular, tick_noNew⟩
    have hwithin : (s₂.tick S c₂).Within S := hh₂.inv.of_noNew hh₂.world.regular fun _ => tick_noNew
    refine ⟨⟨htick.within hwithin, fun j hj => ⟨hothers j hj, ⟨fun v hv => ?_⟩⟩⟩, ?_⟩
    -- another session holds another sender, in whose sums the new row does not count
    · have hne : v ≠ form.senderId := by
        rintro rfl
        rw [hbooked₂.lock] at hv
        cases hv
        exact hj rfl
      exact tick_noNew.trans (htick.noNew hne)
    · rcases hl₂ with ⟨rfl, rfl⟩ | ⟨⟨e, rfl⟩, rfl⟩
      · exact hrest (.empty fun _ => rfl)
      · trivial

/-! ## §7. Every program keeps the limits. -/

theorem exec_lockUser {a : Unit} (hx : exec S i (.lockUser u) c l s = some (.ok a, l', s')) :
    s'.userLock u = some i := by
  rcases exec_plain rfl hx with ⟨e, he, -⟩ | ⟨-, hp⟩
  · cases he
  · simp only [perform] at hp
    split at hp
    · cases hp
      exact Function.update_self _ _ _
    · cases hp

theorem safe_book {form : SendForm} {recipientId : Nat} {quote : Quote}
    (hS : S.fixedTier = true) (h : SenderHeld i form.senderId l s) :
    Safe (allowance S) i (fun _ _ _ => True) (fun _ _ _ => True)
      (CashinService.book S form recipientId quote) l s := by
  unfold CashinService.book
  rw [Prog.bind_eq]
  refine Safe.bind (held_checkLimit hS h) fun limit l₁ s₁ ⟨h₁, hroom⟩ => ?_
  split
  next hallowed =>
    rw [Prog.bind_eq]
    refine held_bind rfl h₁ fun s₂ c card l₂ s₃ _ h₂ hm hm' => ?_
    exact safe_insert h₂ ((hroom hallowed).meantime (hm.trans hm'))
  · exact safe_raise fun _ => trivial

/-- The lock is the first statement, so nothing has been written when it is taken. -/
theorem safe_createRemittance {form : SendForm} (hS : S.fixedTier = true)
    (hn : ∀ t, l.txnWrites t = none) :
    Safe (allowance S) i (fun _ _ _ => True) (fun _ _ _ => True)
      (CashinService.createRemittance S form) l s := by
  unfold CashinService.createRemittance
  split
  · rw [Prog.bind_eq]
    refine Safe.call_bind fun _ s₁ hh _ c r l' s' hx _ => ?_
    have hnot : Op.lockUser form.senderId ≠ .commit := nofun
    refine ⟨keeps_of_noNew hh (fun _ => exec_noNew hnot hx)
      fun j hj => exec_others hh.session.locked hx hj, ?_⟩
    cases r with
    | error e => trivial
    | ok a =>
      have hsame : ∀ t, l'.txnWrites t = none := fun t => by
        rw [(exec_sameTxns rfl hx).1]
        exact hn t
      have hheld : SenderHeld i form.senderId l' s' := ⟨hsame, exec_lockUser hx⟩
      show Safe (allowance S) i _ _ (Prog.bind (call (.findBeneficiary form.beneficiaryId)) _) l' s'
      refine held_bind rfl hheld fun s₂ c₂ found l₂ s₃ _ h₂ _ _ => ?_
      cases found with
      | none => exact safe_raise fun _ => trivial
      | some payee =>
        dsimp only
        cases payee.recipientUserId with
        | none => exact safe_raise fun _ => trivial
        | some recipientId =>
          refine held_bind rfl h₂ fun s₄ c₄ quote l₄ s₅ _ h₄ _ _ => ?_
          split
          · exact safe_book hS h₄
          · exact safe_raise fun _ => trivial
  · exact safe_raise fun _ => trivial

theorem allowance_sound (hS : S.fixedTier = true) : (allowance S).Sound where
  spawn := fun s h => ⟨h.of_eq rfl rfl,
    fun _ => ⟨spawn_others, .of_noNew fun _ => .of_eq rfl (Nat.le_refl _)⟩⟩
  body := fun s e _ => by
    by_cases he : e.sendsNothing
    · exact safe_sendsNothing he (body_uses S e) (.empty fun _ => rfl)
    · obtain ⟨form, hform⟩ := Classical.not_forall.mp he
      obtain rfl : e = .createRemittance form := Classical.not_not.mp hform
      exact Safe.bind (safe_createRemittance hS fun _ => rfl) fun _ _ _ _ => safe_ret
        fun _ => trivial
  close := fun i s h => ⟨h.of_eq rfl rfl,
    fun j hj => ⟨releaseAll_others hj, .of_noNew fun _ => .of_eq rfl (Nat.le_refl _)⟩⟩
  env := fun v s s' _ _ h hx => by
    have hothers : ∀ j, Others j s s' := fun j => env_others hx
    obtain ⟨he, -, -⟩ := env_eq hx
    have hsame : s'.txns = s.txns ∧ s'.nextId = s.nextId := by rw [he]; exact ⟨rfl, rfl⟩
    exact ⟨h.of_eq hsame.1 hsame.2,
      fun j => ⟨hothers j, .of_noNew fun _ => .of_eq hsame.1 (Nat.le_of_eq hsame.2.symm)⟩⟩

/-- **THE LIMITS ARE KEPT**, in every reachable state. -/
theorem allowance_reach (hS : S.fixedTier = true) {w : World} (hw : w.Orderly) (hi : w.Within S)
    {k : Config (platform S)}
    (h : Reach (M := platform S) w k) : k.world.Within S :=
  (allowance_sound hS).reach (rules_kept S) hw hi (fun _ _ => trivial) h

end Orbyt
