/-
  Orbyt.Lib.RetryLoop — work that is retried a bounded number of times

  A piece of work is queued, taken up, and either ends or is handed back to the queue.
  Taking it up counts an attempt, and only work with attempts left is handed back.  The
  counter alone bounds the loop: how often work is taken up, and how often it moves at all.

  Main results:
    * `Step.ok`      — what is queued has an attempt left;
    * `Run.takes`    — work is taken up as often as the counter has grown;
    * `Run.length_le` — every move uses up some of the finitely many that are left;
    * `settles`      — a record that only grows, within a bound, comes to rest;
    * `Permits.spent_le` — work is handed back less often than it may be taken up.
-/
import Mathlib.Data.List.Basic
import Mathlib.Data.Finset.Card

namespace RetryLoop

/-! ## §1. The loop. -/

inductive Phase where
  | absent | idle | queued | running | failed | completed
  deriving Repr, DecidableEq

/-- Where a piece of work stands, and how often it has been taken up. -/
structure State where
  phase : Phase
  attempts : Nat
  deriving Repr, DecidableEq

/-- One move of the loop. -/
inductive Step (bound : Nat) : State → State → Prop where
  | create : Step bound ⟨.absent, 0⟩ ⟨.idle, 0⟩
  | enter (n : Nat) : Step bound ⟨.idle, n⟩ ⟨.queued, n⟩
  | take (n : Nat) : Step bound ⟨.queued, n⟩ ⟨.running, n + 1⟩
  | handBack (n : Nat) (h : n < bound) : Step bound ⟨.running, n⟩ ⟨.queued, n⟩
  | drop (n : Nat) : Step bound ⟨.queued, n⟩ ⟨.failed, n⟩
  | fail (n : Nat) : Step bound ⟨.running, n⟩ ⟨.failed, n⟩
  | complete (n : Nat) : Step bound ⟨.running, n⟩ ⟨.completed, n⟩
  | reconcile (n : Nat) : Step bound ⟨.failed, n⟩ ⟨.completed, n⟩

/-- Not taken up yet. -/
def Phase.isAhead : Phase → Bool
  | .absent | .idle | .queued => true
  | .running | .failed | .completed => false

/-- What is still to be taken up has an attempt left. -/
structure State.Ok (bound : Nat) (a : State) : Prop where
  ahead : a.phase.isAhead = true → a.attempts < bound
  most : a.attempts ≤ bound

variable {bound : Nat} {a b c : State}

theorem State.Ok.start (h : 0 < bound) : (State.mk .absent 0).Ok bound :=
  ⟨fun _ => h, Nat.zero_le _⟩

/-- **ONE MOVE** leaves an attempt to what it queues. -/
theorem Step.ok (h : Step bound a b) (ha : a.Ok bound) : b.Ok bound := by
  cases h with
  | create => exact ⟨fun _ => ha.ahead rfl, ha.most⟩
  | enter n => exact ⟨fun _ => ha.ahead rfl, ha.most⟩
  | take n => exact ⟨nofun, ha.ahead rfl⟩
  | handBack n hlt => exact ⟨fun _ => hlt, ha.most⟩
  | drop n | fail n | complete n | reconcile n => exact ⟨nofun, ha.most⟩

/-- Every move leads to another phase. -/
theorem Step.phase_ne (h : Step bound a b) : a.phase ≠ b.phase := by
  cases h <;> nofun

/-! ## §2. How far it can go. -/

/-- The moves that are left at most. -/
def State.left (bound : Nat) (a : State) : Nat :=
  match a.phase with
  | .absent => 2 * (bound - a.attempts) + 3
  | .idle => 2 * (bound - a.attempts) + 2
  | .queued => 2 * (bound - a.attempts) + 1
  | .running => 2 * (bound - a.attempts) + 2
  | .failed => 1
  | .completed => 0

theorem State.left_le (bound : Nat) (a : State) : a.left bound ≤ 2 * bound + 3 := by
  unfold State.left
  split <;> omega

/-- Taking up uses an attempt, and every other move comes nearer to the end of one. -/
theorem Step.left_lt (h : Step bound a b) (ha : a.Ok bound) : b.left bound < a.left bound := by
  cases h with
  | take n =>
    have hlt : n < bound := ha.ahead rfl
    show 2 * (bound - (n + 1)) + 2 < 2 * (bound - n) + 1
    omega
  | create => show 2 * (bound - 0) + 2 < 2 * (bound - 0) + 3; omega
  | enter n => show 2 * (bound - n) + 1 < 2 * (bound - n) + 2; omega
  | handBack n _ => show 2 * (bound - n) + 1 < 2 * (bound - n) + 2; omega
  | drop n => show 1 < 2 * (bound - n) + 1; have hlt : n < bound := ha.ahead rfl; omega
  | fail n => show 1 < 2 * (bound - n) + 2; omega
  | complete n => show 0 < 2 * (bound - n) + 2; omega
  | reconcile n => show 0 < 1; omega

/-- A run of the loop, with the phases it has entered, newest first. -/
inductive Run (bound : Nat) (a : State) : List Phase → State → Prop where
  | refl : Run bound a [] a
  | step {log : List Phase} {b c : State} :
      Run bound a log b → Step bound b c → Run bound a (c.phase :: log) c

variable {log log' : List Phase}

theorem Run.single (h : Step bound a b) : Run bound a [b.phase] b := .step .refl h

theorem Run.trans (h : Run bound a log b) (h' : Run bound b log' c) :
    Run bound a (log' ++ log) c := by
  induction h' with
  | refl => exact h
  | step _ hs ih => exact ih.step hs

theorem Run.ok (h : Run bound a log b) (ha : a.Ok bound) : b.Ok bound := by
  induction h with
  | refl => exact ha
  | step _ hs ih => exact hs.ok ih

/-- **THE COUNTER COUNTS**: work has been taken up as often as its attempts have grown. -/
theorem Run.takes (h : Run bound a log b) : log.count .running + a.attempts = b.attempts := by
  induction h with
  | refl => exact Nat.zero_add _
  | step _ hs ih =>
    rw [List.count_cons]
    cases hs with
    | take n =>
      show _ + 1 + a.attempts = n + 1
      have hn : List.count Phase.running _ + a.attempts = n := ih
      omega
    | _ => exact ih

/-- **THE LOOP ENDS**: every move is one of those that were left. -/
theorem Run.length_le (h : Run bound a log b) (ha : a.Ok bound) :
    log.length + b.left bound ≤ a.left bound := by
  induction h with
  | refl => simp
  | step hr hs ih =>
    have hlt := hs.left_lt (hr.ok ha)
    rw [List.length_cons]
    omega

theorem Run.takes_le (h : Run bound a log b) (ha : a.Ok bound) : log.count .running ≤ bound := by
  have hcount := h.takes
  have hmost := (h.ok ha).most
  omega

/-! ## §3. Records that only grow. -/

/-- **COMING TO REST**: what only grows at one end, and never past a bound, stops growing. -/
theorem settles {α : Type} {most : Nat} (f : Nat → List α)
    (hgrow : ∀ n, ∃ new, f (n + 1) = new ++ f n) (hmost : ∀ n, (f n).length ≤ most) :
    ∃ N, ∀ n, N ≤ n → f n = f N := by
  -- on the room that is left at the start
  induction hroom : most - (f 0).length using Nat.strongRecOn generalizing f with
  | ind room ih =>
    by_cases hrest : ∀ n, f n = f 0
    · exact ⟨0, fun n _ => hrest n⟩
    · obtain ⟨m, hm⟩ := not_forall.mp hrest
      have hlater : ∀ n, ∃ new, f n = new ++ f 0 := by
        intro n
        induction n with
        | zero => exact ⟨[], rfl⟩
        | succ n ihn =>
          obtain ⟨new, hn⟩ := ihn
          obtain ⟨more, hmore⟩ := hgrow n
          exact ⟨more ++ new, by rw [hmore, hn, List.append_assoc]⟩
      obtain ⟨new, hnew⟩ := hlater m
      have hpos : 0 < new.length := by
        rw [List.length_pos_iff]
        intro hnil
        rw [hnil] at hnew
        exact hm hnew
      have hlen : (f m).length = new.length + (f 0).length := by rw [hnew, List.length_append]
      have hle := hmost m
      obtain ⟨N, hN⟩ := ih (most - (f (0 + m)).length) (by rw [Nat.zero_add]; omega)
        (fun n => f (n + m))
        (fun n => by rw [Nat.add_right_comm]; exact hgrow (n + m)) (fun n => hmost (n + m)) rfl
      refine ⟨N + m, fun n hn => ?_⟩
      have h := hN (n - m) (by omega)
      have hnm : n - m + m = n := by omega
      rwa [hnm] at h

/-! ## §4. Permits to hand back. -/

/-- Whoever takes work up before its last attempt gets a permit to hand it back, once.
`holders` have theirs, `spent` are used up. -/
structure Permits (bound taken spent : Nat) (holders : Finset Nat) : Prop where
  room : spent + holders.card ≤ min taken (bound - 1)

variable {taken taken' spent i : Nat} {holders : Finset Nat}

theorem Permits.start (bound taken : Nat) : Permits bound taken 0 ∅ :=
  ⟨Nat.zero_le _⟩

theorem Permits.mono (h : Permits bound taken spent holders) (hle : taken ≤ taken') :
    Permits bound taken' spent holders := by
  have hroom := h.room
  refine ⟨?_⟩
  omega

/-- **TAKING UP**: with a permit, or in the last attempt. -/
theorem Permits.take (h : Permits bound taken spent holders) (i : Nat) :
    ∃ holders', Permits bound (taken + 1) spent holders' ∧ holders ⊆ holders' ∧
      (i ∈ holders' ∨ bound ≤ taken + 1) := by
  have hroom := h.room
  by_cases hlast : bound ≤ taken + 1
  · exact ⟨holders, h.mono (Nat.le_succ _), fun _ hj => hj, .inr hlast⟩
  · refine ⟨insert i holders, ⟨?_⟩, Finset.subset_insert _ _, .inl (Finset.mem_insert_self _ _)⟩
    have hcard := Finset.card_insert_le i holders
    omega

/-- **HANDING BACK** uses the permit up. -/
theorem Permits.spend (h : Permits bound taken spent holders) (hi : i ∈ holders) :
    Permits bound taken (spent + 1) (holders.erase i) := by
  have hroom := h.room
  have hcard := Finset.card_erase_add_one hi
  refine ⟨?_⟩
  omega

theorem Permits.spent_le (h : Permits bound taken spent holders) : spent ≤ bound - 1 := by
  have hroom := h.room
  omega

end RetryLoop
