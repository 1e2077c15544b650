/-
  Orbyt.Lib.Interleave — interleaved programs and the rely rule

  A `Machine` runs any number of programs, each in its own session, over one
  shared world.  One step performs ONE call of one program (or starts a
  program, drops one at whatever point it has reached, or lets the environment
  move), so a run is an arbitrary interleaving at the granularity of calls.

  Two ways to reason about all runs:

    * a `Discipline` holds of every program by its footprint alone: facts of the
      world, facts of each session, and what one program sees of the others' moves;
    * a `Protocol` over a discipline is an invariant that depends on WHERE a
      program is.  `Safe` says of the rest of one program that each of its calls
      keeps the invariant and what the others rely on, whatever they do meanwhile.

  Main results:
    * `Discipline.Kept.reach`, `Discipline.Kept.moves` — a kept discipline holds in
      every reachable state and of every step;
    * `Safe.bind`, `Safe.tryCatch`, `Safe.attempt` — one rule for each form of
      the source language, so every function gets one specification lemma;
    * `Safe.of_uses` — a program all of whose calls are harmless is safe;
    * `Protocol.Sound.reach` — if every program is safe at its start, the invariant
      holds in every reachable state.
-/
import Mathlib.Logic.Function.Basic
import Orbyt.Lib.Program

namespace Interleave

open Function (update)

/-! ## §1. Machines and their runs. -/

/-- Programs over one world.  `exec i o c l w` performs the call `o` of program
`i` with session `l`; the choice `c` resolves what the world does not determine,
and `none` means that the call cannot complete this way (it waits). -/
structure Machine where
  sig : Sig
  Exn : Type
  Session : Type
  World : Type
  Choice : Type
  Entry : Type
  Env : Type
  body : Entry → Prog sig Exn Unit
  start : Entry → Session
  exec : Nat → (o : sig.Op) → Choice → Session → World →
    Option (Except Exn (sig.Res o) × Session × World)
  /-- The session of a program ends, at whatever point. -/
  close : Nat → World → World
  env : Env → World → Option World
  /-- The name the next program gets, and the world once it is taken. -/
  next : World → Nat
  spawn : World → World

variable (M : Machine)

/-- A program in flight: its session and what is left of it. -/
structure Thread where
  session : M.Session
  rest : Prog M.sig M.Exn Unit

structure Config where
  world : M.World
  threads : Nat → Option (Thread M)

inductive Label where
  | start (e : M.Entry)
  | call (i : Nat) (c : M.Choice)
  | stop (i : Nat)
  | env (v : M.Env)

variable {M}

def Config.initial (w : M.World) : Config M := ⟨w, fun _ => none⟩

/-- One step of the machine.  `stop` covers both a program that is done and one
that is killed. -/
def Config.step (c : Config M) : Label M → Option (Config M)
  | .start e =>
      some ⟨M.spawn c.world,
        update c.threads (M.next c.world) (some ⟨M.start e, M.body e⟩)⟩
  | .call i ch =>
      match c.threads i with
      | some ⟨l, .op o k⟩ =>
          (M.exec i o ch l c.world).map (fun r =>
            ⟨r.2.2, update c.threads i (some ⟨r.2.1, k r.1⟩)⟩)
      | _ => none
  | .stop i =>
      (c.threads i).map (fun _ => ⟨M.close i c.world, update c.threads i none⟩)
  | .env v => (M.env v c.world).map (fun w => ⟨w, c.threads⟩)

/-- What a call has come from, and what it leaves. -/
theorem Config.step_call {c c' : Config M} {i : Nat} {ch : M.Choice}
    (h : c.step (.call i ch) = some c') :
    ∃ l o k r l' w', c.threads i = some ⟨l, .op o k⟩ ∧ M.exec i o ch l c.world = some (r, l', w') ∧
      c' = ⟨w', update c.threads i (some ⟨l', k r⟩)⟩ := by
  simp only [Config.step] at h
  split at h
  next l o k hth =>
    obtain ⟨⟨r, l', w'⟩, hx, rfl⟩ := Option.map_eq_some_iff.mp h
    exact ⟨l, o, k, r, l', w', hth, hx, rfl⟩
  next => cases h

def Config.run : List (Label M) → Config M → Option (Config M)
  | [], c => some c
  | lab :: labs, c => (c.step lab).bind (Config.run labs)

theorem Config.run_concat (labs : List (Label M)) (lab : Label M) (c : Config M) :
    c.run (labs ++ [lab]) = (c.run labs).bind (Config.step · lab) := by
  induction labs generalizing c with
  | nil =>
    show (c.step lab).bind some = c.step lab
    cases c.step lab <;> rfl
  | cons first labs ih =>
    show (c.step first).bind (Config.run (labs ++ [lab]))
      = ((c.step first).bind (Config.run labs)).bind _
    rw [Option.bind_assoc]
    exact congrArg _ (funext ih)

inductive Reach (w : M.World) : Config M → Prop where
  | initial : Reach w (Config.initial w)
  | step {c c' : Config M} {lab : Label M} : Reach w c → c.step lab = some c' → Reach w c'

theorem Reach.run {w : M.World} :
    ∀ {labs : List (Label M)} {c c' : Config M},
      Reach w c → c.run labs = some c' → Reach w c'
  | [], c, c', h, hr => by
      injection hr with hr
      exact hr ▸ h
  | lab :: labs, c, c', h, hr => by
      obtain ⟨d, hd, hr⟩ := Option.bind_eq_some_iff.mp hr
      exact Reach.run (h.step hd) hr

/-- What is read off the end of a run holds in a reachable state. -/
theorem Reach.of_run_map {w : M.World} {labs : List (Label M)} {α : Type} {f : Config M → α} {a : α}
    (h : (Config.run labs (Config.initial w)).map f = some a) : ∃ c, Reach w c ∧ f c = a := by
  obtain ⟨c, hc, ha⟩ := Option.map_eq_some_iff.mp h
  exact ⟨c, Reach.run .initial hc, ha⟩

/-- A course of steps from `c`, each of which is `ok` in the state it is taken in. -/
inductive Course (ok : Config M → Label M → Prop) (c : Config M) : Config M → Prop where
  | refl : Course ok c c
  | step {c' c'' : Config M} {lab : Label M} :
      Course ok c c' → ok c' lab → c'.step lab = some c'' → Course ok c c''

theorem Course.reach {ok : Config M → Label M → Prop} {w : M.World} {c c' : Config M}
    (h : Course ok c c') (hr : Reach w c) : Reach w c' := by
  induction h with
  | refl => exact hr
  | step _ _ hs ih => exact ih.step hs

/-- A run is a course where every one of its labels is `ok` in whatever state. -/
theorem Course.run {ok : Config M → Label M → Prop} {c : Config M} :
    ∀ {labs : List (Label M)} {c' c'' : Config M}, Course ok c c' →
      (∀ lab ∈ labs, ∀ d, ok d lab) → c'.run labs = some c'' → Course ok c c''
  | [], c', c'', h, _, hr => by
      injection hr with hr
      exact hr ▸ h
  | lab :: labs, c', c'', h, hok, hr => by
      obtain ⟨d, hd, hr⟩ := Option.bind_eq_some_iff.mp hr
      exact Course.run (h.step (hok lab List.mem_cons_self _) hd)
        (fun lab' hl => hok lab' (List.mem_cons_of_mem _ hl)) hr

/-- A run, and how many of its steps `counts` has picked. -/
inductive Tally (counts : Config M → Label M → Bool) (w : M.World) : Config M → Nat → Prop where
  | initial : Tally counts w (Config.initial w) 0
  | step {c c' : Config M} {lab : Label M} {n : Nat} :
      Tally counts w c n → c.step lab = some c' → Tally counts w c' (n + (counts c lab).toNat)

theorem Tally.reach {counts : Config M → Label M → Bool} {w : M.World} {c : Config M} {n : Nat}
    (h : Tally counts w c n) : Reach w c := by
  induction h with
  | initial => exact .initial
  | step _ hs ih => exact ih.step hs

theorem Reach.tally {w : M.World} {c : Config M} (h : Reach w c)
    (counts : Config M → Label M → Bool) : ∃ n, Tally counts w c n := by
  induction h with
  | initial => exact ⟨0, .initial⟩
  | step _ hs ih =>
    obtain ⟨n, hn⟩ := ih
    exact ⟨_, hn.step hs⟩

/-- Whose move a step is; starting a program and the environment are nobody's. -/
def Label.party : Label M → Option Nat
  | .call i _ | .stop i => some i
  | .start _ | .env _ => none

/-- The calls of `p`, as program `i` makes them one after another, each in the world that the
others have left by then: what `p` ends with, and its session. -/
def follow {α : Type} (i : Nat) : List (M.Choice × M.World) → Prog M.sig M.Exn α → M.Session →
    Option (Except M.Exn α × M.Session)
  | _, .ret a, l => some (.ok a, l)
  | _, .raise e, l => some (.error e, l)
  | [], .op _ _, _ => none
  | (c, w) :: ws, .op o k, l => (M.exec i o c l w).bind (fun r => follow i ws (k r.1) r.2.1)

theorem follow_ret {α : Type} {i : Nat} {ws : List (M.Choice × M.World)} {a : α}
    {r : Except M.Exn α} {l l' : M.Session} :
    follow i ws (.ret a : Prog M.sig M.Exn α) l = some (r, l') ↔ .ok a = r ∧ l = l' := by
  have hend : follow i ws (.ret a : Prog M.sig M.Exn α) l = some (.ok a, l) := by
    cases ws <;> rfl
  rw [hend, Option.some.injEq, Prod.mk.injEq]

theorem follow_raise {α : Type} {i : Nat} {ws : List (M.Choice × M.World)} {e : M.Exn}
    {r : Except M.Exn α} {l l' : M.Session} :
    follow i ws (.raise e : Prog M.sig M.Exn α) l = some (r, l') ↔ .error e = r ∧ l = l' := by
  have hend : follow i ws (.raise e : Prog M.sig M.Exn α) l = some (.error e, l) := by
    cases ws <;> rfl
  rw [hend, Option.some.injEq, Prod.mk.injEq]

/-- A call, then the rest, to the end: the call answers, or its exception is the end. -/
theorem follow_call_bind {α : Type} {i : Nat} {o : M.sig.Op} {c : M.Choice} {w : M.World}
    {ws : List (M.Choice × M.World)} {f : M.sig.Res o → Prog M.sig M.Exn α} {l l' : M.Session}
    {a : α} :
    follow i ((c, w) :: ws) (Prog.bind (Prog.call o) f) l = some (.ok a, l') ↔
      ∃ x l₁ w₁, M.exec i o c l w = some (.ok x, l₁, w₁) ∧ follow i ws (f x) l₁ =
        some (.ok a, l') := by
  show (M.exec i o c l w).bind _ = _ ↔ _
  rw [Option.bind_eq_some_iff]
  constructor
  · rintro ⟨⟨r, l₁, w₁⟩, hx, hrest⟩
    cases r with
    | ok x => exact ⟨x, l₁, w₁, hx, hrest⟩
    | error e =>
      cases (follow_raise.mp hrest).1
  · rintro ⟨x, l₁, w₁, hx, hrest⟩
    exact ⟨(.ok x, l₁, w₁), hx, hrest⟩

/-! ## §2. What holds of every program by its footprint. -/

/-- Facts of the world and of each session that every call in a program's footprint
keeps, and what a program sees when another one moves. -/
structure Discipline (M : Machine) where
  may : M.Entry → M.sig.Op → Prop
  world : M.World → Prop
  session : Nat → M.Session → M.World → Prop
  moves : Nat → M.World → M.World → Prop
  refl : ∀ j w, moves j w w
  trans : ∀ {j a b c}, moves j a b → moves j b c → moves j a c
  stable : ∀ {j l w w'}, session j l w → moves j w w' → session j l w'

/-- The move of `i` from `w` to `w'` keeps the world's facts, and the others see no more
than `moves`. -/
def Discipline.leaves (D : Discipline M) (i : Nat) (w w' : M.World) : Prop :=
  D.world w' ∧ ∀ j, j ≠ i → D.moves j w w'

structure Discipline.Kept (D : Discipline M) : Prop where
  uses : ∀ e, Prog.Uses (D.may e) (M.body e)
  spawn : ∀ w e, D.world w → D.world (M.spawn w) ∧
    D.session (M.next w) (M.start e) (M.spawn w) ∧ ∀ j, D.moves j w (M.spawn w)
  call : ∀ e i o c l w r l' w', D.may e o → D.world w → D.session i l w →
    M.exec i o c l w = some (r, l', w') → D.leaves i w w' ∧ D.session i l' w'
  close : ∀ i w, D.world w → D.leaves i w (M.close i w)
  env : ∀ v w w', D.world w → M.env v w = some w' → D.world w' ∧ ∀ j, D.moves j w w'

/-- What a kept discipline says of a configuration. -/
structure Discipline.Holds (D : Discipline M) (c : Config M) : Prop where
  world : D.world c.world
  uses : ∀ i th, c.threads i = some th → ∃ e, Prog.Uses (D.may e) th.rest
  session : ∀ i th, c.threads i = some th → D.session i th.session c.world

variable {D : Discipline M}

/-- One step keeps a discipline, and whoever does not take it sees only `moves`. -/
theorem Discipline.Kept.holds_step (hD : D.Kept) {c c' : Config M} {lab : Label M}
    (h : D.Holds c) (hs : c.step lab = some c') :
    D.Holds c' ∧ ∀ j, lab.party ≠ some j → D.moves j c.world c'.world := by
  cases lab with
  | start e =>
    injection hs with hs
    subst hs
    obtain ⟨hw, hnew, hm⟩ := hD.spawn c.world e h.world
    refine ⟨⟨hw, fun j th hj => ?_, fun j th hj => ?_⟩, fun j _ => hm j⟩
    -- the new thread runs the program of its entry, the others have seen a move
    all_goals by_cases hjn : j = M.next c.world
    · subst hjn
      obtain rfl : _ = th := by simpa [update] using hj
      exact ⟨e, hD.uses e⟩
    · exact h.uses j th (by simpa [update, hjn] using hj)
    · subst hjn
      obtain rfl : _ = th := by simpa [update] using hj
      exact hnew
    · exact D.stable (h.session j th (by simpa [update, hjn] using hj)) (hm j)
  | call i ch =>
    obtain ⟨l, o, k, r, l', w', hth, hx, rfl⟩ := Config.step_call hs
    obtain ⟨e, hu⟩ := h.uses i _ hth
    obtain ⟨⟨hw, hm⟩, hown⟩ :=
      hD.call e i o ch l _ r l' w' hu.1 h.world (h.session i _ hth) hx
    refine ⟨⟨hw, fun j th hj => ?_, fun j th hj => ?_⟩,
      fun j hj => hm j (fun he => hj (he ▸ rfl))⟩
    -- the caller has the rest of its program left, the others have seen a move
    all_goals by_cases hji : j = i
    · subst hji
      obtain rfl : _ = th := by simpa [update] using hj
      exact ⟨e, hu.2 r⟩
    · exact h.uses j th (by simpa [update, hji] using hj)
    · subst hji
      obtain rfl : _ = th := by simpa [update] using hj
      exact hown
    · exact D.stable (h.session j th (by simpa [update, hji] using hj)) (hm j hji)
  | stop i =>
    obtain ⟨_, _, rfl⟩ := Option.map_eq_some_iff.mp hs
    obtain ⟨hw, hm⟩ := hD.close i _ h.world
    have hold : ∀ j th, update c.threads i none j = some th → j ≠ i ∧ c.threads j = some th := by
      intro j th hj
      by_cases hji : j = i
      · simp [update, hji] at hj
      · exact ⟨hji, by simpa [update, hji] using hj⟩
    exact ⟨⟨hw, fun j th hj => h.uses j th (hold j th hj).2,
      fun j th hj => D.stable (h.session j th (hold j th hj).2) (hm j (hold j th hj).1)⟩,
      fun j hj => hm j (fun he => hj (he ▸ rfl))⟩
  | env v =>
    obtain ⟨w', hv, rfl⟩ := Option.map_eq_some_iff.mp hs
    obtain ⟨hw, hm⟩ := hD.env v _ w' h.world hv
    exact ⟨⟨hw, h.uses, fun j th hj => D.stable (h.session j th hj) (hm j)⟩, fun j _ => hm j⟩

/-- **EVERY PROGRAM KEEPS THE DISCIPLINE**, in every reachable state. -/
theorem Discipline.Kept.reach (hD : D.Kept) {w₀ : M.World} (h₀ : D.world w₀) {c : Config M}
    (h : Reach w₀ c) : D.Holds c := by
  induction h with
  | initial =>
    exact ⟨h₀, fun i th hi => by simp [Config.initial] at hi,
      fun i th hi => by simp [Config.initial] at hi⟩
  | step _ hs ih => exact (hD.holds_step ih hs).1

theorem Discipline.Kept.moves (hD : D.Kept) {w₀ : M.World} (h₀ : D.world w₀) {c c' : Config M}
    {lab : Label M} (h : Reach w₀ c) (hs : c.step lab = some c') {j : Nat}
    (hj : lab.party ≠ some j) : D.moves j c.world c'.world :=
  (hD.holds_step (hD.reach h₀ h) hs).2 j hj

/-- What a program has come to, whatever the others do: `A` holds at its start, and is kept
by its own calls and by what it sees of the others' moves. -/
structure Discipline.Stage (D : Discipline M)
    (A : Nat → M.Session → Prog M.sig M.Exn Unit → M.World → Prop) : Prop where
  start : ∀ e w, D.world w → A (M.next w) (M.start e) (M.body e) (M.spawn w)
  call : ∀ i o k c l w r l' w', D.world w → D.session i l w → A i l (.op o k) w →
    M.exec i o c l w = some (r, l', w') → A i l' (k r) w'
  moves : ∀ i l p w w', D.session i l w → A i l p w → D.moves i w w' → A i l p w'

/-- **WHAT PROGRAMS HAVE COME TO**, in every reachable state. -/
theorem Discipline.Stage.reach {A : Nat → M.Session → Prog M.sig M.Exn Unit → M.World → Prop}
    (hA : D.Stage A) (hD : D.Kept) {w₀ : M.World} (h₀ : D.world w₀) {c : Config M}
    (h : Reach w₀ c) {i : Nat} {th : Thread M} (hi : c.threads i = some th) :
    A i th.session th.rest c.world := by
  induction h generalizing i th with
  | initial => simp [Config.initial] at hi
  | @step c c' lab hr hs ih =>
    have hc := hD.reach h₀ hr
    have hm := fun j hj => hD.moves h₀ hr hs (j := j) hj
    have hstays : ∀ j th, lab.party ≠ some j → c.threads j = some th →
        A j th.session th.rest c'.world := fun j th hj ht =>
      hA.moves j _ _ _ _ (hc.session j th ht) (ih ht) (hm j hj)
    cases lab with
    | start e =>
      injection hs with hs
      subst hs
      by_cases hin : i = M.next c.world
      · subst hin
        obtain rfl : _ = th := by simpa [update] using hi
        exact hA.start e c.world hc.world
      · exact hstays i th (by simp [Label.party]) (by simpa [update, hin] using hi)
    | call j ch =>
      obtain ⟨l, o, p, r, l', w', hth, hx, rfl⟩ := Config.step_call hs
      by_cases hij : i = j
      · subst hij
        obtain rfl : _ = th := by simpa [update] using hi
        exact hA.call i o p ch l _ r l' w' hc.world (hc.session i _ hth) (ih hth) hx
      · exact hstays i th (fun he => hij (Option.some.inj he).symm)
          (by simpa [update, hij] using hi)
    | stop j =>
      obtain ⟨_, _, rfl⟩ := Option.map_eq_some_iff.mp hs
      by_cases hij : i = j
      · simp [update, hij] at hi
      · exact hstays i th (fun he => hij (Option.some.inj he).symm)
          (by simpa [update, hij] using hi)
    | env v =>
      obtain ⟨w', _, rfl⟩ := Option.map_eq_some_iff.mp hs
      exact hstays i th (by simp [Label.party]) hi

/-! ## §3. Protocols and safe programs. -/

/-- An invariant and, for every program, a preorder its environment respects;
`known` is what has been established of every reachable state before. -/
structure Protocol (D : Discipline M) where
  known : M.World → Prop
  inv : M.World → Prop
  rely : Nat → M.World → M.World → Prop
  refl : ∀ j w, rely j w w
  trans : ∀ {j a b c}, rely j a b → rely j b c → rely j a c

variable (P : Protocol D)

/-- What one program's step owes: the invariant, and what the others rely on. -/
def Protocol.keeps (i : Nat) (w w' : M.World) : Prop :=
  P.inv w' ∧ ∀ j, j ≠ i → P.rely j w w'

/-- What has been established of the session `l` of program `i` and its world. -/
structure Protocol.Given (i : Nat) (l : M.Session) (w : M.World) : Prop where
  world : D.world w
  session : D.session i l w
  known : P.known w

/-- What holds when program `i` moves. -/
structure Protocol.Here (i : Nat) (l : M.Session) (w : M.World) : Prop
    extends P.Given i l w where
  inv : P.inv w

/-- What program `i` may see of the world between two of its calls. -/
structure Protocol.Sees (i : Nat) (w w' : M.World) : Prop where
  moves : D.moves i w w'
  rely : P.rely i w w'

variable {α β : Type}

/-- The program `p`, run as program `i`, keeps the protocol at each of its calls
under any interference, and ends in `Q` (or raises in `E`). -/
def Safe (i : Nat) (Q : α → M.Session → M.World → Prop)
    (E : M.Exn → M.Session → M.World → Prop) :
    Prog M.sig M.Exn α → M.Session → M.World → Prop
  | .ret a, l, w => P.Given i l w → Q a l w
  | .raise e, l, w => P.Given i l w → E e l w
  | .op o k, l, w => P.Given i l w →
      ∀ w₁, P.Here i l w₁ → P.Sees i w w₁ →
        ∀ c r l' w', M.exec i o c l w₁ = some (r, l', w') → P.Given i l' w' →
          P.keeps i w₁ w' ∧ Safe i Q E (k r) l' w'

/-- Safe to its end, with nothing promised about the result. -/
def SafeEnd (i : Nat) (p : Prog M.sig M.Exn Unit) (l : M.Session) (w : M.World) : Prop :=
  Safe P i (fun _ _ _ => True) (fun _ _ _ => True) p l w

variable {P} {i : Nat} {Q Q' : α → M.Session → M.World → Prop}
  {E X : M.Exn → M.Session → M.World → Prop} {l : M.Session} {w : M.World}

theorem Protocol.Sees.trans {w' w'' : M.World} (h : P.Sees i w w') (h' : P.Sees i w' w'') :
    P.Sees i w w'' := ⟨D.trans h.moves h'.moves, P.trans h.rely h'.rely⟩

/-- What is given may be used from the start. -/
theorem Safe.given {p : Prog M.sig M.Exn α} (h : P.Given i l w → Safe P i Q E p l w) :
    Safe P i Q E p l w := by
  cases p with
  | ret a => exact fun hg => h hg hg
  | raise e => exact fun hg => h hg hg
  | op o k => exact fun hg => h hg hg

theorem safe_ret {a : α} (h : P.Given i l w → Q a l w) : Safe P i Q E (.ret a) l w := h
theorem safe_raise {e : M.Exn} (h : P.Given i l w → E e l w) :
    Safe P i Q E (.raise e : Prog M.sig M.Exn α) l w := h

theorem Safe.mono {p : Prog M.sig M.Exn α} (h : Safe P i Q E p l w)
    (hQ : ∀ a l' w', P.Given i l' w' → Q a l' w' → Q' a l' w')
    (hE : ∀ e l' w', P.Given i l' w' → E e l' w' → X e l' w') :
    Safe P i Q' X p l w := by
  induction p generalizing l w with
  | ret a => exact fun hg => hQ a l w hg (h hg)
  | raise e => exact fun hg => hE e l w hg (h hg)
  | op o k ih =>
    intro hg w₁ hi hr c r l' w' hx hg'
    obtain ⟨hk, hs⟩ := h hg w₁ hi hr c r l' w' hx hg'
    exact ⟨hk, ih r hs⟩

/-- **Sequencing.** -/
theorem Safe.bind {p : Prog M.sig M.Exn α} {f : α → Prog M.sig M.Exn β}
    {Q : β → M.Session → M.World → Prop} {R : α → M.Session → M.World → Prop}
    (hp : Safe P i R E p l w)
    (hf : ∀ a l' w', R a l' w' → Safe P i Q E (f a) l' w') :
    Safe P i Q E (Prog.bind p f) l w := by
  induction p generalizing l w with
  | ret a => exact Safe.given fun hg => hf a l w (hp hg)
  | raise e => exact hp
  | op o k ih =>
    intro hg w₁ hi hr c r l' w' hx hg'
    obtain ⟨hk, hs⟩ := hp hg w₁ hi hr c r l' w' hx hg'
    exact ⟨hk, ih r hs⟩

/-- **Handlers.** -/
theorem Safe.tryCatch {p : Prog M.sig M.Exn α} {g : M.Exn → Prog M.sig M.Exn α}
    (hp : Safe P i Q X p l w)
    (hg : ∀ e l' w', X e l' w' → Safe P i Q E (g e) l' w') :
    Safe P i Q E (Prog.tryCatch p g) l w := by
  induction p generalizing l w with
  | ret a => exact hp
  | raise e => exact Safe.given fun hgiven => hg e l w (hp hgiven)
  | op o k ih =>
    intro hgiven w₁ hi hr c r l' w' hx hg'
    obtain ⟨hk, hs⟩ := hp hgiven w₁ hi hr c r l' w' hx hg'
    exact ⟨hk, ih r hs⟩

/-- **Handing an exception back.** -/
theorem Safe.attempt {p : Prog M.sig M.Exn α}
    {Q : Except M.Exn α → M.Session → M.World → Prop}
    (hp : Safe P i (fun a => Q (.ok a)) (fun e => Q (.error e)) p l w) :
    Safe P i Q E (Prog.attempt p) l w := by
  induction p generalizing l w with
  | ret a => exact hp
  | raise e => exact hp
  | op o k ih =>
    intro hgiven w₁ hi hr c r l' w' hx hg'
    obtain ⟨hk, hs⟩ := hp hgiven w₁ hi hr c r l' w' hx hg'
    exact ⟨hk, ih r hs⟩

/-- An attempt, then the rest. -/
theorem Safe.attempt_bind {p : Prog M.sig M.Exn α} {f : Except M.Exn α → Prog M.sig M.Exn β}
    {Q : β → M.Session → M.World → Prop} {R : α → M.Session → M.World → Prop}
    (hp : Safe P i R X p l w)
    (hok : ∀ a l' w', R a l' w' → Safe P i Q E (f (.ok a)) l' w')
    (herr : ∀ e l' w', X e l' w' → Safe P i Q E (f (.error e)) l' w') :
    Safe P i Q E (Prog.bind (Prog.attempt p) f) l w :=
  Safe.bind (R := fun r l' w' => Safe P i Q E (f r) l' w')
    (Safe.attempt (hp.mono (fun a l' w' _ h => hok a l' w' h) (fun e l' w' _ h => herr e l' w' h)))
    (fun _ _ _ h => h)

/-- `Q` of what a call answers, or `E` of what it raises. -/
def onAnswer {ε : Type} (Q : α → Prop) (E : ε → Prop) : Except ε α → Prop
  | .ok a => Q a
  | .error e => E e

/-- A single call. -/
theorem safe_call {o : M.sig.Op} {Q : M.sig.Res o → M.Session → M.World → Prop}
    (h : P.Given i l w → ∀ w₁, P.Here i l w₁ → P.Sees i w w₁ →
      ∀ c r l' w', M.exec i o c l w₁ = some (r, l', w') → P.Given i l' w' →
        P.keeps i w₁ w' ∧ onAnswer (fun a => Q a l' w') (fun e => E e l' w') r) :
    Safe P i Q E (Prog.call o) l w := by
  intro hg w₁ hi hr c r l' w' hx hg'
  obtain ⟨hk, hq⟩ := h hg w₁ hi hr c r l' w' hx hg'
  refine ⟨hk, ?_⟩
  cases r with
  | ok a => exact fun _ => hq
  | error e => exact fun _ => hq

/-- A call, then the rest. -/
theorem Safe.call_bind {o : M.sig.Op} {f : M.sig.Res o → Prog M.sig M.Exn α}
    (h : P.Given i l w → ∀ w₁, P.Here i l w₁ → P.Sees i w w₁ →
      ∀ c r l' w', M.exec i o c l w₁ = some (r, l', w') → P.Given i l' w' →
        P.keeps i w₁ w' ∧ onAnswer (fun a => Safe P i Q E (f a) l' w') (fun e => E e l' w') r) :
    Safe P i Q E (Prog.bind (Prog.call o) f) l w :=
  Safe.bind (R := fun a l' w' => Safe P i Q E (f a) l' w') (safe_call h) (fun _ _ _ h => h)

/-- **Footprint rule**: if every call in the footprint keeps the protocol and the
facts `A`, and `A` survives interference, then so does the whole program. -/
theorem Safe.of_uses {F : M.sig.Op → Prop} {A : M.Session → M.World → Prop}
    (hstable : ∀ l w w', A l w → P.Given i l w → P.Here i l w' → P.Sees i w w' → A l w')
    (hcall : ∀ o, F o → ∀ l w, A l w → P.Here i l w →
      ∀ c r l' w', M.exec i o c l w = some (r, l', w') → P.Given i l' w' →
        P.keeps i w w' ∧ A l' w') :
    ∀ {p : Prog M.sig M.Exn α} {l w}, Prog.Uses F p → A l w →
      Safe P i (fun _ => A) (fun _ => A) p l w := by
  intro p
  induction p with
  | ret a => exact fun _ h _ => h
  | raise e => exact fun _ h _ => h
  | op o k ih =>
    intro l w hu h hg w₁ hi hr c r l' w' hx hg'
    obtain ⟨hk, ha⟩ := hcall o hu.1 l w₁ (hstable l w w₁ h hg hi hr) hi c r l' w' hx hg'
    exact ⟨hk, ih r (hu.2 r) ha⟩

/-- The rest of a program stays safe when the others move. -/
theorem SafeEnd.sees {p : Prog M.sig M.Exn Unit} {w' : M.World}
    (h : SafeEnd P i p l w) (hg : P.Given i l w) (hr : P.Sees i w w') : SafeEnd P i p l w' := by
  cases p with
  | ret a => exact fun _ => trivial
  | raise e => exact fun _ => trivial
  | op o k =>
    intro _ w₁ hi hr₁
    exact h hg w₁ hi (hr.trans hr₁)

/-! ## §4. The invariant of every reachable state. -/

/-- What the moves other than calls owe the protocol, and what the programs owe it at
their start. -/
structure Protocol.Sound (P : Protocol D) : Prop where
  spawn : ∀ w, P.inv w → P.inv (M.spawn w) ∧ ∀ j, P.rely j w (M.spawn w)
  body : ∀ w e, P.inv w → SafeEnd P (M.next w) (M.body e) (M.start e) (M.spawn w)
  close : ∀ i w, P.inv w → P.keeps i w (M.close i w)
  env : ∀ v w w', D.world w → P.known w → P.inv w → M.env v w = some w' →
    P.inv w' ∧ ∀ j, P.rely j w w'

/-- The invariant together with the safety of everything still in flight. -/
def Protocol.Holds (P : Protocol D) (c : Config M) : Prop :=
  P.inv c.world ∧
    ∀ i th, c.threads i = some th → SafeEnd P i th.rest th.session c.world

/-- What is given of every session in flight. -/
theorem Discipline.Holds.given {c : Config M} (hc : D.Holds c) (hk : P.known c.world) {i : Nat}
    {th : Thread M} (hi : c.threads i = some th) : P.Given i th.session c.world :=
  ⟨hc.world, hc.session i th hi, hk⟩

theorem Protocol.Sound.holds_step (hP : P.Sound) {c c' : Config M} {lab : Label M}
    (hc : D.Holds c) (hk : P.known c.world) (hc' : D.Holds c') (hk' : P.known c'.world)
    (hm : ∀ j, lab.party ≠ some j → D.moves j c.world c'.world)
    (h : P.Holds c) (hs : c.step lab = some c') : P.Holds c' := by
  obtain ⟨hi, ht⟩ := h
  cases lab with
  | start e =>
    injection hs with hs
    subst hs
    obtain ⟨hi', hr⟩ := hP.spawn _ hi
    refine ⟨hi', fun j th hj => ?_⟩
    by_cases hjn : j = M.next c.world
    · subst hjn
      obtain rfl : _ = th := by simpa [update] using hj
      exact hP.body _ e hi
    · have hold : c.threads j = some th := by simpa [update, hjn] using hj
      exact (ht j th hold).sees (hc.given hk hold) ⟨hm j (by simp [Label.party]), hr j⟩
  | call i ch =>
    obtain ⟨l, o, k, r, l', w', hth, hx, rfl⟩ := Config.step_call hs
    have hgiven : P.Given i l c.world := hc.given hk hth
    have hgiven' : P.Given i l' w' :=
      hc'.given hk' (Function.update_self i (some ⟨l', k r⟩) c.threads)
    -- the caller's own proof says what is left of it
    obtain ⟨hkeep, hrest⟩ := ht i _ hth hgiven _ ⟨hgiven, hi⟩
      ⟨D.refl i _, P.refl i _⟩ ch r l' w' hx hgiven'
    refine ⟨hkeep.1, fun j th hj => ?_⟩
    by_cases hji : j = i
    · subst hji
      obtain rfl : _ = th := by simpa [update] using hj
      exact hrest
    · have hold : c.threads j = some th := by simpa [update, hji] using hj
      exact (ht j th hold).sees (hc.given hk hold)
        ⟨hm j (fun he => hji (Option.some.inj he).symm), hkeep.2 j hji⟩
  | stop i =>
    obtain ⟨_, _, rfl⟩ := Option.map_eq_some_iff.mp hs
    obtain ⟨hi', hr⟩ := hP.close i _ hi
    refine ⟨hi', fun j th hj => ?_⟩
    by_cases hji : j = i
    · simp [update, hji] at hj
    · have hold : c.threads j = some th := by simpa [update, hji] using hj
      exact (ht j th hold).sees (hc.given hk hold)
        ⟨hm j (fun he => hji (Option.some.inj he).symm), hr j hji⟩
  | env v =>
    obtain ⟨w', hv, rfl⟩ := Option.map_eq_some_iff.mp hs
    obtain ⟨hi', hr⟩ := hP.env v _ w' hc.world hk hi hv
    exact ⟨hi', fun j th hj =>
      (ht j th hj).sees (hc.given hk hj) ⟨hm j (by simp [Label.party]), hr j⟩⟩

/-- **THE RELY RULE**: a sound protocol whose invariant holds at the start holds
in every reachable state. -/
theorem Protocol.Sound.reach (hP : P.Sound) (hD : D.Kept) {w₀ : M.World} (h₀ : D.world w₀)
    (hi : P.inv w₀) (hk : ∀ c : Config M, Reach w₀ c → P.known c.world) {c : Config M}
    (h : Reach w₀ c) : P.inv c.world := by
  have hall : P.Holds c := by
    induction h with
    | initial => exact ⟨hi, fun i th hi => by simp [Config.initial] at hi⟩
    | step hr hs ih =>
      have hr' := hr.step hs
      exact hP.holds_step (hD.reach h₀ hr) (hk _ hr) (hD.reach h₀ hr') (hk _ hr')
        (fun j hj => hD.moves h₀ hr hs hj) ih hs
  exact hall.1

end Interleave
