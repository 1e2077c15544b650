/-
  Orbyt.Lib.Serial — whole programs, one after another

  A machine interleaves its programs call by call.  Some questions are about a sequence of
  whole programs: `Runs` is one program from its start to its end while nobody else moves, and
  a world is `Serial` if programs run so, one after another, lead to it.

  `Story` is such a sequence with its passages listed, for what is said of one of them and of
  what comes after it.

  `Alone` is the weakest precondition of such a run: one rule for each form of the source
  language, so every function gets one specification lemma here too.

  Main results:
    * `Alone.bind`, `Alone.attempt_bind`, `Alone.of_uses`, `Alone.post` — the rules, and what
      they prove of a run;
    * `Serial.reach` — a serial world is reached by the machine, with no program in flight;
    * `Serial.of_turns` — a script that evaluates is a serial run;
    * `Serial.story`, `Story.serial` — a serial world is the end of a story.
-/
import Orbyt.Lib.TwoRuns

namespace Interleave

open Function (update)

variable {M : Machine} {α β : Type} {i : Nat}

/-! ## §1. One program. -/

/-- `p`, from the session `l` and the world `w`, to its end. -/
inductive Runs (i : Nat) : Prog M.sig M.Exn α → M.Session → M.World →
    Except M.Exn α → M.Session → M.World → Prop where
  | ret {a l w} : Runs i (.ret a) l w (.ok a) l w
  | raise {e l w} : Runs i (.raise e) l w (.error e) l w
  | op {o k c l w r l' w' x l'' w''} : M.exec i o c l w = some (r, l', w') →
      Runs i (k r) l' w' x l'' w'' → Runs i (.op o k) l w x l'' w''

/-- The calls of a program on its own are a run of it. -/
theorem alone_runs {cs : List M.Choice} {p : Prog M.sig M.Exn α} {l l' : M.Session}
    {w w' : M.World} {x : Except M.Exn α} (h : alone i cs p l w = some (x, l', w')) :
    Runs i p l w x l' w' := by
  induction p generalizing cs l w with
  | ret a =>
    rw [alone_ret] at h
    cases h
    exact .ret
  | raise e =>
    rw [alone_raise] at h
    cases h
    exact .raise
  | op o k ih =>
    cases cs with
    | nil => cases h
    | cons c cs =>
      obtain ⟨⟨r, l₁, w₁⟩, hx, hrest⟩ := Option.bind_eq_some_iff.mp h
      exact .op hx (ih r hrest)

/-! ## §2. What a run ends in. -/

/-- Whatever its calls answer, `p` returns in `Q` or raises in `E` when nobody else moves. -/
def Alone (i : Nat) (Q : α → M.Session → M.World → Prop) (E : M.Exn → M.Session → M.World → Prop) :
    Prog M.sig M.Exn α → M.Session → M.World → Prop
  | .ret a, l, w => Q a l w
  | .raise e, l, w => E e l w
  | .op o k, l, w => ∀ c r l' w', M.exec i o c l w = some (r, l', w') → Alone i Q E (k r) l' w'

variable {Q Q' : α → M.Session → M.World → Prop} {E X : M.Exn → M.Session → M.World → Prop}
  {l : M.Session} {w : M.World}

/-- **WHAT A RUN ENDS IN.** -/
theorem Alone.post {p : Prog M.sig M.Exn α} (h : Alone i Q E p l w) {x : Except M.Exn α}
    {l' : M.Session} {w' : M.World} (hr : Runs i p l w x l' w') :
    onAnswer (fun a => Q a l' w') (fun e => E e l' w') x := by
  induction hr with
  | ret => exact h
  | raise => exact h
  | op hx _ ih => exact ih (h _ _ _ _ hx)

theorem Alone.mono {p : Prog M.sig M.Exn α} (h : Alone i Q E p l w)
    (hQ : ∀ a l' w', Q a l' w' → Q' a l' w') (hE : ∀ e l' w', E e l' w' → X e l' w') :
    Alone i Q' X p l w := by
  induction p generalizing l w with
  | ret a => exact hQ a l w h
  | raise e => exact hE e l w h
  | op o k ih => exact fun c r l' w' hx => ih r (h c r l' w' hx)

/-- **Sequencing.** -/
theorem Alone.bind {p : Prog M.sig M.Exn α} {f : α → Prog M.sig M.Exn β}
    {R : α → M.Session → M.World → Prop} {Q : β → M.Session → M.World → Prop}
    (hp : Alone i R E p l w) (hf : ∀ a l' w', R a l' w' → Alone i Q E (f a) l' w') :
    Alone i Q E (Prog.bind p f) l w := by
  induction p generalizing l w with
  | ret a => exact hf a l w hp
  | raise e => exact hp
  | op o k ih => exact fun c r l' w' hx => ih r (hp c r l' w' hx)

/-- **Handing an exception back.** -/
theorem Alone.attempt_bind {p : Prog M.sig M.Exn α} {f : Except M.Exn α → Prog M.sig M.Exn β}
    {R : α → M.Session → M.World → Prop} {Q : β → M.Session → M.World → Prop}
    (hp : Alone i R X p l w) (hok : ∀ a l' w', R a l' w' → Alone i Q E (f (.ok a)) l' w')
    (herr : ∀ e l' w', X e l' w' → Alone i Q E (f (.error e)) l' w') :
    Alone i Q E (Prog.bind (Prog.attempt p) f) l w := by
  induction p generalizing l w with
  | ret a => exact hok a l w hp
  | raise e => exact herr e l w hp
  | op o k ih => exact fun c r l' w' hx => ih r (hp c r l' w' hx)

/-- A call, then the rest. -/
theorem Alone.call_bind {o : M.sig.Op} {f : M.sig.Res o → Prog M.sig M.Exn α}
    (h : ∀ c r l' w', M.exec i o c l w = some (r, l', w') →
      onAnswer (fun a => Alone i Q E (f a) l' w') (fun e => E e l' w') r) :
    Alone i Q E (Prog.bind (Prog.call o) f) l w := by
  intro c r l' w' hx
  have hr := h c r l' w' hx
  cases r with
  | ok a => exact hr
  | error e => exact hr

/-- **Footprint rule**: what every call of the footprint keeps is kept to the end. -/
theorem Alone.of_uses {F : M.sig.Op → Prop} {A : M.Session → M.World → Prop}
    (hA : ∀ o c l w r l' w', F o → A l w → M.exec i o c l w = some (r, l', w') → A l' w')
    {p : Prog M.sig M.Exn α} (hu : Prog.Uses F p) (h : A l w) :
    Alone i (fun _ => A) (fun _ => A) p l w := by
  induction p generalizing l w with
  | ret a => exact h
  | raise e => exact h
  | op o k ih => exact fun c r l' w' hx => ih r (hu.2 r) (hA o c l w r l' w' hu.1 h hx)

/-! ## §3. One after another. -/

/-- The program of `e` starts, runs to its end and is closed. -/
def Completes (M : Machine) (e : M.Entry) (w w' : M.World) : Prop :=
  ∃ x l w₁, Runs (M.next w) (M.body e) (M.start e) (M.spawn w) x l w₁ ∧ w' = M.close (M.next w) w₁

/-- What a program ends in when nobody else moves. -/
theorem Completes.post {e : M.Entry} {w' : M.World} {R : M.World → Prop} (h : Completes M e w w')
    (hbody : Alone (M.next w) (fun _ _ => R) (fun _ _ => R) (M.body e) (M.start e) (M.spawn w))
    (hclose : ∀ w₁, R w₁ → R (M.close (M.next w) w₁)) : R w' := by
  obtain ⟨x, l, w₁, hr, rfl⟩ := h
  apply hclose
  have hpost := hbody.post hr
  cases x with
  | ok a => exact hpost
  | error e => exact hpost

/-- Worlds that whole programs lead to, each of them `ok`, and the environment in between. -/
inductive Serial (ok : M.Entry → M.World → M.World → Prop) (w₀ : M.World) : M.World → Prop where
  | initial : Serial ok w₀ w₀
  | run {e w w'} : Serial ok w₀ w → Completes M e w w' → ok e w w' → Serial ok w₀ w'
  | env {v w w'} : Serial ok w₀ w → M.env v w = some w' → Serial ok w₀ w'

variable {ok : M.Entry → M.World → M.World → Prop} {w₀ : M.World}

/-- What every program and the environment keep holds of every serial world. -/
theorem Serial.inv {I : M.World → Prop} (h : Serial ok w₀ w) (h₀ : I w₀)
    (hrun : ∀ e w w', Serial ok w₀ w → I w → Completes M e w w' → ok e w w' → I w')
    (henv : ∀ v w w', Serial ok w₀ w → I w → M.env v w = some w' → I w') : I w := by
  induction h with
  | initial => exact h₀
  | run hs hr hok ih => exact hrun _ _ _ hs ih hr hok
  | env hs hv ih => exact henv _ _ _ hs ih hv

/-- A program from its start to its end, or a move of the environment, and the worlds it leads
from and to. -/
structure Passage (M : Machine) where
  entry : Option M.Entry
  before : M.World
  after : M.World

/-- The passages that lead from `w₀` to a world, in order. -/
inductive Story (w₀ : M.World) : List (Passage M) → M.World → Prop where
  | initial : Story w₀ [] w₀
  | run {ps e w w'} : Story w₀ ps w → Completes M e w w' → Story w₀ (ps ++ [⟨some e, w, w'⟩]) w'
  | env {ps v w w'} : Story w₀ ps w → M.env v w = some w' → Story w₀ (ps ++ [⟨none, w, w'⟩]) w'

theorem Story.serial {ps : List (Passage M)} (h : Story w₀ ps w) :
    Serial (fun _ _ _ => True) w₀ w := by
  induction h with
  | initial => exact .initial
  | run _ hr ih => exact ih.run hr trivial
  | env _ hv ih => exact ih.env hv

theorem Serial.story (h : Serial ok w₀ w) : ∃ ps, Story w₀ ps w := by
  induction h with
  | initial => exact ⟨[], .initial⟩
  | run _ hr _ ih =>
    obtain ⟨ps, hps⟩ := ih
    exact ⟨_, hps.run hr⟩
  | env _ hv ih =>
    obtain ⟨ps, hps⟩ := ih
    exact ⟨_, hps.env hv⟩

/-- The last passage of a story, or one before it. -/
theorem concat_split {α : Type} {xs before after : List α} {x a : α}
    (h : xs ++ [x] = before ++ a :: after) :
    (before = xs ∧ a = x ∧ after = []) ∨
      ∃ rest, after = rest ++ [x] ∧ xs = before ++ a :: rest := by
  rcases List.eq_nil_or_concat after with rfl | ⟨rest, b, rfl⟩
  · obtain ⟨rfl, hx⟩ := List.append_inj' h rfl
    exact .inl ⟨rfl, (List.singleton_inj.mp hx).symm, rfl⟩
  · have hlast : xs ++ [x] = (before ++ a :: rest) ++ [b] := by simpa using h
    obtain ⟨rfl, hx⟩ := List.append_inj' hlast rfl
    exact .inr ⟨rest, by simpa using (List.singleton_inj.mp hx).symm, rfl⟩

/-- A story up to one of its passages. -/
theorem Story.upTo {ps before after : List (Passage M)} {p : Passage M} (h : Story w₀ ps w)
    (hps : ps = before ++ p :: after) : Story w₀ (before ++ [p]) p.after := by
  induction h generalizing after with
  | initial => cases before <;> cases hps
  | run hs hr ih =>
    rcases concat_split hps with ⟨rfl, rfl, -⟩ | ⟨rest, -, hps⟩
    · exact hs.run hr
    · exact ih hps
  | env hs hv ih =>
    rcases concat_split hps with ⟨rfl, rfl, -⟩ | ⟨rest, -, hps⟩
    · exact hs.env hv
    · exact ih hps

/-- The calls of a program that is alone in flight. -/
theorem Runs.reach {p : Prog M.sig M.Exn Unit} {x : Except M.Exn Unit} {l' : M.Session}
    {w' : M.World} (hr : Runs i p l w x l' w') {c : Config M} (hc : Reach w₀ c) (hw : c.world = w)
    (hi : c.threads i = some ⟨l, p⟩) (hothers : ∀ j, j ≠ i → c.threads j = none) :
    ∃ c', Reach w₀ c' ∧ c'.world = w' ∧ (c'.threads i).isSome ∧
      ∀ j, j ≠ i → c'.threads j = none := by
  induction hr generalizing c with
  | ret => exact ⟨c, hc, hw, by rw [hi]; rfl, hothers⟩
  | raise => exact ⟨c, hc, hw, by rw [hi]; rfl, hothers⟩
  | @op o k ch l w r l₁ w₁ x l₂ w₂ hx _ ih =>
    subst hw
    have hs : c.step (.call i ch) = some ⟨w₁, update c.threads i (some ⟨l₁, k r⟩)⟩ := by
      simp only [Config.step, hi, hx, Option.map_some]
    refine ih (hc.step hs) rfl (Function.update_self ..) fun j hj => ?_
    show update c.threads i _ j = none
    rw [Function.update_of_ne hj]
    exact hothers j hj

/-- **A SERIAL WORLD IS REACHED**, with no program in flight. -/
theorem Serial.reach (h : Serial ok w₀ w) :
    ∃ c : Config M, Reach w₀ c ∧ c.world = w ∧ ∀ j, c.threads j = none := by
  induction h with
  | initial => exact ⟨Config.initial w₀, .initial, rfl, fun _ => rfl⟩
  | @run e w w' _ hr _ ih =>
    obtain ⟨x, l, w₁, hr, rfl⟩ := hr
    obtain ⟨c, hc, rfl, hnone⟩ := ih
    have hstart : c.step (.start e) = some ⟨M.spawn c.world,
        update c.threads (M.next c.world) (some ⟨M.start e, M.body e⟩)⟩ := rfl
    obtain ⟨c', hc', rfl, hsome, hothers⟩ := hr.reach (hc.step hstart) rfl (Function.update_self ..)
      fun j hj => by
        show update c.threads _ _ j = none
        rw [Function.update_of_ne hj, hnone]
    obtain ⟨th, hth⟩ := Option.isSome_iff_exists.mp hsome
    have hstop : c'.step (.stop (M.next c.world)) = some
        ⟨M.close (M.next c.world) c'.world, update c'.threads (M.next c.world) none⟩ := by
      simp only [Config.step, hth, Option.map_some]
    refine ⟨_, hc'.step hstop, rfl, fun j => ?_⟩
    show update c'.threads _ _ j = none
    by_cases hj : j = M.next c.world
    · rw [hj, Function.update_self]
    · rw [Function.update_of_ne hj, hothers j hj]
  | @env v w w' _ hv ih =>
    obtain ⟨c, hc, rfl, hnone⟩ := ih
    have hs : c.step (.env v) = some ⟨w', c.threads⟩ := by
      simp only [Config.step, hv, Option.map_some]
    exact ⟨_, hc.step hs, rfl, hnone⟩

/-- A program with the choices of its run, or a move of the environment. -/
inductive Turn (M : Machine) where
  | run (e : M.Entry) (cs : List M.Choice)
  | env (v : M.Env)

def turn (w : M.World) : Turn M → Option M.World
  | .run e cs => (alone (M.next w) cs (M.body e) (M.start e) (M.spawn w)).map
      (fun r => M.close (M.next w) r.2.2)
  | .env v => M.env v w

/-- A script, from `w` on. -/
def turns : List (Turn M) → M.World → Option M.World
  | [], w => some w
  | t :: ts, w => (turn w t).bind (turns ts)

/-- A program with the choices of its run. -/
theorem turn_completes {e : M.Entry} {cs : List M.Choice} {w' : M.World}
    (h : turn w (.run e cs) = some w') : Completes M e w w' := by
  obtain ⟨⟨x, l, w₁⟩, hx, rfl⟩ := Option.map_eq_some_iff.mp h
  exact ⟨x, l, w₁, alone_runs hx, rfl⟩

/-- **A SCRIPT** whose programs are all `ok` is a serial run. -/
theorem Serial.of_turns {ts : List (Turn M)} {w w' : M.World} (h : Serial ok w₀ w)
    (hok : ∀ e w w', ok e w w') (hw : turns ts w = some w') : Serial ok w₀ w' := by
  induction ts generalizing w with
  | nil =>
    injection hw with hw
    exact hw ▸ h
  | cons t ts ih =>
    obtain ⟨w₁, ht, hw⟩ := Option.bind_eq_some_iff.mp hw
    refine ih ?_ hw
    cases t with
    | run e cs => exact h.run (turn_completes ht) (hok e w w₁)
    | env v => exact h.env ht

end Interleave
