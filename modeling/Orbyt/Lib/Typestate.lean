/-
  Orbyt.Lib.Typestate — the order in which a program makes its calls

  A typestate abstracts what a program has done so far to a state that each call and its
  answer move on, and says which calls are allowed in which state.  `Follows` is a property
  of the program's text alone: whatever the answers, its calls come in an allowed order.

  On a machine a state of the typestate has a meaning in the world.  If every allowed call
  keeps an invariant of the world and the caller's meaning, then the invariant holds in every
  reachable state, and each program in flight has come to some state whose meaning holds and
  from which the rest of it follows the typestate.

  Main results:
    * `Follows.bind`, `Follows.attempt_bind`, `Follows.of_uses` — the rules for programs;
    * `Typestate.Holds.step`, `Typestate.Sound.step` — along one step;
    * `Typestate.Sound.reach_together`, `Typestate.Sound.reach` — in every reachable state.
-/
import Orbyt.Lib.Interleave

namespace Interleave

open Function (update)

/-- What matters of a program's past, and which calls it allows. -/
structure Typestate (S : Sig) (ε : Type) where
  State : Type
  allows : State → S.Op → Prop
  next : State → (o : S.Op) → Except ε (S.Res o) → State

variable {S : Sig} {ε α β : Type} {A : Typestate S ε}

/-! ## §1. Programs. -/

/-- From the state `q` on, `p` makes only allowed calls, and returns in `Q` or raises in `E`. -/
def Follows (A : Typestate S ε) (Q : α → A.State → Prop) (E : ε → A.State → Prop) :
    Prog S ε α → A.State → Prop
  | .ret a, q => Q a q
  | .raise e, q => E e q
  | .op o k, q => A.allows q o ∧ ∀ r, Follows A Q E (k r) (A.next q o r)

variable {Q Q' : α → A.State → Prop} {E E' : ε → A.State → Prop} {q : A.State}

theorem Follows.mono {p : Prog S ε α} (h : Follows A Q E p q) (hQ : ∀ a q', Q a q' → Q' a q')
    (hE : ∀ e q', E e q' → E' e q') : Follows A Q' E' p q := by
  induction p generalizing q with
  | ret a => exact hQ a q h
  | raise e => exact hE e q h
  | op o k ih => exact ⟨h.1, fun r => ih r (h.2 r)⟩

/-- **Sequencing.** -/
theorem Follows.bind {p : Prog S ε α} {f : α → Prog S ε β} {R : α → A.State → Prop}
    {Q : β → A.State → Prop} (hp : Follows A R E p q)
    (hf : ∀ a q', R a q' → Follows A Q E (f a) q') : Follows A Q E (Prog.bind p f) q := by
  induction p generalizing q with
  | ret a => exact hf a q hp
  | raise e => exact hp
  | op o k ih => exact ⟨hp.1, fun r => ih r (hp.2 r)⟩

/-- **Handing an exception back.** -/
theorem Follows.attempt_bind {p : Prog S ε α} {f : Except ε α → Prog S ε β}
    {R : α → A.State → Prop} {X : ε → A.State → Prop} {Q : β → A.State → Prop}
    (hp : Follows A R X p q) (hok : ∀ a q', R a q' → Follows A Q E (f (.ok a)) q')
    (herr : ∀ e q', X e q' → Follows A Q E (f (.error e)) q') :
    Follows A Q E (Prog.bind (Prog.attempt p) f) q := by
  induction p generalizing q with
  | ret a => exact hok a q hp
  | raise e => exact herr e q hp
  | op o k ih => exact ⟨hp.1, fun r => ih r (hp.2 r)⟩

/-- A call, then the rest. -/
theorem Follows.call_bind {o : S.Op} {f : S.Res o → Prog S ε β} {Q : β → A.State → Prop}
    (ha : A.allows q o) (hok : ∀ a, Follows A Q E (f a) (A.next q o (.ok a)))
    (herr : ∀ e, E e (A.next q o (.error e))) :
    Follows A Q E (Prog.bind (Prog.call o) f) q := by
  refine ⟨ha, fun r => ?_⟩
  cases r with
  | ok a => exact hok a
  | error e => exact herr e

/-- **Footprint rule**: if the states in `I` allow every call of the footprint and stay in `I`. -/
theorem Follows.of_uses {F : S.Op → Prop} {I : A.State → Prop}
    (hI : ∀ o q, F o → I q → A.allows q o ∧ ∀ r, I (A.next q o r)) {p : Prog S ε α}
    (hu : Prog.Uses F p) (hq : I q) : Follows A (fun _ => I) (fun _ => I) p q := by
  induction p generalizing q with
  | ret a => exact hq
  | raise e => exact hq
  | op o k ih =>
    obtain ⟨ha, hn⟩ := hI o q hu.1 hq
    exact ⟨ha, fun r => ih r (hu.2 r) (hn r)⟩

/-- To the end, with nothing promised of the state it ends in. -/
def FollowsEnd (A : Typestate S ε) (p : Prog S ε α) (q : A.State) : Prop :=
  Follows A (fun _ _ => True) (fun _ _ => True) p q

theorem Follows.toEnd {p : Prog S ε α} (h : Follows A Q E p q) : FollowsEnd A p q :=
  h.mono (fun _ _ _ => trivial) fun _ _ _ => trivial

/-! ## §2. Machines. -/

variable {M : Machine} {A : Typestate M.sig M.Exn}

/-- The world's invariant holds, and every program in flight has come to some state of the
typestate that means what it says. -/
structure Typestate.Holds (A : Typestate M.sig M.Exn) (Inv : M.World → Prop)
    (Means : Nat → A.State → M.Session → M.World → Prop) (c : Config M) : Prop where
  world : Inv c.world
  threads : ∀ i th, c.threads i = some th →
    ∃ q, FollowsEnd A th.rest q ∧ Means i q th.session c.world

/-- Programs follow the typestate from the start; allowed calls keep the world's invariant and
what the caller's state means, and every other move keeps the invariant. -/
structure Typestate.Sound (A : Typestate M.sig M.Exn) (D : Discipline M)
    (initial : M.Entry → A.State)
    (Inv : M.World → Prop) (Means : Nat → A.State → M.Session → M.World → Prop) : Prop where
  body : ∀ e, FollowsEnd A (M.body e) (initial e)
  spawn : ∀ e w, D.world w → Inv w →
    Inv (M.spawn w) ∧ Means (M.next w) (initial e) (M.start e) (M.spawn w)
  call : ∀ i q o ch l w r l' w', D.world w → Inv w → D.session i l w → Means i q l w →
    A.allows q o → M.exec i o ch l w = some (r, l', w') → Inv w' ∧ Means i (A.next q o r) l' w'
  close : ∀ i w, D.world w → Inv w → Inv (M.close i w)
  env : ∀ v w w', D.world w → Inv w → M.env v w = some w' → Inv w'

variable {D : Discipline M} {initial : M.Entry → A.State} {Inv : M.World → Prop}
  {Means : Nat → A.State → M.Session → M.World → Prop}

/-- What one step makes of the programs in flight, where the meaning of a state may itself have
changed: it is settled for whoever starts, for whoever makes the call, and for the others. -/
theorem Typestate.Holds.step {Inv Inv' : M.World → Prop}
    {Means Means' : Nat → A.State → M.Session → M.World → Prop} {c c' : Config M} {lab : Label M}
    (h : A.Holds Inv Means c) (hs : c.step lab = some c') (hinv : Inv' c'.world)
    (hstart : ∀ e, lab = .start e → ∃ q, FollowsEnd A (M.body e) q ∧
      Means' (M.next c.world) q (M.start e) c'.world)
    (hcall : ∀ i ch l o k r l' w' q, lab = .call i ch → c.threads i = some ⟨l, .op o k⟩ →
      M.exec i o ch l c.world = some (r, l', w') → c'.world = w' → A.allows q o →
      Means i q l c.world → Means' i (A.next q o r) l' w')
    (hothers : ∀ i th q, lab.party ≠ some i → c.threads i = some th →
      Means i q th.session c.world → Means' i q th.session c'.world) : A.Holds Inv' Means' c' := by
  have hstays : ∀ i th, lab.party ≠ some i → c.threads i = some th →
      ∃ q, FollowsEnd A th.rest q ∧ Means' i q th.session c'.world := by
    intro i th hi hth
    obtain ⟨q, hf, hm⟩ := h.threads i th hth
    exact ⟨q, hf, hothers i th q hi hth hm⟩
  refine ⟨hinv, fun i th hth => ?_⟩
  cases lab with
  | start e =>
    injection hs with hs
    subst hs
    by_cases hin : i = M.next c.world
    · subst hin
      obtain rfl : _ = th := by simpa [update] using hth
      exact hstart e rfl
    · exact hstays i th (by simp [Label.party]) (by simpa [update, hin] using hth)
  | call j ch =>
    obtain ⟨l, o, k, r, l', w', hj, hx, rfl⟩ := Config.step_call hs
    by_cases hij : i = j
    · subst hij
      obtain rfl : _ = th := by simpa [update] using hth
      obtain ⟨q, ⟨ha, hf⟩, hm⟩ := h.threads i _ hj
      exact ⟨A.next q o r, hf r, hcall i ch l o k r l' w' q rfl hj hx rfl ha hm⟩
    · exact hstays i th (fun he => hij (Option.some.inj he).symm) (by simpa [update, hij] using hth)
  | stop j =>
    obtain ⟨_, _, rfl⟩ := Option.map_eq_some_iff.mp hs
    by_cases hij : i = j
    · simp [update, hij] at hth
    · exact hstays i th (fun he => hij (Option.some.inj he).symm) (by simpa [update, hij] using hth)
  | env v =>
    obtain ⟨w', hv, rfl⟩ := Option.map_eq_some_iff.mp hs
    exact hstays i th (by simp [Label.party]) hth

/-- **ALONG ONE STEP**: it is enough that the meaning survives the move for whoever does not
make it. -/
theorem Typestate.Sound.step (hA : A.Sound D initial Inv Means) {c c' : Config M} {lab : Label M}
    (hD : D.Holds c)
    (hothers : ∀ i th q, lab.party ≠ some i → c.threads i = some th → Means i q th.session c.world →
      Means i q th.session c'.world)
    (h : A.Holds Inv Means c) (hs : c.step lab = some c') : A.Holds Inv Means c' := by
  refine h.step hs ?_ (fun e he => ?_) (fun i ch l o k r l' w' q he hth hx _ ha hm => ?_) hothers
  · cases lab with
    | start e =>
      injection hs with hs
      subst hs
      exact (hA.spawn e c.world hD.world h.world).1
    | call j ch =>
      obtain ⟨l, o, k, r, l', w', hj, hx, rfl⟩ := Config.step_call hs
      obtain ⟨q, ⟨ha, -⟩, hm⟩ := h.threads j _ hj
      exact (hA.call j q o ch l _ r l' w' hD.world h.world (hD.session j _ hj) hm ha hx).1
    | stop j =>
      obtain ⟨_, _, rfl⟩ := Option.map_eq_some_iff.mp hs
      exact hA.close j _ hD.world h.world
    | env v =>
      obtain ⟨w', hv, rfl⟩ := Option.map_eq_some_iff.mp hs
      exact hA.env v _ w' hD.world h.world hv
  · subst he
    injection hs with hs
    subst hs
    exact ⟨initial e, hA.body e, (hA.spawn e c.world hD.world h.world).2⟩
  · exact (hA.call i q o ch l _ r l' w' hD.world h.world (hD.session i _ hth) hm ha hx).2

/-- The same along a whole run: what a state means may need, to survive the moves of others, that
they follow the typestate too. -/
theorem Typestate.Sound.reach_together (hA : A.Sound D initial Inv Means) (hD : D.Kept)
    (hothers : ∀ {c c' : Config M} {lab : Label M}, D.Holds c → A.Holds Inv Means c →
      c.step lab = some c' → ∀ i th q, lab.party ≠ some i → c.threads i = some th →
      D.moves i c.world c'.world → Means i q th.session c.world → Means i q th.session c'.world)
    {w₀ : M.World} (h₀ : D.world w₀) (hi : Inv w₀) {c : Config M} (h : Reach w₀ c) :
    A.Holds Inv Means c := by
  induction h with
  | initial => exact ⟨hi, fun i th hi => by simp [Config.initial] at hi⟩
  | step hr hs ih =>
    have hc := hD.reach h₀ hr
    refine hA.step hc (fun i th q hi hth hm => ?_) ih hs
    exact hothers hc ih hs i th q hi hth (hD.moves h₀ hr hs hi) hm

/-- **EVERY PROGRAM FOLLOWS THE TYPESTATE**, in every reachable state, where its meaning
survives what others do. -/
theorem Typestate.Sound.reach (hA : A.Sound D initial Inv Means) (hD : D.Kept)
    (hstable : ∀ i q l w w', D.session i l w → Means i q l w → D.moves i w w' → Means i q l w')
    {w₀ : M.World} (h₀ : D.world w₀) (hi : Inv w₀) {c : Config M} (h : Reach w₀ c) :
    A.Holds Inv Means c :=
  hA.reach_together hD (fun hc _ _ i th q _ hth hmoves hm =>
    hstable i q _ _ _ (hc.session i th hth) hm hmoves) h₀ hi h

end Interleave
