/-
  Orbyt.Lib.Outcomes — how the programs of a protocol end

  `Safe` says of the rest of a program what it returns in and what it raises in.  Where the
  others leave that alone, it is still so in whatever state a program that has ended is found.

  Main results:
    * `Safe.tracking` — what every call keeps of a session is known at the end;
    * `Safe.tame` — which exceptions can escape, by those that its calls raise;
    * `Protocol.Promises.reach` — in every reachable state, whoever has ended has ended as
      promised;
    * `Prog.Closes` — after certain calls a program makes only certain others, and
      `Reach.rest` finds it so of whatever is in flight.
-/
import Orbyt.Lib.Interleave

namespace Interleave

open Function (update)

variable {M : Machine} {D : Discipline M} {P : Protocol D} {i : Nat} {α : Type}
  {Q : α → M.Session → M.World → Prop} {E : M.Exn → M.Session → M.World → Prop}
  {l : M.Session} {w : M.World}

/-! ## §1. What is known at the end. -/

/-- What no call changes of a session may be used at the end of its program. -/
theorem Safe.tracking {A : M.Session → Prop}
    (hA : ∀ o c l w r l' w', M.exec i o c l w = some (r, l', w') → A l → A l')
    {p : Prog M.sig M.Exn α} (h : A l)
    (hp : Safe P i (fun a l' w' => A l' → Q a l' w') (fun e l' w' => A l' → E e l' w') p l w) :
    Safe P i Q E p l w := by
  induction p generalizing l w with
  | ret a => exact fun hg => hp hg h
  | raise e => exact fun hg => hp hg h
  | op o k ih =>
    intro hg w₁ hh hs c r l' w' hx hg'
    obtain ⟨hk, hrest⟩ := hp hg w₁ hh hs c r l' w' hx hg'
    exact ⟨hk, ih r (hA o c l w₁ r l' w' hx h) hrest⟩

/-- The exceptions that escape the program are in `X` as long as those of its calls are. -/
def Prog.Tame {S : Sig} {ε α : Type} (X : ε → Prop) : Prog S ε α → Prop
  | .ret _ => True
  | .raise e => X e
  | .op _ k => (∀ a, Tame X (k (.ok a))) ∧ ∀ e, X e → Tame X (k (.error e))

section Tame

variable {S : Sig} {ε α β : Type} {X : ε → Prop}

theorem Prog.tame_call {o : S.Op} : Prog.Tame X (Prog.call o : Prog S ε (S.Res o)) :=
  ⟨fun _ => trivial, fun _ he => he⟩

theorem Prog.tame_bind {p : Prog S ε α} {f : α → Prog S ε β} (hp : Prog.Tame X p)
    (hf : ∀ a, Prog.Tame X (f a)) : Prog.Tame X (Prog.bind p f) := by
  induction p with
  | ret a => exact hf a
  | raise e => exact hp
  | op o k ih => exact ⟨fun a => ih _ (hp.1 a), fun e he => ih _ (hp.2 e he)⟩

/-- Nothing escapes an attempt. -/
theorem Prog.tame_attempt {p : Prog S ε α} : Prog.Tame X (Prog.attempt p) := by
  induction p with
  | ret a => trivial
  | raise e => trivial
  | op o k ih => exact ⟨fun a => ih _, fun e _ => ih _⟩

end Tame

/-- **WHAT ESCAPES** a program whose calls raise in `X`. -/
theorem Safe.tame {F : M.sig.Op → Prop} {X : M.Exn → Prop}
    (hX : ∀ o c l w e l' w', F o → M.exec i o c l w = some (.error e, l', w') → X e)
    {p : Prog M.sig M.Exn α} (hu : Prog.Uses F p) (ht : Prog.Tame X p)
    (hp : Safe P i Q E p l w) : Safe P i Q (fun e l' w' => E e l' w' ∧ X e) p l w := by
  induction p generalizing l w with
  | ret a => exact hp
  | raise e => exact fun hg => ⟨hp hg, ht⟩
  | op o k ih =>
    intro hg w₁ hh hs c r l' w' hx hg'
    obtain ⟨hk, hrest⟩ := hp hg w₁ hh hs c r l' w' hx hg'
    refine ⟨hk, ih r (hu.2 r) ?_ hrest⟩
    cases r with
    | ok a => exact ht.1 a
    | error e => exact ht.2 e (hX o c l w₁ e l' w' hu.1 hx)

/-! ## §2. What is promised. -/

/-- The exception that has escaped, if one has. -/
def Thread.raised (th : Thread M) : Option M.Exn :=
  match th.rest with
  | .raise e => some e
  | .ret _ | .op _ _ => none

theorem Thread.raised_eq {th : Thread M} {e : M.Exn} (h : th.raised = some e) :
    th.rest = .raise e := by
  unfold Thread.raised at h
  split at h
  next heq =>
    rw [heq, Option.some.inj h]
  · cases h
  · cases h

/-- Programs return in `Q` and raise in `E`, and the others leave that alone. -/
structure Protocol.Promises (P : Protocol D) (Q : M.Session → M.World → Prop)
    (E : M.Exn → M.Session → M.World → Prop) : Prop where
  body : ∀ w e, P.inv w →
    Safe P (M.next w) (fun _ => Q) E (M.body e) (M.start e) (M.spawn w)
  returned : ∀ i l w w', P.Given i l w → P.Sees i w w' → Q l w → Q l w'
  raised : ∀ i e l w w', P.Given i l w → P.Sees i w w' → E e l w → E e l w'

variable {Q : M.Session → M.World → Prop}

/-- The rest of a program stays as promised when the others move. -/
theorem Protocol.Promises.sees (hP : P.Promises Q E) {p : Prog M.sig M.Exn Unit} {w' : M.World}
    (h : Safe P i (fun _ => Q) E p l w) (hg : P.Given i l w) (hs : P.Sees i w w') :
    Safe P i (fun _ => Q) E p l w' := by
  cases p with
  | ret a => exact fun _ => hP.returned i l w w' hg hs (h hg)
  | raise e => exact fun _ => hP.raised i e l w w' hg hs (h hg)
  | op o k => exact fun _ w₁ hh hs₁ => h hg w₁ hh (hs.trans hs₁)

/-- One step keeps what is promised of everything in flight. -/
theorem Protocol.Promises.step (hP : P.Promises Q E) (hsound : P.Sound) {c c' : Config M}
    {lab : Label M} (hc : D.Holds c) (hk : P.known c.world) (hc' : D.Holds c')
    (hk' : P.known c'.world) (hm : ∀ j, lab.party ≠ some j → D.moves j c.world c'.world)
    (hi : P.inv c.world)
    (h : ∀ i th, c.threads i = some th →
      Safe P i (fun _ => Q) E th.rest th.session c.world) (hs : c.step lab = some c') :
    ∀ i th, c'.threads i = some th →
      Safe P i (fun _ => Q) E th.rest th.session c'.world := by
  cases lab with
  | start e =>
    injection hs with hs
    subst hs
    have hr := (hsound.spawn _ hi).2
    intro j th hj
    by_cases hjn : j = M.next c.world
    · subst hjn
      obtain rfl : _ = th := by simpa [update] using hj
      exact hP.body _ e hi
    · have hold : c.threads j = some th := by simpa [update, hjn] using hj
      exact hP.sees (h j th hold) (hc.given hk hold) ⟨hm j (by simp [Label.party]), hr j⟩
  | call i ch =>
    obtain ⟨l, o, k, r, l', w', hth, hx, rfl⟩ := Config.step_call hs
    have hgiven : P.Given i l c.world := hc.given hk hth
    have hgiven' : P.Given i l' w' :=
      hc'.given hk' (Function.update_self i (some ⟨l', k r⟩) c.threads)
    -- the caller goes on as it has promised; whoever did not call only sees its moves
    obtain ⟨hkeep, hrest⟩ := h i _ hth hgiven _ ⟨hgiven, hi⟩
      ⟨D.refl i _, P.refl i _⟩ ch r l' w' hx hgiven'
    intro j th hj
    by_cases hji : j = i
    · subst hji
      obtain rfl : _ = th := by simpa [update] using hj
      exact hrest
    · have hold : c.threads j = some th := by simpa [update, hji] using hj
      exact hP.sees (h j th hold) (hc.given hk hold)
        ⟨hm j (fun he => hji (Option.some.inj he).symm), hkeep.2 j hji⟩
  | stop i =>
    obtain ⟨_, _, rfl⟩ := Option.map_eq_some_iff.mp hs
    have hr := (hsound.close i _ hi).2
    intro j th hj
    by_cases hji : j = i
    · simp [update, hji] at hj
    · have hold : c.threads j = some th := by simpa [update, hji] using hj
      exact hP.sees (h j th hold) (hc.given hk hold)
        ⟨hm j (fun he => hji (Option.some.inj he).symm), hr j hji⟩
  | env v =>
    obtain ⟨w', hv, rfl⟩ := Option.map_eq_some_iff.mp hs
    have hr := (hsound.env v _ w' hc.world hk hi hv).2
    intro j th hj
    exact hP.sees (h j th hj) (hc.given hk hj) ⟨hm j (by simp [Label.party]), hr j⟩

/-- **WHOEVER HAS ENDED** has ended as promised, in every reachable state. -/
theorem Protocol.Promises.reach (hP : P.Promises Q E) (hsound : P.Sound) (hD : D.Kept)
    {w₀ : M.World} (h₀ : D.world w₀) (hi : P.inv w₀)
    (hk : ∀ c : Config M, Reach w₀ c → P.known c.world) {c : Config M} (h : Reach w₀ c) :
    ∀ i th, c.threads i = some th →
      (∀ a, th.rest = .ret a → Q th.session c.world) ∧
      ∀ e, th.rest = .raise e → E e th.session c.world := by
  have hall : ∀ i th, c.threads i = some th →
      Safe P i (fun _ => Q) E th.rest th.session c.world := by
    induction h with
    | initial => exact fun i th hi => by simp [Config.initial] at hi
    | step hr hs ih =>
      have hr' := hr.step hs
      exact hP.step hsound (hD.reach h₀ hr) (hk _ hr) (hD.reach h₀ hr') (hk _ hr')
        (fun j hj => hD.moves h₀ hr hs hj) (hsound.reach hD h₀ hi hk hr) ih hs
  intro i th hth
  have hg : P.Given i th.session c.world := (hD.reach h₀ h).given (hk c h) hth
  have hsafe := hall i th hth
  refine ⟨fun a ha => ?_, fun e he => ?_⟩
  · rw [ha] at hsafe
    exact hsafe hg
  · rw [he] at hsafe
    exact hsafe hg

/-! ## §3. What comes last. -/

section Closes

variable {S : Sig} {ε α β : Type} {F G : S.Op → Prop}

/-- After a call in `F` the program makes only calls in `G`. -/
def Prog.Closes (F G : S.Op → Prop) : Prog S ε α → Prop
  | .ret _ => True
  | .raise _ => True
  | .op o k => ∀ r, (F o → Prog.Uses G (k r)) ∧ Prog.Closes F G (k r)

theorem Prog.closes_of_uses {p : Prog S ε α} (hp : Prog.Uses G p) : Prog.Closes F G p := by
  induction p with
  | ret a => trivial
  | raise e => trivial
  | op o k ih => exact fun r => ⟨fun _ => hp.2 r, ih r (hp.2 r)⟩

/-- A part without calls in `F` may come before. -/
theorem Prog.closes_bind {p : Prog S ε α} {f : α → Prog S ε β}
    (hp : Prog.Uses (fun o => ¬ F o) p) (hf : ∀ a, Prog.Closes F G (f a)) :
    Prog.Closes F G (Prog.bind p f) := by
  induction p with
  | ret a => exact hf a
  | raise e => trivial
  | op o k ih => exact fun r => ⟨fun ho => absurd ho hp.1, ih r (hp.2 r)⟩

/-- What comes after it may be more of the same. -/
theorem Prog.Closes.bind {p : Prog S ε α} {f : α → Prog S ε β} (hp : Prog.Closes F G p)
    (hf : ∀ a, Prog.Uses G (f a)) : Prog.Closes F G (Prog.bind p f) := by
  induction p with
  | ret a => exact Prog.closes_of_uses (hf a)
  | raise e => trivial
  | op o k ih => exact fun r => ⟨fun ho => Prog.uses_bind ((hp r).1 ho) hf, ih r (hp r).2⟩

end Closes

/-- What holds of every program, and of its rest after every call, holds of whatever is in
flight. -/
theorem Reach.rest {C : M.Session → Prog M.sig M.Exn Unit → Prop}
    (hbody : ∀ e, C (M.start e) (M.body e))
    (hcall : ∀ i o ch l w r l' w' k, C l (.op o k) → M.exec i o ch l w = some (r, l', w') →
      C l' (k r))
    {w₀ : M.World} {c : Config M} (h : Reach w₀ c) :
    ∀ i th, c.threads i = some th → C th.session th.rest := by
  induction h with
  | initial => exact fun i th hi => by simp [Config.initial] at hi
  | @step c c' lab hr hs ih =>
    intro j th hj
    cases lab with
    | start e =>
      injection hs with hs
      subst hs
      by_cases hjn : j = M.next c.world
      · subst hjn
        obtain rfl : _ = th := by simpa [update] using hj
        exact hbody e
      · exact ih j th (by simpa [update, hjn] using hj)
    | call i ch =>
      obtain ⟨l, o, k, r, l', w', hth, hx, rfl⟩ := Config.step_call hs
      by_cases hji : j = i
      · subst hji
        obtain rfl : _ = th := by simpa [update] using hj
        exact hcall j o ch l c.world r l' w' k (ih j _ hth) hx
      · exact ih j th (by simpa [update, hji] using hj)
    | stop i =>
      obtain ⟨_, _, rfl⟩ := Option.map_eq_some_iff.mp hs
      by_cases hji : j = i
      · simp [update, hji] at hj
      · exact ih j th (by simpa [update, hji] using hj)
    | env v =>
      obtain ⟨w', -, rfl⟩ := Option.map_eq_some_iff.mp hs
      exact ih j th hj

end Interleave
