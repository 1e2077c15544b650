/-
  Orbyt.Lib.Prospect — what can still be brought about

  A program that is left alone, whose calls are answered well and whose environment moves as it
  should, can come to a good end.  `Can` is that possibility, program by program; a machine whose
  programs have all been stopped runs one request after another, so that possibilities of single
  requests compose to a course of the whole machine.

  Main results:
    * `Can.bind`, `Can.attempt`, `Can.forEach` — one rule a form of program;
    * `Can.course` — what a program can come to, some course of the machine brings about;
    * `Idle.request` — with nothing in flight, so does a whole request;
    * `stop_all` — whatever is in flight can be stopped.
-/
import Orbyt.Lib.Interleave

namespace Interleave

open Function (update)

variable {M : Machine} {fine : M.Choice → Prop} {i : Nat} {α β : Type} {l l' : M.Session}
  {w w' : M.World}

/-! ## §1. One program. -/

/-- Left alone, with only `fine` choices made for it, the program can come to an end in `Q`. -/
inductive Can (fine : M.Choice → Prop) (i : Nat)
    (Q : Except M.Exn α → M.Session → M.World → Prop) :
    Prog M.sig M.Exn α → M.Session → M.World → Prop where
  | ret {a : α} {l : M.Session} {w : M.World} : Q (.ok a) l w → Can fine i Q (.ret a) l w
  | raise {e : M.Exn} {l : M.Session} {w : M.World} :
      Q (.error e) l w → Can fine i Q (.raise e) l w
  | call {o : M.sig.Op} {k : Except M.Exn (M.sig.Res o) → Prog M.sig M.Exn α} {c : M.Choice}
      {r : Except M.Exn (M.sig.Res o)} {l l' : M.Session} {w w' : M.World} :
      fine c → M.exec i o c l w = some (r, l', w') → Can fine i Q (k r) l' w' →
        Can fine i Q (.op o k) l w
  | env {p : Prog M.sig M.Exn α} {v : M.Env} {l : M.Session} {w w' : M.World} :
      M.env v w = some w' → Can fine i Q p l w' → Can fine i Q p l w

variable {Q Q' : Except M.Exn α → M.Session → M.World → Prop}
  {R : Except M.Exn β → M.Session → M.World → Prop}

theorem Can.mono {p : Prog M.sig M.Exn α} (h : Can fine i Q p l w)
    (hQ : ∀ r l w, Q r l w → Q' r l w) : Can fine i Q' p l w := by
  induction h with
  | ret hq => exact .ret (hQ _ _ _ hq)
  | raise hq => exact .raise (hQ _ _ _ hq)
  | call hc hx _ ih => exact .call hc hx ih
  | env hv _ ih => exact .env hv ih

/-- It returns, in `P`. -/
def Returns (P : α → M.Session → M.World → Prop) :
    Except M.Exn α → M.Session → M.World → Prop
  | .ok a, l, w => P a l w
  | .error _, _, _ => False

/-- Sequencing: an exception ends the whole, an answer goes on. -/
theorem Can.bind {p : Prog M.sig M.Exn α} {f : α → Prog M.sig M.Exn β}
    (h : Can fine i (fun r l w => match r with
      | .ok a => Can fine i R (f a) l w
      | .error e => R (.error e) l w) p l w) : Can fine i R (Prog.bind p f) l w := by
  generalize hP : (fun (r : Except M.Exn α) l w => match r with
      | .ok a => Can fine i R (f a) l w
      | .error e => R (.error e) l w) = P at h
  induction h with
  | ret hq => subst hP; exact hq
  | raise hq => subst hP; exact .raise hq
  | call hc hx _ ih => exact .call hc hx ih
  | env hv _ ih => exact .env hv ih

/-- A program that returns, then the rest. -/
theorem Can.then {P : α → M.Session → M.World → Prop} {p : Prog M.sig M.Exn α}
    {f : α → Prog M.sig M.Exn β} (h : Can fine i (Returns P) p l w)
    (hf : ∀ a l w, P a l w → Can fine i R (f a) l w) : Can fine i R (Prog.bind p f) l w := by
  refine Can.bind (h.mono fun r l w hr => ?_)
  cases r with
  | ok a => exact hf a l w hr
  | error e => exact hr.elim

theorem Can.attempt {p : Prog M.sig M.Exn α} {Q : Except M.Exn (Except M.Exn α) → _ → _ → Prop}
    (h : Can fine i (fun r => Q (.ok r)) p l w) : Can fine i Q (Prog.attempt p) l w := by
  induction h with
  | ret hq => exact .ret hq
  | raise hq => exact .ret hq
  | call hc hx _ ih => exact .call hc hx ih
  | env hv _ ih => exact .env hv ih

/-- A single call that answers, then the rest. -/
theorem Can.call_bind {o : M.sig.Op} {f : M.sig.Res o → Prog M.sig M.Exn β} {c : M.Choice}
    {a : M.sig.Res o} (hc : fine c) (hx : M.exec i o c l w = some (.ok a, l', w'))
    (h : Can fine i R (f a) l' w') : Can fine i R (Prog.bind (Prog.call o) f) l w :=
  .call hc hx h

theorem Can.call_ok {o : M.sig.Op} {Q : Except M.Exn (M.sig.Res o) → M.Session → M.World → Prop}
    {c : M.Choice} {a : M.sig.Res o} (hc : fine c)
    (hx : M.exec i o c l w = some (.ok a, l', w')) (h : Q (.ok a) l' w') :
    Can fine i Q (Prog.call o) l w :=
  .call hc hx (.ret h)

/-- A loop keeps what each of its rounds keeps, and each round leaves its mark. -/
theorem Can.forEach {body : α → Prog M.sig M.Exn Unit} {I : M.Session → M.World → Prop}
    {P : α → M.World → Prop}
    (h : ∀ x l w, I l w → Can fine i (Returns fun _ l' w' => I l' w' ∧ P x w' ∧
      ∀ y, P y w → P y w') (body x) l w) :
    ∀ (xs : List α) {l : M.Session} {w : M.World}, I l w →
      Can fine i (Returns fun _ l' w' => I l' w' ∧ (∀ x ∈ xs, P x w') ∧
        ∀ y, P y w → P y w') (Prog.forEach body xs) l w
  | [], _, _, hi => .ret ⟨hi, fun _ hx => absurd hx (List.not_mem_nil), fun _ hy => hy⟩
  | x :: xs, l, w, hi => by
      refine Can.then (h x l w hi) fun _ l' w' h' => ?_
      obtain ⟨hi', hx', hkept⟩ := h'
      refine (Can.forEach h xs hi').mono fun r l'' w'' hr => ?_
      cases r with
      | error e => exact hr.elim
      | ok _ =>
        obtain ⟨hi'', hxs, hkept'⟩ := hr
        refine ⟨hi'', fun y hy => ?_, fun y hy => hkept' y (hkept y hy)⟩
        rcases List.mem_cons.mp hy with rfl | hy
        · exact hkept' y hx'
        · exact hxs y hy

/-! ## §2. The machine. -/

variable {ok : Config M → Label M → Prop} {c c' : Config M}

theorem Course.trans {c'' : Config M} (h : Course ok c c') (h' : Course ok c' c'') :
    Course ok c c'' := by
  induction h' with
  | refl => exact h
  | step _ hok hs ih => exact ih.step hok hs

/-- The moves that a prospect rests on are `ok`. -/
structure Grants (ok : Config M → Label M → Prop) (fine : M.Choice → Prop) : Prop where
  call : ∀ c i ch, fine ch → ok c (.call i ch)
  stop : ∀ c i, ok c (.stop i)
  env : ∀ c v, ok c (.env v)

/-- **WHAT A PROGRAM CAN COME TO** is brought about while the others stand still. -/
theorem Can.course (ha : Grants ok fine) {p : Prog M.sig M.Exn Unit}
    {Q : Except M.Exn Unit → M.Session → M.World → Prop} (h : Can fine i Q p l w) :
    ∀ {c : Config M}, c.world = w → c.threads i = some ⟨l, p⟩ →
      ∃ c' th r, Course ok c c' ∧ c'.threads = update c.threads i (some th) ∧
        Q r th.session c'.world := by
  induction h with
  | @ret a l w hq =>
    rintro c rfl hth
    exact ⟨c, _, _, .refl, by rw [← hth, Function.update_eq_self], hq⟩
  | @raise e l w hq =>
    rintro c rfl hth
    exact ⟨c, _, _, .refl, by rw [← hth, Function.update_eq_self], hq⟩
  | @call o k ch r l l' w w' hc hx _ ih =>
    rintro c rfl hth
    have hs : c.step (.call i ch) = some ⟨w', update c.threads i (some ⟨l', k r⟩)⟩ := by
      simp only [Config.step, hth, hx, Option.map_some]
    obtain ⟨c', th, r', hcourse, hthreads, hq⟩ :=
      ih (c := ⟨w', update c.threads i (some ⟨l', k r⟩)⟩) rfl (Function.update_self _ _ _)
    refine ⟨c', th, r', (Course.refl.step (ha.call c i ch hc) hs).trans hcourse, ?_, hq⟩
    rw [hthreads, Function.update_idem]
  | @env p v l w w' hv _ ih =>
    rintro c rfl hth
    have hs : c.step (.env v) = some ⟨w', c.threads⟩ := by
      simp only [Config.step, hv, Option.map_some]
    obtain ⟨c', th, r', hcourse, hthreads, hq⟩ := ih (c := ⟨w', c.threads⟩) rfl hth
    exact ⟨c', th, r', (Course.refl.step (ha.env c v) hs).trans hcourse, hthreads, hq⟩

/-- Nothing is in flight. -/
def Idle (c : Config M) : Prop := ∀ j, c.threads j = none

/-- **ONE REQUEST**, from start to end, and nothing is in flight again. -/
theorem Idle.request (ha : Grants ok fine) {e : M.Entry}
    {Q : Except M.Exn Unit → M.Session → M.World → Prop} (hidle : Idle c) (hok : ok c (.start e))
    (h : Can fine (M.next c.world) Q (M.body e) (M.start e) (M.spawn c.world)) :
    ∃ c' r l' w', Course ok c c' ∧ Idle c' ∧ Q r l' w' ∧
      c'.world = M.close (M.next c.world) w' := by
  obtain ⟨c₂, th, r, hcourse, hthreads, hq⟩ := h.course ha
    (c := ⟨M.spawn c.world, update c.threads (M.next c.world) (some ⟨M.start e, M.body e⟩)⟩)
    rfl (Function.update_self _ _ _)
  have hth : c₂.threads (M.next c.world) = some th := by rw [hthreads, Function.update_self]
  have hs : c₂.step (.stop (M.next c.world))
      = some ⟨M.close (M.next c.world) c₂.world, update c₂.threads (M.next c.world) none⟩ := by
    simp only [Config.step, hth, Option.map_some]
  refine ⟨_, r, th.session, c₂.world,
    ((Course.refl.step hok rfl).trans hcourse).step (ha.stop _ _) hs, ?_, hq, rfl⟩
  intro j
  by_cases hj : j = M.next c.world
  · subst hj
    exact Function.update_self _ _ _
  · show update c₂.threads _ none j = none
    rw [Function.update_of_ne hj, hthreads, Function.update_of_ne hj]
    exact (Function.update_of_ne hj _ _).trans (hidle j)

/-- The environment moves by itself. -/
theorem Idle.env (ha : Grants ok fine) {v : M.Env} (hidle : Idle c)
    (hv : M.env v c.world = some w') :
    ∃ c' : Config M, Course ok c c' ∧ Idle c' ∧ c'.world = w' :=
  ⟨⟨w', c.threads⟩, Course.refl.step (ha.env c v) (by simp only [Config.step, hv, Option.map_some]),
    hidle, rfl⟩

/-- **STOP WHATEVER IS IN FLIGHT**: what every ending keeps of the world is kept, and each
program that was in flight has ended. -/
theorem stop_all (ha : Grants ok fine) {P : M.World → Prop}
    (hclose : ∀ j w, P w → P (M.close j w)) :
    ∀ (n : Nat) {c : Config M}, (∀ j, n ≤ j → c.threads j = none) → P c.world →
      ∃ c', Course ok c c' ∧ Idle c' ∧ P c'.world
  | 0, c, hn, hk => ⟨c, .refl, fun j => hn j (Nat.zero_le j), hk⟩
  | n + 1, c, hn, hk => by
      cases hth : c.threads n with
      | none =>
        refine stop_all ha hclose n (fun j hj => ?_) hk
        rcases Nat.eq_or_lt_of_le hj with rfl | hlt
        · exact hth
        · exact hn j hlt
      | some th =>
        have hs : c.step (.stop n) = some ⟨M.close n c.world, update c.threads n none⟩ := by
          simp only [Config.step, hth, Option.map_some]
        have hn' : ∀ j, n ≤ j → update c.threads n none j = none := by
          intro j hj
          by_cases hjn : j = n
          · rw [hjn, Function.update_self]
          · rw [Function.update_of_ne hjn]
            exact hn j (by omega)
        obtain ⟨c', hcourse, hidle, hk'⟩ := stop_all ha hclose n
          (c := ⟨M.close n c.world, update c.threads n none⟩) hn' (hclose n _ hk)
        exact ⟨c', (Course.refl.step (ha.stop c n) hs).trans hcourse, hidle, hk'⟩

end Interleave
