/-
  Orbyt.Lib.TwoRuns — two runs of one program, side by side

  What does a program notice of a difference between two worlds?  A `Likeness` says which
  worlds and sessions are taken to be the same, and which calls: two calls are alike when they
  answer alike, up to a relation of their own.  `Alike` follows two programs call by call.

    * `alone`     — the calls of one program, one after another;
    * `Alike`     — two programs that make like calls for as long as the answers are alike.

  Main results:
    * `Alike.bind`, `Alike.attempt`, `Alike.call_bind` — the rules for programs;
    * `Likeness.Sound.alone` — like programs come to like ends.
-/
import Orbyt.Lib.Interleave

namespace Interleave

variable {M : Machine} {α β γ δ : Type}

/-! ## §1. One program on its own. -/

/-- The calls of `p`, made by program `i` with nobody else moving. -/
def alone (i : Nat) : List M.Choice → Prog M.sig M.Exn α → M.Session → M.World →
    Option (Except M.Exn α × M.Session × M.World)
  | _, .ret a, l, w => some (.ok a, l, w)
  | _, .raise e, l, w => some (.error e, l, w)
  | [], .op _ _, _, _ => none
  | c :: cs, .op o k, l, w =>
      (M.exec i o c l w).bind (fun r => alone i cs (k r.1) r.2.1 r.2.2)

theorem alone_ret {i : Nat} {cs : List M.Choice} {a : α} {l : M.Session} {w : M.World} :
    alone i cs (.ret a : Prog M.sig M.Exn α) l w = some (.ok a, l, w) := by
  cases cs <;> rfl

theorem alone_raise {i : Nat} {cs : List M.Choice} {e : M.Exn} {l : M.Session} {w : M.World} :
    alone i cs (.raise e : Prog M.sig M.Exn α) l w = some (.error e, l, w) := by
  cases cs <;> rfl

/-- A program that has returned has had an answer to its first call. -/
theorem alone_call_ok {i : Nat} {cs : List M.Choice} {o : M.sig.Op}
    {f : M.sig.Res o → Prog M.sig M.Exn α} {b : α} {l l' : M.Session} {w w' : M.World}
    (h : alone i cs (Prog.bind (Prog.call o) f) l w = some (.ok b, l', w')) :
    ∃ c cs' a l₁ w₁, cs = c :: cs' ∧ M.exec i o c l w = some (.ok a, l₁, w₁) ∧
      alone i cs' (f a) l₁ w₁ = some (.ok b, l', w') := by
  cases cs with
  | nil => cases h
  | cons c cs =>
    obtain ⟨⟨r, l₁, w₁⟩, hcall, hrest⟩ := Option.bind_eq_some_iff.mp h
    cases r with
    | ok a => exact ⟨c, cs, a, l₁, w₁, rfl, hcall, hrest⟩
    | error e =>
      -- the exception escapes
      have hraise : alone i cs (.raise e) l₁ w₁ = some (.ok b, l', w') := hrest
      rw [alone_raise] at hraise
      cases hraise

theorem alone_last {i : Nat} {cs : List M.Choice} {o : M.sig.Op} {a : M.sig.Res o}
    {l l' : M.Session} {w w' : M.World}
    (h : alone i cs (Prog.call o : Prog M.sig M.Exn _) l w = some (.ok a, l', w')) :
    ∃ c cs', cs = c :: cs' ∧ M.exec i o c l w = some (.ok a, l', w') := by
  cases cs with
  | nil => cases h
  | cons c cs =>
    obtain ⟨⟨r, l₁, w₁⟩, hcall, hrest⟩ := Option.bind_eq_some_iff.mp h
    cases r with
    | ok a' =>
      have hret : alone i cs (.ret a') l₁ w₁ = some (.ok a, l', w') := hrest
      rw [alone_ret] at hret
      cases hret
      exact ⟨c, cs, rfl, hcall⟩
    | error e =>
      have hraise : alone i cs (.raise e) l₁ w₁ = some (.ok a, l', w') := hrest
      rw [alone_raise] at hraise
      cases hraise

/-- The first call answers and the rest follows. -/
theorem alone_call {i : Nat} {c : M.Choice} {cs : List M.Choice} {o : M.sig.Op}
    {f : M.sig.Res o → Prog M.sig M.Exn α} {a : M.sig.Res o} {l l₁ : M.Session} {w w₁ : M.World}
    (h : M.exec i o c l w = some (.ok a, l₁, w₁)) :
    alone i (c :: cs) (Prog.bind (Prog.call o) f) l w = alone i cs (f a) l₁ w₁ := by
  show (M.exec i o c l w).bind _ = _
  rw [h]
  rfl

/-- Both return, related by `V`, or both raise the same. -/
def LikeAnswers {ε : Type} (V : α → β → Prop) : Except ε α → Except ε β → Prop
  | .ok a, .ok b => V a b
  | .error e, .error e' => e = e'
  | _, _ => False

theorem LikeAnswers.mono {ε : Type} {V W : α → β → Prop} (h : ∀ a b, V a b → W a b)
    {r : Except ε α} {r' : Except ε β} (hr : LikeAnswers V r r') : LikeAnswers W r r' := by
  cases r with
  | ok a =>
    cases r' with
    | ok b => exact h a b hr
    | error e => exact hr
  | error e =>
    cases r' with
    | ok b => exact hr
    | error e' => exact hr

/-! ## §2. Programs. -/

/-- What is taken to be the same in two runs.  `op o o' V`: the calls `o` and `o'` are alike,
and their answers are related by `V`. -/
structure Likeness (M : Machine) where
  world : M.World → M.World → Prop
  session : M.Session → M.Session → Prop
  op : (o o' : M.sig.Op) → (M.sig.Res o → M.sig.Res o' → Prop) → Prop

/-- For as long as the answers are alike, `p` and `p'` make like calls, and they end alike. -/
inductive Alike (L : Likeness M) (R : α → β → Prop) :
    Prog M.sig M.Exn α → Prog M.sig M.Exn β → Prop where
  | ret {a : α} {b : β} : R a b → Alike L R (.ret a) (.ret b)
  | raise (e : M.Exn) : Alike L R (.raise e) (.raise e)
  | op {o o' : M.sig.Op} {V : M.sig.Res o → M.sig.Res o' → Prop}
      {k : Except M.Exn (M.sig.Res o) → Prog M.sig M.Exn α}
      {k' : Except M.Exn (M.sig.Res o') → Prog M.sig M.Exn β} :
      L.op o o' V → (∀ a a', V a a' → Alike L R (k (.ok a)) (k' (.ok a'))) →
      (∀ e, Alike L R (k (.error e)) (k' (.error e))) → Alike L R (.op o k) (.op o' k')

variable {L : Likeness M} {R : α → β → Prop} {T : γ → δ → Prop}

/-- **Sequencing.** -/
theorem Alike.bind {p : Prog M.sig M.Exn α} {p' : Prog M.sig M.Exn β}
    {f : α → Prog M.sig M.Exn γ} {f' : β → Prog M.sig M.Exn δ} (hp : Alike L R p p')
    (hf : ∀ a b, R a b → Alike L T (f a) (f' b)) : Alike L T (Prog.bind p f) (Prog.bind p' f') := by
  induction hp with
  | ret h => exact hf _ _ h
  | raise e => exact .raise e
  | op ho _ _ ihok iherr => exact .op ho ihok iherr

/-- **Handing an exception back.** -/
theorem Alike.attempt {p : Prog M.sig M.Exn α} {p' : Prog M.sig M.Exn β} (hp : Alike L R p p') :
    Alike L (LikeAnswers R) (Prog.attempt p) (Prog.attempt p') := by
  induction hp with
  | ret h => exact .ret h
  | raise e => exact .ret rfl
  | op ho _ _ ihok iherr => exact .op ho ihok iherr

theorem Alike.call {o o' : M.sig.Op} {V : M.sig.Res o → M.sig.Res o' → Prop} (ho : L.op o o' V) :
    Alike L V (Prog.call o : Prog M.sig M.Exn _) (Prog.call o') :=
  .op ho (fun _ _ h => .ret h) fun e => .raise e

/-- A call, then the rest. -/
theorem Alike.call_bind {o o' : M.sig.Op} {V : M.sig.Res o → M.sig.Res o' → Prop}
    {f : M.sig.Res o → Prog M.sig M.Exn γ} {f' : M.sig.Res o' → Prog M.sig M.Exn δ}
    (ho : L.op o o' V) (hf : ∀ a b, V a b → Alike L T (f a) (f' b)) :
    Alike L T (Prog.bind (Prog.call o) f) (Prog.bind (Prog.call o') f') := (Alike.call ho).bind hf

/-! ## §3. Runs. -/

/-- Two ends of a run: like answers, sessions and worlds. -/
structure Likeness.Ends (L : Likeness M) (R : α → β → Prop)
    (x : Except M.Exn α × M.Session × M.World) (y : Except M.Exn β × M.Session × M.World) :
    Prop where
  answer : LikeAnswers R x.1 y.1
  session : L.session x.2.1 y.2.1
  world : L.world x.2.2 y.2.2

/-- Like calls, made in like states, wait for the same or end alike. -/
def Likeness.Sound (L : Likeness M) : Prop :=
  ∀ {i : Nat} {o o' : M.sig.Op} {V} {c : M.Choice} {l l' : M.Session} {w w' : M.World},
    L.op o o' V → L.session l l' → L.world w w' →
      Option.Rel (L.Ends V) (M.exec i o c l w) (M.exec i o' c l' w')

/-- **LIKE PROGRAMS COME TO LIKE ENDS.** -/
theorem Likeness.Sound.alone (hL : L.Sound) {i : Nat} {p : Prog M.sig M.Exn α}
    {p' : Prog M.sig M.Exn β} (hp : Alike L R p p') :
    ∀ {cs : List M.Choice} {l l' : M.Session} {w w' : M.World}, L.session l l' → L.world w w' →
      Option.Rel (L.Ends R) (alone i cs p l w) (alone i cs p' l' w') := by
  induction hp with
  | ret h =>
    intro cs l l' w w' hl hw
    rw [alone_ret, alone_ret]
    exact .some ⟨h, hl, hw⟩
  | raise e =>
    intro cs l l' w w' hl hw
    rw [alone_raise, alone_raise]
    exact .some ⟨rfl, hl, hw⟩
  | @op o o' V k k' ho _ _ ihok iherr =>
    intro cs l l' w w' hl hw
    cases cs with
    | nil => exact .none
    | cons c cs =>
      -- both calls wait, or both end alike and the rest follows
      have hcall := hL (i := i) (c := c) ho hl hw
      show Option.Rel _ ((M.exec i o c l w).bind _) ((M.exec i o' c l' w').bind _)
      revert hcall
      cases M.exec i o c l w with
      | none =>
        cases M.exec i o' c l' w' with
        | none => exact fun _ => .none
        | some y =>
          intro h
          cases h
      | some x =>
        cases M.exec i o' c l' w' with
        | none =>
          intro h
          cases h
        | some y =>
          intro hcall
          obtain ⟨r, l₁, w₁⟩ := x
          obtain ⟨r', l₁', w₁'⟩ := y
          obtain ⟨ha, hl₁, hw₁⟩ : L.Ends V (r, l₁, w₁) (r', l₁', w₁') := by
            cases hcall
            assumption
          cases r with
          | ok a =>
            cases r' with
            | ok a' => exact ihok a a' ha hl₁ hw₁
            | error e => cases ha
          | error e =>
            cases r' with
            | ok a' => cases ha
            | error e' =>
              obtain rfl : e = e' := ha
              exact iherr e hl₁ hw₁

end Interleave
