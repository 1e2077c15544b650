/-
  Orbyt.Lib.Program — programs as trees of calls

  A program of an asynchronous service runs straight-line code between two
  calls to the outside (a database statement, a network round trip) and may be
  interrupted, or have the call raise, at every one of them.  `Prog` keeps
  exactly that: a tree whose nodes are calls and whose branches are the answers.

    * `ret` / `raise` — the program has returned, or an exception escapes;
    * `op o k`        — the call `o`, then `k` on its answer or exception.

  `bind`, `tryCatch` and `attempt` are the sequencing and handler forms of the
  source language; `Uses` says that every call a program can make, on any
  answers, satisfies a predicate.
-/
import Mathlib.Logic.Basic

namespace Interleave

/-- The calls a program may make and the type each of them answers with. -/
structure Sig where
  Op : Type
  Res : Op → Type

/-- A program over the calls of `S`, raising exceptions in `ε`, returning `α`. -/
inductive Prog (S : Sig) (ε α : Type) where
  | ret (a : α)
  | raise (e : ε)
  | op (o : S.Op) (k : Except ε (S.Res o) → Prog S ε α)

namespace Prog

variable {S : Sig} {ε α β γ : Type}

/-! ## §1. Sequencing and handlers. -/

/-- Run `p`, then `f` on what it returns. -/
def bind : Prog S ε α → (α → Prog S ε β) → Prog S ε β
  | .ret a, f => f a
  | .raise e, _ => .raise e
  | .op o k, f => .op o (fun r => bind (k r) f)

/-- Run `p`; if an exception escapes it, run the handler. -/
def tryCatch : Prog S ε α → (ε → Prog S ε α) → Prog S ε α
  | .ret a, _ => .ret a
  | .raise e, h => h e
  | .op o k, h => .op o (fun r => tryCatch (k r) h)

instance : Monad (Prog S ε) where
  pure := .ret
  bind := bind

instance : MonadExceptOf ε (Prog S ε) where
  throw := .raise
  tryCatch := tryCatch

/-- A single call: its answer is returned, its exception escapes. -/
def call (o : S.Op) : Prog S ε (S.Res o) :=
  .op o (fun
    | .ok a => .ret a
    | .error e => .raise e)

/-- Run `p` and hand back its exception as a value. -/
def attempt : Prog S ε α → Prog S ε (Except ε α)
  | .ret a => .ret (.ok a)
  | .raise e => .ret (.error e)
  | .op o k => .op o (fun r => attempt (k r))

/-- `for x in xs: body x`. -/
def forEach (body : α → Prog S ε Unit) : List α → Prog S ε Unit
  | [] => .ret ()
  | x :: xs => bind (body x) (fun _ => forEach body xs)

/-- A program over the calls of `S`, run over those of `T`: each call becomes what `run` makes
of it.  An exception of the program is handed back as a value. -/
def embed {T : Sig} {δ : Type} (run : (o : S.Op) → Prog T δ (Except ε (S.Res o))) :
    Prog S ε α → Prog T δ (Except ε α)
  | .ret a => .ret (.ok a)
  | .raise e => .ret (.error e)
  | .op o k => bind (run o) (fun r => embed run (k r))

/-! ## §2. Reading the notation back. -/

@[simp] theorem pure_eq (a : α) : (pure a : Prog S ε α) = .ret a := rfl
@[simp] theorem throw_eq (e : ε) : (throw e : Prog S ε α) = .raise e := rfl
@[simp] theorem bind_eq (p : Prog S ε α) (f : α → Prog S ε β) : p >>= f = bind p f := rfl
@[simp] theorem catch_eq (p : Prog S ε α) (h : ε → Prog S ε α) :
    MonadExcept.tryCatch p h = tryCatch p h := rfl

@[simp] theorem ret_bind (a : α) (f : α → Prog S ε β) : bind (.ret a) f = f a := rfl
@[simp] theorem raise_bind (e : ε) (f : α → Prog S ε β) :
    bind (.raise e : Prog S ε α) f = .raise e := rfl
@[simp] theorem op_bind (o : S.Op) (k : Except ε (S.Res o) → Prog S ε α) (f : α → Prog S ε β) :
    bind (.op o k) f = .op o (fun r => bind (k r) f) := rfl

theorem bind_assoc (p : Prog S ε α) (f : α → Prog S ε β) (g : β → Prog S ε γ) :
    bind (bind p f) g = bind p (fun a => bind (f a) g) := by
  induction p with
  | ret a => rfl
  | raise e => rfl
  | op o k ih =>
    simp only [op_bind]
    congr 1
    funext r
    exact ih r

/-! ## §3. Footprints: which calls a program can make. -/

/-- Every call `p` can make, on any answers, satisfies `P`. -/
def Uses (P : S.Op → Prop) : Prog S ε α → Prop
  | .ret _ => True
  | .raise _ => True
  | .op o k => P o ∧ ∀ r, Uses P (k r)

variable {P : S.Op → Prop}

@[simp] theorem uses_ret (a : α) : Uses P (.ret a : Prog S ε α) := trivial
@[simp] theorem uses_raise (e : ε) : Uses P (.raise e : Prog S ε α) := trivial

theorem uses_bind {p : Prog S ε α} {f : α → Prog S ε β}
    (hp : Uses P p) (hf : ∀ a, Uses P (f a)) : Uses P (bind p f) := by
  induction p with
  | ret a => exact hf a
  | raise e => trivial
  | op o k ih => exact ⟨hp.1, fun r => ih r (hp.2 r)⟩

theorem uses_attempt {p : Prog S ε α} (hp : Uses P p) : Uses P (attempt p) := by
  induction p with
  | ret a => trivial
  | raise e => trivial
  | op o k ih => exact ⟨hp.1, fun r => ih r (hp.2 r)⟩

theorem Uses.mono {Q : S.Op → Prop} (h : ∀ o, P o → Q o) {p : Prog S ε α} (hp : Uses P p) :
    Uses Q p := by
  induction p with
  | ret a => trivial
  | raise e => trivial
  | op o k ih => exact ⟨h o hp.1, fun r => ih r (hp.2 r)⟩

theorem Uses.and {Q : S.Op → Prop} {p : Prog S ε α} (hp : Uses P p) (hq : Uses Q p) :
    Uses (fun o => P o ∧ Q o) p := by
  induction p with
  | ret a => trivial
  | raise e => trivial
  | op o k ih => exact ⟨⟨hp.1, hq.1⟩, fun r => ih r (hp.2 r) (hq.2 r)⟩

theorem uses_call {o : S.Op} (h : P o) : Uses P (call o : Prog S ε (S.Res o)) :=
  ⟨h, fun r => by cases r <;> trivial⟩

theorem uses_forEach {body : α → Prog S ε Unit} (h : ∀ x, Uses P (body x)) :
    ∀ xs : List α, Uses P (forEach body xs)
  | [] => trivial
  | x :: xs => uses_bind (h x) (fun _ => uses_forEach h xs)

theorem uses_embed {T : Sig} {δ : Type} {Q : T.Op → Prop}
    {run : (o : S.Op) → Prog T δ (Except ε (S.Res o))} (h : ∀ o, Uses Q (run o))
    (p : Prog S ε α) : Uses Q (embed run p) := by
  induction p with
  | ret a => trivial
  | raise e => trivial
  | op o k ih => exact uses_bind (h o) ih

/-! ## §4. One run, by its answers. -/

/-- What the program comes to when its `n`-th call, and every later one, is answered by
`answer`. -/
def answered (answer : Nat → (o : S.Op) → Except ε (S.Res o)) : Nat → Prog S ε α → Except ε α
  | _, .ret a => .ok a
  | _, .raise e => .error e
  | n, .op o k => answered answer (n + 1) (k (answer n o))

end Prog

end Interleave
