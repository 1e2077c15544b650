/-
  Orbyt.Lib.Restrict — runs in which some calls answer as they should

  A machine leaves open what the world outside it answers.  Where a result is about runs in
  which those answers are the documented ones, it is a result about the restricted machine,
  which is the same machine with fewer choices: what holds of every run of the machine holds
  of every run of the restricted one, and every discipline is kept there too.

  Main results:
    * `Reach.unrestrict` — a state that the restricted machine reaches is reached;
    * `Discipline.Kept.restrict` — a kept discipline stays kept.
-/
import Orbyt.Lib.Interleave

namespace Interleave

open Function (update)

variable {M : Machine} {allowed : M.sig.Op → M.Choice → Bool}

/-! ## §1. Fewer choices. -/

/-- The machine whose calls complete only with choices that are `allowed` for them. -/
@[reducible] def Machine.restrict (M : Machine) (allowed : M.sig.Op → M.Choice → Bool) : Machine :=
  { M with exec := fun i o c l w => if allowed o c then M.exec i o c l w else none }

theorem restrict_exec {i : Nat} {o : M.sig.Op} {c : M.Choice} {l : M.Session} {w : M.World}
    {x : Except M.Exn (M.sig.Res o) × M.Session × M.World}
    (h : (M.restrict allowed).exec i o c l w = some x) :
    allowed o c = true ∧ M.exec i o c l w = some x := by
  have h' : (if allowed o c = true then M.exec i o c l w else none) = some x := h
  split at h'
  next ha => exact ⟨ha, h'⟩
  · cases h'

/-! ## §2. What is reached. -/

/-- The same state, as one of the machine without the restriction. -/
def Config.unrestrict (k : Config (M.restrict allowed)) : Config M :=
  ⟨k.world, fun i => (k.threads i).map fun th => ⟨th.session, th.rest⟩⟩

theorem Config.unrestrict_update {k : Config (M.restrict allowed)} {w : M.World} {i : Nat}
    {th : Option (Thread (M.restrict allowed))} :
    (⟨w, update k.threads i th⟩ : Config (M.restrict allowed)).unrestrict =
      ⟨w, update k.unrestrict.threads i (th.map fun th => ⟨th.session, th.rest⟩)⟩ := by
  show (⟨w, fun j => (update k.threads i th j).map _⟩ : Config M) = _
  congr 1
  funext j
  by_cases hj : j = i
  · subst hj
    rw [Function.update_self, Function.update_self]
  · rw [Function.update_of_ne hj, Function.update_of_ne hj]
    rfl

/-- A step of the restricted machine is a step of the machine. -/
theorem Config.step_unrestrict {k k' : Config (M.restrict allowed)}
    {lab : Label (M.restrict allowed)} (h : k.step lab = some k') :
    ∃ lab' : Label M, k.unrestrict.step lab' = some k'.unrestrict := by
  cases lab with
  | start e =>
    injection h with h
    subst h
    refine ⟨.start e, ?_⟩
    rw [unrestrict_update]
    rfl
  | call i c =>
    obtain ⟨l, o, f, r, l', w', hth, hx, rfl⟩ := Config.step_call h
    refine ⟨.call i c, ?_⟩
    have hth' : k.unrestrict.threads i = some ⟨l, .op o f⟩ := by
      show (k.threads i).map _ = _
      rw [hth]
      rfl
    have hx' : M.exec i o c l k.unrestrict.world = some (r, l', w') := (restrict_exec hx).2
    rw [unrestrict_update]
    simp only [Config.step, hth', hx', Option.map_some]
  | stop i =>
    obtain ⟨th, hth, rfl⟩ := Option.map_eq_some_iff.mp h
    refine ⟨.stop i, ?_⟩
    have hth' : k.unrestrict.threads i = some ⟨th.session, th.rest⟩ := by
      show (k.threads i).map _ = _
      rw [hth]
      rfl
    rw [unrestrict_update]
    simp only [Config.step, hth', Option.map_some]
    rfl
  | env v =>
    obtain ⟨w', hv, rfl⟩ := Option.map_eq_some_iff.mp h
    refine ⟨.env v, ?_⟩
    have hv' : M.env v k.unrestrict.world = some w' := hv
    simp only [Config.step, hv', Option.map_some]
    rfl

/-- **WHAT IS REACHED** under the restriction is reached. -/
theorem Reach.unrestrict {w : M.World} {k : Config (M.restrict allowed)}
    (h : Reach (M := M.restrict allowed) w k) : Reach (M := M) w k.unrestrict := by
  induction h with
  | initial => exact .initial
  | step _ hs ih =>
    obtain ⟨lab', hs'⟩ := Config.step_unrestrict hs
    exact ih.step hs'

/-- The same step, for the restricted machine to take if it may. -/
def Label.restrict : Label M → Label (M.restrict allowed)
  | .start e => .start e
  | .call i c => .call i c
  | .stop i => .stop i
  | .env v => .env v

/-! ## §3. Disciplines. -/

/-- A discipline of the machine, for the restricted machine. -/
def Discipline.restrict (D : Discipline M) (allowed : M.sig.Op → M.Choice → Bool) :
    Discipline (M.restrict allowed) where
  may := D.may
  world := D.world
  session := D.session
  moves := D.moves
  refl := D.refl
  trans := D.trans
  stable := D.stable

/-- **A KEPT DISCIPLINE** is kept with fewer choices. -/
theorem Discipline.Kept.restrict {D : Discipline M} (hD : D.Kept) :
    (D.restrict allowed).Kept where
  uses := hD.uses
  spawn := hD.spawn
  call := fun e i o c l w r l' w' ho hw hl hx =>
    hD.call e i o c l w r l' w' ho hw hl (restrict_exec hx).2
  close := hD.close
  env := hD.env

end Interleave
