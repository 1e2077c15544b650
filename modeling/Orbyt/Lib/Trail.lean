/-
  Orbyt.Lib.Trail — the history of a status

  A status that moves along the edges of a relation leaves a trail: the list of
  the values it has had, newest first, each an edge away from the one before it.

  Main results:
    * `Trail.move`      — recording a move along an edge (or no move) extends a trail;
    * `Trail.isEdge`    — neighbours in a trail are edges;
    * `Trail.absorbed`  — a value no edge leaves is, once reached, the last one.
-/
import Mathlib.Data.List.Infix

namespace Trails

variable {σ : Type} {edge : σ → σ → Prop} {start : σ → Prop}

/-- The values a status has had, newest first. -/
inductive Trail (edge : σ → σ → Prop) (start : σ → Prop) : List σ → Prop where
  | start {a : σ} (h : start a) : Trail edge start [a]
  | step {a b : σ} {log : List σ} (h : Trail edge start (a :: log)) (he : edge a b) :
      Trail edge start (b :: a :: log)

theorem Trail.move [DecidableEq σ] {a b : σ} {log : List σ} (h : Trail edge start log)
    (ha : log.head? = some a) (hab : b = a ∨ edge a b) :
    Trail edge start (if a = b then log else b :: log) ∧
      (if a = b then log else b :: log).head? = some b := by
  by_cases he : a = b
  · rw [if_pos he]
    exact ⟨h, he ▸ ha⟩
  · rw [if_neg he]
    refine ⟨?_, rfl⟩
    rcases hab with hb | hedge
    · exact absurd hb.symm he
    · cases log with
      | nil => cases ha
      | cons c log =>
        obtain rfl : c = a := by simpa using ha
        exact .step h hedge

theorem Trail.isEdge {a b : σ} {log : List σ} (h : Trail edge start log)
    (hab : [b, a] <:+: log) : edge a b := by
  induction h with
  | start _ =>
    have hlen := hab.length_le
    simp at hlen
  | @step c d log _ he ih =>
    rcases List.infix_cons_iff.mp hab with hp | hi
    · obtain ⟨rest, hrest⟩ := hp
      simp only [List.cons_append, List.cons.injEq] at hrest
      obtain ⟨rfl, rfl, -⟩ := hrest
      exact he
    · exact ih hi

theorem Trail.absorbed {a : σ} {log : List σ} (h : Trail edge start log)
    (ha : ∀ b, ¬ edge a b) (hm : a ∈ log) : log.head? = some a := by
  induction h with
  | start _ =>
    obtain rfl : a = _ := by simpa using hm
    rfl
  | @step c d log _ he ih =>
    rcases List.mem_cons.mp hm with rfl | hm
    · rfl
    · obtain rfl : c = a := by simpa using ih hm
      exact absurd he (ha d)

/-- A status has a history as soon as it has a value. -/
theorem Trail.head_mem {log : List σ} {a : σ} (ha : log.head? = some a) : a ∈ log :=
  List.mem_of_head? ha

end Trails
