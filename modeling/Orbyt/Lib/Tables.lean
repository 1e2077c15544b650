/-
  Orbyt.Lib.Tables — sums over a table with pending writes

  A table gives every key below some bound a row or nothing.  A transaction's
  pending writes are a second table laid over it; `drift` is what they will change
  in the sum of a value over all rows once they are stored.

  Main results:
    * `total_overlay` — storing the writes changes the sum by the drift;
    * `drift_frame`   — the drift does not see what others do to other keys;
    * `drift_update`  — the effect of one more write;
    * `sum_matched`   — two sums whose terms are matched one to one.
-/
import Mathlib.Algebra.BigOperators.Group.Finset.Basic
import Mathlib.Algebra.Order.BigOperators.Group.Finset
import Mathlib.Tactic.Abel

namespace Tables

open Function (update)

/-! ## §1. Sums. -/

section Sums

variable {ρ A : Type} [AddCommMonoid A]

/-- What a key is worth: nothing, where there is no row. -/
def worth (v : ρ → A) (x : Option ρ) : A := x.elim 0 v

@[simp] theorem worth_none (v : ρ → A) : worth v none = 0 := rfl
@[simp] theorem worth_some (v : ρ → A) (x : ρ) : worth v (some x) = v x := rfl

/-- The sum of `v` over the rows below `n`. -/
def total (v : ρ → A) (rows : Nat → Option ρ) (n : Nat) : A :=
  ∑ k ∈ Finset.range n, worth v (rows k)

/-- Keys without a row add nothing. -/
theorem total_extend {v : ρ → A} {rows : Nat → Option ρ} {n n' : Nat} (hn : n ≤ n')
    (h : ∀ k x, rows k = some x → k < n) : total v rows n' = total v rows n := by
  unfold total
  symm
  apply Finset.sum_subset (Finset.range_mono hn)
  intro k _ hk
  cases hr : rows k with
  | none => rfl
  | some x => exact absurd (Finset.mem_range.mpr (h k x hr)) hk

/-- One more row. -/
theorem total_insert {v : ρ → A} {rows : Nat → Option ρ} {n k : Nat} (hk : k < n)
    (hn : rows k = none) (x : ρ) :
    total v (update rows k (some x)) n = total v rows n + v x := by
  have hmem : k ∈ Finset.range n := Finset.mem_range.mpr hk
  unfold total
  rw [← Finset.sum_erase_add _ _ hmem, ← Finset.sum_erase_add (Finset.range n) _ hmem]
  rw [Function.update_self, hn, worth_some, worth_none, add_zero]
  congr 1
  apply Finset.sum_congr rfl
  intro k' hk'
  rw [Function.update_of_ne (Finset.ne_of_mem_erase hk')]

/-- Two tables compared key by key. -/
theorem total_mono [PartialOrder A] [IsOrderedAddMonoid A] {v v' : ρ → A}
    {rows rows' : Nat → Option ρ} {n : Nat}
    (h : ∀ k, worth v (rows k) ≤ worth v' (rows' k)) : total v rows n ≤ total v' rows' n :=
  Finset.sum_le_sum fun k _ => h k

theorem total_nonneg [PartialOrder A] [IsOrderedAddMonoid A] {v : ρ → A} {rows : Nat → Option ρ}
    {n : Nat} (h : ∀ x, 0 ≤ v x) : 0 ≤ total v rows n := by
  apply Finset.sum_nonneg
  intro k _
  cases rows k with
  | none => exact le_refl 0
  | some x => exact h x

/-- A value that splits in two on every row. -/
theorem total_add {v v₁ v₂ : ρ → A} {rows : Nat → Option ρ} {n : Nat}
    (h : ∀ k x, rows k = some x → v x = v₁ x + v₂ x) :
    total v rows n = total v₁ rows n + total v₂ rows n := by
  unfold total
  rw [← Finset.sum_add_distrib]
  apply Finset.sum_congr rfl
  intro k _
  cases hr : rows k with
  | none => exact (add_zero 0).symm
  | some x => exact h k x hr

end Sums

/-! ## §2. Pending writes. -/

/-- The table as it will be once the writes `w` are stored. -/
def overlay {ρ : Type} (w rows : Nat → Option ρ) : Nat → Option ρ := fun k => (w k).or (rows k)

theorem overlay_none {ρ : Type} {w rows : Nat → Option ρ} {k : Nat} (h : w k = none) :
    overlay w rows k = rows k := by simp [overlay, h]

section Drift

variable {ρ A : Type} [AddCommGroup A] {v : ρ → A} {w w' rows rows' : Nat → Option ρ}
  {n n' : Nat}

/-- What the writes `w` will change in the sum of `v`. -/
def drift (v : ρ → A) (w rows : Nat → Option ρ) (n : Nat) : A :=
  ∑ k ∈ Finset.range n, (worth v (overlay w rows k) - worth v (rows k))

theorem total_overlay : total v (overlay w rows) n = total v rows n + drift v w rows n := by
  unfold total drift
  rw [← Finset.sum_add_distrib]
  apply Finset.sum_congr rfl
  intro k _
  abel

theorem drift_none (h : ∀ k, w k = none) : drift v w rows n = 0 := by
  unfold drift
  apply Finset.sum_eq_zero
  intro k _
  rw [overlay_none (h k), sub_self]

/-- **FRAME**: what happens to keys without a pending write does not matter. -/
theorem drift_frame (hn : n ≤ n') (hw : ∀ k x, w k = some x → k < n ∧ rows' k = rows k) :
    drift v w rows' n' = drift v w rows n := by
  unfold drift
  symm
  have hmiss : ∀ k, w k = none →
      worth v (overlay w rows' k) - worth v (rows' k) = 0 := by
    intro k hk
    rw [overlay_none hk, sub_self]
  calc ∑ k ∈ Finset.range n, (worth v (overlay w rows k) - worth v (rows k))
      = ∑ k ∈ Finset.range n, (worth v (overlay w rows' k) - worth v (rows' k)) := by
        apply Finset.sum_congr rfl
        intro k _
        cases hk : w k with
        | none => rw [hmiss k hk, overlay_none hk, sub_self]
        | some x => simp only [overlay, hk, (hw k x hk).2]
    _ = ∑ k ∈ Finset.range n', (worth v (overlay w rows' k) - worth v (rows' k)) := by
        apply Finset.sum_subset (Finset.range_mono hn)
        intro k _ hk
        cases hwk : w k with
        | none => exact hmiss k hwk
        | some x => exact absurd (Finset.mem_range.mpr (hw k x hwk).1) hk

/-- Writes that leave every key worth the same. -/
theorem drift_congr (h : ∀ k, worth v (overlay w' rows k) = worth v (overlay w rows k)) :
    drift v w' rows n = drift v w rows n := by
  unfold drift
  apply Finset.sum_congr rfl
  intro k _
  rw [h k]

/-- One more write. -/
theorem drift_update {k : Nat} {x : ρ} (hk : k < n) :
    drift v (update w k (some x)) rows n
      = drift v w rows n + (v x - worth v (overlay w rows k)) := by
  have hdiff : drift v (update w k (some x)) rows n - drift v w rows n
      = v x - worth v (overlay w rows k) := by
    unfold drift
    rw [← Finset.sum_sub_distrib, Finset.sum_eq_single k]
    · simp only [overlay, Function.update_self, Option.some_or, worth_some]
      abel
    · intro k' _ hne
      simp only [overlay, Function.update_of_ne hne]
      abel
    · exact fun hmem => absurd (Finset.mem_range.mpr hk) hmem
  rw [← hdiff]
  abel

end Drift

/-! ## §3. Matched tables. -/

section Matched

variable {A : Type} [AddCommMonoid A]

/-- Two sums whose terms are matched one to one, but for those that are nothing. -/
theorem sum_matched {n m : Nat} {f g : Nat → A} {R : Nat → Nat → Prop}
    (hf : ∀ a, a < n → f a ≠ 0 → ∃ b, b < m ∧ R a b)
    (hg : ∀ b, b < m → g b ≠ 0 → ∃ a, a < n ∧ R a b)
    (hsame : ∀ a b, R a b → f a = g b)
    (hleft : ∀ a b b', R a b → R a b' → b = b')
    (hright : ∀ a a' b, R a b → R a' b → a = a') :
    ∑ a ∈ Finset.range n, f a = ∑ b ∈ Finset.range m, g b := by
  have hmatch : ∀ a ∈ Finset.range n, f a ≠ 0 → ∃ b, b < m ∧ R a b :=
    fun a ha hne => hf a (Finset.mem_range.mp ha) hne
  choose partner hlt hR using hmatch
  refine Finset.sum_bij_ne_zero partner ?_ ?_ ?_ ?_
  · exact fun a ha hne => Finset.mem_range.mpr (hlt a ha hne)
  · intro a ha hne a' ha' hne' heq
    refine hright a a' (partner a ha hne) (hR a ha hne) ?_
    rw [heq]
    exact hR a' ha' hne'
  · intro b hb hne
    obtain ⟨a, ha, hab⟩ := hg b (Finset.mem_range.mp hb) hne
    have hne' : f a ≠ 0 := by rwa [hsame a b hab]
    have hmem := Finset.mem_range.mpr ha
    exact ⟨a, hmem, hne', hleft a _ b (hR a hmem hne') hab⟩
  · exact fun a ha hne => hsame a _ (hR a ha hne)

end Matched

end Tables
