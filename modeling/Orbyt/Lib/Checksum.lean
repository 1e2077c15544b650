/-
  Orbyt.Lib.Checksum — weighted sums of words, and the errors they detect

  A word is summed letter by letter, each with the weight of its position, in some additive
  group.  Whether an error goes unnoticed is decided by the weights at its own positions
  alone, however long the word is.

  Main results:
    * `total_replace` — one letter for another changes the sum where the weights of that
      position are distinct;
    * `total_swap` — two neighbours can be swapped unnoticed exactly when their weights say so;
    * `exists_unique_completion` — where the first position's weights are a bijection, one
      letter completes a word to zero.
-/
import Mathlib.Algebra.Group.Basic
import Mathlib.Data.Set.Function

namespace Checksum

variable {α G : Type} [AddCommGroup G] {w : Nat → α → G} {i : Nat} {u v : List α} {a b : α}
  {D : Set α}

/-- The sum of a word whose first letter stands at position `i`. -/
def total (w : Nat → α → G) (i : Nat) : List α → G
  | [] => 0
  | a :: v => w i a + total w (i + 1) v

theorem total_append : total w i (u ++ v) = total w i u + total w (i + u.length) v := by
  induction u generalizing i with
  | nil => simp [total]
  | cons a u ih =>
    have hi : i + 1 + u.length = i + (u.length + 1) := by omega
    simp only [List.cons_append, total, List.length_cons, ih, hi, add_assoc]

/-- **ONE WRONG LETTER** is noticed. -/
theorem total_replace (hw : Set.InjOn (w (i + u.length)) D) (ha : a ∈ D) (hb : b ∈ D)
    (hab : a ≠ b) : total w i (u ++ a :: v) ≠ total w i (u ++ b :: v) := by
  intro h
  simp only [total_append, total, add_right_inj, add_left_inj] at h
  exact hab (hw ha hb h)

/-- **TWO NEIGHBOURS SWAPPED**: what comes before and after does not matter. -/
theorem total_swap :
    total w i (u ++ a :: b :: v) = total w i (u ++ b :: a :: v) ↔
      w (i + u.length) a + w (i + u.length + 1) b
        = w (i + u.length) b + w (i + u.length + 1) a := by
  simp only [total_append, total, add_right_inj]
  rw [← add_assoc, ← add_assoc, add_left_inj]

/-- **THE CHECK LETTER**: one letter in front, and only one, makes the sum zero. -/
theorem exists_unique_completion (hw : Set.BijOn (w i) D Set.univ) :
    ∃ a ∈ D, ∀ b ∈ D, total w i (b :: v) = 0 ↔ b = a := by
  -- it has to weigh what the rest falls short of
  obtain ⟨a, ha, hwa⟩ := hw.surjOn (Set.mem_univ (-(total w (i + 1) v)))
  refine ⟨a, ha, fun b hb => ?_⟩
  show w i b + total w (i + 1) v = 0 ↔ b = a
  rw [add_eq_zero_iff_eq_neg, ← hwa]
  exact ⟨fun h => hw.injOn hb ha h, fun h => by rw [h]⟩

end Checksum
