/-
  Orbyt.Lib.Selection — the first distinct elements of a sequence

  `firstDistinct n l` is what a scan of `l` keeps that skips what it has seen and stops once
  it has seen `n`.  The lemmas say what one more element does to it, so that a loop with such
  a bound and such a set is an induction over what it has scanned so far.

  Main results:
    * `firstDistinct_full`, `firstDistinct_known`, `firstDistinct_new` — one more element;
    * `nodup_firstDistinct`, `length_firstDistinct_le` — no duplicates, and no more than `n`.
-/
import Mathlib.Data.List.Induction
import Mathlib.Data.List.Nodup

namespace Selection

variable {α : Type} [DecidableEq α] {n : Nat} {l l' : List α} {a : α}

/-- The first `n` distinct elements, in their order. -/
def firstDistinct (n : Nat) (l : List α) : List α := l.eraseDups.take n

/-- No further element finds room. -/
theorem firstDistinct_full (h : n ≤ (firstDistinct n l).length) :
    firstDistinct n (l ++ l') = firstDistinct n l := by
  unfold firstDistinct at h ⊢
  rw [List.length_take] at h
  rw [List.eraseDups_append, List.take_append_of_le_length (by omega)]

/-- While there is room, what is kept is what has come. -/
theorem firstDistinct_room (h : (firstDistinct n l).length < n) :
    firstDistinct n l = l.eraseDups := by
  unfold firstDistinct at h ⊢
  rw [List.length_take] at h
  exact List.take_of_length_le (by omega)

theorem mem_firstDistinct (h : (firstDistinct n l).length < n) : a ∈ firstDistinct n l ↔ a ∈ l := by
  rw [firstDistinct_room h, List.mem_eraseDups]

theorem firstDistinct_known (h : a ∈ l) : firstDistinct n (l ++ [a]) = firstDistinct n l := by
  unfold firstDistinct
  rw [List.eraseDups_append]
  simp [List.removeAll, h]

theorem firstDistinct_new (h : (firstDistinct n l).length < n) (ha : a ∉ l) :
    firstDistinct n (l ++ [a]) = firstDistinct n l ++ [a] := by
  have hnew : ([a].removeAll l).eraseDups = [a] := by simp [List.removeAll, ha, List.eraseDups_cons]
  have hlen : l.eraseDups.length < n := by rw [← firstDistinct_room h]; exact h
  rw [firstDistinct_room h]
  unfold firstDistinct
  rw [List.eraseDups_append, hnew]
  exact List.take_of_length_le (by simp; omega)

/-- Erasing duplicates leaves none: the last element is kept only if it is new. -/
theorem nodup_eraseDups (l : List α) : l.eraseDups.Nodup := by
  induction l using List.reverseRecOn with
  | nil => exact List.nodup_nil
  | append_singleton l a ih =>
    rw [List.eraseDups_append]
    by_cases ha : a ∈ l
    · have hnone : [a].removeAll l = [] := by simp [List.removeAll, ha]
      rw [hnone]
      simpa using ih
    · have hkept : [a].removeAll l = [a] := by simp [List.removeAll, ha]
      rw [hkept, List.eraseDups_cons, List.filter_nil, List.eraseDups_nil]
      apply List.Nodup.append ih (List.nodup_singleton a)
      intro b hb hba
      rw [List.mem_singleton.mp hba, List.mem_eraseDups] at hb
      exact ha hb

theorem nodup_firstDistinct (n : Nat) (l : List α) : (firstDistinct n l).Nodup :=
  (nodup_eraseDups l).sublist (List.take_sublist _ _)

theorem length_firstDistinct_le (n : Nat) (l : List α) : (firstDistinct n l).length ≤ n :=
  List.length_take_le _ _

end Selection
