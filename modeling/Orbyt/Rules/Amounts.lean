/-
  Orbyt.Rules.Amounts — what a formatted amount says

  Amounts appear in messages and on pages with thousands separators and a fixed number of
  places.  Such a text is read back as the amount it was made from, and two amounts do not look
  alike.

  Main results:
    * `value_formatFixed`    — the digits of a formatted amount are those of the amount;
    * `ofText_formatFixed`   — without its commas it is read as the amount.
-/
import Orbyt.Lib.DecimalContext
import Orbyt.Platform.CashinService

namespace Orbyt

open PyText Rounding

variable {n : Int} {p : Nat}

theorem mem_groupThousands {ds : List Char} {c : Char} (h : c ∈ groupThousands ds) :
    c = ',' ∨ c ∈ ds := by
  induction ds using groupThousands.induct with
  | case1 a b c' d rest ih =>
    rw [groupThousands] at h
    simp only [List.mem_cons] at h ih ⊢
    tauto
  | case2 short hshort =>
    rw [groupThousands] at h
    · exact .inr h
    · exact hshort

/-- Grouping adds nothing but commas. -/
theorem filter_groupThousands {P : Char → Bool} (hP : P ',' = false) (ds : List Char) :
    (groupThousands ds).filter P = ds.filter P := by
  induction ds using groupThousands.induct with
  | case1 a b c d rest ih =>
    rw [groupThousands]
    simp only [List.filter_cons, hP, Bool.false_eq_true, if_false, ih]
  | case2 short hshort =>
    rw [groupThousands]
    exact hshort

/-- The digits behind the point. -/
def fractionDigits (p : Nat) (n : Int) : Text :=
  List.replicate (p - (Nat.toDigits 10 (n.natAbs % 10 ^ p)).length) '0'
    ++ Nat.toDigits 10 (n.natAbs % 10 ^ p)

def wholeDigits (p : Nat) (n : Int) : Text := Nat.toDigits 10 (n.natAbs / 10 ^ p)

theorem formatFixed_toList (p : Nat) (n : Int) : (formatFixed p n).toList
    = (if n < 0 then ['-'] else []) ++ (groupThousands (wholeDigits p n).reverse).reverse
      ++ '.' :: fractionDigits p n := by
  unfold formatFixed fractionDigits wholeDigits
  simp only [String.toList_append, String.toList_ofList]
  split <;> simp

theorem wholeDigits_plain (p : Nat) (n : Int) : Plain (wholeDigits p n) :=
  ⟨Nat.toDigits_ne_nil, fun _ hc => toDigits_digit hc⟩

theorem fractionDigits_digit {c : Char} (h : c ∈ fractionDigits p n) : isAsciiDigit c = true := by
  rcases List.mem_append.mp h with hz | hd
  · rw [List.eq_of_mem_replicate hz]
    decide
  · exact toDigits_digit hd

theorem fractionDigits_length (hp : 0 < p) : (fractionDigits p n).length = p := by
  have hlt : n.natAbs % 10 ^ p < 10 ^ p := Nat.mod_lt _ (by positivity)
  have hlen := (Nat.length_toDigits_le_iff (b := 10) (by decide) hp).mpr hlt
  unfold fractionDigits
  rw [List.length_append, List.length_replicate]
  omega

theorem value_append (t u : Text) : value (t ++ u) = value t * 10 ^ u.length + value u := by
  show Nat.ofDigitChars 10 (t ++ u) 0 =
    Nat.ofDigitChars 10 t 0 * 10 ^ u.length + Nat.ofDigitChars 10 u 0
  rw [Nat.ofDigitChars_append, Nat.ofDigitChars_eq_ofDigitChars_zero, Nat.mul_comm]

/-- The digits make up the amount. -/
theorem value_digits (hp : 0 < p) : value (wholeDigits p n ++ fractionDigits p n) = n.natAbs := by
  rw [value_append, fractionDigits_length hp]
  unfold wholeDigits fractionDigits
  rw [value_zeros, value_toDigits, value_toDigits]
  exact Nat.div_add_mod' _ _

theorem filter_reverse_group {P : Char → Bool} (hP : P ',' = false) (ds : Text) :
    (groupThousands ds.reverse).reverse.filter P = ds.filter P := by
  rw [List.filter_reverse, filter_groupThousands hP, ← List.filter_reverse, List.reverse_reverse]

/-- **THE DIGITS OF A FORMATTED AMOUNT** are those of the amount. -/
theorem value_formatFixed (hp : 0 < p) :
    value ((formatFixed p n).toList.filter isAsciiDigit) = n.natAbs := by
  have hsign : (if n < 0 then ['-'] else []).filter isAsciiDigit = [] := by
    split <;> decide
  rw [formatFixed_toList, List.filter_append, List.filter_append, hsign,
    filter_reverse_group (by decide), List.filter_cons_of_neg (by decide), List.nil_append,
    List.filter_eq_self.mpr (wholeDigits_plain p n).2,
    List.filter_eq_self.mpr fun _ => fractionDigits_digit, value_digits hp]

/-- Without its commas a formatted amount is the amount with its point. -/
theorem remove_formatFixed (p : Nat) (n : Int) : remove ',' (formatFixed p n).toList
    = (if decide (n < 0) then ['-'] else []) ++ wholeDigits p n ++ '.' :: fractionDigits p n := by
  have hdigit : ∀ c, isAsciiDigit c = true → (c != ',') = true := fun c hc => by
    simpa using (numeric_digit hc).2.2.2.2
  have hsign : ∀ c ∈ (if n < 0 then ['-'] else []), (c != ',') = true := by
    split <;> simp
  unfold remove
  rw [formatFixed_toList, List.filter_append, List.filter_append,
    List.filter_eq_self.mpr hsign, filter_reverse_group (by decide),
    List.filter_cons_of_pos (by decide),
    List.filter_eq_self.mpr fun c hc => hdigit c ((wholeDigits_plain p n).2 c hc),
    List.filter_eq_self.mpr fun c hc => hdigit c (fractionDigits_digit hc)]
  simp only [decide_eq_true_eq]

theorem strip_formatFixed (p : Nat) (n : Int) :
    strip (formatFixed p n).toList = (formatFixed p n).toList := by
  apply strip_of_not_space
  intro c hc
  rw [formatFixed_toList, List.append_assoc, List.mem_append, List.mem_append, List.mem_cons,
    List.mem_reverse] at hc
  rcases hc with hsign | hwhole | rfl | hfraction
  · split at hsign
    · obtain rfl := List.mem_singleton.mp hsign
      decide
    · cases hsign
  · rcases mem_groupThousands hwhole with rfl | hdigit
    · decide
    · exact (numeric_digit (toDigits_digit (List.mem_reverse.mp hdigit))).1
  · decide
  · exact (numeric_digit (fractionDigits_digit hfraction)).1

/-- **A FORMATTED AMOUNT IS READ BACK**, its commas dropped. -/
theorem ofText_formatFixed (hp : 0 < p) (a : Fixed p) (hp6 : p ≤ 6) (ha : Context.standard.Fits a) :
    ofText (remove ',' (strip (formatFixed p a.units).toList)) = some (ofFixed a) := by
  have hlt : a.units.natAbs < 10 ^ 28 := ha 28 rfl
  have hlen : (wholeDigits p a.units).length ≤ 28 :=
    (Nat.length_toDigits_le_iff (by decide) (by decide)).mpr
      (Nat.lt_of_le_of_lt (Nat.div_le_self _ _) hlt)
  rw [strip_formatFixed, remove_formatFixed,
    ofText_point (wholeDigits_plain p _) (fun _ => fractionDigits_digit) ?_, value_digits hp,
    fractionDigits_length hp]
  · rfl
  · rw [List.length_append, fractionDigits_length hp]
    unfold maxPrec
    omega

end Orbyt
