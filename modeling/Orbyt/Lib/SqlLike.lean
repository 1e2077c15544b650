/-
  Orbyt.Lib.SqlLike — the pattern language of LIKE

  `%` stands for any text, `_` for any one character, and a backslash takes the meaning from
  the character after it.  ILIKE folds case on both sides first, character by character.

  A caller that puts a term between two `%` means "contains the term".  That is what it gets
  exactly when the term holds none of the three special characters.

  Main results:
    * `accepts_contains` — a plain term between wildcards matches what contains it;
    * `sample_accepted`, `sample_not_contains` — for any other term there is a text that
      matches and does not contain it.
-/
import Mathlib.Data.List.Infix

namespace SqlLike

abbrev Text := List Char

/-- The wildcards and the escape. -/
def isSpecial (c : Char) : Bool := c == '%' || c == '_' || c == '\\'

/-! ## §1. Patterns. -/

inductive Token where
  | any
  | one
  | lit (c : Char)
  deriving Repr, DecidableEq

/-- A pattern may not end with its escape. -/
def tokens : Text → Option (List Token)
  | [] => some []
  | '%' :: p => (tokens p).map (.any :: ·)
  | '_' :: p => (tokens p).map (.one :: ·)
  | ['\\'] => none
  | '\\' :: c :: p => (tokens p).map (.lit c :: ·)
  | c :: p => (tokens p).map (.lit c :: ·)

def accepts : List Token → Text → Bool
  | [], t => t.isEmpty
  | .any :: p, t => t.tails.any (accepts p)
  | .one :: _, [] => false
  | .one :: p, _ :: t => accepts p t
  | .lit _ :: _, [] => false
  | .lit c :: p, d :: t => c == d && accepts p t

theorem accepts_any_self {p : List Token} {t : Text} (h : accepts p t = true) :
    accepts (.any :: p) t = true := by
  rw [accepts, List.any_eq_true]
  exact ⟨t, (List.mem_tails t t).mpr (List.suffix_refl t), h⟩

/-! ## §2. A plain term between wildcards. -/

theorem tokens_plain {t rest : Text} (h : ∀ c ∈ t, isSpecial c = false) :
    tokens (t ++ rest) = (tokens rest).map (t.map Token.lit ++ ·) := by
  induction t with
  | nil => simp
  | cons c t ih =>
    have hc := h c List.mem_cons_self
    have ht := ih fun d hd => h d (List.mem_cons_of_mem c hd)
    simp only [isSpecial, Bool.or_eq_false_iff, beq_eq_false_iff_ne, ne_eq] at hc
    obtain ⟨⟨hany, hone⟩, hescape⟩ := hc
    rw [List.cons_append, tokens, ht]
    · cases tokens rest <;> rfl
    · exact fun h => hany h
    · exact fun h => hone h
    · exact fun h _ => hescape h
    · exact fun _ _ h _ => hescape h

theorem accepts_prefix {t u : Text} :
    accepts (t.map Token.lit ++ [.any]) u = true ↔ t <+: u := by
  induction t generalizing u with
  | nil =>
    have hend : accepts [.any] u = true := by
      rw [accepts, List.any_eq_true]
      exact ⟨[], (List.mem_tails [] u).mpr List.nil_suffix, rfl⟩
    simpa using hend
  | cons c t ih =>
    cases u with
    | nil => simp [accepts]
    | cons d u =>
      simp only [List.map_cons, List.cons_append, accepts, Bool.and_eq_true, beq_iff_eq, ih,
        List.cons_prefix_cons]

/-- **Contains the term.** -/
theorem accepts_contains {t u : Text} :
    accepts (.any :: (t.map Token.lit ++ [.any])) u = true ↔ t <:+: u := by
  rw [accepts, List.any_eq_true, List.infix_iff_prefix_suffix]
  constructor
  · intro h
    obtain ⟨v, hv, ht⟩ := h
    exact ⟨v, accepts_prefix.mp ht, (List.mem_tails v u).mp hv⟩
  · intro h
    obtain ⟨v, ht, hv⟩ := h
    exact ⟨v, (List.mem_tails v u).mpr hv, accepts_prefix.mpr ht⟩

/-! ## §3. A term with special characters. -/

/-- A text the term matches as a pattern.  It leaves `%` and the escapes out, and has a
percent sign for what may be any character; a last escape takes the closing wildcard's
meaning. -/
def sample : Text → Text
  | [] => []
  | '%' :: p => sample p
  | '_' :: p => '%' :: sample p
  | ['\\'] => ['%']
  | '\\' :: c :: p => c :: sample p
  | c :: p => c :: sample p

/-- **The sample matches**, the wildcard after the term taken in. -/
theorem sample_accepted (t : Text) :
    ∃ p, tokens (t ++ ['%']) = some p ∧ accepts p (sample t) = true := by
  fun_induction sample t with
  | case1 => exact ⟨[.any], rfl, rfl⟩
  | case2 p ih =>
    obtain ⟨q, hq, ha⟩ := ih
    exact ⟨.any :: q, by simp [tokens, hq], accepts_any_self ha⟩
  | case3 p ih =>
    obtain ⟨q, hq, ha⟩ := ih
    exact ⟨.one :: q, by simp [tokens, hq], ha⟩
  | case4 => exact ⟨[.lit '%'], rfl, rfl⟩
  | case5 c p ih =>
    obtain ⟨q, hq, ha⟩ := ih
    exact ⟨.lit c :: q, by simp [tokens, hq], by simp [accepts, ha]⟩
  | case6 c p h₁ h₂ h₃ h₄ ih =>
    obtain ⟨q, hq, ha⟩ := ih
    refine ⟨.lit c :: q, ?_, by simp [accepts, ha]⟩
    rw [List.cons_append, tokens, hq]
    · rfl
    · exact h₁
    · exact h₂
    · intro hc hp
      cases p with
      | nil => exact h₃ hc rfl
      | cons d p => cases hp
    · intro d r hc hp
      cases p with
      | nil => exact h₃ hc rfl
      | cons d' p' => exact h₄ d' p' hc rfl

theorem sample_length (t : Text) : (sample t).length ≤ t.length := by
  fun_induction sample t with
  | case1 => exact Nat.le_refl _
  | case2 p ih => exact Nat.le_succ_of_le ih
  | case3 p ih => exact Nat.succ_le_succ ih
  | case4 => exact Nat.le_refl _
  | case5 c p ih => exact Nat.succ_le_succ (Nat.le_succ_of_le ih)
  | case6 c p h₁ h₂ h₃ h₄ ih => exact Nat.succ_le_succ ih

/-- Only a plain term is its own sample. -/
theorem plain_of_sample_eq {t : Text} : sample t = t → ∀ c ∈ t, isSpecial c = false := by
  fun_induction sample t with
  | case1 => simp
  | case2 p ih =>
    intro h
    have hlength := congrArg List.length h
    have hle := sample_length p
    rw [List.length_cons] at hlength
    omega
  | case3 p ih =>
    intro h
    cases (List.cons.inj h).1
  | case4 =>
    intro h
    cases (List.cons.inj h).1
  | case5 c p ih =>
    intro h
    have hlength := congrArg List.length h
    have hle := sample_length p
    simp only [List.length_cons] at hlength
    omega
  | case6 c p h₁ h₂ h₃ h₄ ih =>
    intro h d hd
    rcases List.mem_cons.mp hd with rfl | hd
    · have hescape : d ≠ '\\' := by
        intro he
        cases p with
        | nil => exact h₃ he rfl
        | cons e p => exact h₄ e p he rfl
      have hany : d ≠ '%' := h₁
      have hone : d ≠ '_' := h₂
      simp [isSpecial, hany, hone, hescape]
    · exact ih (List.cons.inj h).2 d hd

/-- **The sample of a term with special characters does not contain it.** -/
theorem sample_not_contains {t : Text} {c : Char} (hc : c ∈ t) (hs : isSpecial c = true) :
    ¬ t <:+: sample t := by
  intro h
  have hlength : t.length = (sample t).length :=
    Nat.le_antisymm h.length_le (sample_length t)
  have hplain := plain_of_sample_eq (h.eq_of_length hlength).symm c hc
  rw [hs] at hplain
  cases hplain

/-! ## §4. Case. -/

/-- How case is folded: no special character is touched, and none comes about. -/
structure Folding where
  fold : Char → Char
  special : ∀ c, isSpecial (fold c) = isSpecial c
  kept : ∀ c, isSpecial c = true → fold c = c

variable {F : Folding}

theorem Folding.fold_eq_iff {c d : Char} (hd : isSpecial d = true) : F.fold c = d ↔ c = d := by
  constructor
  · intro h
    have hc : isSpecial c = true := by rw [← F.special, h, hd]
    rw [← F.kept c hc, h]
  · rintro rfl
    exact F.kept c hd

theorem isSpecial_iff {c : Char} : isSpecial c = true ↔ c = '%' ∨ c = '_' ∨ c = '\\' := by
  simp [isSpecial, or_assoc]

theorem toLower_eq {c d : Char} (hd : isSpecial d = true) : c.toLower = d ↔ c = d := by
  have hcode : d.val.toNat < 65 ∨ 90 < d.val.toNat ∧ d.val.toNat < 97 := by
    rcases isSpecial_iff.mp hd with rfl | rfl | rfl <;> decide
  unfold Char.toLower
  split
  next h =>
    -- neither an upper case letter nor its lower case is special
    have hlow : 65 ≤ c.val.toNat := UInt32.le_iff_toNat_le.mp h.1
    have hhigh : c.val.toNat ≤ 90 := UInt32.le_iff_toNat_le.mp h.2
    constructor
    · intro he
      have hval : (c.val + ('a'.val - 'A'.val)).toNat = d.val.toNat :=
        congrArg (fun e => e.val.toNat) he
      have hshift : ('a'.val - 'A'.val).toNat = 32 := by decide
      rw [UInt32.toNat_add, hshift] at hval
      omega
    · rintro rfl
      omega
  next => exact Iff.rfl

/-- The case of ASCII letters. -/
def Folding.ascii : Folding where
  fold := Char.toLower
  special c := by
    rw [Bool.eq_iff_iff, isSpecial_iff, isSpecial_iff, toLower_eq rfl, toLower_eq rfl,
      toLower_eq rfl]
  kept c h := (toLower_eq h).mpr rfl

/-- The text contains the term, ignoring case. -/
def Folding.Contains (F : Folding) (text term : Text) : Prop :=
  term.map F.fold <:+: text.map F.fold

instance (text term : Text) : Decidable (F.Contains text term) :=
  inferInstanceAs (Decidable (term.map F.fold <:+: text.map F.fold))

theorem sample_map (t : Text) : sample (t.map F.fold) = (sample t).map F.fold := by
  fun_induction sample t with
  | case1 => rfl
  | case2 p ih =>
    rw [List.map_cons, F.kept '%' rfl, sample]
    exact ih
  | case3 p ih =>
    rw [List.map_cons, F.kept '_' rfl, sample, ih, List.map_cons, F.kept '%' rfl]
  | case4 =>
    simp only [List.map_cons, List.map_nil, F.kept '\\' rfl, F.kept '%' rfl]
    rfl
  | case5 c p ih =>
    rw [List.map_cons, List.map_cons, F.kept '\\' rfl, sample, ih, List.map_cons]
  | case6 c p h₁ h₂ h₃ h₄ ih =>
    have hescape : c ≠ '\\' := by
      intro he
      cases p with
      | nil => exact h₃ he rfl
      | cons e p => exact h₄ e p he rfl
    rw [List.map_cons, sample, ih, List.map_cons]
    · exact fun h => h₁ ((F.fold_eq_iff rfl).mp h)
    · exact fun h => h₂ ((F.fold_eq_iff rfl).mp h)
    · exact fun h _ => hescape ((F.fold_eq_iff rfl).mp h)
    · exact fun _ _ h _ => hescape ((F.fold_eq_iff rfl).mp h)

end SqlLike
