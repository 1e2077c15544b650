/-
  Orbyt.Lib.PyDecimal — Python's decimals: what `Decimal(str)` accepts

  The constructor of CPython's `decimal` on text, and the order of a decimal against zero.
  Its language is much larger than digits with a point: signs, exponents, underscores, digits
  of every script, `Infinity`, and quiet and signalling NaNs with a payload, in any case.

    * `none` of the constructor is an InvalidOperation: not a number at all, or a number whose
      exponent does not fit;
    * `none` of `compareZero` is an InvalidOperation too: an order comparison with a NaN.

  Main results:
    * `ofText_nan_iff` — a text is read as a NaN exactly if it spells one;
    * `ofText_strFinite` — up to six places, a decimal is read back as it was printed.
-/
import Orbyt.Lib.PyText

namespace PyText

/-! ## §1. Decimals. -/

/-- The number `coefficient * 10 ^ exponent`, or a special value. -/
inductive Decimal where
  | finite (negative : Bool) (coefficient : Nat) (exponent : Int)
  | infinity (negative : Bool)
  | nan (negative signalling : Bool)
  deriving Repr, DecidableEq

def Decimal.isNaN : Decimal → Bool
  | .nan _ _ => true
  | _ => false

/-- The order of a decimal against zero; a NaN raises. -/
def Decimal.compareZero : Decimal → Option Ordering
  | .finite negative coefficient _ =>
      some (if coefficient = 0 then .eq else if negative then .lt else .gt)
  | .infinity negative => some (if negative then .lt else .gt)
  | .nan _ _ => none

/-- The NaNs are all that an order comparison trips over. -/
theorem Decimal.compareZero_none {d : Decimal} : d.compareZero = none ↔ d.isNaN = true := by
  cases d <;> simp [compareZero, isNaN]

/-! ## §2. The constructor. -/

/-- `MAX_PREC`, `MAX_EMAX` and `MIN_ETINY` of a 64-bit build. -/
def maxPrec : Nat := 999999999999999999
def maxEmax : Int := 999999999999999999
def minEtiny : Int := -1999999999999999997

/-- `numeric_as_ascii`: blanks around the text and underscores anywhere are dropped, and
everything but a NUL, a blank or a decimal digit has to be ASCII. -/
def numericAsAscii (t : Text) : Option Text :=
  ((strip t).filter (· != '_')).mapM (fun c => if c.toNat = 0 then none else asAscii c)

/-- What follows `word` at the front of a text, in either case. -/
def dropWord : Text → Text → Option Text
  | [], t => some t
  | _ :: _, [] => none
  | w :: word, c :: t => if c.toLower = w then dropWord word t else none

/-- `['e' [sign] digits]` up to the end. -/
def exponentPart : Text → Option Int
  | [] => some 0
  | c :: t =>
      if c.toLower = 'e' then
        let (negative, digits) := takeSign t
        if Plain digits then some (if negative then -(value digits : Int) else value digits)
        else none
      else none

/-- The digits before and after the point, and what follows them. -/
def mantissa (t : Text) : Text × Text × Text :=
  let whole := t.takeWhile isAsciiDigit
  match t.dropWhile isAsciiDigit with
  | '.' :: rest => (whole, rest.takeWhile isAsciiDigit, rest.dropWhile isAsciiDigit)
  | rest => (whole, [], rest)

/-- The number fits without rounding. -/
def fits (digits : Text) (places : Nat) (exponent : Int) : Bool :=
  let length := max 1 (digits.dropWhile (· == '0')).length
  decide (places ≤ maxPrec ∧ length ≤ maxPrec ∧ exponent + length - 1 ≤ maxEmax
    ∧ minEtiny ≤ exponent)

/-- `digits ['.' digits] [exponent]`, with a digit at least. -/
def finitePart (negative : Bool) (t : Text) : Option Decimal :=
  let (whole, fraction, rest) := mantissa t
  if whole ++ fraction = [] then none
  else
    (exponentPart rest).bind (fun shift =>
      let exponent := shift - fraction.length
      if fits (whole ++ fraction) fraction.length exponent then
        some (.finite negative (value (whole ++ fraction)) exponent)
      else none)

/-- `NaN` or `sNaN` with digits behind it, `Inf`, `Infinity`, or a finite number. -/
def ofAscii (t : Text) : Option Decimal :=
  let (negative, t) := takeSign t
  match dropWord "nan".toList t with
  | some payload => if payload.all isAsciiDigit then some (.nan negative false) else none
  | none =>
      match dropWord "snan".toList t with
      | some payload => if payload.all isAsciiDigit then some (.nan negative true) else none
      | none =>
          match dropWord "inf".toList t with
          | some [] => some (.infinity negative)
          | some rest =>
              if dropWord "inity".toList rest = some [] then some (.infinity negative) else none
          | none => finitePart negative t

/-- `Decimal(t)` -/
def ofText (t : Text) : Option Decimal := (numericAsAscii t).bind ofAscii

example : ofText " -iNfInItY".toList = some (.infinity true) := by decide +kernel
example : ofText "s_NaN12".toList = some (.nan false true) := by decide +kernel

/-! ## §3. Spellings of NaN. -/

/-- A sign or none, `nan` or `snan` in any case, and digits. -/
def SpellsNaN (t : Text) : Prop :=
  ∃ word payload, (takeSign t).2 = word ++ payload ∧
    word.map Char.toLower ∈ ["nan".toList, "snan".toList] ∧ payload.all isAsciiDigit = true

theorem dropWord_iff {word t rest : Text} :
    dropWord word t = some rest ↔ ∃ w, t = w ++ rest ∧ w.map Char.toLower = word := by
  induction word generalizing t with
  | nil => simp [dropWord, eq_comm]
  | cons c word ih =>
    cases t with
    | nil => simp [dropWord]
    | cons d t =>
      unfold dropWord
      split
      next hd =>
        rw [ih]
        constructor
        · rintro ⟨w, rfl, hw⟩
          exact ⟨d :: w, rfl, by rw [List.map_cons, hd, hw]⟩
        · rintro ⟨w, ht, hw⟩
          obtain ⟨e, w, rfl⟩ := List.exists_cons_of_ne_nil (show w ≠ [] by rintro rfl; cases hw)
          obtain ⟨-, rfl⟩ := List.cons.inj ht
          exact ⟨w, rfl, (List.cons.inj hw).2⟩
      next hd =>
        constructor
        · intro h
          cases h
        · rintro ⟨w, ht, hw⟩
          obtain ⟨e, w, rfl⟩ := List.exists_cons_of_ne_nil (show w ≠ [] by rintro rfl; cases hw)
          obtain ⟨rfl, -⟩ := List.cons.inj ht
          exact absurd (List.cons.inj hw).1 hd

theorem dropWord_cons {w : Char} {word t rest : Text} (h : dropWord (w :: word) t = some rest) :
    ∃ c u, t = c :: u ∧ c.toLower = w := by
  cases t with
  | nil => cases h
  | cons c u =>
    unfold dropWord at h
    split at h
    next hc => exact ⟨c, u, rfl, hc⟩
    next => cases h

theorem spellsNaN_iff {t : Text} : SpellsNaN t ↔ ∃ payload : Text,
    (dropWord "nan".toList (takeSign t).2 = some payload ∨
      dropWord "snan".toList (takeSign t).2 = some payload) ∧ payload.all isAsciiDigit = true := by
  unfold SpellsNaN
  simp only [dropWord_iff, List.mem_cons, List.not_mem_nil, or_false]
  constructor
  · rintro ⟨word, payload, ht, hw | hw, hp⟩
    · exact ⟨payload, .inl ⟨word, ht, hw⟩, hp⟩
    · exact ⟨payload, .inr ⟨word, ht, hw⟩, hp⟩
  · rintro ⟨payload, ⟨word, ht, hw⟩ | ⟨word, ht, hw⟩, hp⟩
    · exact ⟨word, payload, ht, .inl hw, hp⟩
    · exact ⟨word, payload, ht, .inr hw, hp⟩

theorem finitePart_finite {negative : Bool} {t : Text} :
    (finitePart negative t).any Decimal.isNaN = false := by
  unfold finitePart
  simp only
  by_cases hempty : (mantissa t).1 ++ (mantissa t).2.1 = []
  · rw [if_pos hempty]
    rfl
  · rw [if_neg hempty]
    cases exponentPart (mantissa t).2.2 with
    | none => rfl
    | some shift =>
      rw [Option.bind_some]
      split <;> rfl

/-- The constructor reads a NaN exactly off the spellings of one. -/
theorem ofAscii_nan_iff {t : Text} : (ofAscii t).any Decimal.isNaN = true ↔ SpellsNaN t := by
  rw [spellsNaN_iff]
  unfold ofAscii
  simp only
  cases hnan : dropWord "nan".toList (takeSign t).2 with
  | some payload =>
    have hsnan : dropWord "snan".toList (takeSign t).2 = none := by
      cases hs : dropWord "snan".toList (takeSign t).2 with
      | none => rfl
      | some rest =>
        obtain ⟨c, u, hc, hlow⟩ := dropWord_cons hnan
        obtain ⟨d, v, hd, hlow'⟩ := dropWord_cons hs
        obtain ⟨rfl, -⟩ := List.cons.inj (hc.symm.trans hd)
        rw [hlow] at hlow'
        exact absurd hlow' (by decide)
    simp only [hsnan, Option.some.injEq, reduceCtorEq, or_false, exists_eq_left']
    generalize payload.all isAsciiDigit = digits
    cases digits <;> simp [Decimal.isNaN]
  | none =>
    cases hsnan : dropWord "snan".toList (takeSign t).2 with
    | some payload =>
      simp only [Option.some.injEq, reduceCtorEq, false_or, exists_eq_left']
      generalize payload.all isAsciiDigit = digits
      cases digits <;> simp [Decimal.isNaN]
    | none =>
      have hfin : (finitePart (takeSign t).1 (takeSign t).2).any Decimal.isNaN = false :=
        finitePart_finite
      cases hinf : dropWord "inf".toList (takeSign t).2 with
      | none => simp [hfin]
      | some rest =>
        cases rest with
        | nil => simp [Decimal.isNaN]
        | cons c rest =>
          simp only [reduceCtorEq, or_self, false_and, exists_false, iff_false]
          split <;> simp [Decimal.isNaN]

/-- **NaNs**: a text is read as one exactly if, without the blanks around it and without
underscores, it spells one. -/
theorem ofText_nan_iff {t : Text} :
    (ofText t).any Decimal.isNaN = true ↔ ∃ ascii, numericAsAscii t = some ascii ∧
      SpellsNaN ascii := by
  unfold ofText
  cases hascii : numericAsAscii t with
  | none => simp
  | some ascii => simpa using ofAscii_nan_iff

/-! ## §4. Printing. -/

/-- `str` of a finite decimal: without an exponent where at most five zeros stand between the
point and the digits, and none behind them. -/
def strFinite (negative : Bool) (coefficient : Nat) (exponent : Int) : Text :=
  let int := Nat.toDigits 10 coefficient
  let leftDigits := exponent + int.length
  let dotPlace := if exponent ≤ 0 ∧ -6 < leftDigits then leftDigits else 1
  let whole := if dotPlace ≤ 0 then ['0'] else
    int.take dotPlace.toNat ++ List.replicate (dotPlace.toNat - int.length) '0'
  let fraction := if dotPlace ≤ 0 then '.' :: (List.replicate (-dotPlace).toNat '0' ++ int)
    else if (int.length : Int) ≤ dotPlace then [] else '.' :: int.drop dotPlace.toNat
  let shift := leftDigits - dotPlace
  let suffix := if shift = 0 then []
    else 'E' :: (if shift < 0 then '-' else '+') :: Nat.toDigits 10 shift.natAbs
  (if negative then ['-'] else []) ++ whole ++ fraction ++ suffix

/-- `str`; the payload of a NaN is not kept. -/
def Decimal.str : Decimal → Text
  | .finite negative coefficient exponent => strFinite negative coefficient exponent
  | .infinity negative => (if negative then ['-'] else []) ++ "Infinity".toList
  | .nan negative signalling =>
      (if negative then ['-'] else []) ++ (if signalling then "sNaN" else "NaN").toList

/-- `repr` -/
def Decimal.repr (d : Decimal) : Text := "Decimal('".toList ++ d.str ++ "')".toList

example : strFinite true 12 (-6) = "-0.000012".toList := by decide +kernel
example : strFinite false 12 (-9) = "1.2E-8".toList := by decide +kernel

/-- Digits are read as ASCII digits, whichever they are. -/
theorem isAsciiDigit_of_isDigit (h : c.isDigit = true) : isAsciiDigit c = true := by
  unfold Char.isDigit at h
  rw [Bool.and_eq_true, decide_eq_true_iff, decide_eq_true_iff] at h
  unfold isAsciiDigit
  rw [Bool.and_eq_true, decide_eq_true_iff, decide_eq_true_iff]
  exact h

theorem toDigits_digit {n : Nat} (h : c ∈ Nat.toDigits 10 n) : isAsciiDigit c = true :=
  isAsciiDigit_of_isDigit (Nat.isDigit_of_mem_toDigits (by decide) (by decide) h)

@[simp] theorem value_toDigits (n : Nat) : value (Nat.toDigits 10 n) = n :=
  Nat.ofDigitChars_ten_toDigits

theorem value_zeros (k : Nat) (t : Text) : value (List.replicate k '0' ++ t) = value t := by
  unfold value
  induction k with
  | zero => rfl
  | succ k ih => exact ih

/-- With one place to six there is no exponent: the digits are those of the coefficient with
the point, and zeros, among them. -/
theorem strFinite_places {negative : Bool} {n k : Nat} (hk : 0 < k) (hk6 : k ≤ 6) :
    ∃ whole fraction, strFinite negative n (-(k : Int))
        = (if negative then ['-'] else []) ++ whole ++ '.' :: fraction ∧
      Plain whole ∧ (∀ c ∈ fraction, isAsciiDigit c = true) ∧ fraction.length = k ∧
      (whole ++ fraction).length = max (Nat.toDigits 10 n).length (k + 1) ∧
      value (whole ++ fraction) = n := by
  have hlen : 0 < (Nat.toDigits 10 n).length := Nat.length_toDigits_pos
  unfold strFinite
  simp only
  rw [if_pos (c := -(k : Int) ≤ 0 ∧ _) (by omega), if_pos (c := _ - _ = 0) (by omega)]
  by_cases hshort : (Nat.toDigits 10 n).length ≤ k
  · -- fewer digits than places: zeros on both sides of the point
    refine ⟨['0'], List.replicate (k - (Nat.toDigits 10 n).length) '0' ++ Nat.toDigits 10 n, ?_,
      ⟨by simp, by simp [isAsciiDigit]⟩, ?_, ?_, ?_, ?_⟩
    · have hneg : -(k : Int) + (Nat.toDigits 10 n).length ≤ 0 := by omega
      rw [if_pos hneg, if_pos hneg,
        show (-(-(k : Int) + (Nat.toDigits 10 n).length)).toNat
          = k - (Nat.toDigits 10 n).length by omega, List.append_nil]
    · intro c hc
      rcases List.mem_append.mp hc with hz | hd
      · rw [List.eq_of_mem_replicate hz]
        decide
      · exact toDigits_digit hd
    · rw [List.length_append, List.length_replicate]
      omega
    · simp only [List.length_append, List.length_cons, List.length_nil, List.length_replicate]
      omega
    · rw [← List.append_assoc, ← List.replicate_one, List.replicate_append_replicate, value_zeros,
        value_toDigits]
  -- digits enough: the point stands among them
  · have hdot : (-(k : Int) + (Nat.toDigits 10 n).length).toNat
        = (Nat.toDigits 10 n).length - k := by omega
    refine ⟨(Nat.toDigits 10 n).take ((Nat.toDigits 10 n).length - k),
      (Nat.toDigits 10 n).drop ((Nat.toDigits 10 n).length - k), ?_, ⟨?_, ?_⟩, ?_, ?_, ?_, ?_⟩
    · have hpos : ¬ -(k : Int) + (Nat.toDigits 10 n).length ≤ 0 := by omega
      have hbehind : ¬ ((Nat.toDigits 10 n).length : Int)
          ≤ -(k : Int) + (Nat.toDigits 10 n).length := by omega
      rw [if_neg hpos, if_neg hpos, if_neg hbehind, hdot,
        show (Nat.toDigits 10 n).length - k - (Nat.toDigits 10 n).length = 0 by omega,
        List.replicate_zero, List.append_nil, List.append_nil]
    · intro he
      have := congrArg List.length he
      rw [List.length_take, List.length_nil] at this
      omega
    · intro c hc
      exact toDigits_digit (List.mem_of_mem_take hc)
    · intro c hc
      exact toDigits_digit (List.mem_of_mem_drop hc)
    · rw [List.length_drop]
      omega
    · rw [List.take_append_drop]
      omega
    · rw [List.take_append_drop, value_toDigits]

/-! ## §5. Reading what was printed. -/

/-- What forms and the constructor leave as it is. -/
def Numeric (c : Char) : Prop :=
  isSpace c = false ∧ c ≠ '_' ∧ c.toNat ≠ 0 ∧ asAscii c = some c ∧ c ≠ ','

theorem numeric_digit (h : isAsciiDigit c = true) : Numeric c :=
  digit_forall (P := Numeric) (by unfold Numeric; decide) h

theorem strip_of_not_space (h : ∀ c ∈ t, isSpace c = false) : strip t = t := by
  have hmem : ∀ c ∈ t, ¬ isSpace c = true := fun c hc => by simp [h c hc]
  unfold strip
  rw [List.dropWhile_eq_self_iff.mpr fun _ => hmem _ (List.getElem_mem _),
    List.rdropWhile_eq_self_iff.mpr fun hne => hmem _ (List.getLast_mem hne)]

theorem remove_of_not_mem {d : Char} (h : ∀ c ∈ t, c ≠ d) : remove d t = t := by
  unfold remove
  exact List.filter_eq_self.mpr fun c hc => by simpa using h c hc

theorem numericAsAscii_self (h : ∀ c ∈ t, Numeric c) : numericAsAscii t = some t := by
  unfold numericAsAscii
  rw [strip_of_not_space fun c hc => (h c hc).1,
    List.filter_eq_self.mpr fun c hc => by simpa using (h c hc).2.1]
  induction t with
  | nil => rfl
  | cons c t ih =>
    obtain ⟨-, -, hzero, hascii, -⟩ := h c (by simp)
    rw [List.mapM_cons, if_neg hzero, hascii, ih fun d hd => h d (by simp [hd])]
    rfl

/-- Words begin with a letter. -/
theorem dropWord_digit {w : Char} {word : Text} (hw : isAsciiDigit w = false)
    (hc : isAsciiDigit c = true) : dropWord (w :: word) (c :: t) = none := by
  unfold dropWord
  rw [if_neg]
  intro he
  have hsame : c.toLower = c := digit_forall (P := fun c => c.toLower = c) (by decide) hc
  rw [hsame] at he
  rw [he, hw] at hc
  cases hc

variable {whole fraction : Text} {negative : Bool}

theorem mantissa_point (hw : ∀ c ∈ whole, isAsciiDigit c = true)
    (hf : ∀ c ∈ fraction, isAsciiDigit c = true) :
    mantissa (whole ++ '.' :: fraction) = (whole, fraction, []) := by
  have hpoint : isAsciiDigit '.' = false := by decide
  unfold mantissa
  rw [List.takeWhile_append_of_pos hw, List.dropWhile_append_of_pos hw,
    List.takeWhile_cons_of_neg (by simp [hpoint]), List.dropWhile_cons_of_neg (by simp [hpoint]),
    List.append_nil]
  simp only
  rw [List.takeWhile_eq_self_iff.mpr hf, List.dropWhile_eq_nil_iff.mpr hf]

theorem finitePart_point (hw : Plain whole) (hf : ∀ c ∈ fraction, isAsciiDigit c = true)
    (hlen : (whole ++ fraction).length ≤ maxPrec) :
    finitePart negative (whole ++ '.' :: fraction)
      = some (.finite negative (value (whole ++ fraction)) (-(fraction.length : Int))) := by
  have hlead : ((whole ++ fraction).dropWhile (· == '0')).length ≤ (whole ++ fraction).length :=
    (List.dropWhile_suffix _).length_le
  have hwhole : 0 < whole.length := List.length_pos_iff.mpr hw.1
  rw [List.length_append] at hlen hlead
  unfold finitePart
  rw [mantissa_point hw.2 hf]
  simp only
  rw [if_neg (by simp [hw.1])]
  unfold exponentPart
  rw [Option.bind_some, if_pos]
  · simp
  · unfold fits
    simp only [decide_eq_true_eq]
    unfold maxPrec at hlen ⊢
    unfold maxEmax minEtiny
    omega

theorem takeSign_digit (hc : isAsciiDigit c = true) : takeSign (c :: t) = (false, c :: t) := by
  unfold takeSign
  split
  next he =>
    obtain rfl := (List.cons.inj he).1
    exact absurd hc (by decide)
  next he =>
    obtain rfl := (List.cons.inj he).1
    exact absurd hc (by decide)
  next => rfl

theorem numeric_point (hw : Plain whole) (hf : ∀ c ∈ fraction, isAsciiDigit c = true) :
    ∀ c ∈ (if negative then ['-'] else []) ++ whole ++ '.' :: fraction, Numeric c := by
  intro c hc
  rw [List.append_assoc, List.mem_append, List.mem_append, List.mem_cons] at hc
  rcases hc with hsign | hdigit | rfl | hdigit
  · cases negative with
    | false => cases hsign
    | true =>
      obtain rfl := List.mem_singleton.mp hsign
      unfold Numeric
      decide
  · exact numeric_digit (hw.2 c hdigit)
  · unfold Numeric
    decide
  · exact numeric_digit (hf c hdigit)

/-- Digits, a point and digits, with or without a minus in front. -/
theorem ofText_point (hw : Plain whole) (hf : ∀ c ∈ fraction, isAsciiDigit c = true)
    (hlen : (whole ++ fraction).length ≤ maxPrec) :
    ofText ((if negative then ['-'] else []) ++ whole ++ '.' :: fraction)
      = some (.finite negative (value (whole ++ fraction)) (-(fraction.length : Int))) := by
  obtain ⟨c, rest, rfl⟩ := List.exists_cons_of_ne_nil hw.1
  have hc : isAsciiDigit c = true := hw.2 c (by simp)
  have hsign : takeSign ((if negative then ['-'] else []) ++ (c :: rest) ++ '.' :: fraction)
      = (negative, (c :: rest) ++ '.' :: fraction) := by
    cases negative with
    | false => exact takeSign_digit hc
    | true => rfl
  unfold ofText
  rw [numericAsAscii_self (numeric_point hw hf), Option.bind_some]
  unfold ofAscii
  rw [hsign]
  simp only [List.cons_append]
  rw [show "nan".toList = 'n' :: "an".toList from rfl,
    show "snan".toList = 's' :: "nan".toList from rfl,
    show "inf".toList = 'i' :: "nf".toList from rfl,
    dropWord_digit (by decide) hc, dropWord_digit (by decide) hc,
    dropWord_digit (by decide) hc]
  exact finitePart_point hw hf hlen

/-- What is printed with one place to six has no blanks and no commas. -/
theorem strFinite_numeric {n k : Nat} (hk : 0 < k) (hk6 : k ≤ 6) :
    ∀ c ∈ strFinite negative n (-(k : Int)), Numeric c := by
  obtain ⟨whole, fraction, hstr, hw, hf, -⟩ :=
    strFinite_places hk hk6
  rw [hstr]
  exact numeric_point hw hf

/-- **PRINTING AND READING**, with one place to six. -/
theorem ofText_strFinite {n k : Nat} (hk : 0 < k) (hk6 : k ≤ 6)
    (hn : (Nat.toDigits 10 n).length ≤ maxPrec) :
    ofText (strFinite negative n (-(k : Int))) = some (.finite negative n (-(k : Int))) := by
  obtain ⟨whole, fraction, hstr, hw, hf, hplaces, hlen, hvalue⟩ :=
    strFinite_places hk hk6
  rw [hstr, ofText_point hw hf ?_, hvalue, hplaces]
  rw [hlen]
  unfold maxPrec at hn ⊢
  omega

end PyText
