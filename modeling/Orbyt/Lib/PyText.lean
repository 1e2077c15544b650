/-
  Orbyt.Lib.PyText — Python's reading of text

  A Python string is its list of code points.  The character properties are those of
  Unicode 14, which CPython 3.11's `unicodedata` holds:

    * `decimal c`  — the value of a decimal digit (Nd), in whatever script;
    * `isDigit c`  — `str.isdigit`: a decimal digit, or a digit such as a superscript that
      has no decimal value;
    * `isSpace c`  — `str.isspace`.

  `int` reads decimal digits of every script, with a sign, single underscores and blanks
  around them, and no more than 4300 digits.

  Main results:
    * `int_digits`  — plain digits are read as the number they write;
    * `int_single`  — a single digit is read exactly if it is a decimal digit;
    * `int_strNat`  — the numeral of a natural is read back, within the limit and only there;
    * `strip_eq_nil` — only blanks strip to nothing;
    * `split_two`   — a text with one separator splits in two.
-/
import Mathlib.Algebra.Group.Nat.Defs
import Mathlib.Data.List.DropRight

namespace PyText

abbrev Text := List Char

variable {c d : Char} {t u : Text}

/-! ## §1. Characters. -/

/-- Closed ranges of code points. -/
abbrev Ranges := List (Nat × Nat)

def Ranges.has (ranges : Ranges) (n : Nat) : Bool := ranges.any (fun r => r.1 ≤ n && n ≤ r.2)

/-- Where the ten digits of a script begin. -/
def zeros : List Nat :=
  [0x30, 0x660, 0x6f0, 0x7c0, 0x966, 0x9e6, 0xa66, 0xae6, 0xb66, 0xbe6, 0xc66, 0xce6, 0xd66,
   0xde6, 0xe50, 0xed0, 0xf20, 0x1040, 0x1090, 0x17e0, 0x1810, 0x1946, 0x19d0, 0x1a80, 0x1a90,
   0x1b50, 0x1bb0, 0x1c40, 0x1c50, 0xa620, 0xa8d0, 0xa900, 0xa9d0, 0xa9f0, 0xaa50, 0xabf0,
   0xff10, 0x104a0, 0x10d30, 0x11066, 0x110f0, 0x11136, 0x111d0, 0x112f0, 0x11450, 0x114d0,
   0x11650, 0x116c0, 0x11730, 0x118e0, 0x11950, 0x11c50, 0x11d50, 0x11da0, 0x16a60, 0x16ac0,
   0x16b50, 0x1d7ce, 0x1d7d8, 0x1d7e2, 0x1d7ec, 0x1d7f6, 0x1e140, 0x1e2f0, 0x1e950, 0x1fbf0]

/-- Digits without a decimal value: superscripts, subscripts, circled digits and their like. -/
def specialDigits : Ranges :=
  [(0xb2, 0xb3), (0xb9, 0xb9), (0x1369, 0x1371), (0x19da, 0x19da), (0x2070, 0x2070),
   (0x2074, 0x2079), (0x2080, 0x2089), (0x2460, 0x2468), (0x2474, 0x247c), (0x2488, 0x2490),
   (0x24ea, 0x24ea), (0x24f5, 0x24fd), (0x24ff, 0x24ff), (0x2776, 0x277e), (0x2780, 0x2788),
   (0x278a, 0x2792), (0x10a40, 0x10a43), (0x10e60, 0x10e68), (0x11052, 0x1105a),
   (0x1f100, 0x1f10a)]

def spaces : Ranges :=
  [(0x9, 0xd), (0x1c, 0x20), (0x85, 0x85), (0xa0, 0xa0), (0x1680, 0x1680), (0x2000, 0x200a),
   (0x2028, 0x2029), (0x202f, 0x202f), (0x205f, 0x205f), (0x3000, 0x3000)]

/-- `Py_UNICODE_TODECIMAL` -/
def decimal (c : Char) : Option Nat :=
  (zeros.find? (fun z => z ≤ c.toNat && c.toNat ≤ z + 9)).map (c.toNat - ·)

/-- `str.isdigit`, of one character. -/
def isDigit (c : Char) : Bool := (decimal c).isSome || specialDigits.has c.toNat

/-- `str.isspace`, of one character. -/
def isSpace (c : Char) : Bool := spaces.has c.toNat

def isAscii (c : Char) : Bool := c.toNat < 128

/-- `0` to `9` -/
def isAsciiDigit (c : Char) : Bool := '0' ≤ c && c ≤ '9'

/-! ## §2. Strings. -/

/-- `str.isdigit` -/
def allDigits (t : Text) : Bool := !t.isEmpty && t.all isDigit

/-- `str.strip` -/
def strip (t : Text) : Text := (t.dropWhile isSpace).rdropWhile isSpace

/-- `str.replace(c, "")` -/
def remove (c : Char) (t : Text) : Text := t.filter (· != c)

/-- `str.split(c)` -/
def split (c : Char) (t : Text) : List Text := t.splitOnP (· == c)

/-! ## §3. Numbers. -/

/-- The number that ASCII digits write. -/
def value (t : Text) : Nat := t.foldl (fun n c => 10 * n + (c.toNat - 48)) 0

/-- The sign in front of a number: is it a minus, and what follows it. -/
def takeSign : Text → Bool × Text
  | '+' :: t => (false, t)
  | '-' :: t => (true, t)
  | t => (false, t)

/-- What a character is to a number: ASCII stands for itself, blanks are blanks, decimal
digits are digits. -/
def asAscii (c : Char) : Option Char :=
  if isAscii c then some c
  else if isSpace c then some ' '
  else (decimal c).map (fun d => Char.ofNat (48 + d))

/-- `sys.int_info.default_max_str_digits` -/
def maxStrDigits : Nat := 4300

/-- The blanks `int` skips. -/
def isBlank (c : Char) : Bool := c == ' ' || ('\t' ≤ c && c ≤ '\r')

/-- Digits in groups joined by single underscores. -/
def digitGroups (t : Text) : Option Text :=
  let groups := split '_' t
  if groups.all (fun g => !g.isEmpty && g.all isAsciiDigit) then some groups.flatten else none

/-- `int(t)`; `none` is a ValueError. -/
def int (t : Text) : Option Int := do
  let ascii ← t.mapM asAscii
  let (negative, rest) := takeSign ((ascii.dropWhile isBlank).rdropWhile isBlank)
  let digits ← digitGroups rest
  if digits.length ≤ maxStrDigits then
    return if negative then -(value digits : Int) else value digits
  else none

example : int "٠١_2 ".toList = some 12 := by decide
example : int "1__2".toList = none := by decide

/-! ## §4. Digits. -/

/-- What holds of the ten digits. -/
theorem digit_forall {P : Char → Prop} (hP : ∀ n < 10, P (Char.ofNat (48 + n)))
    (h : isAsciiDigit c = true) : P c := by
  have hc : 48 ≤ c.toNat ∧ c.toNat ≤ 57 := by
    unfold isAsciiDigit at h
    rw [Bool.and_eq_true, decide_eq_true_iff, decide_eq_true_iff] at h
    exact h
  have hp := hP (c.toNat - 48) (by omega)
  rwa [show 48 + (c.toNat - 48) = c.toNat by omega, Char.ofNat_toNat] at hp

theorem decimal_ascii (h : isAsciiDigit c = true) : decimal c = some (c.toNat - 48) :=
  digit_forall (P := fun c => decimal c = some (c.toNat - 48)) (by decide) h

theorem isDigit_ascii (h : isAsciiDigit c = true) : isDigit c = true := by
  unfold isDigit
  rw [decimal_ascii h]
  rfl

theorem asAscii_digit (h : isAsciiDigit c = true) : asAscii c = some c :=
  digit_forall (P := fun c => asAscii c = some c) (by decide) h

theorem isBlank_digit (h : isAsciiDigit c = true) : isBlank c = false :=
  digit_forall (P := fun c => isBlank c = false) (by decide) h

/-- A decimal digit is in one of the blocks. -/
theorem decimal_block {d : Nat} (h : decimal c = some d) :
    ∃ z ∈ zeros, z ≤ c.toNat ∧ c.toNat ≤ z + 9 ∧ d = c.toNat - z := by
  unfold decimal at h
  obtain ⟨z, hz, rfl⟩ := Option.map_eq_some_iff.mp h
  have hp := List.find?_some hz
  simp only [Bool.and_eq_true, decide_eq_true_eq] at hp
  exact ⟨z, List.mem_of_find?_eq_some hz, hp.1, hp.2, rfl⟩

theorem decimal_lt {d : Nat} (h : decimal c = some d) : d < 10 := by
  obtain ⟨z, -, -, hle, rfl⟩ := decimal_block h
  omega

theorem isAsciiDigit_of_decimal {d : Nat} (h : decimal c = some d) (ha : isAscii c = true) :
    isAsciiDigit c = true := by
  obtain ⟨z, hz, hge, hle, -⟩ := decimal_block h
  have hblocks : ∀ z ∈ zeros, z = 48 ∨ 128 ≤ z := by decide
  unfold isAscii at ha
  rw [decide_eq_true_iff] at ha
  obtain rfl | hbig := hblocks z hz
  · unfold isAsciiDigit
    rw [Bool.and_eq_true, decide_eq_true_iff, decide_eq_true_iff]
    exact ⟨hge, hle⟩
  · omega

theorem Ranges.has_iff {ranges : Ranges} {n : Nat} :
    ranges.has n = true ↔ ∃ r ∈ ranges, r.1 ≤ n ∧ n ≤ r.2 := by
  simp [Ranges.has, List.any_eq_true]

theorem decimal_not_space {d : Nat} (h : decimal c = some d) : isSpace c = false := by
  obtain ⟨z, hz, hge, hle, -⟩ := decimal_block h
  have hblocks : ∀ z ∈ zeros, ∀ r ∈ spaces, r.2 < z ∨ z + 9 < r.1 := by decide
  rw [← Bool.not_eq_true]
  intro hs
  obtain ⟨r, hr, hlow, hhigh⟩ := Ranges.has_iff.mp hs
  have := hblocks z hz r hr
  omega

theorem special_not_ascii_not_space (h : specialDigits.has c.toNat = true) :
    isAscii c = false ∧ isSpace c = false := by
  obtain ⟨q, hq, hge, hle⟩ := Ranges.has_iff.mp h
  have hranges : ∀ q ∈ specialDigits, 128 ≤ q.1 ∧ ∀ r ∈ spaces, r.2 < q.1 ∨ q.2 < r.1 := by decide
  obtain ⟨hbig, hapart⟩ := hranges q hq
  constructor
  · unfold isAscii
    rw [decide_eq_false_iff_not]
    omega
  · rw [← Bool.not_eq_true]
    intro hs
    obtain ⟨r, hr, hlow, hhigh⟩ := Ranges.has_iff.mp hs
    have := hapart r hr
    omega

/-! ## §5. Strips and splits. -/

/-- Stripping leaves nothing to strip. -/
theorem strip_strip : strip (strip t) = strip t := by
  have hfront : (strip t).dropWhile isSpace = strip t := by
    rw [List.dropWhile_eq_self_iff]
    intro hl
    have hfront : strip t <+: t.dropWhile isSpace := List.rdropWhile_prefix isSpace _
    rw [hfront.getElem hl]
    exact List.dropWhile_eq_self_iff.mp (List.dropWhile_idempotent isSpace t) _
  rw [show strip (strip t) = ((strip t).dropWhile isSpace).rdropWhile isSpace from rfl, hfront]
  exact List.rdropWhile_idempotent isSpace _

/-- Only blanks strip to nothing. -/
theorem strip_eq_nil : strip t = [] ↔ ∀ c ∈ t, isSpace c = true := by
  unfold strip
  induction t with
  | nil => simp
  | cons c t ih =>
    by_cases hc : isSpace c = true
    · rw [List.dropWhile_cons_of_pos hc, ih]
      simp [hc]
    · rw [List.dropWhile_cons_of_neg hc, List.rdropWhile_eq_nil_iff]

/-- What is split at the only separator. -/
theorem split_two (hc : ∀ d ∈ t, d ≠ c) (hd : ∀ d ∈ u, d ≠ c) : split c (t ++ c :: u) = [t, u] := by
  unfold split
  rw [List.splitOnP_append_cons_of_forall_mem (by simpa using hc) c (by simp) u,
    List.splitOnP_eq_singleton (by simpa using hd)]

/-! ## §6. Reading plain digits. -/

/-- Not empty, and ASCII digits only. -/
def Plain (t : Text) : Prop := t ≠ [] ∧ ∀ c ∈ t, isAsciiDigit c = true

instance : Decidable (Plain t) := inferInstanceAs (Decidable (_ ∧ _))

theorem mapM_asAscii (h : ∀ c ∈ t, isAsciiDigit c = true) : t.mapM asAscii = some t := by
  induction t with
  | nil => rfl
  | cons c t ih =>
    have hc := asAscii_digit (h c (by simp))
    have ht := ih (fun d hd => h d (by simp [hd]))
    simp [List.mapM_cons, hc, ht]

theorem takeSign_plain (h : Plain t) : takeSign t = (false, t) := by
  obtain ⟨c, t, rfl⟩ := List.exists_cons_of_ne_nil h.1
  have hc : isAsciiDigit c = true := h.2 c (by simp)
  unfold takeSign
  split
  next he =>
    obtain rfl := (List.cons.inj he).1
    exact absurd hc (by decide)
  next he =>
    obtain rfl := (List.cons.inj he).1
    exact absurd hc (by decide)
  next => rfl

theorem digitGroups_plain (h : Plain t) : digitGroups t = some t := by
  have hno : ∀ c ∈ t, (c == '_') = false := fun c hc =>
    digit_forall (P := fun c => (c == '_') = false) (by decide) (h.2 c hc)
  have hsplit : split '_' t = [t] := List.splitOnP_eq_singleton hno
  unfold digitGroups
  rw [hsplit]
  simp only [List.all_cons, List.all_nil, Bool.and_true, List.flatten_cons, List.flatten_nil,
    List.append_nil]
  rw [if_pos]
  rw [Bool.and_eq_true, Bool.not_eq_true', List.all_eq_true]
  exact ⟨List.isEmpty_eq_false_iff.mpr h.1, h.2⟩

theorem trim_plain (h : Plain t) : (t.dropWhile isBlank).rdropWhile isBlank = t := by
  have hmem : ∀ c ∈ t, ¬ isBlank c = true := fun c hc => by simp [isBlank_digit (h.2 c hc)]
  rw [List.dropWhile_eq_self_iff.mpr fun _ => hmem _ (List.getElem_mem _),
    List.rdropWhile_eq_self_iff.mpr fun hne => hmem _ (List.getLast_mem hne)]

/-- **PLAIN DIGITS** are read as the number they write. -/
theorem int_digits (h : Plain t) (hlen : t.length ≤ maxStrDigits) : int t = some (value t) := by
  unfold int
  rw [mapM_asAscii h.2]
  simp only [Option.bind_eq_bind, Option.bind_some, trim_plain h, takeSign_plain h,
    digitGroups_plain h]
  rw [if_pos hlen]
  rfl

/-- More digits than the limit are refused. -/
theorem int_long (h : Plain t) (hlen : maxStrDigits < t.length) : int t = none := by
  unfold int
  rw [mapM_asAscii h.2]
  simp only [Option.bind_eq_bind, Option.bind_some, trim_plain h, takeSign_plain h,
    digitGroups_plain h]
  rw [if_neg (by omega)]

/-- **A SINGLE DIGIT** is read if and only if it is a decimal one. -/
theorem int_single (h : isDigit c = true) : int [c] = (decimal c).map (fun d => (d : Int)) := by
  cases hd : decimal c with
  | some d =>
    by_cases ha : isAscii c = true
    · have hc := isAsciiDigit_of_decimal hd ha
      have hplain : Plain [c] := ⟨by simp, by simpa using hc⟩
      rw [int_digits hplain (by simp [maxStrDigits])]
      rw [decimal_ascii hc] at hd
      cases hd
      simp [value]
    · -- the digit of another script stands for the ASCII digit of its value
      have has : asAscii c = some (Char.ofNat (48 + d)) := by
        unfold asAscii
        rw [if_neg ha, decimal_not_space hd, hd]
        rfl
      have hlt := decimal_lt hd
      have hdigit : ∀ n < 10, int [Char.ofNat (48 + n)] = some (n : Int) := by decide
      have hsame : ∀ n < 10, asAscii (Char.ofNat (48 + n)) = some (Char.ofNat (48 + n)) := by decide
      have hread : int [c] = int [Char.ofNat (48 + d)] := by
        unfold int
        simp only [List.mapM_cons, List.mapM_nil, has, hsame d hlt]
      rw [hread, hdigit d hlt]
      rfl
  | none =>
    have hspecial : specialDigits.has c.toNat = true := by
      unfold isDigit at h
      rw [hd] at h
      simpa using h
    obtain ⟨ha, hs⟩ := special_not_ascii_not_space hspecial
    have has : asAscii c = none := by
      unfold asAscii
      rw [ha, hs, hd]
      rfl
    unfold int
    simp [List.mapM_cons, has]

/-! ## §7. Numerals. -/

/-- `str(n)` -/
def strNat (n : Nat) : Text := Nat.toDigits 10 n

theorem plain_strNat (n : Nat) : Plain (strNat n) := by
  refine ⟨Nat.toDigits_ne_nil, fun c hc => ?_⟩
  have hdigit : c.isDigit = true := Nat.isDigit_of_mem_toDigits (by decide) (by decide) hc
  unfold Char.isDigit at hdigit
  unfold isAsciiDigit
  rw [Bool.and_eq_true, decide_eq_true_iff, decide_eq_true_iff] at hdigit ⊢
  exact hdigit

theorem value_strNat (n : Nat) : value (strNat n) = n := Nat.ofDigitChars_ten_toDigits

theorem length_strNat_le {n : Nat} : (strNat n).length ≤ maxStrDigits ↔ n < 10 ^ maxStrDigits :=
  Nat.length_toDigits_le_iff (by decide) (by decide)

/-- **A NUMERAL** is read back if and only if it is within the limit. -/
theorem int_strNat (n : Nat) :
    int (strNat n) = if n < 10 ^ maxStrDigits then some (n : Int) else none := by
  by_cases h : n < 10 ^ maxStrDigits
  · rw [if_pos h, int_digits (plain_strNat n) (length_strNat_le.mpr h), value_strNat]
    rfl
  · rw [if_neg h, int_long (plain_strNat n) (by have := mt length_strNat_le.mp h; omega)]

end PyText
