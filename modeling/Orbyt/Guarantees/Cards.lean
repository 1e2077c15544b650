/-
  Orbyt.Guarantees.Cards — which cards are accepted

  Main results:
    * `card_checked` — the check accepts its format and refuses the rest with a
      RemittanceError, exactly on the cards whose number is not misread and that do not pass
      in another spelling;
    * `card_misread` — a superscript in a card number is a ValueError;
    * `luhn_detects` — the checksum notices every wrong digit and every swap of neighbours
      except that of 0 and 9, and one digit completes any number.
-/
import Mathlib.Data.ZMod.Basic
import Orbyt.Lib.Checksum
import Orbyt.Platform.MockCard

namespace Orbyt.CashinService

open PyText

variable {card : MockCard} {today : YearMonth} {t : Text} {i : Nat}

/-! ## §1. The format. -/

/-- The Luhn sum of digits, the last one first: every second one counts as the digit sum of
its double. -/
def luhnSum (i : Nat) : List Nat → Nat
  | [] => 0
  | d :: ds => (if i % 2 = 1 then 2 * d / 10 + 2 * d % 10 else d) + luhnSum (i + 1) ds

/-- The decimal values of the characters. -/
def values (t : Text) : List Nat := t.map (fun c => (decimal c).getD 0)

def Luhn (digits : Text) : Prop := luhnSum 0 (values digits.reverse) % 10 = 0

/-- The documented format, and not before the current month. -/
structure MockCard.WellFormed (card : MockCard) (today : YearMonth) : Prop where
  length : 13 ≤ card.digits.length ∧ card.digits.length ≤ 19
  digits : ∀ c ∈ card.digits, isAsciiDigit c = true
  luhn : Luhn card.digits
  expiry : ∃ month year, strip card.expiry = month ++ '/' :: year ∧
    (Plain month ∧ month.length ≤ 2) ∧ (Plain year ∧ year.length = 2) ∧
    (1 ≤ value month ∧ value month ≤ 12) ∧
    ¬ YearMonth.before (2000 + value year, value month) today
  cvv : (card.cvv.length = 3 ∨ card.cvv.length = 4) ∧ ∀ c ∈ card.cvv, isAsciiDigit c = true
  name : ∃ c ∈ card.name, isSpace c = false

/-- The last four digits come back for the cards of the format, and a RemittanceError for all
others. -/
def MockCard.Judged (card : MockCard) (today : YearMonth) : Prop :=
  (card.WellFormed today →
    validateMockCard today card = .ok (card.digits.drop (card.digits.length - 4))) ∧
  (¬ card.WellFormed today → ∃ text, validateMockCard today card = .error (.remittance text))

/-! ## §2. What passes. -/

/-- The number looks like digits, and one of them has no decimal value. -/
structure MockCard.Misread (card : MockCard) : Prop where
  length : 13 ≤ card.digits.length ∧ card.digits.length ≤ 19
  digits : ∀ c ∈ card.digits, isDigit c = true
  special : ∃ c ∈ card.digits, decimal c = none

/-- What the checks ask for: decimal digits of any script in the number, whatever `int` reads
around the slash, and anything that `isdigit` accepts in the CVV. -/
structure MockCard.Passes (card : MockCard) (today : YearMonth) : Prop where
  length : 13 ≤ card.digits.length ∧ card.digits.length ≤ 19
  digits : ∀ c ∈ card.digits, (decimal c).isSome = true
  luhn : Luhn card.digits
  expiry : ∃ month year m y, split '/' (strip card.expiry) = [month, year] ∧
    int month = some m ∧ int year = some y ∧ (1 ≤ m ∧ m ≤ 12) ∧
    ¬ YearMonth.before (2000 + y, m) today
  cvv : (card.cvv.length = 3 ∨ card.cvv.length = 4) ∧ ∀ c ∈ card.cvv, isDigit c = true
  name : strip card.name ≠ []

/-- The spelling of the format: ASCII digits, one or two for the month, two for the year. -/
structure MockCard.Spelled (card : MockCard) : Prop where
  digits : ∀ c ∈ card.digits, isAsciiDigit c = true
  expiry : ∃ month year, strip card.expiry = month ++ '/' :: year ∧
    (Plain month ∧ month.length ≤ 2) ∧ (Plain year ∧ year.length = 2)
  cvv : ∀ c ∈ card.cvv, isAsciiDigit c = true

theorem digitOf_decimal {c : Char} {d : Nat} (h : decimal c = some d) :
    digitOf c = .ok (d : Int) := by
  have hdigit : isDigit c = true := by simp [isDigit, h]
  unfold digitOf
  rw [int_single hdigit, h]
  rfl

theorem digitOf_special {c : Char} (hdigit : isDigit c = true) (h : decimal c = none) :
    ∃ text, digitOf c = .error (.other "ValueError" text) := by
  unfold digitOf
  rw [int_single hdigit, h]
  exact ⟨_, rfl⟩

/-- Doubling and taking 9 off is the digit sum of the double. -/
theorem luhnTerm_eq {d : Nat} (h : d < 10) :
    luhnTerm i d = ((if i % 2 = 1 then 2 * d / 10 + 2 * d % 10 else d : Nat) : Int) := by
  unfold luhnTerm
  split
  · split <;> omega
  · rfl

theorem luhnTotal_decimal (h : ∀ c ∈ t, (decimal c).isSome = true) (total : Int) :
    luhnTotal i total t = .ok (total + luhnSum i (values t)) := by
  induction t generalizing i total with
  | nil => simp [luhnTotal, luhnSum, values]
  | cons c t ih =>
    obtain ⟨d, hd⟩ := Option.isSome_iff_exists.mp (h c (by simp))
    have ht := ih (i := i + 1) (fun c hc => h c (by simp [hc])) (total + luhnTerm i d)
    show (digitOf c >>= fun d => luhnTotal (i + 1) (total + luhnTerm i d) t) = _
    rw [digitOf_decimal hd]
    show luhnTotal (i + 1) (total + luhnTerm i d) t = _
    rw [ht, luhnTerm_eq (decimal_lt hd)]
    simp only [values, List.map_cons, hd, Option.getD_some, luhnSum, Int.natCast_add]
    congr 1
    omega

/-- The first character without a decimal value ends the loop. -/
theorem luhnTotal_special (h : ∀ c ∈ t, isDigit c = true) (hs : ∃ c ∈ t, decimal c = none)
    (total : Int) : ∃ text, luhnTotal i total t = .error (.other "ValueError" text) := by
  induction t generalizing i total with
  | nil =>
    obtain ⟨c, hc, -⟩ := hs
    cases hc
  | cons c t ih =>
    cases hd : decimal c with
    | none =>
      obtain ⟨text, he⟩ := digitOf_special (h c (by simp)) hd
      refine ⟨text, ?_⟩
      show (digitOf c >>= fun d => luhnTotal (i + 1) (total + luhnTerm i d) t) = _
      rw [he]
      rfl
    | some d =>
      have hrest : ∃ c ∈ t, decimal c = none := by
        obtain ⟨e, he, hnone⟩ := hs
        rcases List.mem_cons.mp he with rfl | he
        · rw [hd] at hnone
          cases hnone
        · exact ⟨e, he, hnone⟩
      obtain ⟨text, hrun⟩ :=
        ih (i := i + 1) (fun c hc => h c (by simp [hc])) hrest (total + luhnTerm i d)
      refine ⟨text, ?_⟩
      show (digitOf c >>= fun d => luhnTotal (i + 1) (total + luhnTerm i d) t) = _
      rw [digitOf_decimal hd]
      exact hrun

/-! ## §3. The number and the expiry. -/

theorem allDigits_iff : allDigits t = true ↔ t ≠ [] ∧ ∀ c ∈ t, isDigit c = true := by
  unfold allDigits
  rw [Bool.and_eq_true, Bool.not_eq_true', List.isEmpty_eq_false_iff, List.all_eq_true]

theorem numberOk_misread (h : card.Misread) :
    ∃ text, numberOk card.digits = .error (.other "ValueError" text) := by
  have hne : card.digits ≠ [] := by
    intro he
    have hlen := h.length.1
    rw [he] at hlen
    simp at hlen
  obtain ⟨text, hrun⟩ := luhnTotal_special (i := 0) (t := card.digits.reverse)
    (fun c hc => h.digits c (List.mem_reverse.mp hc))
    (h.special.imp fun c hc => ⟨List.mem_reverse.mpr hc.1, hc.2⟩) 0
  refine ⟨text, ?_⟩
  unfold numberOk luhnOk
  rw [if_pos ⟨allDigits_iff.mpr ⟨hne, h.digits⟩, h.length⟩, hrun]
  rfl

/-- Otherwise the number is accepted exactly if it has the length, decimal digits only and
the right sum. -/
theorem numberOk_read (h : ¬ card.Misread) : ∃ ok, numberOk card.digits = .ok ok ∧
    (ok = true ↔ (13 ≤ card.digits.length ∧ card.digits.length ≤ 19) ∧
      (∀ c ∈ card.digits, (decimal c).isSome = true) ∧ Luhn card.digits) := by
  by_cases hshape : allDigits card.digits ∧ 13 ≤ card.digits.length ∧ card.digits.length ≤ 19
  -- of this length, digits that `int` does not take would be misread
  · have hdecimal : ∀ c ∈ card.digits, (decimal c).isSome = true := by
      intro c hc
      cases hd : decimal c with
      | some d => rfl
      | none => exact absurd ⟨hshape.2, (allDigits_iff.mp hshape.1).2, c, hc, hd⟩ h
    have hrun := luhnTotal_decimal (i := 0) (t := card.digits.reverse)
      (fun c hc => hdecimal c (List.mem_reverse.mp hc)) 0
    refine ⟨_, by unfold numberOk luhnOk; rw [if_pos hshape, hrun]; rfl, ?_⟩
    have hsum : ((0 + (luhnSum 0 (values card.digits.reverse) : Int)) % 10 == 0) = true ↔
        Luhn card.digits := by
      rw [beq_iff_eq]
      unfold Luhn
      omega
    rw [hsum]
    exact ⟨fun hl => ⟨hshape.2, hdecimal, hl⟩, fun hl => hl.2.2⟩
  · refine ⟨false, by unfold numberOk; rw [if_neg hshape]; rfl, ?_⟩
    constructor
    · intro hf
      cases hf
    · rintro ⟨hlen, hdecimal, -⟩
      refine absurd ⟨allDigits_iff.mpr ⟨?_, fun c hc => ?_⟩, hlen⟩ hshape
      · rintro he
        rw [he] at hlen
        simp at hlen
      · unfold isDigit
        rw [hdecimal c hc]
        rfl

theorem expiryOf_iff {expiry : Text} {y m : Int} :
    expiryOf expiry = some (2000 + y, m) ↔ ∃ month year, split '/' (strip expiry) = [month, year] ∧
      int month = some m ∧ int year = some y ∧ 1 ≤ m ∧ m ≤ 12 := by
  unfold expiryOf
  constructor
  · intro h
    split at h
    next month year hsplit =>
      obtain ⟨m', hm, h⟩ := Option.bind_eq_some_iff.mp h
      obtain ⟨y', hy, h⟩ := Option.bind_eq_some_iff.mp h
      split at h
      next hrange =>
        obtain ⟨hy', rfl⟩ := Prod.mk.inj (Option.some.inj h)
        obtain rfl : y' = y := by omega
        exact ⟨month, year, hsplit, hm, hy, hrange⟩
      next => cases h
    next => cases h
  · rintro ⟨month, year, hsplit, hm, hy, hrange⟩
    rw [hsplit]
    simp only [hm, hy, Option.bind_eq_bind, Option.bind_some]
    rw [if_pos hrange]
    rfl

/-! ## §4. The whole check. -/

theorem validate_misread (today : YearMonth) (h : card.Misread) :
    ∃ text, validateMockCard today card = .error (.other "ValueError" text) := by
  obtain ⟨text, hrun⟩ := numberOk_misread h
  refine ⟨text, ?_⟩
  unfold validateMockCard
  rw [hrun]
  rfl

theorem validate_passes (h : card.Passes today) :
    validateMockCard today card = .ok (card.digits.drop (card.digits.length - 4)) := by
  have hread : ¬ card.Misread := by
    rintro ⟨-, -, c, hc, hnone⟩
    have hsome := h.digits c hc
    rw [hnone] at hsome
    cases hsome
  obtain ⟨ok, hok, hiff⟩ := numberOk_read hread
  obtain rfl : ok = true := hiff.mpr ⟨h.length, h.digits, h.luhn⟩
  obtain ⟨month, year, m, y, hsplit, hm, hy, hrange, hdate⟩ := h.expiry
  have hexpiry := expiryOf_iff.mpr ⟨month, year, hsplit, hm, hy, hrange⟩
  have hcvv : allDigits card.cvv ∧ (card.cvv.length = 3 ∨ card.cvv.length = 4) := by
    refine ⟨allDigits_iff.mpr ⟨?_, h.cvv.2⟩, h.cvv.1⟩
    intro he
    have hlen := h.cvv.1
    rw [he] at hlen
    simp at hlen
  unfold validateMockCard
  rw [hok, hexpiry]
  show (if YearMonth.before (2000 + y, m) today then _ else _) = _
  rw [if_neg hdate, if_neg (not_not.mpr hcvv), if_neg h.name]
  rfl

theorem validate_refuses (hread : ¬ card.Misread) (h : ¬ card.Passes today) :
    ∃ text, validateMockCard today card = .error (.remittance text) := by
  obtain ⟨ok, hok, hiff⟩ := numberOk_read hread
  unfold validateMockCard
  rw [hok]
  cases ok with
  | false => exact ⟨_, rfl⟩
  | true =>
    obtain ⟨hlen, hdigits, hluhn⟩ := hiff.mp rfl
    cases hexpiry : expiryOf card.expiry with
    | none => exact ⟨_, rfl⟩
    | some e =>
      show ∃ text, (if e.before today then _ else _) = _
      split
      · exact ⟨_, rfl⟩
      next hdate =>
        split
        · exact ⟨_, rfl⟩
        next hcvv =>
          split
          · exact ⟨_, rfl⟩
          next hname =>
            -- every check has been passed
            obtain ⟨month, year, hsplit, hm, hy, hrange⟩ := expiryOf_iff.mp
              (show expiryOf card.expiry = some (2000 + (e.1 - 2000), e.2) by
                rw [hexpiry, show 2000 + (e.1 - 2000) = e.1 by omega])
            rw [not_not] at hcvv
            refine absurd ⟨hlen, hdigits, hluhn, ⟨month, year, _, _, hsplit, hm, hy, hrange, ?_⟩,
              ⟨hcvv.2, (allDigits_iff.mp hcvv.1).2⟩, hname⟩ h
            rwa [show 2000 + (e.1 - 2000) = e.1 by omega]

/-- The format is what passes in the spelling of the format. -/
theorem wellFormed_iff : card.WellFormed today ↔ card.Passes today ∧ card.Spelled := by
  have hname : (∃ c ∈ card.name, isSpace c = false) ↔ strip card.name ≠ [] := by
    rw [Ne, strip_eq_nil]
    simp
  -- digits hold no slash, so that the split gives back month and year
  have hslash : ∀ {t : Text}, Plain t → ∀ c ∈ t, c ≠ '/' := fun ht c hc =>
    digit_forall (P := fun c => c ≠ '/') (by decide) (ht.2 c hc)
  constructor
  · intro h
    obtain ⟨month, year, hexp, ⟨hm, hm₂⟩, ⟨hy, hy₂⟩, hrange, hdate⟩ := h.expiry
    refine ⟨⟨h.length, fun c hc => ?_, h.luhn, ?_, ⟨h.cvv.1, fun c hc => ?_⟩, hname.mp h.name⟩,
      ⟨h.digits, ⟨month, year, hexp, ⟨hm, hm₂⟩, hy, hy₂⟩, h.cvv.2⟩⟩
    · rw [decimal_ascii (h.digits c hc)]
      rfl
    · refine ⟨month, year, value month, value year, ?_, ?_, ?_, by omega, hdate⟩
      · rw [hexp]
        exact split_two (hslash hm) (hslash hy)
      · exact int_digits hm (by unfold maxStrDigits; omega)
      · exact int_digits hy (by unfold maxStrDigits; omega)
    · exact isDigit_ascii (h.cvv.2 c hc)
  · rintro ⟨h, hs⟩
    obtain ⟨month, year, hexp, ⟨hm, hm₂⟩, hy, hy₂⟩ := hs.expiry
    obtain ⟨month', year', m, y, hsplit, hmonth, hyear, hrange, hdate⟩ := h.expiry
    rw [hexp, split_two (hslash hm) (hslash hy)] at hsplit
    obtain ⟨rfl, hrest⟩ := List.cons.inj hsplit
    obtain ⟨rfl, -⟩ := List.cons.inj hrest
    rw [int_digits hm (by unfold maxStrDigits; omega)] at hmonth
    rw [int_digits hy (by unfold maxStrDigits; omega)] at hyear
    cases hmonth
    cases hyear
    exact ⟨h.length, hs.digits, h.luhn,
      ⟨month, year, hexp, ⟨hm, hm₂⟩, ⟨hy, hy₂⟩, by omega, hdate⟩, ⟨h.cvv.1, hs.cvv⟩,
        hname.mpr h.name⟩

/-- **WHICH CARDS ARE JUDGED BY THE FORMAT**: those whose number is not misread, and that pass
only if they are spelled as the format says. -/
theorem card_checked (card : MockCard) (today : YearMonth) :
    card.Judged today ↔ ¬ card.Misread ∧ (card.Passes today → card.Spelled) := by
  unfold MockCard.Judged
  by_cases hread : card.Misread
  -- misread: a ValueError for cards of either kind
  · obtain ⟨text, hrun⟩ := validate_misread today hread
    rw [hrun]
    constructor
    · rintro ⟨hok, herr⟩
      by_cases hwell : card.WellFormed today
      · cases hok hwell
      · obtain ⟨text', he⟩ := herr hwell
        cases he
    · rintro ⟨hnot, -⟩
      exact absurd hread hnot
  · rw [wellFormed_iff]
    by_cases hpass : card.Passes today
    -- accepted: rightly so only if it is spelled as the format says
    · rw [validate_passes hpass]
      constructor
      · rintro ⟨-, herr⟩
        refine ⟨hread, fun _ => ?_⟩
        by_contra hspelled
        obtain ⟨text, he⟩ := herr (fun hwell => hspelled hwell.2)
        cases he
      · rintro ⟨-, hspelled⟩
        exact ⟨fun _ => rfl, fun hnot => absurd ⟨hpass, hspelled hpass⟩ hnot⟩
    -- refused rightly: a well-formed card would have passed
    · obtain ⟨text, hrun⟩ := validate_refuses hread hpass
      rw [hrun]
      exact ⟨fun _ => ⟨hread, fun h => absurd h hpass⟩,
        fun _ => ⟨fun hwell => absurd hwell.1 hpass, fun _ => ⟨text, rfl⟩⟩⟩

/-- 15 digits and a superscript two. -/
def superscriptCard : MockCard :=
  ⟨"4242 4242 4242 424²".toList, "12/30".toList, "123".toList, "A".toList⟩

/-- A card whose number is misread: a ValueError, where the format asks for a refusal. -/
theorem card_misread : ¬ ∀ (card : MockCard) (today : YearMonth), card.Judged today := by
  intro hall
  have hdigits : superscriptCard.digits.all isDigit = true := by decide
  have hmisread : superscriptCard.Misread :=
    ⟨by decide, List.all_eq_true.mp hdigits, '²', by decide, by decide⟩
  have hill : ¬ superscriptCard.WellFormed (2026, 1) := fun h =>
    absurd (h.digits '²' (by decide)) (by decide)
  obtain ⟨text, hrun⟩ := validate_misread (2026, 1) hmisread
  obtain ⟨text', he⟩ := (hall superscriptCard (2026, 1)).2 hill
  rw [hrun] at he
  cases he

/-! ## §5. What the checksum detects. -/

open Checksum

/-- What a digit weighs, modulo ten. -/
def luhnWeight (i d : Nat) : ZMod 10 :=
  ((if i % 2 = 1 then 2 * d / 10 + 2 * d % 10 else d : Nat) : ZMod 10)

theorem luhnSum_eq (i : Nat) (ds : List Nat) :
    ((luhnSum i ds : Nat) : ZMod 10) = total luhnWeight i ds := by
  induction ds generalizing i with
  | nil => simp [luhnSum, total]
  | cons d ds ih => simp only [luhnSum, total, Nat.cast_add, ih, luhnWeight]

instance (t : Text) : Decidable (Luhn t) := inferInstanceAs (Decidable (_ = _))

theorem luhn_iff : Luhn t ↔ total luhnWeight 0 (values t.reverse) = 0 := by
  unfold Luhn
  rw [← luhnSum_eq, ZMod.natCast_eq_zero_iff, Nat.dvd_iff_mod_eq_zero]

theorem luhnOk_decimal (h : ∀ c ∈ t, (decimal c).isSome = true) :
    luhnOk t = .ok (decide (Luhn t)) := by
  have hrun := luhnTotal_decimal (i := 0) (t := t.reverse) (fun c hc => h c (by simpa using hc)) 0
  unfold luhnOk
  rw [hrun]
  show Except.ok _ = Except.ok _
  congr 1
  rw [Bool.eq_iff_iff, beq_iff_eq, decide_eq_true_eq]
  unfold Luhn
  omega

theorem luhnWeight_inj {d e : Nat} (hd : d < 10) (he : e < 10)
    (h : luhnWeight i d = luhnWeight i e) : d = e := by
  unfold luhnWeight at h
  rw [ZMod.natCast_eq_natCast_iff'] at h
  split at h <;> omega

/-- The last digit is not doubled. -/
theorem luhnWeight_zero : Set.BijOn (luhnWeight 0) {d | d < 10} Set.univ := by
  refine ⟨fun _ _ => trivial, fun d hd e he h => luhnWeight_inj hd he h, fun x _ => ?_⟩
  refine ⟨x.val, ZMod.val_lt x, ?_⟩
  show ((x.val : Nat) : ZMod 10) = x
  exact ZMod.natCast_zmod_val x

/-- Only 0 and 9 differ by as much when they are doubled. -/
theorem doubled_swap : ∀ d < 10, ∀ e < 10, d ≠ e →
    ((2 * d / 10 + 2 * d % 10 + e) % 10 = (2 * e / 10 + 2 * e % 10 + d) % 10 ↔
      d = 0 ∧ e = 9 ∨ d = 9 ∧ e = 0) := by decide

theorem luhnWeight_swap {d e : Nat} (hd : d < 10) (he : e < 10) (hde : d ≠ e) :
    luhnWeight i d + luhnWeight (i + 1) e = luhnWeight i e + luhnWeight (i + 1) d ↔
      d = 0 ∧ e = 9 ∨ d = 9 ∧ e = 0 := by
  unfold luhnWeight
  rw [← Nat.cast_add, ← Nat.cast_add, ZMod.natCast_eq_natCast_iff']
  by_cases hi : i % 2 = 1
  · rw [if_pos hi, if_neg (by omega), if_pos hi, if_neg (by omega)]
    exact doubled_swap d hd e he hde
  · -- the other one of the two is doubled
    rw [if_neg hi, if_pos (by omega), if_neg hi, if_pos (by omega), Nat.add_comm d,
      Nat.add_comm e, eq_comm]
    exact doubled_swap d hd e he hde

theorem values_append {u v : Text} : values (u ++ v) = values u ++ values v := List.map_append

theorem values_cons {c : Char} {d : Nat} {v : Text} (h : decimal c = some d) :
    values (c :: v) = d :: values v := by
  simp [values, h]

/-- The digits behind `c` in the text come before it in the sum. -/
theorem values_reverse {c : Char} {d : Nat} {u v : Text} (h : decimal c = some d) :
    values (u ++ c :: v).reverse = values v.reverse ++ d :: values u.reverse := by
  rw [List.reverse_append, List.reverse_cons, List.append_assoc, values_append,
    List.singleton_append, values_cons h]

/-- **WHAT THE CHECKSUM DETECTS**, in any number of decimal digits of any length. -/
theorem luhn_detects (t : Text) (ht : ∀ c ∈ t, (decimal c).isSome = true) :
    (luhnOk t = .ok true →
      (∀ u c v c', t = u ++ c :: v → (decimal c').isSome = true → decimal c' ≠ decimal c →
        luhnOk (u ++ c' :: v) = .ok false) ∧
      (∀ u a b v, t = u ++ a :: b :: v → decimal a ≠ decimal b →
        luhnOk (u ++ b :: a :: v) = .ok (decide (decimal a = some 0 ∧ decimal b = some 9 ∨
          decimal a = some 9 ∧ decimal b = some 0)))) ∧
    ∃ d < 10, ∀ c d', decimal c = some d' → luhnOk (t ++ [c]) = .ok (decide (d' = d)) := by
  refine ⟨fun hok => ?_, ?_⟩
  · rw [luhnOk_decimal ht] at hok
    have hzero := luhn_iff.mp (of_decide_eq_true (Except.ok.inj hok))
    constructor
    -- another digit in one place: its weight there is another, since the weights are injective
    · rintro u c v c' rfl hc' hne
      obtain ⟨d, hd⟩ := Option.isSome_iff_exists.mp (ht c (by simp))
      obtain ⟨d', hd'⟩ := Option.isSome_iff_exists.mp hc'
      have hdigits : ∀ x ∈ u ++ c' :: v, (decimal x).isSome = true := by
        intro x hx
        rcases List.mem_append.mp hx with hu | hv
        · exact ht x (by simp [hu])
        · rcases List.mem_cons.mp hv with rfl | hv
          · exact hc'
          · exact ht x (by simp [hv])
      rw [luhnOk_decimal hdigits, decide_eq_false]
      rw [luhn_iff, values_reverse hd', ← hzero, values_reverse hd]
      refine total_replace (D := {d | d < 10})
        (fun x hx y hy h => luhnWeight_inj hx hy h) (decimal_lt hd') (decimal_lt hd) ?_
      rintro rfl
      exact hne (hd'.trans hd.symm)
    -- two neighbours the other way round: of their weights only those of 0 and 9 swap freely
    · rintro u a b v rfl hne
      obtain ⟨d, hd⟩ := Option.isSome_iff_exists.mp (ht a (by simp))
      obtain ⟨e, he⟩ := Option.isSome_iff_exists.mp (ht b (by simp))
      have hdigits : ∀ x ∈ u ++ b :: a :: v, (decimal x).isSome = true := by
        intro x hx
        exact ht x (by simp only [List.mem_append, List.mem_cons] at hx ⊢; tauto)
      have hswap : ∀ {x y : Char} {m n : Nat}, decimal x = some m → decimal y = some n →
          values (u ++ x :: y :: v).reverse = values v.reverse ++ n :: m :: values u.reverse := by
        intro x y m n hx hy
        have hassoc : u ++ x :: y :: v = (u ++ [x]) ++ y :: v := by simp
        rw [hassoc, values_reverse hy, List.reverse_append, List.reverse_singleton,
          List.singleton_append, values_cons hx]
      rw [luhnOk_decimal hdigits]
      congr 1
      rw [decide_eq_decide, luhn_iff, hswap he hd, ← hzero, hswap hd he, total_swap,
        luhnWeight_swap (decimal_lt hd) (decimal_lt he), hd, he]
      · simp
      · rintro rfl
        exact hne (hd.trans he.symm)
  -- the last digit has weight one, so that exactly one value of it completes the sum
  · obtain ⟨d, hd, hcomplete⟩ := exists_unique_completion (v := values t.reverse) luhnWeight_zero
    refine ⟨d, hd, fun c d' hc => ?_⟩
    have hdigits : ∀ x ∈ t ++ [c], (decimal x).isSome = true := by
      intro x hx
      rcases List.mem_append.mp hx with hx | hx
      · exact ht x hx
      · rw [List.mem_singleton.mp hx, hc]
        rfl
    rw [luhnOk_decimal hdigits]
    congr 1
    rw [decide_eq_decide, luhn_iff, values_reverse hc]
    exact hcomplete d' (decimal_lt hc)

theorem luhn_detects_test_card :
    luhnOk "4242424242424242".toList = .ok true ∧
      luhnOk "4242424242424244".toList = .ok false ∧
      luhnOk "4242424242422442".toList = .ok false ∧
      ∃ d < 10, ∀ c d', decimal c = some d' →
        luhnOk ("4242424242424242".toList ++ [c]) = .ok (decide (d' = d)) := by
  have ht : ∀ c ∈ "4242424242424242".toList, (decimal c).isSome = true :=
    List.all_eq_true.mp (by decide)
  have hok : luhnOk "4242424242424242".toList = .ok true := by decide
  obtain ⟨hdetects, hcompletes⟩ := luhn_detects "4242424242424242".toList ht
  obtain ⟨hreplace, hswap⟩ := hdetects hok
  refine ⟨hok, hreplace "424242424242424".toList '2' [] '4' (by decide) (by decide) (by decide),
    ?_, hcompletes⟩
  exact hswap "424242424242".toList '4' '2' "42".toList (by decide) (by decide)

end Orbyt.CashinService
