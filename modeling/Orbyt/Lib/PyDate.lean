/-
  Orbyt.Lib.PyDate — Python's dates, and the days of a time zone

  A `datetime.date` is its proleptic Gregorian ordinal: 1 is 0001-01-01 and `maxOrdinal` is
  9999-12-31.  `fromisoformat` is that of CPython 3.11: calendar dates and week dates, with
  separators or without; what follows the last field it needs is not looked at.

  An instant is a number of microseconds since 0001-01-01T00:00 UTC.  A `Zone` says which local
  date an instant has; its offset from UTC is less than a day.  Date and datetime arithmetic
  raises OverflowError outside the years 1 to 9999.

  Main results:
    * `Zone.startUtc_isSome` — which local dates begin at an instant that can be written;
    * `Zone.startUtc_next` — the day after any date begins at one.
-/
import Mathlib.Data.List.Basic
import Mathlib.Tactic.IntervalCases
import Orbyt.Lib.PyText

namespace PyDate

open PyText

/-! ## §1. The calendar. -/

def isLeap (y : Nat) : Bool := y % 4 == 0 && (y % 100 != 0 || y % 400 == 0)

/-- `_days_before_year` -/
def daysBeforeYear (y : Nat) : Nat :=
  (y - 1) * 365 + (y - 1) / 4 - (y - 1) / 100 + (y - 1) / 400

/-- `_days_in_month` -/
def daysInMonth (y m : Nat) : Nat :=
  if m = 2 then if isLeap y then 29 else 28
  else if m = 4 ∨ m = 6 ∨ m = 9 ∨ m = 11 then 30 else 31

/-- `_days_before_month` -/
def daysBeforeMonth (y m : Nat) : Nat :=
  ((List.range (m - 1)).map (fun k => daysInMonth y (k + 1))).sum

/-- `_ymd2ord` -/
def ymd2ord (y m d : Nat) : Nat := daysBeforeYear y + daysBeforeMonth y m + d

/-- `date.max.toordinal()` -/
def maxOrdinal : Nat := 3652059

structure Date where
  ordinal : Nat
  pos : 0 < ordinal
  le : ordinal ≤ maxOrdinal
  deriving DecidableEq

/-- The fields `date(y, m, d)` accepts. -/
def IsDate (y m d : Nat) : Prop :=
  (1 ≤ y ∧ y ≤ 9999) ∧ (1 ≤ m ∧ m ≤ 12) ∧ 1 ≤ d ∧ d ≤ daysInMonth y m

instance (y m d : Nat) : Decidable (IsDate y m d) :=
  inferInstanceAs (Decidable (_ ∧ _ ∧ _))

/-- A date is in its year. -/
theorem dayOfYear_le {y m d : Nat} (h : IsDate y m d) :
    daysBeforeMonth y m + d ≤ if isLeap y then 366 else 365 := by
  obtain ⟨-, ⟨hm, hm'⟩, -, hd⟩ := h
  interval_cases m <;> cases hleap : isLeap y <;>
    simp [daysBeforeMonth, daysInMonth, hleap, List.range_succ] at hd ⊢ <;> omega

/-- **Every date has an ordinal.** -/
theorem ymd2ord_le {y m d : Nat} (h : IsDate y m d) : ymd2ord y m d ≤ maxOrdinal := by
  have hday := dayOfYear_le h
  obtain ⟨⟨hy, hy'⟩, -⟩ := h
  unfold ymd2ord daysBeforeYear maxOrdinal
  by_cases hlast : y = 9999
  · subst hlast
    have hleap : isLeap 9999 = false := by decide
    rw [hleap] at hday
    simp only [Bool.false_eq_true, if_false] at hday
    omega
  · have hyear : daysBeforeMonth y m + d ≤ 366 := by
      refine Nat.le_trans hday ?_
      split <;> omega
    omega

/-- `date(y, m, d)`, `none` where it raises ValueError. -/
def Date.of (y m d : Nat) : Option Date :=
  if h : IsDate y m d then
    some ⟨ymd2ord y m d, Nat.lt_of_lt_of_le h.2.2.1 (Nat.le_add_left d _), ymd2ord_le h⟩
  else none

/-- `_isoweek1monday` -/
def isoweek1monday (y : Nat) : Nat :=
  let firstday := ymd2ord y 1 1
  let firstweekday := (firstday + 6) % 7
  if 3 < firstweekday then firstday - firstweekday + 7 else firstday - firstweekday

/-- `_isoweek_to_gregorian`: a year has 53 weeks if it begins on a Thursday, or is a leap year
that begins on a Wednesday. -/
def Date.ofWeek (y week day : Nat) : Option Date :=
  let firstWeekday := ymd2ord y 1 1 % 7
  let weeks := if firstWeekday = 4 ∨ firstWeekday = 3 ∧ isLeap y then 53 else 52
  let ordinal := isoweek1monday y + (week - 1) * 7 + (day - 1)
  if (1 ≤ y ∧ y ≤ 9999) ∧ (1 ≤ week ∧ week ≤ weeks) ∧ 1 ≤ day ∧ day ≤ 7 then
    if h : 0 < ordinal ∧ ordinal ≤ maxOrdinal then some ⟨ordinal, h.1, h.2⟩ else none
  else none

/-! ## §2. Reading a date. -/

/-- `parse_digits`: the next `n` digits, and what follows them. -/
def parseDigits (n : Nat) (t : Text) : Option (Nat × Text) :=
  if (t.take n).length = n ∧ (t.take n).all isAsciiDigit then some (value (t.take n), t.drop n)
  else none

/-- A separator, if there are any. -/
def skipSeparator (separated : Bool) (t : Text) : Option Text :=
  if separated then if t.head? = some '-' then some t.tail else none else some t

/-- The length in UTF-8, in which CPython reads it. -/
def utf8Length (t : Text) : Nat := (t.map (fun c => c.utf8Size)).sum

/-- Week and day after the `W`; the day is Monday if nothing more is there. -/
def parseWeek (separated : Bool) (year : Nat) (t : Text) : Option Date := do
  let (week, rest) ← parseDigits 2 t
  if rest.isEmpty then Date.ofWeek year week 1
  else
    let rest ← skipSeparator separated rest
    let (day, _) ← parseDigits 1 rest
    Date.ofWeek year week day

def parseMonth (separated : Bool) (year : Nat) (t : Text) : Option Date := do
  let (month, rest) ← parseDigits 2 t
  let rest ← skipSeparator separated rest
  let (day, _) ← parseDigits 2 rest
  Date.of year month day

/-- `date.fromisoformat`, `none` where it raises ValueError. -/
def fromisoformat (t : Text) : Option Date :=
  if utf8Length t = 7 ∨ utf8Length t = 8 ∨ utf8Length t = 10 then do
    let (year, rest) ← parseDigits 4 t
    let separated := rest.head? = some '-'
    let rest := if separated then rest.tail else rest
    if rest.head? = some 'W' then parseWeek separated year rest.tail
    else parseMonth separated year rest
  else none

example : (fromisoformat "2026-01-15".toList).map Date.ordinal = some 739631 := by decide +kernel
example : fromisoformat "2026-W03-4".toList = fromisoformat "20260115".toList := by decide +kernel
example : fromisoformat "2026-02-29".toList = none := by decide +kernel

/-! ## §3. Days of a time zone. -/

/-- A day in microseconds. -/
def dayLength : Int := 86400 * 1000000

/-- A time zone: the local date of an instant, and the instant a local date begins at. -/
structure Zone where
  localDay : Int → Int
  midnight : Int → Int
  midnight_le : ∀ d τ, midnight d ≤ τ ↔ d ≤ localDay τ
  /-- The offset from UTC is less than a day either way. -/
  offset : ∀ d, (d - 2) * dayLength < midnight d ∧ midnight d < d * dayLength

/-- A zone that keeps one offset. -/
def Zone.fixed (offset : Int) (h : -dayLength < offset ∧ offset < dayLength) : Zone where
  localDay τ := (τ + offset) / dayLength + 1
  midnight d := (d - 1) * dayLength - offset
  midnight_le d τ := by
    unfold dayLength at h ⊢
    omega
  offset d := by
    unfold dayLength at h ⊢
    omega

/-- `datetime.combine(d, time.min, tzinfo=zone).astimezone(utc)`, `none` where it raises
OverflowError. -/
def Zone.startUtc (zone : Zone) (d : Date) : Option Nat :=
  if 0 ≤ zone.midnight d.ordinal ∧ zone.midnight d.ordinal < maxOrdinal * dayLength then
    some (zone.midnight d.ordinal).toNat
  else none

/-- `d + timedelta(days=1)`, `none` where it raises OverflowError. -/
def Date.next (d : Date) : Option Date :=
  if h : d.ordinal + 1 ≤ maxOrdinal then some ⟨d.ordinal + 1, Nat.succ_pos _, h⟩ else none

variable {zone : Zone} {d d' : Date}

theorem Zone.startUtc_eq_some {n : Nat} (h : zone.startUtc d = some n) (τ : Nat) :
    n ≤ τ ↔ (d.ordinal : Int) ≤ zone.localDay τ := by
  unfold Zone.startUtc at h
  simp only [Option.ite_none_right_eq_some, Option.some.injEq] at h
  rw [← zone.midnight_le]
  omega

/-- The first instants of the first year are in no year, east of Greenwich. -/
theorem Zone.startUtc_isSome : (zone.startUtc d).isSome = true ↔ 0 ≤ zone.midnight d.ordinal := by
  have hbefore := (zone.offset d.ordinal).2
  have hle : (d.ordinal : Int) ≤ maxOrdinal := Int.ofNat_le.mpr d.le
  have hbound : (d.ordinal : Int) * dayLength ≤ maxOrdinal * dayLength := by
    unfold dayLength
    omega
  unfold Zone.startUtc
  constructor
  · intro h
    split at h
    next hτ => exact hτ.1
    next => cases h
  · intro h
    rw [if_pos ⟨h, Int.lt_of_lt_of_le hbefore hbound⟩]
    rfl

/-- No zone is a day ahead. -/
theorem Zone.startUtc_next (h : d.next = some d') : (zone.startUtc d').isSome = true := by
  unfold Date.next at h
  split at h
  next hle =>
    cases h
    have hafter := (zone.offset ((d.ordinal + 1 : Nat) : Int)).1
    have hpos := d.pos
    rw [Zone.startUtc_isSome]
    show 0 ≤ zone.midnight ((d.ordinal + 1 : Nat) : Int)
    generalize zone.midnight ((d.ordinal + 1 : Nat) : Int) = τ at hafter
    unfold dayLength at hafter
    omega
  next => cases h

theorem Date.next_isSome : d.next.isSome = true ↔ d.ordinal < maxOrdinal := by
  unfold Date.next
  split
  next hle => exact ⟨fun _ => hle, fun _ => rfl⟩
  next hle =>
    constructor
    · intro h
      cases h
    · intro h
      exact absurd h hle

theorem Date.next_ordinal (h : d.next = some d') : d'.ordinal = d.ordinal + 1 := by
  unfold Date.next at h
  split at h
  next => cases h; rfl
  next => cases h

end PyDate
