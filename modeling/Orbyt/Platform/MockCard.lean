/-
  Orbyt.Platform.MockCard — the checks on simulated card details

  `_luhn_ok` and `validate_mock_card` of `cashin_service.py`.  A ValueError of the expiry's
  `int` and of its unpacking is caught; one of `int` inside `_luhn_ok` is not.
-/
import Orbyt.Lib.PyText
import Orbyt.Platform.World

namespace Orbyt.CashinService

open PyText

structure MockCard where
  number : Text
  /-- MM/YY -/
  expiry : Text
  cvv : Text
  name : Text
  deriving Repr, DecidableEq

/-- A year and a month. -/
abbrev YearMonth := Int × Int

/-- Python's order of tuples. -/
def YearMonth.before (a b : YearMonth) : Prop := a.1 < b.1 ∨ a.1 = b.1 ∧ a.2 < b.2

instance (a b : YearMonth) : Decidable (a.before b) := inferInstanceAs (Decidable (_ ∨ _))

/-- `int(ch)`, with its ValueError. -/
def digitOf (c : Char) : Except Exn Int :=
  match int [c] with
  | some d => .ok d
  | none => .error (.other "ValueError"
      ("invalid literal for int() with base 10: '" ++ String.ofList [c] ++ "'"))

/-- Every second digit from the right is doubled, less 9. -/
def luhnTerm (i : Nat) (d : Int) : Int :=
  if i % 2 = 1 then if 4 < d then d * 2 - 9 else d * 2 else d

/-- The loop of `_luhn_ok`, from its `i`-th round on. -/
def luhnTotal (i : Nat) (total : Int) : Text → Except Exn Int
  | [] => .ok total
  | c :: rest => do
      let d ← digitOf c
      luhnTotal (i + 1) (total + luhnTerm i d) rest

def luhnOk (digits : Text) : Except Exn Bool := do
  let total ← luhnTotal 0 0 digits.reverse
  return total % 10 == 0

/-- `card.number.replace(" ", "").replace("-", "")` -/
def MockCard.digits (card : MockCard) : Text := remove '-' (remove ' ' card.number)

/-- `digits.isdigit() and 13 <= len(digits) <= 19 and _luhn_ok(digits)` -/
def numberOk (digits : Text) : Except Exn Bool :=
  if allDigits digits ∧ 13 ≤ digits.length ∧ digits.length ≤ 19 then luhnOk digits
  else return false

/-- The body of the `try`; `none` is a ValueError. -/
def expiryOf (expiry : Text) : Option YearMonth :=
  match split '/' (strip expiry) with
  | [month, year] => do
      let month ← int month
      let year ← int year
      -- the year is not held to two digits
      if 1 ≤ month ∧ month ≤ 12 then return (2000 + year, month) else none
  | _ => none

/-- `validate_mock_card`, in the month `today`. -/
def validateMockCard (today : YearMonth) (card : MockCard) : Except Exn Text := do
  if ← numberOk card.digits then
    match expiryOf card.expiry with
    | none => throw (.remittance "Expiry must be in MM/YY format.")
    | some expiry =>
        if expiry.before today then
          throw (.remittance "This card has expired.")
        else if ¬ (allDigits card.cvv ∧ (card.cvv.length = 3 ∨ card.cvv.length = 4)) then
          throw (.remittance "CVV must be 3 or 4 digits.")
        else if strip card.name = [] then
          throw (.remittance "Enter the name on the card.")
        else
          return card.digits.drop (card.digits.length - 4)
  else
    throw (.remittance
      "Card number is not valid. Use a test card such as 4242 4242 4242 4242.")

end Orbyt.CashinService
