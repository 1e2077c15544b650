/-
  Orbyt.Lib.PyUuid — Python's reading of a UUID

  `uuid.UUID(text)` takes the words `urn:` and `uuid:` out of the text, strips braces, drops
  hyphens, and reads the 32 characters left with `int(_, 16)`.  A UUID is its number, so two
  spellings of one number are the same UUID.  `int` with base 16 has no limit on the number
  of digits; it takes blanks around the number, a sign, `0x` in front, single underscores
  between digits, and digits of every script up to nine.

  Main result: `uuid`.
-/
import Mathlib.Algebra.Group.Int.Defs
import Orbyt.Lib.PyText

namespace PyText

/-! ## §1. Words and braces. -/

/-- One pass over the text: a hit of the word is skipped, character by character. -/
def removeWordFrom (word : Text) : Nat → Text → Text
  | _, [] => []
  | skip + 1, _ :: t => removeWordFrom word skip t
  | 0, c :: t =>
      if word.isPrefixOf (c :: t) then removeWordFrom word (word.length - 1) t
      else c :: removeWordFrom word 0 t

/-- `str.replace(word, "")`, for a word that is not empty. -/
def removeWord (word t : Text) : Text := removeWordFrom word 0 t

def isBrace (c : Char) : Bool := c == '\x7b' || c == '\x7d'

/-- `str.strip` of both braces. -/
def stripBraces (t : Text) : Text := (t.dropWhile isBrace).rdropWhile isBrace

/-! ## §2. Base 16. -/

def hexDigit (c : Char) : Option Nat :=
  if '0' ≤ c ∧ c ≤ '9' then some (c.toNat - 48)
  else if 'a' ≤ c ∧ c ≤ 'f' then some (c.toNat - 87)
  else if 'A' ≤ c ∧ c ≤ 'F' then some (c.toNat - 55)
  else none

/-- The `0x` in front of the digits, and one underscore after it. -/
def dropBase : Text → Text
  | '0' :: 'x' :: '_' :: t => t
  | '0' :: 'X' :: '_' :: t => t
  | '0' :: 'x' :: t => t
  | '0' :: 'X' :: t => t
  | t => t

/-- Hexadecimal digits in groups joined by single underscores. -/
def hexGroups (t : Text) : Option (List Nat) :=
  let groups := split '_' t
  if groups.all (fun g => !g.isEmpty) then groups.flatten.mapM hexDigit else none

/-- `int(t, 16)`; `none` is a ValueError. -/
def intBase16 (t : Text) : Option Int := do
  let ascii ← t.mapM asAscii
  let (negative, rest) := takeSign ((ascii.dropWhile isBlank).rdropWhile isBlank)
  let digits ← hexGroups (dropBase rest)
  let value : Nat := digits.foldl (fun n d => 16 * n + d) 0
  return if negative then -(value : Int) else value

/-! ## §3. Identifiers. -/

abbrev Uuid := Fin (2 ^ 128)

/-- `uuid.UUID(t)`; `none` is a ValueError. -/
def uuid (t : Text) : Option Uuid :=
  let hex := remove '-' (stripBraces (removeWord "uuid:".toList (removeWord "urn:".toList t)))
  if hex.length ≠ 32 then none
  else (intBase16 hex).bind fun n =>
    if h : 0 ≤ n ∧ n < 2 ^ 128 then some ⟨n.toNat, by omega⟩ else none

-- one UUID in its plain spelling and as a URN in capitals
example : uuid "0000000a-0000-0000-0000-00000000000b".toList =
    uuid "urn:uuid:0000000A00000000000000000000000B".toList := by decide +kernel
example : uuid "0000000a-0000-0000-0000-00000000000".toList = none := by decide +kernel

end PyText
