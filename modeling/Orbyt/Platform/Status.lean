/-
  Orbyt.Platform.Status — the ids a polling page asks for

  `_parse_ids` of `routers/status.py`: one bound and one set for two lists.  The rest of the
  route reads rows and renders them.
-/
import Orbyt.Lib.PyUuid

namespace Orbyt.Status

open PyText

/-- What an id is asked for as: a transaction or a cash-out. -/
inductive Kind
  | t | c
  deriving Repr, DecidableEq

def MAX_IDS : Nat := 50

/-- The local variables of `_parse_ids`. -/
structure Parsed where
  seen : List (Kind × Uuid) := []
  txnIds : List Uuid := []
  cashoutIds : List Uuid := []
  deriving Repr, DecidableEq

/-- `seen.add((kind, value))` and `out.append(value)`, for the list of the kind. -/
def Parsed.add (s : Parsed) (kind : Kind) (value : Uuid) : Parsed :=
  match kind with
  | .t => { s with seen := s.seen ++ [(kind, value)], txnIds := s.txnIds ++ [value] }
  | .c => { s with seen := s.seen ++ [(kind, value)], cashoutIds := s.cashoutIds ++ [value] }

/-- A round of the inner loop; an error is the `return` in it. -/
def parseOne (kind : Kind) (s : Parsed) (raw : Text) : Except Parsed Parsed :=
  if MAX_IDS ≤ s.seen.length then .error s
  else match uuid raw with
    | none => .ok s
    | some value => if (kind, value) ∈ s.seen then .ok s else .ok (s.add kind value)

/-- The inner loop. -/
def parseKind (kind : Kind) (s : Parsed) : List Text → Except Parsed Parsed
  | [] => .ok s
  | raw :: rest => (parseOne kind s raw).bind (parseKind kind · rest)

def parseIds (t c : List Text) : List Uuid × List Uuid :=
  match (parseKind .t {} t).bind (parseKind .c · c) with
  | .ok s | .error s => (s.txnIds, s.cashoutIds)

end Orbyt.Status
