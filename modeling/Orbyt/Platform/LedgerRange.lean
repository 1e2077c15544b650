/-
  Orbyt.Platform.LedgerRange — which ledgers a server says it holds

  `_parse_complete_ledgers` and `has_complete_ledger_range` of `xrpl_service.py`: the server
  lists what it holds as "32570-97531234,97531240", and a missing transaction may count as
  dead only where one range of that list covers its whole window.  The client's request is
  outside; `ServerInfo` is what is read of its answer.
-/
import Orbyt.Lib.PyText

namespace Orbyt.XrplService

open PyText

/-- `chunk.split("-", 1)`, for a chunk with a hyphen. -/
def splitHyphen (chunk : Text) : Text × Text :=
  (chunk.takeWhile (· != '-'), (chunk.dropWhile (· != '-')).drop 1)

/-- A round of the loop; `none` skips the chunk. -/
def parseChunk (chunk : Text) : Option (Int × Int) :=
  let chunk := strip chunk
  if chunk = [] ∨ chunk = "empty".toList then none
  else if '-' ∈ chunk then do
    let low ← int (splitHyphen chunk).1
    let high ← int (splitHyphen chunk).2
    return (low, high)
  else do
    let index ← int chunk
    return (index, index)

def parseCompleteLedgers (completeLedgers : Text) : List (Int × Int) :=
  (split ',' completeLedgers).filterMap parseChunk

/-- The answer to a `ServerInfo` request. -/
structure ServerInfo where
  isSuccessful : Bool
  /-- `info.complete_ledgers`; it may be missing. -/
  completeLedgers : Option Text
  deriving Repr, DecidableEq

def hasCompleteLedgerRange (start stop : Int) (resp : ServerInfo) : Bool :=
  if !resp.isSuccessful then false
  else (parseCompleteLedgers (resp.completeLedgers.getD [])).any
    (fun range => range.1 ≤ start && stop ≤ range.2)

end Orbyt.XrplService
