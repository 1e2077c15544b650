/-
  Orbyt.Platform.Monitor — what an admin is shown of the sends

  The settlement issues of `cashin_service.py`: failed settlements, and those that have been
  queued or in a worker's hands for too long.  And the transaction monitor: the filters that
  `admin.py` reads from the query string, and `list_transactions`.

  A `created_at` counts the microseconds since 0001-01-01T00:00 UTC here.
-/
import Orbyt.Lib.PyDate
import Orbyt.Lib.SqlLike
import Orbyt.Platform.CashinService

namespace Orbyt

/-- The table `transactions`: ids and rows. -/
def World.transactions (s : World) : List (Nat × Txn) :=
  (List.range s.nextId).filterMap (fun t => (s.txns t).map (fun x => (t, x)))

theorem mem_transactions {s : World} {t : Nat} {x : Txn} :
    (t, x) ∈ s.transactions ↔ t < s.nextId ∧ s.txns t = some x := by
  simp [World.transactions, and_left_comm]

namespace CashinService

/-! ## §1. Settlement issues. -/

/-- Failed, or queued or in progress and last written before
`stuck_before = asked - stuckAfter`. -/
def isSettlementIssue (asked : Nat) (x : Txn) : Bool :=
  x.settlementStatus == .failed ||
    ((x.settlementStatus == .queued || x.settlementStatus == .processing) &&
      decide (x.updatedAt + stuckAfter < asked))

theorem isSettlementIssue_iff {asked : Nat} {x : Txn} :
    isSettlementIssue asked x = true ↔ x.settlementStatus = .failed ∨
      (x.settlementStatus = .queued ∨ x.settlementStatus = .processing) ∧
        x.updatedAt + stuckAfter < asked := by
  simp only [isSettlementIssue, Bool.or_eq_true, Bool.and_eq_true, beq_iff_eq, decide_eq_true_eq]

/-- `list_settlement_issues`, last written first. -/
def listSettlementIssues (asked : Nat) (s : World) : List (Nat × Txn) :=
  (s.transactions.filter (fun row => isSettlementIssue asked row.2)).mergeSort
    (fun row row' => decide (row'.2.updatedAt ≤ row.2.updatedAt))

theorem mem_listSettlementIssues {asked t : Nat} {x : Txn} {s : World} :
    (t, x) ∈ listSettlementIssues asked s ↔
      (t < s.nextId ∧ s.txns t = some x) ∧ isSettlementIssue asked x = true := by
  rw [listSettlementIssues, List.mem_mergeSort, List.mem_filter, mem_transactions]

end CashinService

/-- The members of the enumerations, by value. -/
def CashInStatus.members : List (CashInStatus × String) :=
  [(.pending, "pending"), (.received, "received"), (.failed, "failed")]

def SettlementStatus.members : List (SettlementStatus × String) :=
  [(.notQueued, "not_queued"), (.queued, "queued"), (.processing, "processing"),
   (.completed, "completed"), (.failed, "failed")]

namespace Monitor

open PyText
open PyDate

/-! ## §2. The tables. -/

structure User where
  fullName : Text
  email : Text
  deriving Repr, DecidableEq

structure Beneficiary where
  fullName : Text
  email : Option Text
  deriving Repr, DecidableEq

structure Tables where
  transactions : List (Nat × Txn)
  users : Nat → Option User
  beneficiaries : Nat → Option Beneficiary

/-! ## §3. The query string. -/

/-- The parameters of the route as they come. -/
structure MonitorQuery where
  cashin : Option Text
  settlement : Option Text
  dateFrom : Option Text
  dateTo : Option Text
  q : Option Text
  aml : Option Text
  deriving Repr, DecidableEq

/-- `_enum_filter`: `enum_cls(raw)`, or `None` for an unknown value. -/
def enumFilter {σ : Type} (members : List (σ × String)) (raw : Option Text) : Option σ :=
  match raw with
  | none => none
  | some raw => (members.find? (fun m => m.2.toList == raw)).map Prod.fst

/-- `_date_filter` -/
def dateFilter (raw : Option Text) : Option Date :=
  match raw with
  | none => none
  | some raw => if raw.isEmpty then none else fromisoformat (strip raw)

/-- The keys of `_aml_filter`. -/
def amlWords : List (Bool × String) :=
  [(true, "1"), (true, "flagged"), (false, "0"), (false, "clear")]

/-- `str.lower`, as far as it makes one of `amlWords`. -/
def lower (t : Text) : Text := t.map Char.toLower

/-- `_aml_filter` -/
def amlFilter (raw : Option Text) : Option Bool :=
  enumFilter amlWords (some (lower (strip (raw.getD []))))

structure Filters where
  cashinStatus : Option CashInStatus
  settlementStatus : Option SettlementStatus
  dateFrom : Option Date
  dateTo : Option Date
  userQuery : Option Text
  amlFlagged : Option Bool

def MonitorQuery.filters (query : MonitorQuery) : Filters where
  cashinStatus := enumFilter CashInStatus.members query.cashin
  settlementStatus := enumFilter SettlementStatus.members query.settlement
  dateFrom := dateFilter query.dateFrom
  dateTo := dateFilter query.dateTo
  userQuery := if strip (query.q.getD []) = [] then none else some (strip (query.q.getD []))
  amlFlagged := amlFilter query.aml

/-! ## §4. `list_transactions`. -/

/-- `MONITOR_LIMIT` -/
def monitorLimit : Nat := 500

section Listing

variable (zone : Zone) (F : SqlLike.Folding)

/-- A constraint that is not given is none. -/
def whenGiven {α β : Type} (f : α → Except Exn β) : Option α → Except Exn (Option β)
  | none => .ok none
  | some a => (f a).map some

def overflowError : Exn := .other "OverflowError" "date value out of range"

/-- `_day_bounds`, which is `day_start_utc`. -/
def dayBounds (day : Date) : Except Exn Nat :=
  match zone.startUtc day with
  | some τ => .ok τ
  | none => .error overflowError

/-- `_day_bounds(date_to + timedelta(days=1))` -/
def dayAfterBounds (day : Date) : Except Exn Nat :=
  match day.next with
  | some next => dayBounds zone next
  | none => .error overflowError

/-- The term as it stands between two wildcards, case folded.  The database takes no text with a
NUL character. -/
def likePattern (term : Text) : Except Exn (List SqlLike.Token) :=
  if '\x00' ∈ term then .error (.db "DBAPIError" "invalid byte sequence for encoding UTF8: 0x00")
  else
    match SqlLike.tokens (("%".toList ++ term ++ "%".toList).map F.fold) with
    | some p => .ok p
    | none => .error (.db "DataError" "LIKE pattern must not end with escape character")

/-- `column.ilike(pattern)`; a NULL is no match. -/
def ilike (pattern : List SqlLike.Token) (column : Text) : Bool :=
  SqlLike.accepts pattern (column.map F.fold)

/-- The three EXISTS subqueries: sender, recipient, beneficiary. -/
def matchesParty (tables : Tables) (pattern : List SqlLike.Token) (x : Txn) : Bool :=
  let matchesUser := fun user : User => ilike F pattern user.fullName || ilike F pattern user.email
  (tables.users x.senderId).any matchesUser
    || (x.recipientUserId.bind tables.users).any matchesUser
    || (tables.beneficiaries x.beneficiaryId).any (fun beneficiary =>
        ilike F pattern beneficiary.fullName || beneficiary.email.any (ilike F pattern))

/-- The WHERE clause. -/
def selects (tables : Tables) (filters : Filters) (since before : Option Nat)
    (pattern : Option (List SqlLike.Token)) (x : Txn) : Bool :=
  filters.cashinStatus.all (x.cashinStatus == ·)
    && filters.settlementStatus.all (x.settlementStatus == ·)
    && since.all (fun τ => decide (τ ≤ x.createdAt))
    && before.all (fun τ => decide (x.createdAt < τ))
    && filters.amlFlagged.all (x.amlFlagged == ·)
    && pattern.all (fun p => matchesParty F tables p x)

def newestFirst (row row' : Nat × Txn) : Bool := decide (row'.2.createdAt ≤ row.2.createdAt)

/-- `(user_query or "").strip()`, if anything is left. -/
def Filters.term (filters : Filters) : Option Text :=
  if strip (filters.userQuery.getD []) = [] then none
  else some (strip (filters.userQuery.getD []))

/-- `list_transactions` -/
def listTransactions (tables : Tables) (filters : Filters) : Except Exn (List (Nat × Txn)) := do
  let since ← whenGiven (dayBounds zone) filters.dateFrom
  let before ← whenGiven (dayAfterBounds zone) filters.dateTo
  -- bound and matched by the database, after both dates have been computed
  let pattern ← whenGiven (likePattern F) filters.term
  return ((tables.transactions.filter (fun row =>
    selects F tables filters since before pattern row.2)).mergeSort newestFirst).take monitorLimit

/-- `transaction_monitor`: what the page lists. -/
def transactionMonitor (tables : Tables) (query : MonitorQuery) :
    Except Exn (List (Nat × Txn)) :=
  listTransactions zone F tables query.filters

end Listing

end Monitor

end Orbyt
