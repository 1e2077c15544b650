/-
  Orbyt.Platform.Office — the tables that sends and cash-outs are made out from

  Users and beneficiaries (`Accounts`), the active row of `fee_config` and the rows of
  `limit_tiers`, as far as a request edits them.  These requests and those on transactions and
  cash-outs run in sessions of one kind; a request edits either accounts or the configuration, so
  each COMMIT here is of its own tables.

  An edit of the configuration loads a row and assigns the numbers of a form to it.  The commit
  writes what differs from what was loaded, takes the row's lock for it, and is refused where a
  number does not fit its column.
-/
import Orbyt.Platform.Accounts
import Orbyt.Platform.Configuration

namespace Orbyt.Office

open Configuration
open Function (update)

/-! ## §1. Tables and sessions. -/

/-- A row of `limit_tiers`. -/
structure Tier where
  tierName : String
  limits : TierColumns
  deriving Repr, DecidableEq

structure World where
  directory : Directory.World
  /-- The active row of `fee_config`. -/
  fees : Option FeeColumns
  tiers : Nat → Option Tier
  feesLock : Option Nat
  tierLock : Nat → Option Nat

/-- As the migrations leave it. -/
def World.initial : World where
  directory := Directory.World.initial
  fees := some .seeded
  tiers := fun n => [⟨"unverified", .unverified⟩, ⟨"standard", .standard⟩][n]?
  feesLock := none
  tierLock := fun _ => none

/-- A request on accounts other than a send, or an admin's form. -/
inductive Entry where
  | account (e : Directory.Entry) (notSend : e.isSend = false)
  | updateFees (form : FeeForm)
  | updateTierLimits (n : Nat) (form : TierForm)
  deriving Repr, DecidableEq

structure Session where
  /-- The session of a request on accounts. -/
  directory : Option Directory.Session
  /-- The rows written in the open transaction. -/
  feesWrite : Option FeeColumns
  tierWrites : Nat → Option Tier

def Session.start (directory : Option Directory.Entry) : Session where
  directory := directory.map Directory.Session.start
  feesWrite := none
  tierWrites := fun _ => none

def Session.fees (l : Session) (s : World) : Option FeeColumns := l.feesWrite.or s.fees
def Session.tier (l : Session) (s : World) (n : Nat) : Option Tier :=
  (l.tierWrites n).or (s.tiers n)

/-! ## §2. Calls. -/

inductive Op where
  | directory (o : Directory.Op)
  /-- `get_active_fee_config` -/
  | selectFees
  /-- The UPDATE of the active row, which was `loaded`, with what `values` changes. -/
  | updateFees (loaded : FeeColumns) (values : FeeValues)
  /-- `get_tier_by_id` -/
  | selectTier (n : Nat)
  | updateTier (n : Nat) (loaded : TierColumns) (values : TierValues)
  /-- COMMIT of a change to the configuration. -/
  | commit

@[reducible] def Op.Res : Op → Type
  | .directory o => o.Res
  | .selectFees => Option FeeColumns
  | .selectTier _ => Option Tier
  | .updateFees _ _ | .updateTier _ _ _ | .commit => Unit

/-- A statement of the session's database connection. -/
def Op.isStatement : Op → Bool
  | .directory .rollback | .directory (.respond _) => false
  | _ => true

def Op.isCommit : Op → Bool
  | .directory .commit | .commit => true
  | _ => false

/-- The session of a request is closed. -/
def World.close (i : Nat) (s : World) : World :=
  { s with
    directory := s.directory.close i
    feesLock := s.feesLock.filter (· != i)
    tierLock := release s.tierLock i }

/-- COMMIT: the session's writes become the stored rows and its locks are free. -/
def World.commit (i : Nat) (l : Session) (s : World) : World :=
  { s with
    fees := l.fees s
    tiers := l.tier s
    feesLock := s.feesLock.filter (· != i)
    tierLock := release s.tierLock i }

def Session.committed (l : Session) : Session :=
  { l with feesWrite := none, tierWrites := fun _ => none }

/-- What a call answers, or how the database refuses it; `none` where it waits. -/
abbrev Answered (o : Op) := Option (Except Directory.Exn o.Res × Session × World)

def exec (S : Directory.Setting) (i : Nat) (l : Session) (s : World) : (o : Op) → Answered o
  | .directory o =>
      match l.directory with
      | some d =>
          (Directory.exec S i o none d s.directory).map (fun r =>
            (r.1, { l with directory := some r.2.1 }, { s with directory := r.2.2 }))
      | none => none
  | .selectFees => some (.ok (l.fees s), l, s)
  | .updateFees loaded values =>
      match values.store, l.fees s with
      | none, _ => some (.error .dataError, l, s)
      | some new, some stored =>
          if s.feesLock.all (· == i) then
            some (.ok (), { l with feesWrite := some (loaded.edited values new stored) },
              { s with feesLock := some i })
          else none
      | some _, none => none
  | .selectTier n => some (.ok (l.tier s n), l, s)
  | .updateTier n loaded values =>
      match values.store, l.tier s n with
      | none, _ => some (.error .dataError, l, s)
      | some new, some stored =>
          if freeFor s.tierLock i n then
            let written := { stored with limits := loaded.edited values new stored.limits }
            some (.ok (), { l with tierWrites := update l.tierWrites n (some written) },
              { s with tierLock := update s.tierLock n (some i) })
          else none
      | some _, none => none
  | .commit => some (.ok (), l.committed, s.commit i l)

end Orbyt.Office
