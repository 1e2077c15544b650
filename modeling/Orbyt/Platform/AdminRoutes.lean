/-
  Orbyt.Platform.AdminRoutes — the requests on the office's tables

  `update_fees` and `update_tier_limits` of `routers/admin.py`, with `update_fee_config` and
  `update_tier`, as programs of the platform; and the requests on accounts, whose calls become
  calls of the platform one by one.
-/
import Orbyt.Platform.BeneficiaryService
import Orbyt.Platform.Exec

namespace Orbyt.Office

open Interleave
open Configuration

/-- A call on the configuration; what the database refuses is raised. -/
def ask (o : Op) : Program o.Res := do
  match ← call (.office o) with
  | .ok answer => return answer
  | .error _ => throw (.db "DBAPIError" "numeric field overflow")

/-- The redirect of both forms, with its flash message and category. -/
def toConfig (text kind : String) : Directory.Reply :=
  .redirect "/admin/config" (some (text.toList, kind))

/-! ## §1. Fees. -/

/-- A flush writes only where a number has changed. -/
def flushFees (loaded : FeeColumns) (values : FeeValues) : Program Unit :=
  if values = loaded.values then return () else ask (.updateFees loaded values)

/-- `update_fee_config` -/
def updateFeeConfig (loaded : FeeColumns) (values : FeeValues) : Program Unit := do
  flushFees loaded values
  ask .commit
  call .refresh

/-- `update_fees` -/
def updateFees (form : FeeForm) : Program Directory.Reply := do
  match checkedFees form with
  | .error text => return toConfig ("Invalid value: " ++ text) "danger"
  | .ok values =>
      match ← ask .selectFees with
      | none => return toConfig "No active fee configuration row exists to edit." "danger"
      | some cfg =>
          updateFeeConfig cfg values
          return toConfig "Fee configuration saved. It applies to quotes generated from now on."
            "success"

/-! ## §2. Limits. -/

def flushTier (n : Nat) (loaded : TierColumns) (values : TierValues) : Program Unit :=
  if values = loaded.values then return () else ask (.updateTier n loaded values)

/-- `update_tier` -/
def updateTier (n : Nat) (loaded : TierColumns) (values : TierValues) : Program Unit := do
  flushTier n loaded values
  ask .commit
  call .refresh

/-- `update_tier_limits` -/
def updateTierLimits (n : Nat) (form : TierForm) : Program Directory.Reply := do
  match checkedTier form with
  | .error text => return toConfig ("Invalid value: " ++ text) "danger"
  | .ok values =>
      match ← ask (.selectTier n) with
      | none => return toConfig "Tier not found." "danger"
      | some tier =>
          updateTier n tier.limits values
          return toConfig ("Limits for '" ++ tier.tierName ++ "' updated.") "success"

/-! ## §3. Accounts. -/

/-- A call of a request on accounts; what the connection raises escapes its handlers. -/
def onAccounts (o : Directory.Op) : Program (Except Directory.Exn o.Res) := do
  match ← Prog.attempt (call (.office (.directory o))) with
  | .ok answer => return answer
  | .error exc => return .error (.other exc.typeName)

def body (S : Setting) : Entry → Program Unit
  | .account e _ => discard (Prog.embed onAccounts (Directory.body S.directory e))
  | .updateFees form => discard (updateFees form)
  | .updateTierLimits n form => discard (updateTierLimits n form)

end Orbyt.Office
