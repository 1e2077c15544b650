/-
  Orbyt.Platform.XrplService — signing, submitting, provisioning

  `xrpl_service.py` as programs over the calls of `World`.  A transaction is signed
  before it is submitted, so that its hash and ledger range can be stored first;
  what a submission taught the caller is the `resolution` of its result, never its
  result code.

  The client library (autofill, `submit_and_wait`, the faucet) is outside: what it
  may answer and raise is in `Exec`.  `users.can_receive` has no column here.
-/
import Orbyt.Platform.Exec

namespace Orbyt.XrplService

open Interleave

/-! ## §1. Results. -/

/-- How much the ledger actually told us. -/
inductive Resolution where
  | succeeded | failed | unknown | notSubmitted
  deriving Repr, DecidableEq

/-- Outcome of one submitted transaction. -/
structure XRPLResult where
  success : Bool
  resultCode : String
  txHash : Option Nat
  message : String
  outcome : Option Resolution
  deriving Repr, DecidableEq

/-- Left unset, a failure that was signed counts as unknown. -/
def XRPLResult.resolution (r : XRPLResult) : Resolution :=
  match r.outcome with
  | some outcome => outcome
  | none =>
      if r.success then .succeeded
      else if r.txHash.isNone then .notSubmitted else .unknown

/-- `_classify`: only a validated non-success and a malformed rejection prove that
nothing moved. -/
def classify : Exn → Resolution × String
  | .xrpl true text =>
      -- `XRPLReliableSubmissionException`: its text tells a validated failure and a malformed one
      match validatedFailure text with
      | some code => (.failed, code)
      | none =>
          match malformedCode text with
          | some code => (.failed, code)
          | none =>
              if "LastLedgerSequence".toList <:+: text.toList then (.unknown, "submission_timeout")
              else (.unknown, "submission_error")
  | _ => (.unknown, "submission_error")

/-! ## §2. Submitting. -/

/-- `uctusd`: amounts are already at six decimals, so only the sign is left to check. -/
def uctusd (value : Nat) : Program Unit :=
  if value = 0 then throw (.invalidAmount "UCTUSD amount must be positive.") else pure ()

/-- `submit`: an exception of the callback propagates before anything is sent. -/
def submit (purpose : Purpose) (tx : XRPLTransaction) (onSignedTx : SignedTx → Program Unit)
    (submittedLedgerIndex : Option Nat) : Program XRPLResult := do
  match ← Prog.attempt (call (.autofillAndSign purpose tx)) with
  -- only the exceptions of xrpl-py are caught, here and below
  | .error (.xrpl _ text) => return ⟨false, "sign_error", none, text, some .notSubmitted⟩
  | .error e => throw e
  | .ok signed =>
      -- the hash is stored while nothing has been sent yet
      onSignedTx { signed with submittedLedgerIndex := submittedLedgerIndex }
      call (.handOver purpose signed.txHash)
      match ← Prog.attempt (call (.outcome signed.txHash)) with
      | .error (.xrpl reliable text) =>
          let (resolution, code) := classify (.xrpl reliable text)
          return ⟨false, code, some signed.txHash, text, some resolution⟩
      | .error e => throw e
      | .ok code =>
          let success := code == .tesSUCCESS
          return ⟨success, code.name, some signed.txHash, "",
            some (if success then .succeeded else .failed)⟩

/-! ## §3. Recipient wallets. -/

/-- `ensure_trust_line`; the wallet object is handed back as it is left. -/
def ensureTrustLine (t u : Nat) (wallet : Wallet) : Program (XRPLResult × Wallet) := do
  if wallet.trustSetComplete then
    return (⟨true, "tesSUCCESS", none, "already set", none⟩, wallet)
  else
    call .loadSigner
    let result ← submit (.trustSet t u) (.trustSet (.wallet u wallet.xrplAddress))
      (fun _ => pure ()) none
    if result.success then
      -- only a validated success sets the flag
      call (.setTrustLine u)
      call .commit
      return (result, { wallet with trustSetComplete := true })
    else
      return (result, wallet)

/-- `db.refresh(wallet)` -/
def refreshWallet (u : Nat) : Program Wallet := do
  match ← call (.loadWallet u) with
  | some wallet => return wallet
  | none => throw (.db "InvalidRequestError" "Could not refresh instance")

/-- The recipient's wallet row, funded by the faucet and committed if there is none. -/
def findOrFund (u : Nat) : Program Wallet := do
  match ← call (.selectWallet u) with
  | some wallet => return wallet
  | none =>
      -- a crash after this leaves a funded account that no row names
      let account ← call .faucet
      call (.insertWallet u ⟨account, encryptSeed account, false, 0⟩)
      call .commit
      refreshWallet u

/-- `provision_wallet`: the row is committed before the TrustSet. -/
def provisionWallet (t u : Nat) : Program Wallet := do
  let wallet ← findOrFund u
  let (_, wallet) ← ensureTrustLine t u wallet
  return wallet

/-! ## §4. Payments. -/

/-- `send_from_treasury`: the validated index is read before signing. -/
def sendFromTreasury (t destination amount : Nat) (onSignedTx : SignedTx → Program Unit) :
    Program XRPLResult := do
  call .loadSigner
  let submittedLedgerIndex ← call .latestValidated
  -- raises before anything is signed
  uctusd amount
  submit (.payment t) (.payment .treasury (.address destination) amount) onSignedTx
    (some submittedLedgerIndex)

/-- `burn_to_issuer`, from the wallet row of `u`. -/
def burnToIssuer (r u : Nat) (wallet : Wallet) (amount : Nat)
    (onSignedTx : SignedTx → Program Unit) : Program XRPLResult := do
  let submittedLedgerIndex ← call .latestValidated
  uctusd amount
  call .loadSigner
  submit (.burn r) (.payment (.wallet u wallet.xrplAddress) .issuer amount) onSignedTx
    (some submittedLedgerIndex)

end Orbyt.XrplService
