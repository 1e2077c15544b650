/-
  Orbyt.Platform.BeneficiaryService — who a beneficiary is, and who a send goes to

  `beneficiary_service.py` with its routes, and `create_remittance` as far as it is about the
  recipient.  The link to an account is resolved when a beneficiary is created or edited; a
  send resolves it only where there is none.  A SELECT flushes what the session has assigned
  so far, so an edit's details are written before its link is resolved.
-/
import Orbyt.Platform.AuthService

namespace Orbyt.Directory

open Interleave
open PyText

/-! ## §1. Resolving. -/

/-- `value or None` -/
def given (value : Text) : Option Text := if value = [] then none else some value

/-- One lookup of `_resolve_recipient`: an empty detail matches nobody. -/
def matchBy (col : Column) (detail : Option Text) (senderId : Nat) : Program (Option Nat) := do
  match detail.bind given with
  | none => return none
  | some value =>
      let found ← call (.userBy col (col.normalise value) true)
      return found.filter (· != senderId)

/-- `_resolve_recipient`: by email, then by mobile number. -/
def resolveRecipient (email mobile : Option Text) (senderId : Nat) : Program (Option Nat) := do
  match ← matchBy .email email senderId with
  | some r => return some r
  | none => matchBy .mobile mobile senderId

/-! ## §2. Creating, editing, deleting. -/

def parseCurrency (value : Text) : Option PayoutCurrency :=
  if value = "USD".toList then some .usd
  else if value = "ZAR".toList then some .zar
  else none

def noContact : Exn := .valueError "At least one of email or mobile is required.".toList
def badCurrency (value : Text) : Exn :=
  .valueError ("'".toList ++ value ++ "' is not a valid PayoutCurrency".toList)

/-- `create_beneficiary` -/
def createBeneficiary (senderId : Nat) (fullName : Text) (email mobile : Option Text)
    (payoutCurrency : Text) : Program Nat := do
  if email.isNone ∧ mobile.isNone then throw noContact
  else
    let recipientUserId ← resolveRecipient email mobile senderId
    match parseCurrency payoutCurrency with
    | none => throw (badCurrency payoutCurrency)
    | some currency =>
        let k ← call (.insertBeneficiary
          { senderId := senderId
            recipientUserId := recipientUserId
            fullName := strip fullName
            email := email.map normal
            mobile := mobile.map strip
            payoutCurrency := currency
            isActive := true })
        call .commit
        call .refresh
        return k

/-- The UPDATE of what has been assigned to a beneficiary since it was `loaded`. -/
def editedBeneficiary (loaded new stored : Beneficiary) : Beneficiary :=
  { stored with
    recipientUserId := assigned loaded.recipientUserId new.recipientUserId stored.recipientUserId
    fullName := assigned loaded.fullName new.fullName stored.fullName
    email := assigned loaded.email new.email stored.email
    mobile := assigned loaded.mobile new.mobile stored.mobile
    payoutCurrency := assigned loaded.payoutCurrency new.payoutCurrency stored.payoutCurrency
    isActive := assigned loaded.isActive new.isActive stored.isActive }

/-- A flush writes only where something has been assigned. -/
def flushBeneficiary (k : Nat) (loaded new : Beneficiary) : Program Unit :=
  if new = loaded then return () else call (.updateBeneficiary k (editedBeneficiary loaded new))

/-- `update_beneficiary` -/
def updateBeneficiary (k : Nat) (ben : Beneficiary) (fullName : Text) (email mobile : Option Text)
    (payoutCurrency : Text) : Program Unit := do
  if email.isNone ∧ mobile.isNone then throw noContact
  else
    match parseCurrency payoutCurrency with
    | none => throw (badCurrency payoutCurrency)
    | some currency =>
        let detailed := { ben with
          fullName := strip fullName
          email := email.map normal
          mobile := mobile.map strip
          payoutCurrency := currency }
        flushBeneficiary k ben detailed
        let recipientUserId ← resolveRecipient email mobile ben.senderId
        flushBeneficiary k detailed { detailed with recipientUserId := recipientUserId }
        call .commit
        call .refresh

/-- `delete_beneficiary` -/
def deleteBeneficiary (k : Nat) (ben : Beneficiary) : Program Unit := do
  flushBeneficiary k ben { ben with isActive := false }
  call .commit

/-- `act` for the user of the session. -/
def asUser (u : Nat) (act : User → Program Reply) : Program Reply := do
  match ← call (.loadUser u) with
  | none => return .redirect "/login" none
  | some user => act user

/-- The form again, with the error. -/
def orForm (saving : Program Reply) : Program Reply := do
  match ← Prog.attempt saving with
  | .ok reply => return reply
  | .error (.valueError text) => return .page 400 [text]
  | .error exc => throw exc

def saved (text : Text) (kind : String) : Reply := .redirect "/beneficiaries" (some (text, kind))

/-- `create` -/
def create (u : Nat) (form : BeneficiaryForm) : Program Reply :=
  asUser u (fun _ => orForm (do
    let _ ← createBeneficiary u form.fullName (given form.email) (given form.mobile)
      form.payoutCurrency
    return saved (form.fullName ++ " added as a beneficiary.".toList) "success"))

/-- `edit_save` -/
def editSave (u k : Nat) (form : BeneficiaryForm) : Program Reply :=
  asUser u (fun _ => do
    match ← call (.getBeneficiary k u) with
    | none => return saved "Beneficiary not found.".toList "danger"
    | some ben =>
        orForm (do
          updateBeneficiary k ben form.fullName (given form.email) (given form.mobile)
            form.payoutCurrency
          return saved (form.fullName ++ " updated.".toList) "success"))

/-- `delete` -/
def delete (u k : Nat) : Program Reply :=
  asUser u (fun _ => do
    match ← call (.getBeneficiary k u) with
    | none => return .redirect "/beneficiaries" none
    | some ben =>
        deleteBeneficiary k ben
        return saved (ben.fullName ++ " removed.".toList) "info")

/-! ## §3. Sending. -/

/-- `refresh_recipient_link`: a link that is there is kept. -/
def refreshRecipientLink (k : Nat) (ben : Beneficiary) : Program (Option Nat) := do
  match ben.recipientUserId with
  | some r => return some r
  | none =>
      let recipientUserId ← resolveRecipient ben.email ben.mobile ben.senderId
      flushBeneficiary k ben { ben with recipientUserId := recipientUserId }
      return recipientUserId

/-- `create_remittance` -/
def createRemittance (u : Nat) (sender : User) (k : Nat) : Program Nat := do
  if !sender.canSend || !sender.kycApproved then
    throw (.remittance "Your account must be KYC-approved before sending money.".toList)
  else
    call (.lockUser u)
    match ← call (.getBeneficiary k u) with
    | none => throw (.remittance "Beneficiary not found.".toList)
    | some ben =>
        -- a link made now is flushed, and stored with the transaction
        match ← refreshRecipientLink k ben with
        | none =>
            throw (.remittance (ben.fullName ++ (" does not have an account yet. Ask them to "
              ++ "register with the email or mobile number you saved, then try again.").toList))
        | some recipientId =>
            -- the amount, the limit, the price and the card, any of which may refuse
            call .payable
            let t ← call (.insertTransaction ⟨u, k, recipientId⟩)
            call .commit
            call .refresh
            return t

/-- The send page's redirect for those who cannot send. -/
def senderRedirect (user : User) : Option Reply :=
  if user.isAdmin then some (.redirect "/admin" none)
  else if !user.canSend || !user.kycApproved then
    some (.redirect "/dashboard"
      (some ("Your KYC must be approved before you can send money.".toList, "warning")))
  else none

/-- The route `create_remittance`, from a complete form. -/
def send (u k : Nat) : Program Reply :=
  asUser u (fun user => do
    match senderRedirect user with
    | some reply => return reply
    | none =>
        match ← Prog.attempt (createRemittance u user k) with
        | .ok t => return .redirect ("/transactions/" ++ toString t) none
        | .error (.remittance text) => return .page 200 [text]
        | .error (.noQuote text) =>
            return .redirect "/send"
              (some ("Quotes are unavailable right now: ".toList ++ text, "danger"))
        | .error exc => throw exc)

/-! ## §4. The machine. -/

def route (S : Setting) : Entry → Program Reply
  | .register form => register S form
  | .seed settings => seedAdmin S settings
  | .profileUpdate u form => profileUpdate u form
  | .create u form => create u form
  | .editSave u k form => editSave u k form
  | .delete u k => delete u k
  | .send u k => send u k

/-- A request is answered, whatever it comes to. -/
def body (S : Setting) (e : Entry) : Program Unit := do
  match ← Prog.attempt (route S e) with
  | .ok reply => call (.respond reply)
  | .error exc => call (.respond (.serverError exc))

inductive Env where
  /-- KYC: a submission, and what its review decides. -/
  | submit (u : Nat)
  | review (u : Nat) (approved : Bool)
  deriving Repr, DecidableEq

def World.env : Env → World → Option World
  | .submit u, s => some { s with submitted := Function.update s.submitted u true }
  | .review u approved, s =>
      match s.users u with
      | some x =>
          if (s.userLock u).isNone then
            some { s with
              users := Function.update s.users u (some { x with kycApproved := approved }) }
          else none
      | none => none

@[reducible] def accounts (S : Setting) : Machine where
  sig := calls
  Exn := Exn
  Session := Session
  World := World
  Choice := Choice
  Entry := Entry
  Env := Env
  body := body S
  start := Session.start
  exec := exec S
  close := World.close
  env := World.env
  next := World.nextTid
  spawn := fun s => { s with nextTid := s.nextTid + 1 }

end Orbyt.Directory
