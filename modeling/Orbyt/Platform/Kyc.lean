/-
  Orbyt.Platform.Kyc — identity verification as a machine

  `kyc_service.py` with the routes that call it: a sender posts the KYC form, an admin
  approves or rejects the submission.  Every request has a session of its own, so the
  route's status check, the flush of `submit_kyc` and a review may interleave at every
  statement.

  The database is the one of `World`, on two other tables:
    * a user object already loaded in a session keeps its loaded values when it is
      selected again, and the flush of its `kyc_status` is an UPDATE only when the
      assigned value differs from the loaded one;
    * the unit of work flushes `users` before `kyc_submissions`, and `submitted_at` is
      the instant of the INSERT.

  `uuid4()` keys are only ever compared, so a submission is named by the instant of its
  INSERT: every call takes at least a microsecond, and no two share one.
-/
import Orbyt.Lib.Interleave
import Orbyt.Lib.PyText
import Orbyt.Platform.Exec

namespace Orbyt.Kyc

open Interleave
open PyText
open Function (update)

/-! ## §1. Rows. -/

inductive KycStatus where
  | notSubmitted | pending | approved | rejected
  deriving Repr, DecidableEq

inductive SubmissionStatus where
  | pending | approved | rejected
  deriving Repr, DecidableEq

/-- The status of the same name. -/
def SubmissionStatus.kycStatus : SubmissionStatus → KycStatus
  | .pending => .pending
  | .approved => .approved
  | .rejected => .rejected

structure User where
  fullName : String
  isAdmin : Bool
  kycStatus : KycStatus
  deriving Repr, DecidableEq

/-- `create_user`: an admin account starts approved. -/
def User.create (fullName : String) (isAdmin : Bool) : User :=
  ⟨fullName, isAdmin, if isAdmin then .approved else .notSubmitted⟩

structure Date where
  year : Nat
  month : Nat
  day : Nat
  deriving Repr, DecidableEq

structure Submission where
  userId : Nat
  dateOfBirth : Date
  idNumber : Text
  sourceOfFunds : Text
  status : SubmissionStatus
  rejectionReason : Option Text
  reviewedBy : Option Nat
  reviewedAt : Option Nat
  submittedAt : Nat
  deriving Repr, DecidableEq

/-- `get_active_kyc`: the user's submission with the greatest `submitted_at`, among the
rows named below `n`. -/
def getActiveKyc (rows : Nat → Option Submission) (u : Nat) : Nat → Option Submission
  | 0 => none
  | n + 1 =>
      match (rows n).filter (·.userId == u) with
      | none => getActiveKyc rows u n
      | some x =>
          match getActiveKyc rows u n with
          | none => some x
          | some y => some (if y.submittedAt ≤ x.submittedAt then x else y)

/-! ## §2. The world, the sessions and the calls. -/

inductive Exn where
  | db (cls : String)
  | valueError (text : String)
  /-- `KYCReviewError`, a `ValueError`. -/
  | reviewError (text : String)
  /-- `HTTPException` -/
  | http (statusCode : Nat)
  deriving Repr, DecidableEq

structure World where
  clock : Nat
  nextTid : Nat
  users : Nat → Option User
  subs : Nat → Option Submission
  userLock : Nat → Option Nat
  subLock : Nat → Option Nat

/-- Nobody has registered yet. -/
def World.initial (clock : Nat) : World where
  clock := clock
  nextTid := 0
  users := fun _ => none
  subs := fun _ => none
  userLock := fun _ => none
  subLock := fun _ => none

structure KycForm where
  dateOfBirth : Date
  idNumber : Text
  sourceOfFunds : Text
  sourceOfFundsOther : Text
  deriving Repr, DecidableEq

inductive Entry where
  | kycSubmit (u : Nat) (form : KycForm)
  | kycApprove (k : Nat) (admin : Nat)
  | kycReject (k : Nat) (admin : Nat) (reason : Text)
  deriving Repr, DecidableEq

structure Session where
  /-- The user objects in the identity map. -/
  userCopy : Nat → Option User
  /-- The rows written in the open transaction. -/
  userWrites : Nat → Option User
  subWrites : Nat → Option Submission
  /-- A statement has raised and nothing has rolled the session back. -/
  failed : Bool

def Session.start : Session where
  userCopy := fun _ => none
  userWrites := fun _ => none
  subWrites := fun _ => none
  failed := false

inductive Op where
  /-- `date.today()` -/
  | today
  | now
  | selectUser (u : Nat)
  | activeKyc (u : Nat)
  | selectSubmission (k : Nat)
  | updateSubmission (k : Nat) (cond : Submission → Bool) (values : Submission → Submission)
  /-- `user.kyc_status = status`, flushed. -/
  | setKycStatus (u : Nat) (status : KycStatus)
  | insertSubmission (row : Nat → Submission)
  | commit
  | refresh

@[reducible] def Op.Res : Op → Type
  | .today => Date
  | .now | .insertSubmission _ => Nat
  | .selectUser _ => Option User
  | .activeKyc _ | .selectSubmission _ => Option Submission
  | .updateSubmission _ _ _ => Bool
  | .setKycStatus _ _ | .commit | .refresh => Unit

def Op.isStatement : Op → Bool
  | .today | .now => false
  | _ => true

abbrev calls : Sig := ⟨Op, Op.Res⟩
abbrev Program (α : Type) := Prog calls Exn α
abbrev call (o : Op) : Program o.Res := Prog.call (S := calls) o

/-! ## §3. The service. -/

/-- Years completed, counting the birthday itself. -/
def age (today dateOfBirth : Date) : Int :=
  (today.year : Int) - dateOfBirth.year
    - if today.month < dateOfBirth.month
        ∨ (today.month = dateOfBirth.month ∧ today.day < dateOfBirth.day) then 1 else 0

def newSubmission (u : Nat) (form : KycForm) (sourceOfFunds : Text) (now : Nat) :
    Submission where
  userId := u
  dateOfBirth := form.dateOfBirth
  idNumber := strip form.idNumber
  sourceOfFunds := strip sourceOfFunds
  status := .pending
  rejectionReason := none
  reviewedBy := none
  reviewedAt := none
  submittedAt := now

/-- `db.add(submission)`, `user.kyc_status = pending`, and the commit that flushes both. -/
def saveSubmission (u : Nat) (form : KycForm) (sourceOfFunds : Text) : Program Nat := do
  call (.setKycStatus u .pending)
  let k ← call (.insertSubmission (newSubmission u form sourceOfFunds))
  call .commit
  call .refresh
  return k

/-- `submit_kyc`: nothing is re-checked when the rows are saved. -/
def submitKyc (u : Nat) (form : KycForm) (sourceOfFunds : Text) : Program Nat := do
  let today ← call .today
  if age today form.dateOfBirth < 18 then
    throw (.valueError "You must be at least 18 years old to submit KYC.")
  else if (strip form.idNumber).length < 6 then
    throw (.valueError "ID number must be at least 6 characters.")
  else
    saveSubmission u form sourceOfFunds

def isPending (x : Submission) : Bool := x.status == .pending

def decided (decision : SubmissionStatus) (admin now : Nat) (reason : Option Text)
    (x : Submission) : Submission :=
  { x with
    status := decision
    reviewedBy := some admin
    reviewedAt := some now
    rejectionReason := reason }

/-- The user of a submission that has just been decided, and the commit of both rows. -/
def settleUser (userId : Nat) (userStatus : KycStatus) : Program Unit := do
  match ← call (.selectUser userId) with
  | none => throw (.db "NoResultFound")
  | some _ =>
      call (.setKycStatus userId userStatus)
      call .commit
      call .refresh

/-- `_review`: the user row is updated only when the conditional UPDATE claims the
submission. -/
def review (k : Nat) (submission : Submission) (admin : Nat) (decision : SubmissionStatus)
    (userStatus : KycStatus) (reason : Option Text) : Program Unit := do
  let now ← call .now
  let hit ← call (.updateSubmission k isPending (decided decision admin now reason))
  if hit then
    settleUser submission.userId userStatus
  else
    call .commit
    throw (.reviewError "This submission has already been reviewed.")

def approveKyc (k : Nat) (submission : Submission) (admin : Nat) : Program Unit :=
  review k submission admin .approved .approved none

def rejectKyc (k : Nat) (submission : Submission) (admin : Nat) (reason : Text) :
    Program Unit := do
  if strip reason = [] then
    throw (.valueError "A rejection reason is required.")
  else
    review k submission admin .rejected .rejected (some (strip reason))

/-! ## §4. The routes. -/

inductive Reply where
  | redirect (url : String) (flash : Option (String × String))
  | form (error : String)
  deriving Repr, DecidableEq

def sourcesOfFunds : List String :=
  ["Salary", "Business income", "Savings", "Investments", "Pension", "Gift or family support"]
def otherSource : String := "Other"
def otherMaxLength : Nat := 200

/-- `_source_of_funds`: the value to store, or the error. -/
def sourceOfFunds (choice described : Text) : Except String Text :=
  if choice = [] then .error "Please choose your source of funds."
  else if sourcesOfFunds.any (fun s => s.toList == choice) then .ok choice
  else if choice ≠ otherSource.toList then
    .error "Please choose a source of funds from the list."
  else if described = [] then .error "Please describe your source of funds."
  else if otherMaxLength < described.length then
    .error "Please keep the description under 200 characters."
  else .ok (otherSource.toList ++ ": ".toList ++ described)

/-- The form again, with the error. -/
def refuse (u : Nat) (error : String) : Program Reply := do
  let _ ← call (.activeKyc u)
  return .form error

/-- The route's `try`. -/
def trySubmit (u : Nat) (form : KycForm) (source : Text) : Program Reply := do
  match ← Prog.attempt (submitKyc u form source) with
  | .ok _ =>
      return .redirect "/dashboard"
        (some ("KYC submitted successfully. An admin will review it shortly.", "success"))
  | .error (.valueError text) => refuse u text
  | .error (.reviewError text) => refuse u text
  | .error exc => throw exc

/-- `kyc_submit`: the status is checked on the row as `get_current_user` has loaded it. -/
def kycSubmit (u : Nat) (form : KycForm) : Program Reply := do
  match ← call (.selectUser u) with
  | none => return .redirect "/login" none
  | some user =>
      if user.kycStatus = .approved then
        return .redirect "/dashboard" (some ("Your KYC is already approved.", "info"))
      else if user.kycStatus = .pending then
        return .redirect "/kyc"
          (some ("Your KYC submission is already under review.", "warning"))
      else
        match sourceOfFunds (strip form.sourceOfFunds) (strip form.sourceOfFundsOther) with
        | .error text => refuse u text
        | .ok source => trySubmit u form source

/-- `require_admin`, then `act`. -/
def asAdmin (admin : Nat) (act : Program Reply) : Program Reply := do
  match ← call (.selectUser admin) with
  | none => throw (.http 302)
  | some user => if user.isAdmin then act else throw (.http 403)

/-- `selectinload(KYCSubmission.reviewer)` -/
def loadReviewer (submission : Submission) : Program Unit := do
  match submission.reviewedBy with
  | none => return ()
  | some reviewer =>
      let _ ← call (.selectUser reviewer)
      return ()

/-- `get_submission_by_id`, which loads the user and the reviewer too, then `act` on the
submission and its user. -/
def onSubmission (k : Nat) (act : Submission → Option User → Program Reply) : Program Reply := do
  match ← call (.selectSubmission k) with
  | none => return .redirect "/admin/kyc" (some ("Submission not found.", "danger"))
  | some submission =>
      let user ← call (.selectUser submission.userId)
      loadReviewer submission
      act submission user

/-- `f"{verb} for {submission.user.full_name}."` -/
def doneFor (verb : String) (user : Option User) : String :=
  verb ++ " for " ++ (user.map (·.fullName)).getD "" ++ "."

def kycApprove (k admin : Nat) : Program Reply :=
  asAdmin admin (onSubmission k (fun submission user => do
    match ← Prog.attempt (approveKyc k submission admin) with
    | .ok _ => return .redirect "/admin/kyc" (some (doneFor "KYC approved" user, "success"))
    | .error (.reviewError text) => return .redirect "/admin/kyc" (some (text, "warning"))
    | .error exc => throw exc))

def kycReject (k admin : Nat) (reason : Text) : Program Reply :=
  asAdmin admin (onSubmission k (fun submission user => do
    match ← Prog.attempt (rejectKyc k submission admin reason) with
    | .ok _ => return .redirect "/admin/kyc" (some (doneFor "KYC rejected" user, "warning"))
    | .error (.reviewError text) => return .redirect "/admin/kyc" (some (text, "warning"))
    | .error (.valueError text) =>
        return .redirect ("/admin/kyc/" ++ toString k) (some (text, "danger"))
    | .error exc => throw exc))

/-- A request runs for its effect. -/
def discard (p : Program Reply) : Program Unit := do
  let _ ← p
  return ()

def body : Entry → Program Unit
  | .kycSubmit u form => discard (kycSubmit u form)
  | .kycApprove k admin => discard (kycApprove k admin)
  | .kycReject k admin reason => discard (kycReject k admin reason)

/-! ## §5. What a call does. -/

/-- Which runs are looked at: with `checkedAtWrite`, a KYC post flushes `pending` only
onto a row whose stored status is not `pending` already. -/
structure Setting where
  checkedAtWrite : Bool

inductive Mode where
  | returns
  /-- The call raises and had no effect. -/
  | raises (e : Exn)
  /-- COMMIT took effect, then raised: its response was lost. -/
  | raisesAfter (e : Exn)
  deriving Repr, DecidableEq

structure Choice where
  dt : Nat
  mode : Mode
  today : Date
  deriving Repr, DecidableEq

def Session.user (l : Session) (s : World) (u : Nat) : Option User :=
  (l.userWrites u).or (s.users u)
def Session.sub (l : Session) (s : World) (k : Nat) : Option Submission :=
  (l.subWrites k).or (s.subs k)

/-- A SELECT of a user returns the object of the identity map if there is one. -/
def Session.identify (l : Session) (s : World) (u : Nat) : Option User :=
  (l.userCopy u).or (l.user s u)

def World.releaseAll (i : Nat) (s : World) : World :=
  { s with userLock := release s.userLock i, subLock := release s.subLock i }

/-- COMMIT: the session's writes become the stored rows and its locks are free. -/
def World.commit (i : Nat) (l : Session) (s : World) : World :=
  World.releaseAll i { s with users := l.user s, subs := l.sub s }

def Session.committed (l : Session) : Session :=
  { l with userWrites := fun _ => none, subWrites := fun _ => none }

def Session.setStatus (l : Session) (u : Nat) (copy x : User) (status : KycStatus) : Session :=
  { l with
    userCopy := update l.userCopy u (some { copy with kycStatus := status })
    userWrites := update l.userWrites u (some { x with kycStatus := status }) }

abbrev Answered (o : Op) := Option (Except Exn o.Res × Session × World)

def perform (S : Setting) (i : Nat) (l : Session) (s : World) (c : Choice) :
    (o : Op) → Answered o
  | .today => some (.ok c.today, l, s)
  | .now => some (.ok s.clock, l, s)
  | .selectUser u =>
      some (.ok (l.identify s u), { l with userCopy := update l.userCopy u (l.identify s u) }, s)
  | .activeKyc u => some (.ok (getActiveKyc (l.sub s) u (s.clock + 1)), l, s)
  | .selectSubmission k => some (.ok (l.sub s k), l, s)
  | .updateSubmission k cond values =>
      match l.sub s k with
      | some x =>
          if cond x then
            if freeFor s.subLock i k then
              some (.ok true, { l with subWrites := update l.subWrites k (some (values x)) },
                { s with subLock := update s.subLock k (some i) })
            else none
          else some (.ok false, l, s)
      | none => some (.ok false, l, s)
  | .setKycStatus u status =>
      match l.userCopy u, l.user s u with
      | some copy, some x =>
          if copy.kycStatus = status then some (.ok (), l, s)
          else if S.checkedAtWrite && status == .pending && x.kycStatus == .pending then none
          else if freeFor s.userLock i u then
            some (.ok (), l.setStatus u copy x status,
              { s with userLock := update s.userLock u (some i) })
          else none
      | _, _ => none
  | .insertSubmission row =>
      let k := s.clock
      if (l.sub s k).isNone && freeFor s.subLock i k then
        some (.ok k, { l with subWrites := update l.subWrites k (some (row k)) },
          { s with subLock := update s.subLock k (some i) })
      else none
  | .commit => some (.ok (), l.committed, s.commit i l)
  | .refresh => some (.ok (), l, s)

def Op.losesResponse : Op → Bool
  | .commit => true
  | _ => false

def Session.fail (l : Session) : Session := { l with failed := true }

def World.tick (c : Choice) (s : World) : World := { s with clock := s.clock + 1 + c.dt }

/-- The call `o` at its instant: the clock has moved on already. -/
def answer (S : Setting) (i : Nat) (o : Op) (c : Choice) (l : Session) (s : World) :
    Answered o :=
  match c.mode with
  | .returns => if l.failed && o.isStatement then none else perform S i l s c o
  | .raises (.db cls) => if o.isStatement then some (.error (.db cls), l.fail, s) else none
  | .raisesAfter (.db cls) =>
      if l.failed then none
      else if o.losesResponse then
        (perform S i l s c o).map (fun r => (.error (.db cls), r.2.1.fail, r.2.2))
      else none
  | _ => none

def exec (S : Setting) (i : Nat) (o : Op) (c : Choice) (l : Session) (s : World) : Answered o :=
  answer S i o c l (s.tick c)

/-! ## §6. The machine. -/

inductive Env where
  | wait (dt : Nat)
  | register (u : Nat) (fullName : String) (isAdmin : Bool)
  deriving Repr, DecidableEq

def World.env : Env → World → Option World
  | .wait dt, s => some { s with clock := s.clock + dt }
  | .register u fullName isAdmin, s =>
      if (s.users u).isNone then
        some { s with users := update s.users u (some (User.create fullName isAdmin)) }
      else none

@[reducible] def kyc (S : Setting) : Machine where
  sig := calls
  Exn := Exn
  Session := Session
  World := World
  Choice := Choice
  Entry := Entry
  Env := Env
  body := body
  start := fun _ => Session.start
  exec := exec S
  close := World.releaseAll
  env := World.env
  next := World.nextTid
  spawn := fun s => { s with nextTid := s.nextTid + 1 }

end Orbyt.Kyc
