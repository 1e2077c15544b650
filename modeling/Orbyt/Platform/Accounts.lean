/-
  Orbyt.Platform.Accounts — accounts, beneficiaries, and who a send goes to

  `auth_service.py` and `beneficiary_service.py` with the routes that call them, the admin
  seeding script, and the recipient's part of `create_remittance`, as programs over a
  database of three tables.  Every request runs in a session of its own, so a check and the
  write that rests on it may be apart, and whoever loses a race for an email or a mobile
  number meets the unique constraint.

  The database:
    * an INSERT or UPDATE of a user takes the index entries of the emails and mobile numbers
      it changes, waiting for a session that has them, and is refused where another row has
      the value; a refused statement leaves its session to be rolled back;
    * a text may not hold a NUL character, nor more characters than its column;
    * an UPDATE sets the attributes that differ from the loaded object.

  A lost connection ends a request at whatever point it has reached, which is a `stop` of the
  machine.  `uuid4()` keys are only ever compared, so rows are numbered.  What the quote, the
  limit and the card have to say about a send is one call here.
-/
import Orbyt.Lib.Interleave
import Orbyt.Lib.PyCase
import Orbyt.Platform.Rows

namespace Orbyt.Directory

open Interleave
open PyText
open Function (update)

/-! ## §1. Rows. -/

structure User where
  fullName : Text
  email : Text
  mobile : Text
  isAdmin : Bool
  canSend : Bool
  /-- `kyc_status` is `approved`. -/
  kycApproved : Bool
  deriving Repr, DecidableEq

/-- The columns of `users` with a unique constraint. -/
inductive Column where
  | email | mobile
  deriving Repr, DecidableEq

def User.get (x : User) : Column → Text
  | .email => x.email
  | .mobile => x.mobile

/-- How a contact detail is looked up and stored. -/
def Column.normalise : Column → Text → Text
  | .email => normal
  | .mobile => strip

inductive PayoutCurrency where
  | usd | zar
  deriving Repr, DecidableEq

structure Beneficiary where
  senderId : Nat
  recipientUserId : Option Nat
  fullName : Text
  email : Option Text
  mobile : Option Text
  payoutCurrency : PayoutCurrency
  isActive : Bool
  deriving Repr, DecidableEq

structure Transaction where
  senderId : Nat
  beneficiaryId : Nat
  recipientUserId : Nat
  deriving Repr, DecidableEq

/-- A text that a `String(width)` column can hold. -/
def storable (width : Nat) (t : Text) : Bool := t.length ≤ width && !t.contains '\x00'

def User.storable (x : User) : Bool :=
  Directory.storable 255 x.fullName && Directory.storable 255 x.email &&
    Directory.storable 50 x.mobile

def Beneficiary.storable (b : Beneficiary) : Bool :=
  Directory.storable 255 b.fullName && b.email.all (Directory.storable 255)
    && b.mobile.all (Directory.storable 50)

/-! ## §2. The world, the sessions and the calls. -/

inductive Exn where
  | integrityError
  /-- `DBAPIError`: the statement has a text that no column can hold. -/
  | dataError
  | valueError (text : Text)
  /-- `ProfileError`, a `ValueError`. -/
  | profileError (text : Text)
  /-- `RemittanceError`, a `ValueError`. -/
  | remittance (text : Text)
  /-- `FXConfigError` or an `ArithmeticError`. -/
  | noQuote (text : Text)
  | other (cls : String)
  deriving Repr, DecidableEq

structure RegisterForm where
  fullName : Text
  email : Text
  mobile : Text
  password : Text
  confirmPassword : Text
  deriving Repr, DecidableEq

structure ProfileForm where
  email : Text
  mobile : Text
  fullName : Option Text
  deriving Repr, DecidableEq

structure BeneficiaryForm where
  fullName : Text
  email : Text
  mobile : Text
  payoutCurrency : Text
  deriving Repr, DecidableEq

/-- The settings that the seeding script reads. -/
structure AdminSettings where
  adminEmail : Text
  adminMobile : Text
  adminName : Text
  adminPassword : Text
  deriving Repr, DecidableEq

/-- Requests by the user of their session, and the script. -/
inductive Entry where
  | register (form : RegisterForm)
  | seed (settings : AdminSettings)
  | profileUpdate (u : Nat) (form : ProfileForm)
  | create (u : Nat) (form : BeneficiaryForm)
  | editSave (u k : Nat) (form : BeneficiaryForm)
  | delete (u k : Nat)
  | send (u k : Nat)
  deriving Repr, DecidableEq

/-- A send, which books a transaction. -/
def Entry.isSend : Entry → Bool
  | .send _ _ => true
  | _ => false

/-- What a request is answered with; an exception that escapes is answered for it. -/
inductive Reply where
  | redirect (url : String) (flash : Option (Text × String))
  | page (statusCode : Nat) (errors : List Text)
  | printed (text : Text)
  | serverError (exc : Exn)
  deriving Repr, DecidableEq

structure World where
  nextTid : Nat
  nextId : Nat
  users : Nat → Option User
  beneficiaries : Nat → Option Beneficiary
  transactions : Nat → Option Transaction
  /-- Who has a KYC submission. -/
  submitted : Nat → Bool
  userLock : Nat → Option Nat
  beneficiaryLock : Nat → Option Nat
  /-- Index entries that a session is writing. -/
  keyLock : Column → Text → Option Nat
  /-- The profile edits under way, by whose profile. -/
  editing : Nat → Option Nat

/-- Nobody has registered yet. -/
def World.initial : World where
  nextTid := 0
  nextId := 0
  users := fun _ => none
  beneficiaries := fun _ => none
  transactions := fun _ => none
  submitted := fun _ => false
  userLock := fun _ => none
  beneficiaryLock := fun _ => none
  keyLock := fun _ _ => none
  editing := fun _ => none

structure Session where
  entry : Entry
  /-- The rows written in the open transaction. -/
  userWrites : Nat → Option User
  beneficiaryWrites : Nat → Option Beneficiary
  transactionWrites : Nat → Option Transaction
  /-- The user rows this session has committed. -/
  written : Nat → Option User
  /-- A statement has been refused and nothing has rolled the session back. -/
  failed : Bool

def Session.start (entry : Entry) : Session where
  entry := entry
  userWrites := fun _ => none
  beneficiaryWrites := fun _ => none
  transactionWrites := fun _ => none
  written := fun _ => none
  failed := false

inductive Op where
  /-- `get_current_user` -/
  | loadUser (u : Nat)
  /-- The user with this email or mobile number, without admins if `notAdmin`. -/
  | userBy (col : Column) (value : Text) (notAdmin : Bool)
  /-- `_taken`, but for the user `u`. -/
  | taken (col : Column) (value : Text) (u : Nat)
  /-- Is there a KYC submission? -/
  | activeKyc (u : Nat)
  | insertUser (row : User)
  | updateUser (u : Nat) (values : User → User)
  /-- `SELECT … FOR UPDATE` -/
  | lockUser (u : Nat)
  /-- `get_beneficiary` -/
  | getBeneficiary (k senderId : Nat)
  | insertBeneficiary (row : Beneficiary)
  | updateBeneficiary (k : Nat) (values : Beneficiary → Beneficiary)
  /-- The quote, the limit and the card of a send. -/
  | payable
  | insertTransaction (row : Transaction)
  | commit
  | rollback
  | refresh
  | respond (reply : Reply)

@[reducible] def Op.Res : Op → Type
  | .loadUser _ => Option User
  | .userBy _ _ _ => Option Nat
  | .taken _ _ _ | .activeKyc _ => Bool
  | .insertUser _ | .insertBeneficiary _ | .insertTransaction _ => Nat
  | .getBeneficiary _ _ => Option Beneficiary
  | .updateUser _ _ | .lockUser _ | .updateBeneficiary _ _ | .payable | .commit | .rollback
  | .refresh | .respond _ => Unit

abbrev calls : Sig := ⟨Op, Op.Res⟩
abbrev Program (α : Type) := Prog calls Exn α
abbrev call (o : Op) : Program o.Res := Prog.call (S := calls) o

/-- What is outside, and which runs are looked at. -/
structure Setting where
  /-- Why `get_password_hash` refuses a password with a ValueError, if it does. -/
  hashRefusal : Text → Option Text
  /-- A profile is edited by one request at a time. -/
  apart : Bool
  /-- Every INSERT of a user finds its email and mobile number free. -/
  uncontested : Bool
  /-- No statement has a text that its column cannot hold. -/
  fitting : Bool

/-! ## §3. What a call does. -/

/-- What the call `payable` raises, if it does. -/
abbrev Choice := Option Exn

def Session.user (l : Session) (s : World) (u : Nat) : Option User :=
  (l.userWrites u).or (s.users u)
def Session.beneficiary (l : Session) (s : World) (k : Nat) : Option Beneficiary :=
  (l.beneficiaryWrites k).or (s.beneficiaries k)

def Session.fail (l : Session) : Session := { l with failed := true }

/-- What is written in the open transaction is gone. -/
def Session.reset (l : Session) : Session :=
  { l with
    userWrites := fun _ => none
    beneficiaryWrites := fun _ => none
    transactionWrites := fun _ => none
    failed := false }

/-- The session ends its transaction: its locks are free. -/
def World.releaseAll (i : Nat) (s : World) : World :=
  { s with
    userLock := release s.userLock i
    beneficiaryLock := release s.beneficiaryLock i
    keyLock := fun col key => (s.keyLock col key).filter (· != i) }

/-- The session of a request is closed. -/
def World.close (i : Nat) (s : World) : World :=
  { s.releaseAll i with editing := release s.editing i }

/-- COMMIT: the session's writes become the stored rows and its locks are free. -/
def World.commit (i : Nat) (l : Session) (s : World) : World :=
  World.releaseAll i
    { s with
      users := l.user s
      beneficiaries := l.beneficiary s
      transactions := fun t => (l.transactionWrites t).or (s.transactions t) }

def Session.committed (l : Session) : Session :=
  { l.reset with written := fun u => (l.userWrites u).or (l.written u) }

/-- The write of a row changes what the unique column holds. -/
def changes (old : Option User) (new : User) (col : Column) : Bool :=
  old.map (·.get col) != some (new.get col)

/-- The index entries that the write of a row takes. -/
def takes (old : Option User) (new : User) (col : Column) (key : Text) : Bool :=
  changes old new col && (key == new.get col || old.map (·.get col) == some key)

/-- Nobody else is writing an index entry that the write takes. -/
def World.keysFree (s : World) (i : Nat) (old : Option User) (new : User) : Bool :=
  [Column.email, .mobile].all (fun col =>
    !changes old new col ||
      ((s.keyLock col (new.get col)).all (· == i) &&
        old.all (fun x => (s.keyLock col (x.get col)).all (· == i))))

/-- Another row has a value that the write of the row `u` changes to. -/
def Session.conflict (l : Session) (s : World) (u : Nat) (old : Option User) (new : User) : Bool :=
  (List.range s.nextId).any (fun v => v != u && (l.user s v).any (fun y =>
    [Column.email, .mobile].any (fun col => changes old new col && y.get col == new.get col)))

abbrev Answered (o : Op) := Option (Except Exn o.Res × Session × World)

/-- The INSERT of the row `u` where `old` is missing, or an UPDATE of `old`. -/
def writeUser (S : Setting) (i u : Nat) (old : Option User) (new : User) (l : Session) (s : World)
    {α : Type} (answer : α) : Option (Except Exn α × Session × World) :=
  if !new.storable then
    if S.fitting then none else some (.error .dataError, l.fail, s)
  else if !(freeFor s.userLock i u && s.keysFree i old new) then none
  else if l.conflict s u old new then
    if S.uncontested && old.isNone then none else some (.error .integrityError, l.fail, s)
  else
    some (.ok answer, { l with userWrites := update l.userWrites u (some new) },
      { s with
        userLock := update s.userLock u (some i)
        keyLock := fun col key => if takes old new col key then some i else s.keyLock col key })

/-- A lookup by a text. -/
def lookup (S : Setting) (value : Text) (l : Session) (s : World) {α : Type} (answer : α) :
    Option (Except Exn α × Session × World) :=
  if value.contains '\x00' then
    if S.fitting then none else some (.error .dataError, l.fail, s)
  else some (.ok answer, l, s)

def writeBeneficiary (S : Setting) (i k : Nat) (new : Beneficiary) (l : Session) (s : World)
    {α : Type} (answer : α) : Option (Except Exn α × Session × World) :=
  if !new.storable then
    if S.fitting then none else some (.error .dataError, l.fail, s)
  else if freeFor s.beneficiaryLock i k then
    some (.ok answer, { l with beneficiaryWrites := update l.beneficiaryWrites k (some new) },
      { s with beneficiaryLock := update s.beneficiaryLock k (some i) })
  else none

def Session.userBy (l : Session) (s : World) (col : Column) (value : Text) (notAdmin : Bool) :
    Option Nat :=
  (List.range s.nextId).find? (fun v => (l.user s v).any (fun y =>
    y.get col == value && !(notAdmin && y.isAdmin)))

def Session.taken (l : Session) (s : World) (col : Column) (value : Text) (u : Nat) : Bool :=
  (List.range s.nextId).any (fun v => v != u && (l.user s v).any (fun y => y.get col == value))

def Session.writeTransaction (l : Session) (t : Nat) (row : Transaction) : Session :=
  { l with transactionWrites := update l.transactionWrites t (some row) }

def World.nextKey (s : World) : World := { s with nextId := s.nextId + 1 }

def perform (S : Setting) (i : Nat) (l : Session) (s : World) (c : Choice) : (o : Op) → Answered o
  | .loadUser u =>
      match l.entry with
      | .profileUpdate _ _ =>
          if S.apart && !freeFor s.editing i u then none
          else some (.ok (l.user s u), l, { s with editing := update s.editing u (some i) })
      | _ => some (.ok (l.user s u), l, s)
  | .userBy col value notAdmin => lookup S value l s (l.userBy s col value notAdmin)
  | .taken col value u => lookup S value l s (l.taken s col value u)
  | .activeKyc u => some (.ok (s.submitted u), l, s)
  | .insertUser row => writeUser S i s.nextId none row l s.nextKey s.nextId
  | .updateUser u values =>
      match l.user s u with
      | some x =>
          if S.apart && s.editing u != some i then none
          else writeUser S i u (some x) (values x) l s ()
      | none => none
  | .lockUser u =>
      if freeFor s.userLock i u then
        some (.ok (), l, { s with userLock := update s.userLock u (some i) })
      else none
  | .getBeneficiary k senderId =>
      some (.ok ((l.beneficiary s k).filter (fun b => b.senderId == senderId && b.isActive)), l, s)
  | .insertBeneficiary row => writeBeneficiary S i s.nextId row l s.nextKey s.nextId
  | .updateBeneficiary k values =>
      match l.beneficiary s k with
      | some b => writeBeneficiary S i k (values b) l s ()
      | none => none
  | .payable =>
      match c with
      | none => some (.ok (), l, s)
      | some exc => some (.error exc, l, s)
  | .insertTransaction row =>
      some (.ok s.nextId, l.writeTransaction s.nextId row, s.nextKey)
  | .commit => some (.ok (), l.committed, s.commit i l)
  | .rollback => some (.ok (), l.reset, s.releaseAll i)
  | .refresh => some (.ok (), l, s)
  | .respond _ => some (.ok (), l, s)

/-- Calls that a session which has to be rolled back may still make. -/
def Op.always : Op → Bool
  | .rollback | .respond _ => true
  | _ => false

def exec (S : Setting) (i : Nat) (o : Op) (c : Choice) (l : Session) (s : World) : Answered o :=
  if l.failed && !o.always then none else perform S i l s c o

end Orbyt.Directory
