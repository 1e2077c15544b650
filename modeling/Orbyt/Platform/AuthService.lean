/-
  Orbyt.Platform.AuthService — registering, seeding the admin, and editing a profile

  `create_user` and `update_profile` of `auth_service.py`, the routes `register` and
  `profile_update`, and `scripts/seed_admin.py`.  `create_user` checks for a taken email and a
  taken mobile number and leaves the rest to the unique constraints; so does `update_profile`,
  which has a handler for what they raise.
-/
import Orbyt.Platform.Accounts

namespace Orbyt.Directory

open Interleave
open PyText

/-! ## §1. Formats. -/

def EMAIL_INVALID : Text := "Enter a valid email address, like name@example.com.".toList
def MOBILE_INVALID : Text :=
  ("Enter a valid mobile number: 7 to 15 digits, optionally starting with +, "
    ++ "like +27821234567.").toList
def NAME_LOCKED : Text :=
  "Your name can't be changed after you've submitted identity verification.".toList
def MIN_PASSWORD_LENGTH : Nat := 8

/-- What is in front of the `$` of a pattern: it also matches before a newline at the end. -/
def beforeEnd (t : Text) : Text := if t.getLast? = some '\n' then t.dropLast else t

/-- `[^@\s]` -/
def isAddressChar (c : Char) : Bool := c != '@' && !isSpace c

/-- `[A-Za-z]` -/
def isAsciiLetter (c : Char) : Bool := ('a' ≤ c && c ≤ 'z') || ('A' ≤ c && c ≤ 'Z')

/-- `[^@\s]+\.[A-Za-z]{2,}$`: the dot is the last character that is no letter. -/
def isDomain (t : Text) : Bool :=
  match t.rdropWhile isAsciiLetter |>.reverse with
  | '.' :: host =>
      !host.isEmpty && host.all isAddressChar && 2 ≤ (t.rtakeWhile isAsciiLetter).length
  | _ => false

/-- `EMAIL_PATTERN` -/
def emailPattern (t : Text) : Bool :=
  match (beforeEnd t).dropWhile isAddressChar with
  | '@' :: domain => !((beforeEnd t).takeWhile isAddressChar).isEmpty && isDomain domain
  | _ => false

/-- `MOBILE_PATTERN` -/
def mobilePattern (t : Text) : Bool :=
  let digits := match beforeEnd t with
    | '+' :: digits => digits
    | digits => digits
  7 ≤ digits.length && digits.length ≤ 15 && digits.all isAsciiDigit

def emailIsValid (email : Text) : Bool := email.length ≤ 255 && emailPattern email
def mobileIsValid (mobile : Text) : Bool := mobilePattern mobile

example : emailIsValid "thandi.m@mail.example.com".toList = true := by decide
example : emailIsValid "thandi@example.c".toList = false := by decide
example : mobileIsValid "+27821234567".toList = true := by decide

def passwordProblems (password confirm : Text) : List Text :=
  (if password ≠ confirm then ["Passwords do not match.".toList] else [])
    ++ (if password.length < MIN_PASSWORD_LENGTH then
      ["Password must be at least 8 characters.".toList] else [])

/-! ## §2. Registering. -/

/-- The row of a new account. -/
def User.create (fullName email mobile : Text) (isAdmin : Bool) : User where
  fullName := fullName
  email := email
  mobile := mobile
  isAdmin := isAdmin
  canSend := !isAdmin
  kycApproved := isAdmin

/-- `get_password_hash`, the INSERT and the commit. -/
def saveUser (S : Setting) (row : User) (password : Text) : Program Nat := do
  match S.hashRefusal password with
  | some text => throw (.valueError text)
  | none =>
      let u ← call (.insertUser row)
      call .commit
      call .refresh
      return u

/-- `create_user`: nothing catches what the unique constraints raise. -/
def createUser (S : Setting) (fullName email mobile password : Text) (isAdmin : Bool) :
    Program Nat := do
  match ← call (.userBy .email (normal (normal email)) false) with
  | some _ => throw (.valueError "An account with this email already exists.".toList)
  | none =>
      match ← call (.userBy .mobile (strip mobile) false) with
      | some _ => throw (.valueError "An account with this mobile number already exists.".toList)
      | none =>
          saveUser S (User.create (strip fullName) (normal email) (strip mobile) isAdmin) password

/-- The checks of the form, made before `create_user`. -/
def formErrors (form : RegisterForm) : List Text :=
  (if emailIsValid (normal form.email) then [] else [EMAIL_INVALID])
    ++ (if mobileIsValid (strip form.mobile) then [] else [MOBILE_INVALID])
    ++ passwordProblems form.password form.confirmPassword

def welcome : Reply :=
  .redirect "/dashboard" (some
    ("Account created. Welcome! Complete your KYC to start sending money.".toList, "success"))

/-- `register` -/
def register (S : Setting) (form : RegisterForm) : Program Reply := do
  if formErrors form = [] then
    match ← Prog.attempt
        (createUser S form.fullName form.email form.mobile form.password false) with
    | .ok _ => return welcome
    | .error (.valueError text) => return .page 400 [text]
    | .error exc => throw exc
  else
    return .page 400 (formErrors form)

/-- `seed` -/
def seedAdmin (S : Setting) (settings : AdminSettings) : Program Reply := do
  let email := normal settings.adminEmail
  match ← call (.userBy .email email false) with
  | some _ => return .printed ("Admin already exists: ".toList ++ email)
  | none =>
      match S.hashRefusal settings.adminPassword with
      | some text => throw (.valueError text)
      | none =>
          let _ ← call (.insertUser
            (User.create settings.adminName email (strip settings.adminMobile) true))
          call .commit
          return .printed ("Admin created: ".toList ++ email)

/-! ## §3. Editing a profile. -/

def nameIsEditable (u : Nat) (user : User) : Program Bool := do
  if user.isAdmin then return false
  else
    let submitted ← call (.activeKyc u)
    return !submitted

/-- The name to store; a form without one leaves it. -/
def newName (u : Nat) (user : User) (fullName : Option Text) : Program Text := do
  match fullName with
  | none => return user.fullName
  | some fullName =>
      if strip fullName = user.fullName then return user.fullName
      else
        let editable ← nameIsEditable u user
        if !editable then throw (.profileError NAME_LOCKED)
        else if strip fullName = [] ∨ 255 < (strip fullName).length then
          throw (.profileError "Enter your full name.".toList)
        else return strip fullName

/-- A changed value must not be another account's. -/
def checkTaken (u : Nat) (user : User) (col : Column) (value text : Text) : Program Unit := do
  if value = user.get col then return ()
  else
    let taken ← call (.taken col value u)
    if taken then throw (.profileError text) else return ()

/-- An attribute of the stored row, where the loaded object had `loaded` and has `new` now. -/
def assigned {α : Type} [DecidableEq α] (loaded new stored : α) : α :=
  if new = loaded then stored else new

def editedUser (user : User) (email mobile name : Text) (stored : User) : User :=
  { stored with
    email := assigned user.email email stored.email
    mobile := assigned user.mobile mobile stored.mobile
    fullName := assigned user.fullName name stored.fullName }

/-- The commit, which flushes the UPDATE, and its handler. -/
def saveProfile (u : Nat) (user : User) (email mobile name : Text) : Program Bool := do
  match ← Prog.attempt (do
      call (.updateUser u (editedUser user email mobile name))
      call .commit) with
  | .ok _ => return true
  | .error .integrityError =>
      call .rollback
      call .refresh
      throw (.profileError
        "That email address or mobile number is already used by another account.".toList)
  | .error exc => throw exc

/-- The rest of `update_profile`, once the formats are checked. -/
def saveChanges (u : Nat) (user : User) (email mobile : Text) (fullName : Option Text) :
    Program Bool := do
  let name ← newName u user fullName
  checkTaken u user .email email "Another account already uses this email address.".toList
  checkTaken u user .mobile mobile "Another account already uses this mobile number.".toList
  if email = user.email ∧ mobile = user.mobile ∧ name = user.fullName then return false
  else saveProfile u user email mobile name

/-- `update_profile`: only a changed value is format-checked. -/
def updateProfile (u : Nat) (user : User) (email mobile : Text) (fullName : Option Text) :
    Program Bool := do
  if normal email ≠ user.email ∧ emailIsValid (normal email) = false then
    throw (.profileError EMAIL_INVALID)
  else if strip mobile ≠ user.mobile ∧ mobileIsValid (strip mobile) = false then
    throw (.profileError MOBILE_INVALID)
  else
    saveChanges u user (normal email) (strip mobile) fullName

def profileSaved (changed : Bool) : Reply :=
  .redirect "/profile" (some (if changed then ("Your details have been updated.".toList, "success")
    else ("No changes to save.".toList, "info")))

/-- `profile_update` -/
def profileUpdate (u : Nat) (form : ProfileForm) : Program Reply := do
  match ← call (.loadUser u) with
  | none => return .redirect "/login" none
  | some user =>
      match ← Prog.attempt (updateProfile u user form.email form.mobile form.fullName) with
      | .ok changed => return profileSaved changed
      | .error (.profileError text) =>
          let _ ← nameIsEditable u user
          return .page 400 [text]
      | .error exc => throw exc

end Orbyt.Directory
