/-
  Orbyt.Guarantees.Recipients — whom a beneficiary is linked to, and whom a send pays

  Main results:
    * `recipients_are_members` — under any interleaving of requests: whoever is linked or paid is
      a user, no admin, and not the sender;
    * `booked_as_linked`       — after any history a send books the account that the saved details
      resolve to, or resolved to when the link was made;
    * `link_goes_stale`        — a recipient who changes their email is still paid, also when the
      sender's saved email is somebody else's by then.
-/
import Orbyt.Invariants.Recipients
import Orbyt.Invariants.Links

namespace Orbyt.Directory

open Interleave
open PyText

variable {S : Setting} {u k : Nat} {w w' : World}

/-! ## §1. Histories. -/

def Setting.usual : Setting where
  hashRefusal := fun _ => none
  apart := false
  uncontested := false
  fitting := false

/-- A request that nothing goes wrong in from outside. -/
def whole (e : Entry) : Turn (accounts .usual) := .run e (List.replicate 12 none)

def registering (fullName email mobile : String) : Entry :=
  .register ⟨fullName.toList, email.toList, mobile.toList, "password".toList, "password".toList⟩

/-- User 0. -/
def thandi : Turn (accounts .usual) :=
  whole (registering "Thandi M" " Thandi@Example.com" "+27821234567")

/-- User 1. -/
def sipho : Turn (accounts .usual) :=
  whole (registering "Sipho D" "sipho@example.com" "+27837654321")

def siphoApproved : Turn (accounts .usual) := .env (.review 1 true)

/-- Beneficiary 2: Sipho saves Thandi's email. -/
def siphoSaves : Turn (accounts .usual) :=
  whole (.create 1 ⟨"Thandi".toList, "thandi@example.com".toList, [], "USD".toList⟩)

/-- Thandi changes her email. -/
def thandiMoves : Turn (accounts .usual) :=
  whole (.profileUpdate 0 ⟨"thandi@example.org".toList, "+27821234567".toList, none⟩)

/-- User 3 gets the email that Thandi had. -/
def lerato : Turn (accounts .usual) :=
  whole (registering "Lerato K" "thandi@example.com" "+27829876543")

/-- A history in which the account behind beneficiary 2 changes. -/
def moved : List (Turn (accounts .usual)) :=
  [thandi, sipho, siphoApproved, siphoSaves, thandiMoves, lerato]

def siphoSends : Turn (accounts .usual) := whole (.send 1 2)

/-! ## §2. Never an admin, never the sender. -/

/-- **FUNDS GO TO MEMBERS**, and never back. -/
theorem recipients_are_members {c : Config (accounts S)} (h : Reach World.initial c) :
    (∀ k b r, c.world.beneficiaries k = some b → b.recipientUserId = some r →
      (∃ y, c.world.users r = some y ∧ y.isAdmin = false) ∧ r ≠ b.senderId) ∧
    ∀ t x, c.world.transactions t = some x →
      (∃ y, c.world.users x.recipientUserId = some y ∧ y.isAdmin = false) ∧
        x.recipientUserId ≠ x.senderId := by
  have hrouted := routed_reach h
  exact ⟨hrouted.links, hrouted.transactions⟩

theorem recipients_are_members_thandi :
    ∃ c : Config (accounts .usual), Reach World.initial c ∧
      ((∃ y, c.world.users 0 = some y ∧ y.isAdmin = false) ∧ 0 ≠ 1) ∧
      (∃ y, c.world.users 0 = some y ∧ y.isAdmin = false) ∧ 0 ≠ 1 := by
  have hrun : (turns [thandi, sipho, siphoApproved, siphoSaves, siphoSends] World.initial).map
      (fun w => (w.beneficiaries 2, w.transactions 3))
      = some (some ⟨1, some 0, "Thandi".toList, some "thandi@example.com".toList, none, .usd, true⟩,
          some ⟨1, 2, 0⟩) := by decide +kernel
  obtain ⟨w, hw, hread⟩ := Option.map_eq_some_iff.mp hrun
  obtain ⟨hb, hx⟩ := Prod.mk.inj hread
  have hhistory : History .usual World.initial w := .of_turns .initial (fun _ _ _ => trivial) hw
  obtain ⟨c, hc, rfl, -⟩ := hhistory.reach
  have hmembers := recipients_are_members hc
  exact ⟨c, hc, hmembers.1 2 _ 0 hb rfl, hmembers.2 3 _ hx⟩

/-! ## §3. Matched at send time. -/

/-- **A SEND BOOKS WHOM THE BENEFICIARY IS LINKED TO**: an account that the saved details resolved
to when the link was made, which may be now, and do so still unless a registration or the edit of
a profile has changed that since. -/
theorem booked_as_linked {ps : List (Passage (accounts S))} (h : Story World.initial ps w)
    (hs : Completes (accounts S) (.send u k) w w') :
    ∀ t x, w'.transactions t = some x → w.transactions t = none →
      ∃ b, w'.beneficiaries x.beneficiaryId = some b ∧ b.senderId = x.senderId ∧
        b.recipientUserId = some x.recipientUserId ∧
        (w.beneficiaries x.beneficiaryId = some b ∨
          w'.resolve b.email b.mobile x.senderId = some x.recipientUserId) ∧
        ∃ before p after y, ps ++ [⟨some (.send u k), w, w'⟩] = before ++ p :: after ∧
          LinksTo x.beneficiaryId b x.recipientUserId p ∧
          p.after.users x.recipientUserId = some y ∧
          (b.email = some y.email ∨ b.mobile = some y.mobile) ∧
          (∀ q ∈ after, q.after.beneficiaries x.beneficiaryId = some b) ∧
          (w'.resolve b.email b.mobile x.senderId = some x.recipientUserId ∨
            ∃ q ∈ after, Disturbs b q) := by
  intro t x hx hnew
  have hw := serial_regular h.serial
  have hout := outcome_completes hw rfl hs
  have hlater := h.run hs
  have hw' := serial_regular hlater.serial
  -- the row is one that this send has booked
  obtain hold | ⟨b, hb, hactive, hsender, hlink⟩ := hout.transactions t x hx
  · rw [hnew] at hold
    cases hold
  · have hproper := (hw'.saved _ b hb).2
    obtain ⟨before, p, after, hps, hlinks, hsince, hend⟩ :=
      matched_story hlater _ b _ hb hactive hlink
    obtain ⟨y, hy, hcontact⟩ := resolve_contact
      (serial_regular (hlater.upTo hps).serial) hproper hlinks.found
    rw [← hsender]
    refine ⟨b, hb, rfl, hlink, ?_, before, p, after, y, hps, hlinks, hy, hcontact, hsince, hend⟩
    -- a send changes no account, so that it resolves as before
    have hsame : SameContacts w w' := fun v => by rw [hout.users]
    rw [resolve_congr hw hw' hsame]
    exact hout.links _ b _ hb hactive hlink

theorem booked_as_linked_thandi :
    ∃ (ps : List (Passage (accounts .usual))) (w w' : World), Story World.initial ps w ∧
      Completes (accounts .usual) (.send 1 2) w w' ∧
      w'.transactions 3 = some ⟨1, 2, 0⟩ ∧ w.transactions 3 = none ∧
      ∃ b, w'.beneficiaries 2 = some b ∧ b.recipientUserId = some 0 ∧
        ∃ before p after, ps ++ [⟨some (.send 1 2), w, w'⟩] = before ++ p :: after ∧
          LinksTo 2 b 0 p ∧
          (w'.resolve b.email b.mobile 1 = some 0 ∨ ∃ q ∈ after, Disturbs b q) := by
  have hrun : ((turns [thandi, sipho, siphoApproved, siphoSaves] World.initial).bind fun w =>
      (turn w siphoSends).map fun w' => (w.transactions 3, w'.transactions 3))
      = some (none, some ⟨1, 2, 0⟩) := by decide +kernel
  obtain ⟨w, hw, hrun⟩ := Option.bind_eq_some_iff.mp hrun
  obtain ⟨w', hw', hread⟩ := Option.map_eq_some_iff.mp hrun
  obtain ⟨hnone, hx⟩ := Prod.mk.inj hread
  have hhistory : History .usual World.initial w := .of_turns .initial (fun _ _ _ => trivial) hw
  obtain ⟨ps, hstory⟩ := hhistory.story
  have hsend := turn_completes hw'
  obtain ⟨b, hb, -, hlink, -, before, p, after, -, hps, hlinks, -, -, -, hend⟩ :=
    booked_as_linked hstory hsend 3 _ hx hnone
  exact ⟨ps, w, w', hstory, hsend, hx, hnone, b, hb, hlink, before, p, after, hps, hlinks, hend⟩

/-- **A LINK GOES STALE.**  Sipho saved Thandi's email, she has moved to another one since, and
Lerato has it now: `_resolve_recipient` finds Lerato, and Thandi is paid. -/
theorem link_goes_stale :
    ∃ w w' : World, History .usual World.initial w ∧
      Completes (accounts .usual) (.send 1 2) w w' ∧
      w.transactions 4 = none ∧ w'.transactions 4 = some ⟨1, 2, 0⟩ ∧
      ∃ b y, w'.beneficiaries 2 = some b ∧ b.senderId = 1 ∧
        w'.resolve b.email b.mobile 1 = some 3 ∧ w'.users 0 = some y ∧
        b.email ≠ some y.email ∧ b.mobile ≠ some y.mobile := by
  have hrun : ((turns moved World.initial).bind fun w => (turn w siphoSends).map fun w' =>
      ((w.transactions 4, w'.transactions 4),
        w'.resolve (some "thandi@example.com".toList) none 1))
      = some ((none, some ⟨1, 2, 0⟩), some 3) := by decide +kernel
  have hrows : ((turns moved World.initial).bind fun w => (turn w siphoSends).map fun w' =>
      (w'.beneficiaries 2, w'.users 0))
      = some (
          some ⟨1, some 0, "Thandi".toList, some "thandi@example.com".toList, none, .usd, true⟩,
          some ⟨"Thandi M".toList, "thandi@example.org".toList, "+27821234567".toList,
            false, true, false⟩) := by decide +kernel
  obtain ⟨w, hw, hrun⟩ := Option.bind_eq_some_iff.mp hrun
  obtain ⟨w', hw', hread⟩ := Option.map_eq_some_iff.mp hrun
  rw [hw, Option.bind_some, hw', Option.map_some, Option.some.injEq] at hrows
  simp only [Prod.mk.injEq] at hread hrows
  obtain ⟨⟨hnone, hx⟩, hresolve⟩ := hread
  obtain ⟨hb, hy⟩ := hrows
  refine ⟨w, w', Serial.of_turns .initial (fun _ _ _ => trivial) hw, turn_completes hw', hnone, hx,
    _, _, hb, rfl, hresolve, hy, ?_, ?_⟩
  · decide
  · decide

end Orbyt.Directory
