/-
  Orbyt.Lib.ValidatedLedger — a ledger that closes, and what absence proves

  A ledger closes one index after another and never reopens one.  What a client
  can see of it is the index validated so far, the transactions included up to
  there, and which of the closed indices one server still holds.  A transaction
  may only be included inside its window (`after`, `last`]; with no `last` the
  window never ends.

  Main results:
    * `Evolves` is a preorder: reading the ledger later only adds to it;
    * `Evolves.never_included` — a window that is over without the transaction
      stays without it;
    * `absent_of_lookup` — not found, past the window, and with the whole window
      held by the server: the transaction is in no ledger.
-/
import Mathlib.Logic.Basic

namespace ValidatedLedger

/-- What one server can see: hashes are natural numbers, results are in `κ`. -/
structure Ledger (κ : Type) where
  validated : Nat
  included : Nat → Option (Nat × κ)
  held : Nat → Bool

/-- The only indices a transaction may be included at. -/
structure Window where
  after : Nat
  last : Option Nat
  deriving Repr, DecidableEq

def Window.admits (win : Window) (n : Nat) : Prop :=
  win.after < n ∧ ∀ last, win.last = some last → n ≤ last

instance (win : Window) (n : Nat) : Decidable (win.admits n) :=
  match win with
  | ⟨after, none⟩ => decidable_of_iff (after < n) (by simp [Window.admits])
  | ⟨after, some last⟩ => decidable_of_iff (after < n ∧ n ≤ last) (by simp [Window.admits])

variable {κ : Type}

/-- The server's answer about one hash: the result, if a ledger it holds has it. -/
def Ledger.lookup (L : Ledger κ) (h : Nat) : Option κ :=
  match L.included h with
  | some (n, code) => if L.held n then some code else none
  | none => none

/-- The server holds every index from `low` to `high`. -/
def Ledger.holds (L : Ledger κ) (low high : Nat) : Prop :=
  ∀ n, low ≤ n → n ≤ high → L.held n = true

/-- The transaction `h` with window `win` has not been included, or only where
it may be and where the ledger is closed. -/
def Ledger.respects (L : Ledger κ) (h : Nat) (win : Window) : Prop :=
  ∀ n code, L.included h = some (n, code) → win.admits n ∧ n ≤ L.validated

/-- `L'` is `L` some ledgers later, as far as the hash `h` is concerned: what was
included stays, and what is new is at a newly closed index of its window. -/
structure Evolves (h : Nat) (win : Window) (L L' : Ledger κ) : Prop where
  validated : L.validated ≤ L'.validated
  stays : ∀ r, L.included h = some r → L'.included h = some r
  fresh : L.included h = none → ∀ n code, L'.included h = some (n, code) →
    win.admits n ∧ L.validated < n ∧ n ≤ L'.validated

theorem Evolves.refl (h : Nat) (win : Window) (L : Ledger κ) : Evolves h win L L :=
  ⟨Nat.le_refl _, fun _ hr => hr, fun hn n code hs => by rw [hn] at hs; cases hs⟩

theorem Evolves.trans {h : Nat} {win : Window} {L L' L'' : Ledger κ}
    (h₁ : Evolves h win L L') (h₂ : Evolves h win L' L'') : Evolves h win L L'' := by
  refine ⟨Nat.le_trans h₁.validated h₂.validated, fun r hr => h₂.stays r (h₁.stays r hr),
    fun hn n code hs => ?_⟩
  cases hm : L'.included h with
  | none =>
    obtain ⟨hw, hlt, hle⟩ := h₂.fresh hm n code hs
    exact ⟨hw, Nat.lt_of_le_of_lt h₁.validated hlt, hle⟩
  | some r =>
    obtain rfl : r = (n, code) := Option.some.inj ((h₂.stays r hm).symm.trans hs)
    obtain ⟨hw, hlt, hle⟩ := h₁.fresh hn n code hm
    exact ⟨hw, hlt, Nat.le_trans hle h₂.validated⟩

theorem Evolves.respects {h : Nat} {win : Window} {L L' : Ledger κ}
    (hL : L.respects h win) (he : Evolves h win L L') : L'.respects h win := by
  intro n code hs
  cases hm : L.included h with
  | none =>
    obtain ⟨hw, _, hle⟩ := he.fresh hm n code hs
    exact ⟨hw, hle⟩
  | some r =>
    obtain rfl : r = (n, code) := Option.some.inj ((he.stays r hm).symm.trans hs)
    obtain ⟨hw, hle⟩ := hL n code hm
    exact ⟨hw, Nat.le_trans hle he.validated⟩

/-- The window of `win` is over in `L`. -/
def Ledger.closed (L : Ledger κ) (win : Window) : Prop :=
  ∃ last, win.last = some last ∧ last ≤ L.validated

/-- Once a window is over without the transaction, no later ledger has it. -/
theorem Evolves.never_included {h : Nat} {win : Window} {L L' : Ledger κ}
    (hn : L.included h = none) (hc : L.closed win) (he : Evolves h win L L') :
    L'.included h = none := by
  obtain ⟨last, hl, hle⟩ := hc
  cases hs : L'.included h with
  | none => rfl
  | some r =>
    obtain ⟨⟨_, hw⟩, hlt, _⟩ := he.fresh hn r.1 r.2 hs
    have hlast := hw last hl
    omega

/-- **WHAT ABSENCE PROVES**: a transaction the server does not find, whose window
is over and wholly held by that server, is in no ledger. -/
theorem absent_of_lookup {h : Nat} {win : Window} {L : Ledger κ} {low last : Nat}
    (hL : L.respects h win) (hlow : low ≤ win.after) (hlast : win.last = some last)
    (hheld : L.holds low last) (hnone : L.lookup h = none) : L.included h = none := by
  cases hs : L.included h with
  | none => rfl
  | some r =>
    obtain ⟨⟨hgt, hle⟩, _⟩ := hL r.1 r.2 hs
    have hheld' := hheld r.1 (by omega) (hle last hlast)
    simp [Ledger.lookup, hs, hheld'] at hnone

end ValidatedLedger
