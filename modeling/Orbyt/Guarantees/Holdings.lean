/-
  Orbyt.Guarantees.Holdings — the balances and the ledger

  The database keeps a balance for each wallet, and so does the ledger: what the platform's
  transactions have paid to its account less what they have burned from it.  The two differ by
  what is under way, payments that are validated and not yet credited and reserves that are not
  yet burned, so that a wallet never shows what its account does not hold.

  Assumed of a run: workers are punctual, one consultation sees one ledger, a publish failure is
  recorded only on a cash-out that no worker has taken up, and a locked wallet is read as stored.

  Main results:
    * `landedTotal_rows`      — sums over the ledger are sums over the rows that record it;
    * `ledger_backs_balances` — the account of a wallet holds its balance and what is under way.
-/
import Orbyt.Guarantees.Burns
import Orbyt.Guarantees.Payments
import Orbyt.Invariants.Priced
import Orbyt.Lib.Tables
import Mathlib.Algebra.Notation.Lemmas
import Mathlib.Algebra.Order.Group.Int

namespace Orbyt

open Interleave
open Tables

variable {S : Setting} {clock validated : Nat} {held : Nat → Bool} {k : Config (platform S)}
  {s : World} {u : Nat}

/-! ## §1. What the ledger holds. -/

/-- `h` is on the ledger with `tesSUCCESS`. -/
def World.landed (s : World) (h : Nat) : Bool :=
  (s.ledger.included h).any fun p => p.2 == .tesSUCCESS

theorem World.landed_iff {h : Nat} : s.landed h = true ↔ s.Paid h := by
  unfold World.landed World.Paid
  constructor
  · intro hl
    obtain ⟨⟨n, code⟩, hi, hcode⟩ := (Option.any_eq_true _ _).mp hl
    have he : code = .tesSUCCESS := by simpa using hcode
    exact ⟨n, he ▸ hi⟩
  · intro hp
    obtain ⟨n, hi⟩ := hp
    rw [hi]
    rfl

/-- The hash on a row is on the ledger. -/
theorem World.landed_hash (s : World) (hash : Option Nat) :
    hash.any s.landed = true ↔ ∃ h, hash = some h ∧ s.Paid h := by
  rw [Option.any_eq_true]
  simp only [World.landed_iff]

/-- The account of the wallet of `u`. -/
def World.accountOf (s : World) (u : Nat) : Option Nat := (s.wallets u).map (·.xrplAddress)

/-- What a transaction brings to an account. -/
def XRPLTransaction.brings (account : Option Nat) : XRPLTransaction → Int
  | .payment _ (.address a) amount => if account = some a then amount else 0
  | _ => 0

/-- What it takes from the account of the wallet of `u`: what that wallet signs, by its owner.
No two wallets have one address (`wallets.xrpl_address` is unique), so that nobody else signs
for the account; what is brought to it is counted by address. -/
def XRPLTransaction.takes (u : Nat) : XRPLTransaction → Int
  | .payment (.wallet u' _) _ amount => if u' = u then amount else 0
  | .payment .treasury _ _ | .trustSet _ => 0

/-- The sum of `v` over the transactions that are on the ledger. -/
def World.landedTotal (s : World) (v : Blob → Int) : Int :=
  ∑ h ∈ Finset.range s.blobs.length, if s.landed h then worth v s.blobs[h]? else 0

/-- What the account of `u` holds: what was paid to its address, less what its wallet burned. -/
def World.holding (s : World) (u : Nat) : Int :=
  s.landedTotal (fun b => b.tx.brings (s.accountOf u)) - s.landedTotal (fun b => b.tx.takes u)

theorem World.landedTotal_mono {v v' : Blob → Int}
    (h : ∀ (m : Nat) (b : Blob), s.blobs[m]? = some b → v b ≤ v' b) :
    s.landedTotal v ≤ s.landedTotal v' := by
  apply Finset.sum_le_sum
  intro m _
  split
  · cases hb : s.blobs[m]? with
    | none => exact Int.le_refl 0
    | some b => exact h m b hb
  · exact Int.le_refl 0

theorem World.landedTotal_congr {v v' : Blob → Int}
    (h : ∀ (m : Nat) (b : Blob), s.blobs[m]? = some b → v b = v' b) :
    s.landedTotal v = s.landedTotal v' :=
  Int.le_antisymm (World.landedTotal_mono fun m b hb => Int.le_of_eq (h m b hb))
    (World.landedTotal_mono fun m b hb => Int.le_of_eq (h m b hb).symm)

/-! ## §2. What the rows say. -/

/-- What a send is worth to `u`. -/
def Txn.sentTo (u : Nat) (x : Txn) : Int :=
  if x.recipientUserId = some u then x.uctusdAmount else 0

/-- What a cash-out is worth to `u`. -/
def CashOutRequest.askedOf (u : Nat) (q : CashOutRequest) : Int :=
  if q.walletId = u then q.uctusdAmount else 0

/-- Paid on the ledger. -/
def Txn.paidTo (s : World) (u : Nat) (x : Txn) : Int :=
  if x.xrplTxHash.any s.landed = true then x.sentTo u else 0

/-- Burned on the ledger. -/
def CashOutRequest.burnedFrom (s : World) (u : Nat) (q : CashOutRequest) : Int :=
  if q.xrplBurnTxHash.any s.landed = true then q.askedOf u else 0

/-- Paid on the ledger, and not credited yet. -/
def Txn.arriving (s : World) (u : Nat) (x : Txn) : Int :=
  if x.settlementStatus = .completed then 0 else x.paidTo s u

/-- Reserved, and not burned on the ledger yet. -/
def CashOutRequest.leaving (s : World) (u : Nat) (q : CashOutRequest) : Int :=
  if q.status = .approved ∧ ¬ q.xrplBurnTxHash.any s.landed = true then q.askedOf u else 0

def World.arriving (s : World) (u : Nat) : Int := total (Txn.arriving s u) s.txns s.nextId

def World.leaving (s : World) (u : Nat) : Int :=
  total (CashOutRequest.leaving s u) s.reqs s.nextId

theorem Txn.sentTo_nonneg (x : Txn) : 0 ≤ x.sentTo u := by
  unfold Txn.sentTo
  exact ite_nonneg (Int.natCast_nonneg _) (Int.le_refl 0)

theorem CashOutRequest.askedOf_nonneg (q : CashOutRequest) : 0 ≤ q.askedOf u := by
  unfold CashOutRequest.askedOf
  exact ite_nonneg (Int.natCast_nonneg _) (Int.le_refl 0)

theorem World.arriving_nonneg : 0 ≤ s.arriving u := by
  apply total_nonneg
  intro x
  unfold Txn.arriving Txn.paidTo
  exact ite_nonneg (Int.le_refl 0) (ite_nonneg x.sentTo_nonneg (Int.le_refl 0))

theorem World.leaving_nonneg : 0 ≤ s.leaving u := by
  apply total_nonneg
  intro q
  unfold CashOutRequest.leaving
  exact ite_nonneg q.askedOf_nonneg (Int.le_refl 0)

/-- A completed send was paid, so what was paid is credited or arriving. -/
theorem Txn.Kept.paidTo {t : Nat} {owner : Option (Nat × Nat)} {x : Txn}
    (h : x.Kept S s t owner) : x.paidTo s u = x.creditTo u + x.arriving s u := by
  unfold Txn.arriving Txn.creditTo
  by_cases hc : x.settlementStatus = .completed
  · have hpaid : x.xrplTxHash.any s.landed = true := (s.landed_hash _).mpr (h.paid hc).2
    simp only [hc, true_and, if_true, Int.add_zero]
    exact if_pos hpaid
  · simp [hc]

/-- What is reserved was burned or is leaving: nothing was burned for a cash-out that is only
requested, and nothing for one that has failed. -/
theorem CashOutRequest.Kept.reservedFrom {r : Nat} {owner : Option Nat} {q : CashOutRequest}
    (h : q.Kept S s r owner) (hs : s.Regular) (hq : S.quietPublishFailure = true)
    (hv : S.oneLedgerView = true) :
    q.reservedFrom u = q.burnedFrom s u + q.leaving s u := by
  unfold CashOutRequest.reservedFrom CashOutRequest.burnedFrom CashOutRequest.leaving
    CashOutRequest.askedOf
  have hburned := s.landed_hash q.xrplBurnTxHash
  cases hstatus : q.status with
  | requested =>
    have hnone : ¬ q.xrplBurnTxHash.any s.landed = true := by
      rw [(h.fresh hstatus).1]
      exact nofun
    simp [hnone]
  | approved => by_cases hl : q.xrplBurnTxHash.any s.landed = true <;> simp [hl]
  | completed => simp [hburned.mpr (h.burned hstatus)]
  | failed =>
    have hnone : ¬ q.xrplBurnTxHash.any s.landed = true := fun hl => by
      obtain ⟨m, hm, hpaid⟩ := hburned.mp hl
      exact (h.lost hq hv hstatus m hm).not_paid hs hpaid
    simp [hnone]

/-! ## §3. What one transaction moves. -/

/-- What the payment for a row is worth to `u`, by the row. -/
def World.paidFor (s : World) (u : Nat) : Purpose → Int
  | .payment t => worth (Txn.sentTo u) (s.txns t)
  | _ => 0

/-- What the burn for a row costs `u`, by the row. -/
def World.burnedFor (s : World) (u : Nat) : Purpose → Int
  | .burn r => worth (CashOutRequest.askedOf u) (s.reqs r)
  | _ => 0

theorem World.paidFor_payment {p : Purpose} (h : s.paidFor u p ≠ 0) : ∃ t, p = .payment t := by
  cases p with
  | payment t => exact ⟨t, rfl⟩
  | burn r => exact absurd rfl h
  | trustSet t u' => exact absurd rfl h

theorem World.burnedFor_burn {p : Purpose} (h : s.burnedFor u p ≠ 0) : ∃ r, p = .burn r := by
  cases p with
  | payment t => exact absurd rfl h
  | burn r => exact ⟨r, rfl⟩
  | trustSet t u' => exact absurd rfl h

/-- Nobody else whom a send is for has the account of `u`. -/
def World.OwnAccount (s : World) (u : Nat) : Prop :=
  ∀ t x u', s.txns t = some x → x.recipientUserId = some u' →
    s.accountOf u' = s.accountOf u → u' = u

/-- A signature takes from a wallet what its row says. -/
theorem World.Prices.takes {purpose : Purpose} {tx : XRPLTransaction} (h : s.Prices purpose tx) :
    tx.takes u = s.burnedFor u purpose := by
  cases purpose with
  | payment t =>
    obtain ⟨x, u', w, -, -, -, rfl⟩ := h
    rfl
  | burn r =>
    obtain ⟨q, w, hq, -, rfl⟩ := h
    show (if q.walletId = u then (q.uctusdAmount : Int) else 0)
      = worth (CashOutRequest.askedOf u) (s.reqs r)
    rw [hq, worth_some]
    rfl
  | trustSet t u' =>
    obtain ⟨x, w, -, -, -, rfl⟩ := h
    rfl

/-- It brings to an account what its row says, or more where others have the account too. -/
theorem World.Prices.brings {purpose : Purpose} {tx : XRPLTransaction} (h : s.Prices purpose tx) :
    s.paidFor u purpose ≤ tx.brings (s.accountOf u) ∧
      (s.OwnAccount u → s.paidFor u purpose = tx.brings (s.accountOf u)) := by
  cases purpose with
  | payment t =>
    obtain ⟨x, u', w, hx, hu', hw, rfl⟩ := h
    have haccount : s.accountOf u' = some w.xrplAddress := by
      unfold World.accountOf
      rw [hw]
      rfl
    have hrow : s.paidFor u (.payment t) = x.sentTo u := by
      show worth (Txn.sentTo u) (s.txns t) = x.sentTo u
      rw [hx, worth_some]
    have htx : XRPLTransaction.brings (s.accountOf u)
        (.payment .treasury (.address w.xrplAddress) x.uctusdAmount)
          = if s.accountOf u = some w.xrplAddress then (x.uctusdAmount : Int) else 0 := rfl
    rw [hrow, htx]
    unfold Txn.sentTo
    rw [hu']
    by_cases hu : u' = u
    · subst hu
      simp [haccount]
    · rw [if_neg fun he => hu (Option.some.inj he)]
      constructor
      · exact ite_nonneg (Int.natCast_nonneg _) (Int.le_refl 0)
      · intro hown
        -- another payee of the same account would count here too
        rw [if_neg fun he => hu (hown t x u' hx hu' (haccount.trans he.symm))]
  | burn r =>
    obtain ⟨q, w, -, -, rfl⟩ := h
    exact ⟨Int.le_refl _, fun _ => rfl⟩
  | trustSet t u' =>
    obtain ⟨x, w, -, -, -, rfl⟩ := h
    exact ⟨Int.le_refl _, fun _ => rfl⟩

/-! ## §4. The ledger and the rows. -/

/-- The transaction `h` has landed, and the row `r` it was signed for records it. -/
structure World.LandedFor {ρ : Type} (s : World) (rows : Nat → Option ρ) (hash : ρ → Option Nat)
    (purpose : Nat → Purpose) (h r : Nat) : Prop where
  paid : s.Paid h
  blob : ∃ b, s.blobs[h]? = some b ∧ b.purpose = purpose r
  row : ∃ x, rows r = some x ∧ hash x = some h

/-- **THE LEDGER BY ROWS**: where each landed transaction of a kind is on the row it was signed
for, and each row's hash was signed for it, sums over the ledger are sums over the rows. -/
theorem World.landedTotal_rows {ρ : Type} (v : Purpose → Int) (value : ρ → Int)
    (rows : Nat → Option ρ) (hash : ρ → Option Nat) (purpose : Nat → Purpose)
    (hinj : ∀ r r', purpose r = purpose r' → r = r')
    (hkind : ∀ p, v p ≠ 0 → ∃ r, p = purpose r)
    (hvalue : ∀ r, v (purpose r) = worth value (rows r))
    (hrecorded : ∀ (h : Nat) (b : Blob) (r : Nat), s.blobs[h]? = some b →
      b.purpose = purpose r → s.Paid h → ∃ x, rows r = some x ∧ hash x = some h)
    (hsigned : ∀ r x h, rows r = some x → hash x = some h →
      ∃ b, s.blobs[h]? = some b ∧ b.purpose = purpose r)
    (hbound : ∀ r x, rows r = some x → r < s.nextId) :
    s.landedTotal (fun b => v b.purpose)
      = total (fun x => if (hash x).any s.landed = true then value x else 0) rows s.nextId := by
  apply sum_matched (R := s.LandedFor rows hash purpose)
  -- each landed transaction of the kind has a row
  · intro h hlt hne
    have hl : s.landed h = true := by
      by_contra hn
      exact hne (if_neg hn)
    have hpaid := World.landed_iff.mp hl
    have hb : s.blobs[h]? = some s.blobs[h] := List.getElem?_eq_getElem hlt
    rw [if_pos hl, hb, worth_some] at hne
    obtain ⟨r, hr⟩ := hkind _ hne
    obtain ⟨x, hx, hhash⟩ := hrecorded h _ r hb hr hpaid
    exact ⟨r, hbound r x hx, hpaid, ⟨_, hb, hr⟩, x, hx, hhash⟩
  -- each row that counts has a landed transaction
  · intro r _ hne
    cases hx : rows r with
    | none => exact absurd (by rw [hx]; rfl) hne
    | some x =>
      have hl : (hash x).any s.landed = true := by
        by_contra hn
        exact hne (by rw [hx, worth_some, if_neg hn])
      obtain ⟨h, hhash, hpaid⟩ := (s.landed_hash _).mp hl
      obtain ⟨b, hb, hpurpose⟩ := hsigned r x h hx hhash
      exact ⟨h, (List.getElem?_eq_some_iff.mp hb).1, hpaid, ⟨b, hb, hpurpose⟩, x, hx, hhash⟩
  -- which is worth the same
  · intro h r hR
    obtain ⟨hpaid, ⟨b, hb, hpurpose⟩, ⟨x, hx, hhash⟩⟩ := hR
    have hl : (hash x).any s.landed = true := (s.landed_hash _).mpr ⟨h, hhash, hpaid⟩
    rw [if_pos (World.landed_iff.mpr hpaid), hb, worth_some, hpurpose, hvalue r, hx, worth_some,
      worth_some, if_pos hl]
  -- and there is one of each for each
  · intro h r r' hR hR'
    obtain ⟨-, ⟨b, hb, hpurpose⟩, -⟩ := hR
    obtain ⟨-, ⟨b', hb', hpurpose'⟩, -⟩ := hR'
    obtain rfl : b = b' := Option.some.inj (hb.symm.trans hb')
    exact hinj r r' (hpurpose.symm.trans hpurpose')
  · intro h h' r hR hR'
    obtain ⟨-, -, x, hx, hhash⟩ := hR
    obtain ⟨-, -, x', hx', hhash'⟩ := hR'
    obtain rfl : x = x' := Option.some.inj (hx.symm.trans hx')
    exact Option.some.inj (hhash.symm.trans hhash')

/-- What was paid to a wallet is what the rows paid to it say. -/
theorem Settlements.landedTotal (h : Settlements S s) (hs : s.Regular)
    (hv : S.oneLedgerView = true) :
    s.landedTotal (fun b => s.paidFor u b.purpose) = total (Txn.paidTo s u) s.txns s.nextId := by
  apply World.landedTotal_rows (s.paidFor u) (Txn.sentTo u) s.txns (·.xrplTxHash) Purpose.payment
  · intro t t' he
    exact Purpose.payment.inj he
  · intro p hp
    exact World.paidFor_payment hp
  · intro t
    rfl
  -- what has landed is recorded, and is the live hash of its row
  · intro m b t hb hpurpose hpaid
    obtain ⟨n, hn⟩ := hpaid
    obtain ⟨x, hx, hmem⟩ := h.recorded m b t hb hpurpose (hs.included m _ hn).1
    exact ⟨x, hx, (h.rows t x hx).live_of_paid hv hmem ⟨n, hn⟩⟩
  -- the live hash of a row is of a payment for it
  · intro t x m hx hm
    obtain ⟨b, hb, hpurpose, -⟩ := ((h.rows t x hx).live m hm).blob
    exact ⟨b, hb, hpurpose⟩
  · exact hs.txnIds

/-- What was burned from a wallet is what the rows burned from it say. -/
theorem Burns.landedTotal (h : Burns S s) (hs : s.Regular) :
    s.landedTotal (fun b => s.burnedFor u b.purpose)
      = total (CashOutRequest.burnedFrom s u) s.reqs s.nextId := by
  apply World.landedTotal_rows (s.burnedFor u) (CashOutRequest.askedOf u) s.reqs
    (·.xrplBurnTxHash) Purpose.burn
  · intro r r' he
    exact Purpose.burn.inj he
  · intro p hp
    exact World.burnedFor_burn hp
  · intro r
    rfl
  · intro m b r hb hpurpose hpaid
    obtain ⟨n, hn⟩ := hpaid
    exact h.recorded m b r hb hpurpose (hs.included m _ hn).1
  · intro r q m hq hm
    obtain ⟨b, hb, hpurpose, -⟩ := ((h.rows r q hq).live m hm).blob
    exact ⟨b, hb, hpurpose⟩
  · exact hs.reqIds

/-! ## §5. Balances. -/

/-- **THE LEDGER BACKS THE BALANCES**: an account holds its wallet's balance and what is under
way, and nothing else where no other recipient has the account. -/
theorem ledger_backs_balances (hS : 1 ≤ S.minTick) (hp : S.punctual = true)
    (hv : S.oneLedgerView = true) (hq : S.quietPublishFailure = true) (hf : S.freshLock = true)
    (h : Reach (M := platform S) (World.initial clock validated held) k) (u : Nat) :
    0 ≤ k.world.arriving u ∧ 0 ≤ k.world.leaving u ∧
    balanceOf (k.world.wallets u) + k.world.arriving u + k.world.leaving u ≤ k.world.holding u ∧
    (k.world.OwnAccount u →
      balanceOf (k.world.wallets u) + k.world.arriving u + k.world.leaving u
        = k.world.holding u) := by
  have hw := World.Orderly.initial clock validated held
  have hregular := ((rules_kept S).reach hw h).world.regular
  have hset := settlement_reach hS hp (.inl hv) hw (.initial clock validated held) h
  have hburns := burning_reach hp hw (.initial clock validated held) h
  have hmoney := (books_reach hw (.initial S clock validated held) h).money hf u
  have hpriced : k.world.Priced := priced_reach hw (fun _ _ hb => by cases hb) h
  -- by the rows, what was paid less what was burned
  have hpaid : k.world.landedTotal (fun b => k.world.paidFor u b.purpose)
      = k.world.credited u + k.world.arriving u :=
    (hset.landedTotal hregular hv).trans (total_add fun t x hx => (hset.rows t x hx).paidTo)
  have hreserved : k.world.reserved u
      = k.world.landedTotal (fun b => k.world.burnedFor u b.purpose) + k.world.leaving u := by
    rw [hburns.landedTotal hregular]
    exact total_add fun r q hrow => (hburns.rows r q hrow).reservedFrom hregular hq hv
  -- by the ledger, which may have paid the account for others
  have htakes : k.world.landedTotal (fun b => b.tx.takes u)
      = k.world.landedTotal (fun b => k.world.burnedFor u b.purpose) :=
    World.landedTotal_congr fun m b hb => (hpriced m b hb).takes
  have hbrings : k.world.landedTotal (fun b => k.world.paidFor u b.purpose)
      ≤ k.world.landedTotal (fun b => b.tx.brings (k.world.accountOf u)) :=
    World.landedTotal_mono fun m b hb => (hpriced m b hb).brings.1
  have hholding : k.world.holding u
      = k.world.landedTotal (fun b => b.tx.brings (k.world.accountOf u))
        - k.world.landedTotal (fun b => b.tx.takes u) := rfl
  refine ⟨World.arriving_nonneg, World.leaving_nonneg, ?_, fun hown => ?_⟩
  · rw [hholding, htakes]
    omega
  · have hsame : k.world.landedTotal (fun b => k.world.paidFor u b.purpose)
        = k.world.landedTotal (fun b => b.tx.brings (k.world.accountOf u)) :=
      World.landedTotal_congr fun m b hb => (hpriced m b hb).brings.2 hown
    rw [hholding, htakes]
    omega

def Setting.backed : Setting := { Setting.quietOutages with freshLock := true }

/-- While a burn of two millionths is in flight, a second send of five is paid, and neither is
recorded yet. -/
def underWay : List (Label (platform .backed)) :=
  approving .backed ++ steps .backed 4 1 ++ [.stop 4] ++ claimingBurn .backed 5
    ++ submittingBurn .backed 5 140 ++ sending .backed 6 sendToTwo 2 fiveToTwo
    ++ confirming .backed 7 2 ++ .start (.settle 2) :: steps .backed 8 8
    ++ answering .backed 8 [.lastLedger (some 140)] ++ steps .backed 8 4
    ++ closing .backed [(3, .tesSUCCESS)]

theorem ledger_backs_balances_underWay :
    ∃ k, Reach (M := platform .backed) World.empty k ∧ balanceOf (k.world.wallets 2) = 3 ∧
      k.world.arriving 2 = 5 ∧ k.world.leaving 2 = 2 ∧ 10 ≤ k.world.holding 2 := by
  have hrun : (Config.run underWay (Config.initial World.empty)).map
      (fun k => (balanceOf (k.world.wallets 2), k.world.arriving 2, k.world.leaving 2))
        = some (3, 5, 2) := by decide +kernel
  obtain ⟨k, hk, hend⟩ := Reach.of_run_map hrun
  simp only [Prod.mk.injEq] at hend
  obtain ⟨hbalance, harriving, hleaving⟩ := hend
  obtain ⟨-, -, hbacked, -⟩ := ledger_backs_balances (by decide) rfl rfl rfl rfl hk 2
  exact ⟨k, hk, hbalance, harriving, hleaving, by omega⟩

end Orbyt
