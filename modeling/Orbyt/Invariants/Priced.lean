/-
  Orbyt.Invariants.Priced — what is signed is what the row says

  Terms of rows and accounts of wallets never change, so whatever a worker has read of them
  after its claim still holds when it signs.  Nothing is assumed of a run.

  Main results:
    * `pricing_kept`  — besides the rules of the platform, wallets keep their accounts;
    * `priced_reach`  — in every reachable state each payment, burn and TrustSet is the one
      that the row it was signed for calls for.
-/
import Orbyt.Invariants.Books

namespace Orbyt

open Interleave
open Interleave.Prog
open Function (update)

variable {S : Setting} {i j : Nat} {o : Op} {c : Choice} {l l' : Session} {s s' : World}
  {e : Entry} {W : Prop}

/-! ## §1. Wallets keep their accounts. -/

/-- The same account on the ledger: a trust line that is set stays set. -/
structure Wallet.SameAccount (w w' : Wallet) : Prop where
  address : w'.xrplAddress = w.xrplAddress
  key : w'.encryptedPrivateKey = w.encryptedPrivateKey
  trustLine : w.trustSetComplete = true → w'.trustSetComplete = true

theorem Wallet.SameAccount.refl (w : Wallet) : w.SameAccount w := ⟨rfl, rfl, id⟩

theorem Wallet.SameAccount.trans {w w' w'' : Wallet} (h : w.SameAccount w')
    (h' : w'.SameAccount w'') : w.SameAccount w'' :=
  ⟨h'.address.trans h.address, h'.key.trans h.key, fun ht => h'.trustLine (h.trustLine ht)⟩

/-- Every stored wallet is still there, with its account. -/
def Accounts (s s' : World) : Prop :=
  ∀ u w, s.wallets u = some w → ∃ w', s'.wallets u = some w' ∧ w.SameAccount w'

theorem Accounts.of_eq (h : s'.wallets = s.wallets) : Accounts s s' :=
  fun u w hw => ⟨w, by rw [h]; exact hw, .refl w⟩

theorem Accounts.trans {s'' : World} (h : Accounts s s') (h' : Accounts s' s'') :
    Accounts s s'' := fun u w hw => by
  obtain ⟨w', hw', ha⟩ := h u w hw
  obtain ⟨w'', hw'', ha'⟩ := h' u w' hw'
  exact ⟨w'', hw'', ha.trans ha'⟩

/-- A session writes a stored wallet with the wallet's own account. -/
def Session.KeepsAccounts (l : Session) (s : World) : Prop :=
  ∀ u w', l.walletWrites u = some w' → ∀ w, s.wallets u = some w → w.SameAccount w'

theorem Session.KeepsAccounts.of_others (h : l.KeepsAccounts s) (hl : l.Locked i s)
    (ho : Others i s s') : l.KeepsAccounts s' := fun u w' hw' w hw => by
  rw [(ho.walletLock u (hl.wallets u w' hw')).2] at hw
  exact h u w' hw' w hw

/-- The wallet as the session sees it has the stored account. -/
theorem Session.KeepsAccounts.reads (h : l.KeepsAccounts s) {u : Nat} {w w' : Wallet}
    (hw' : l.wallet s u = some w') (hw : s.wallets u = some w) : w.SameAccount w' := by
  rcases Option.or_eq_some_iff.mp hw' with hwrite | ⟨-, hst⟩
  · exact h u w' hwrite w hw
  · rw [hw] at hst
    cases hst
    exact .refl w

theorem exec_keepsAccounts (h : l.KeepsAccounts s) {r : Except Exn o.Res}
    (hx : exec S i o c l s = some (r, l', s')) : l'.KeepsAccounts s' := by
  by_cases hcommit : o = .commit
  · subst hcommit
    rcases exec_commit hx with ⟨-, rfl, rfl⟩ | ⟨-, -, ⟨-, rfl⟩ | ⟨-, rfl⟩⟩
    · exact h
    · intro u w' hw'
      cases hw'
    · intro u w' hw'
      cases hw'
  · have hs : s'.wallets = s.wallets := (exec_uncommitted hcommit hx).wallets
    intro u w' hw' w hw
    rw [hs] at hw
    rcases exec_walletWrites hx hw' with hold | ⟨w₀, balance, move, hread, rfl, -⟩ |
      ⟨w₀, hread, rfl, -⟩ | ⟨hnone, -⟩
    · exact h u w' hold w hw
    · exact (h.reads hread hw).trans ⟨rfl, rfl, id⟩
    · exact (h.reads hread hw).trans ⟨rfl, rfl, fun _ => rfl⟩
    · -- an INSERT is of a wallet that nobody has stored
      rw [(Option.or_eq_none_iff.mp hnone).2] at hw
      cases hw

theorem exec_accounts (h : l.KeepsAccounts s) {r : Except Exn o.Res}
    (hx : exec S i o c l s = some (r, l', s')) : Accounts s s' := by
  by_cases ho : o = .commit
  · subst ho
    rcases exec_commit hx with ⟨-, -, rfl⟩ | ⟨-, rfl, -⟩
    · exact .of_eq rfl
    · intro u w hw
      show ∃ w', l.wallet s u = some w' ∧ w.SameAccount w'
      cases hwrite : l.walletWrites u with
      | none => exact ⟨w, by simp [Session.wallet, hwrite, hw], .refl w⟩
      | some w' => exact ⟨w', by simp [Session.wallet, hwrite], h u w' hwrite w hw⟩
  · exact .of_eq (exec_uncommitted ho hx).wallets

/-- The platform's rules, and wallets that keep their accounts. -/
def pricing (S : Setting) : Discipline (platform S) where
  may := Entry.may
  world := World.Orderly
  session := fun i l s => l.LogsWrites i s ∧ l.KeepsAccounts s
  moves := fun j s s' => Meanwhile j s s' ∧ Accounts s s'
  refl := fun j s => ⟨(rules S).refl j s, .of_eq rfl⟩
  trans := fun h h' => ⟨(rules S).trans h.1 h'.1, h.2.trans h'.2⟩
  stable := fun h hm => ⟨(rules S).stable h.1 hm.1, h.2.of_others h.1.locked hm.1.others⟩

theorem pricing_kept (S : Setting) : (pricing S).Kept where
  uses := body_uses S
  spawn := fun s e hs => by
    obtain ⟨hworld, hsession, hmoves⟩ := (rules_kept S).spawn s e hs
    exact ⟨hworld, ⟨hsession, by intro u w' hw'; cases hw'⟩, fun j => ⟨hmoves j, .of_eq rfl⟩⟩
  call := fun e i o c l s r l' s' he hs hl hx => by
    obtain ⟨⟨hworld, hmoves⟩, hsession⟩ := (rules_kept S).call e i o c l s r l' s' he hs hl.1 hx
    exact ⟨⟨hworld, fun j hj => ⟨hmoves j hj, exec_accounts hl.2 hx⟩⟩, hsession,
      exec_keepsAccounts hl.2 hx⟩
  close := fun i s hs => by
    obtain ⟨hworld, hmoves⟩ := (rules_kept S).close i s hs
    exact ⟨hworld, fun j hj => ⟨hmoves j hj, .of_eq rfl⟩⟩
  env := fun v s s' hs hx => by
    obtain ⟨hworld, hmoves⟩ := (rules_kept S).env v s s' hs hx
    refine ⟨hworld, fun j => ⟨hmoves j, .of_eq ?_⟩⟩
    rw [(env_eq hx).1]

/-! ## §2. What a row calls for. -/

/-- The transaction that may be signed for a purpose: the row's own amount, from the treasury
to the recipient's wallet, or from the request's wallet to the issuer. -/
def World.Prices (s : World) : Purpose → XRPLTransaction → Prop
  | .payment t, tx => ∃ x u w, s.txns t = some x ∧ x.recipientUserId = some u ∧
      s.wallets u = some w ∧ tx = .payment .treasury (.address w.xrplAddress) x.uctusdAmount
  | .burn r, tx => ∃ q w, s.reqs r = some q ∧ s.wallets q.walletId = some w ∧
      tx = .payment (.wallet q.walletId w.xrplAddress) .issuer q.uctusdAmount
  | .trustSet t u, tx => ∃ x w, s.txns t = some x ∧ x.recipientUserId = some u ∧
      s.wallets u = some w ∧ tx = .trustSet (.wallet u w.xrplAddress)

/-- Every signature ever made is for what its row calls for. -/
def World.Priced (s : World) : Prop :=
  ∀ (h : Nat) (b : Blob), s.blobs[h]? = some b → s.Prices b.purpose b.tx

/-- Rows stay on their terms, and wallets keep their accounts. -/
structure Stays (s s' : World) : Prop where
  terms : TermsKept s s'
  accounts : Accounts s s'

theorem Stays.refl (s : World) : Stays s s := ⟨.of_eq rfl rfl, .of_eq rfl⟩

theorem Stays.trans {s'' : World} (h : Stays s s') (h' : Stays s' s'') : Stays s s'' :=
  ⟨h.terms.trans h'.terms, h.accounts.trans h'.accounts⟩

theorem exec_stays (hl : (pricing S).session i l s) {r : Except Exn o.Res}
    (hx : exec S i o c l s = some (r, l', s')) : Stays s s' :=
  ⟨exec_terms hl.1 hx, exec_accounts hl.2 hx⟩

theorem World.Prices.stays {purpose : Purpose} {tx : XRPLTransaction} (h : s.Prices purpose tx)
    (hs : Stays s s') : s'.Prices purpose tx := by
  cases purpose with
  | payment t =>
    obtain ⟨x, u, w, hx, hu, hw, rfl⟩ := h
    obtain ⟨x', hx', hterms⟩ := hs.terms.txn t x hx
    obtain ⟨w', hw', haddress⟩ := hs.accounts u w hw
    refine ⟨x', u, w', hx', hterms.recipient.trans hu, hw', ?_⟩
    unfold Txn.uctusdAmount
    rw [haddress.address, hterms.quote]
  | burn r =>
    obtain ⟨q, w, hq, hw, rfl⟩ := h
    obtain ⟨q', hq', hterms⟩ := hs.terms.req r q hq
    obtain ⟨w', hw', haddress⟩ := hs.accounts _ w hw
    refine ⟨q', w', hq', by rw [hterms.wallet]; exact hw', ?_⟩
    unfold CashOutRequest.uctusdAmount
    rw [haddress.address, hterms.wallet, hterms.pricing]
  | trustSet t u =>
    obtain ⟨x, w, hx, hu, hw, rfl⟩ := h
    obtain ⟨x', hx', hterms⟩ := hs.terms.txn t x hx
    obtain ⟨w', hw', haddress⟩ := hs.accounts u w hw
    exact ⟨x', w', hx', hterms.recipient.trans hu, hw', by rw [haddress.address]⟩

/-- What a call signs is what the rows of `s` call for. -/
def Op.Priced (s : World) (o : Op) : Prop :=
  ∀ purpose tx, o = .autofillAndSign purpose tx → s.Prices purpose tx

theorem Op.Priced.stays (h : o.Priced s) (hs : Stays s s') : o.Priced s' :=
  fun purpose tx ho => (h purpose tx ho).stays hs

theorem priced_plain (s : World) : ∀ o : Op, o.isBasic = true → o.Priced s := by
  intro o ho purpose tx he
  subst he
  cases ho

theorem World.Priced.stays (h : s.Priced) (hs : Stays s s') (hb : s'.blobs = s.blobs) :
    s'.Priced := fun k b hk => (h k b (hb ▸ hk)).stays hs

theorem exec_priced (h : s.Priced) (ho : o.Priced s) (hl : (pricing S).session i l s)
    {r : Except Exn o.Res} (hx : exec S i o c l s = some (r, l', s')) : s'.Priced := by
  intro k b hb
  have hs := exec_stays hl hx
  rcases exec_blobs hx hb with hold | ⟨hnew, -⟩
  · exact (h k b hold).stays hs
  · exact (ho _ _ hnew).stays hs

/-! ## §3. The protocol. -/

def priced (S : Setting) : Protocol (pricing S) where
  known := fun _ => True
  inv := World.Priced
  rely := fun _ _ _ => True
  refl := fun _ _ => trivial
  trans := fun _ _ => trivial

theorem sees_stays (hs : (priced S).Sees i s s') : Stays s s' := ⟨hs.moves.1.terms, hs.moves.2⟩

/-- How a session has got from one moment to another. -/
structure Underway (W : Prop) (l : Session) (s : World) (l' : Session) (s' : World) : Prop where
  stays : Stays s s'
  copies : l.SameCopies l' ∨ W

theorem Underway.refl (l : Session) (s : World) : Underway W l s l s :=
  ⟨.refl s, .inl ⟨rfl, fun _ h => h⟩⟩

theorem Underway.trans {l'' : Session} {s'' : World} (h : Underway W l s l' s')
    (h' : Underway W l' s' l'' s'') : Underway W l s l'' s'' where
  stays := h.stays.trans h'.stays
  copies := by
    rcases h.copies with hc | hw
    · rcases h'.copies with hc' | hw
      · exact .inl ⟨hc'.copies.trans hc.copies, fun u hu => hc'.writes u (hc.writes u hu)⟩
      · exact .inr hw
    · exact .inr hw

/-- What a call does to a session that is under way. -/
theorem priced_call (hh : (priced S).Here i l s) (ho : o.Priced s) (hw : o.loadsWallets = true → W)
    {r : Except Exn o.Res} (hx : exec S i o c l s = some (r, l', s')) :
    (priced S).keeps i s s' ∧ Underway W l s l' s' := by
  refine ⟨⟨exec_priced hh.inv ho hh.session hx, fun _ _ => trivial⟩, exec_stays hh.session hx, ?_⟩
  cases hload : o.loadsWallets with
  | false => exact .inl (exec_sameCopies hload hx)
  | true => exact .inr (hw hload)

/-- A program that signs only what the rows call for. -/
theorem priced_of_uses {α : Type} {p : Program α}
    (hu : Uses (fun o : Op => o.Priced s ∧ (o.loadsWallets = true → W)) p) :
    Safe (priced S) i (fun _ l' s' => Underway W l s l' s') (fun _ l' s' => Underway W l s l' s')
      p l s := by
  refine Safe.of_uses (P := priced S) (F := fun o : Op => o.Priced s ∧ (o.loadsWallets = true → W))
    (A := fun (l' : Session) (s' : World) => Underway W l s l' s') ?_ ?_ hu (.refl l s)
  · intro (l₁ : Session) (s₁ : World) (s₂ : World) ha _ _ hs
    exact ⟨ha.stays.trans (sees_stays hs), ha.copies⟩
  · rintro (o : Op) ⟨ho, hw⟩ (l₁ : Session) (s₁ : World) ha hh c r l' s' hx _
    obtain ⟨hk, hu⟩ := priced_call hh (ho.stays ha.stays) hw hx
    exact ⟨hk, ha.trans hu⟩

/-! ## §4. The programs that sign. -/

section Programs

variable {α : Type} {Q : α → Session → World → Prop} {E : Exn → Session → World → Prop}

theorem call_priced (W : Prop) {f : o.Res → Program α} (ho : o.Priced s)
    (hw : o.loadsWallets = true → W)
    (hf : ∀ a l' s', Underway W l s l' s' → Safe (priced S) i Q E (f a) l' s')
    (hE : ∀ e l' s', Underway W l s l' s' → E e l' s') :
    Safe (priced S) i Q E (Prog.bind (call o) f) l s := by
  refine Safe.call_bind fun _ s₁ hh hs c r l' s' hx _ => ?_
  have hstays := sees_stays hs
  obtain ⟨hk, hu⟩ := priced_call hh (ho.stays hstays) hw hx
  have hu' : Underway W l s l' s' := ⟨hstays.trans hu.stays, hu.copies⟩
  refine ⟨hk, ?_⟩
  cases r with
  | ok a => exact hf a l' s' hu'
  | error e => exact hE e l' s' hu'

theorem Stays.grows (h : Stays s s') : Grows s s' :=
  ⟨h.terms, fun u hu => by
    obtain ⟨w, hw⟩ := Option.isSome_iff_exists.mp hu
    obtain ⟨w', hw', -⟩ := h.accounts u w hw
    exact Option.isSome_iff_exists.mpr ⟨w', hw'⟩⟩

theorem commit_priced (W : Prop) {f : Unit → Program α}
    (hf : ∀ l' s', l'.Clean → Underway W l s l' s' → Safe (priced S) i Q E (f ()) l' s')
    (hE : ∀ e l' s', E e l' s') : Safe (priced S) i Q E (Prog.bind (call .commit) f) l s := by
  refine Safe.call_bind fun _ s₁ hh hs c r l' s' hx _ => ?_
  obtain ⟨hk, hu⟩ := priced_call (W := W) hh (o := .commit) nofun nofun hx
  have hu' : Underway W l s l' s' := ⟨(sees_stays hs).trans hu.stays, hu.copies⟩
  refine ⟨hk, ?_⟩
  rcases exec_commit hx with ⟨⟨e, rfl⟩, -⟩ | ⟨-, -, ⟨rfl, rfl⟩ | ⟨⟨e, rfl⟩, -⟩⟩
  · exact hE e l' s'
  · exact hf l.committed s' ⟨fun _ => rfl, fun _ => rfl, fun _ => rfl⟩ hu'
  · exact hE e l' s'

/-- A session that has written nothing reads rows as they are stored. -/
theorem selectTxn_priced {t : Nat} {f : Option Txn → Program α} (hc : l.Clean)
    (hf : ∀ found l' s', Underway False l s l' s' →
      (∀ txn, found = some txn → s'.HasTxn t txn) → Safe (priced S) i Q E (f found) l' s')
    (hE : ∀ e l' s', E e l' s') : Safe (priced S) i Q E (Prog.bind (call (.selectTxn t)) f)
    l s := by
  refine Safe.call_bind fun _ s₁ hh hs c r l' s' hx _ => ?_
  obtain ⟨hk, hu⟩ := priced_call (W := False) hh (o := .selectTxn t) nofun nofun hx
  refine ⟨hk, ?_⟩
  rcases exec_selectTxn hx with ⟨e, rfl⟩ | ⟨rfl, -, -⟩
  · exact hE e l' s'
  · refine hf _ l' s' ⟨(sees_stays hs).trans hu.stays, hu.copies⟩ fun txn hfound => ?_
    have hst : s₁.txns t = some txn := by
      rw [← hfound]
      simp [Session.txn, hc.txns t]
    exact World.HasTxn.grows ⟨txn, hst, .refl txn⟩ hu.stays.grows

theorem selectReq_priced {k : Nat} {f : Option CashOutRequest → Program α} (hc : l.Clean)
    (hf : ∀ found l' s', Underway False l s l' s' →
      (∀ req, found = some req → s'.HasReq k req) → Safe (priced S) i Q E (f found) l' s')
    (hE : ∀ e l' s', E e l' s') : Safe (priced S) i Q E (Prog.bind (call (.selectReq k)) f)
    l s := by
  refine Safe.call_bind fun _ s₁ hh hs c r l' s' hx _ => ?_
  obtain ⟨hk, hu⟩ := priced_call (W := False) hh (o := .selectReq k) nofun nofun hx
  refine ⟨hk, ?_⟩
  rcases exec_selectReq hx with ⟨e, rfl⟩ | ⟨rfl, -, -⟩
  · exact hE e l' s'
  · refine hf _ l' s' ⟨(sees_stays hs).trans hu.stays, hu.copies⟩ fun req hfound => ?_
    have hst : s₁.reqs k = some req := by
      rw [← hfound]
      simp [Session.req, hc.reqs k]
    exact World.HasReq.grows ⟨req, hst, .refl req⟩ hu.stays.grows

/-- What a claim hands back is on the terms of the stored row. -/
theorem settleClaim_priced {t : Nat} :
    Safe (priced S) i
      (fun claimed l' s' => Underway False l s l' s' ∧ ∀ txn, claimed = some txn → s'.HasTxn t txn)
      (fun _ _ _ => True) (SettlementWorker.claim t) l s := by
  unfold SettlementWorker.claim
  refine call_priced False nofun nofun (fun hit l₁ s₁ hu₁ => ?_) fun _ _ _ _ => trivial
  refine commit_priced False (fun l₂ s₂ hc₂ hu₂ => ?_) fun _ _ _ => trivial
  have hu := hu₁.trans hu₂
  cases hit with
  | false => exact safe_ret fun _ => ⟨hu, fun txn he => by cases he⟩
  | true =>
    refine Safe.bind (R := fun txn l' s' => Underway False l s l' s' ∧ s'.HasTxn t txn) ?_
      fun txn l' s' h => safe_ret fun _ => ⟨h.1, fun txn' he => Option.some.inj he ▸ h.2⟩
    unfold SettlementWorker.reload
    refine selectTxn_priced hc₂ (fun found l₃ s₃ hu₃ hfound => ?_) fun _ _ _ => trivial
    cases found with
    | none => exact safe_raise fun _ => trivial
    | some txn => exact safe_ret fun _ => ⟨hu.trans hu₃, hfound txn rfl⟩

theorem burnClaim_priced {r : Nat} :
    Safe (priced S) i
      (fun claimed l' s' => Underway False l s l' s' ∧ ∀ req, claimed = some req → s'.HasReq r req)
      (fun _ _ _ => True) (CashoutWorker.claim r) l s := by
  unfold CashoutWorker.claim
  refine call_priced False nofun nofun (fun asked l₁ s₁ hu₁ => ?_) fun _ _ _ _ => trivial
  refine call_priced False nofun nofun (fun hit l₂ s₂ hu₂ => ?_) fun _ _ _ _ => trivial
  refine commit_priced False (fun l₃ s₃ hc₃ hu₃ => ?_) fun _ _ _ => trivial
  have hu := (hu₁.trans hu₂).trans hu₃
  cases hit with
  | false => exact safe_ret fun _ => ⟨hu, fun req he => by cases he⟩
  | true =>
    refine Safe.bind (R := fun req l' s' => Underway False l s l' s' ∧ s'.HasReq r req) ?_
      fun req l' s' h => safe_ret fun _ => ⟨h.1, fun req' he => Option.some.inj he ▸ h.2⟩
    unfold CashoutWorker.reload
    refine selectReq_priced hc₃ (fun found l₄ s₄ hu₄ hfound => ?_) fun _ _ _ => trivial
    cases found with
    | none => exact safe_raise fun _ => trivial
    | some req => exact safe_ret fun _ => ⟨hu.trans hu₄, hfound req rfl⟩

theorem getRecipient_priced {txn : Txn} :
    Safe (priced S) i
      (fun found l' s' => Underway False l s l' s' ∧ ∀ u, found = some u →
        txn.recipientUserId = some u)
      (fun _ _ _ => True) (SettlementWorker.getRecipient txn) l s := by
  unfold SettlementWorker.getRecipient
  cases hr : txn.recipientUserId with
  | none => exact safe_ret fun _ => ⟨.refl l s, fun u he => by cases he⟩
  | some u =>
    refine call_priced False nofun nofun (fun found l' s' hu => ?_) fun _ _ _ _ => trivial
    refine safe_ret fun _ => ⟨hu, fun u' he => ?_⟩
    cases found with
    | false => cases he
    | true => exact he

/-! ## §5. The wallets that are paid and burned from. -/

/-- Wallet `u` is stored, at the address of `w`. -/
def World.HasWallet (s : World) (u : Nat) (w : Wallet) : Prop :=
  ∃ w', s.wallets u = some w' ∧ w'.xrplAddress = w.xrplAddress

theorem World.HasWallet.stays {u : Nat} {w : Wallet} (h : s.HasWallet u w) (hs : Stays s s') :
    s'.HasWallet u w := by
  obtain ⟨w', hw', ha⟩ := h
  obtain ⟨w'', hw'', ha'⟩ := hs.accounts u w' hw'
  exact ⟨w'', hw'', ha'.address.trans ha⟩

/-- A session that has loaded no wallet reads the stored one. -/
theorem selectWallet_priced {u : Nat} {f : Option Wallet → Program α}
    (hcopy : l.walletCopy u = none) (hwrite : l.walletWrites u = none)
    (hf : ∀ found l' s', Stays s s' → (∀ w, found = some w → s'.HasWallet u w) →
      Safe (priced S) i Q E (f found) l' s')
    (hE : ∀ e l' s', E e l' s') :
    Safe (priced S) i Q E (Prog.bind (call (.selectWallet u)) f) l s := by
  refine Safe.call_bind fun _ s₁ hh hs c r l' s' hx _ => ?_
  obtain ⟨hk, hu⟩ := priced_call (W := True) hh (o := .selectWallet u) (priced_plain _ _ rfl)
    (fun _ => trivial) hx
  refine ⟨hk, ?_⟩
  rcases exec_selectWallet hx with ⟨e, rfl⟩ | ⟨rfl, rfl⟩
  · exact hE e _ _
  · refine hf _ _ _ ((sees_stays hs).trans hu.stays) fun w hfound => ⟨w, ?_, rfl⟩
    rw [← hfound]
    simp [Session.identify, Session.wallet, hcopy, hwrite]

/-- The wallet that is paid is the stored one. -/
theorem findOrFund_priced {u : Nat} (hcopy : l.walletCopy u = none)
    (hwrite : l.walletWrites u = none) :
    Safe (priced S) i (fun w _ s' => Stays s s' ∧ s'.HasWallet u w) (fun _ _ _ => True)
      (XrplService.findOrFund u) l s := by
  unfold XrplService.findOrFund
  refine selectWallet_priced hcopy hwrite (fun found l₁ s₁ hstays hfound => ?_) fun _ _ _ => trivial
  cases found with
  | some w => exact safe_ret fun _ => ⟨hstays, hfound w rfl⟩
  | none =>
    refine call_priced True (priced_plain _ _ rfl) (fun h => (Bool.false_ne_true h).elim)
      (fun address l₂ s₂ hu₂ => ?_) fun _ _ _ _ => trivial
    refine call_priced True (fun _ _ h => Op.noConfusion h) (fun _ => trivial)
      (fun _ l₃ s₃ hu₃ => ?_) fun _ _ _ _ => trivial
    refine commit_priced True (fun l₄ s₄ hc₄ hu₄ => ?_) fun _ _ _ => trivial
    have hpast := ((hstays.trans hu₂.stays).trans hu₃.stays).trans hu₄.stays
    unfold XrplService.refreshWallet
    refine Safe.call_bind fun _ s₅ hh hs c r l' s' hx _ => ?_
    obtain ⟨hk, hu⟩ := priced_call (W := True) hh (o := .loadWallet u) (priced_plain _ _ rfl)
      (fun _ => trivial) hx
    have hend := hpast.trans ((sees_stays hs).trans hu.stays)
    refine ⟨hk, ?_⟩
    rcases exec_loadWallet hx with ⟨e, rfl⟩ | ⟨rfl, rfl⟩
    · trivial
    · have hread : l₄.wallet s₅ u = s₅.wallets u := by simp [Session.wallet, hc₄.wallets u]
      rw [hread]
      cases hst : s₅.wallets u with
      | none =>
        unfold onAnswer
        exact safe_raise fun _ => trivial
      | some w =>
        unfold onAnswer
        exact safe_ret fun _ => ⟨hend, w, hst, rfl⟩

/-- The TrustSet is the recipient's, and the wallet is handed back at its address. -/
theorem ensureTrustLine_priced {t u : Nat} {txn : Txn} {w : Wallet} (ht : s.HasTxn t txn)
    (hu : txn.recipientUserId = some u) (hw : s.HasWallet u w) :
    Safe (priced S) i
      (fun r _ s' => Stays s s' ∧ r.2.xrplAddress = w.xrplAddress) (fun _ _ _ => True)
      (XrplService.ensureTrustLine t u w) l s := by
  have hprices : s.Prices (.trustSet t u) (.trustSet (.wallet u w.xrplAddress)) := by
    obtain ⟨x, hx, hterms⟩ := ht
    obtain ⟨w', hw', haddress⟩ := hw
    exact ⟨x, w', hx, hterms.recipient.trans hu, hw', by rw [haddress]⟩
  unfold XrplService.ensureTrustLine
  split
  · exact safe_ret fun _ => ⟨.refl s, rfl⟩
  · refine call_priced True nofun (fun _ => trivial) (fun _ l₁ s₁ hu₁ => ?_) fun _ _ _ _ => trivial
    have hplain : ∀ o : Op, o.isBasic = true → o.Priced s₁ ∧ (o.loadsWallets = true → True) :=
      fun o ho => ⟨priced_plain s₁ o ho, fun _ => trivial⟩
    refine Safe.bind ((priced_of_uses (W := True) (uses_submit ⟨?_, fun _ => trivial⟩
      (fun h => ⟨nofun, fun _ => trivial⟩) (fun h => ⟨nofun, fun _ => trivial⟩)
      fun _ => uses_ret ())).mono
      (fun _ _ _ _ hq => hq) fun _ _ _ _ _ => trivial) fun result l₂ s₂ hu₂ => ?_
    · intro purpose tx he
      cases he
      exact hprices.stays hu₁.stays
    · have hstays := hu₁.stays.trans hu₂.stays
      split
      · refine call_priced True nofun (fun _ => trivial) (fun _ l₃ s₃ hu₃ => ?_)
          fun _ _ _ _ => trivial
        refine commit_priced True (fun l₄ s₄ _ hu₄ => ?_) fun _ _ _ => trivial
        exact safe_ret fun _ => ⟨(hstays.trans hu₃.stays).trans hu₄.stays, rfl⟩
      · exact safe_ret fun _ => ⟨hstays, rfl⟩

/-- **WHAT IS PAID IS WHAT WAS PRICED.** -/
theorem pay_priced {t u : Nat} {txn : Txn} (hcopy : l.walletCopy u = none)
    (hwrite : l.walletWrites u = none) (ht : s.HasTxn t txn) (hu : txn.recipientUserId = some u) :
    Safe (priced S) i (fun _ _ _ => True) (fun _ _ _ => True) (SettlementWorker.pay t u txn)
      l s := by
  unfold SettlementWorker.pay
  refine Safe.bind (R := fun w _ s' => Stays s s' ∧ s'.HasWallet u w) ?_
    fun wallet l₁ s₁ ⟨hstays, hwallet⟩ => ?_
  · unfold XrplService.provisionWallet
    refine Safe.bind (findOrFund_priced hcopy hwrite) fun w l₁ s₁ ⟨hs₁, hw₁⟩ => ?_
    refine Safe.bind (ensureTrustLine_priced (ht.grows hs₁.grows) hu hw₁)
      fun r l₂ s₂ ⟨hs₂, ha⟩ => safe_ret fun _ => ⟨hs₁.trans hs₂, ?_⟩
    obtain ⟨w', hw', ha'⟩ := hw₁.stays hs₂
    exact ⟨w', hw', ha'.trans ha.symm⟩
  · have hprices : s₁.Prices (.payment t)
        (.payment .treasury (.address wallet.xrplAddress) txn.uctusdAmount) := by
      obtain ⟨x, hx, hterms⟩ := ht.grows hstays.grows
      obtain ⟨w, hw, haddress⟩ := hwallet
      refine ⟨x, u, w, hx, hterms.recipient.trans hu, hw, ?_⟩
      unfold Txn.uctusdAmount
      rw [haddress, hterms.quote]
    have hplain : ∀ o : Op, o.isBasic = true → o.Priced s₁ ∧ (o.loadsWallets = true → True) :=
      fun o ho => ⟨priced_plain s₁ o ho, fun _ => trivial⟩
    have hother : ∀ o : Op, o.Priced s₁ → o.Priced s₁ ∧ (o.loadsWallets = true → True) :=
      fun o ho => ⟨ho, fun _ => trivial⟩
    split
    · refine (priced_of_uses (W := True) (uses_withTreasuryLock hplain (uses_sendFromTreasury hplain
        (hother _ ?_) (fun h => hother _ nofun) (fun h => hother _ nofun) fun signed =>
          uses_rememberSigned hplain
          (hother _ nofun) fun h => hother _ nofun))).mono
        (fun _ _ _ _ _ => trivial) fun _ _ _ _ _ => trivial
      intro purpose tx he
      cases he
      exact hprices
    · exact safe_raise fun _ => trivial

/-- What signs nothing is safe from any state. -/
theorem unsigned_priced {p : Program α}
    (hu : Uses (fun o : Op => ∀ purpose tx, o ≠ .autofillAndSign purpose tx) p) :
    Safe (priced S) i (fun _ _ _ => True) (fun _ _ _ => True) p l s :=
  (priced_of_uses (W := True) (hu.mono fun _ ho =>
    ⟨fun purpose tx he => absurd he (ho purpose tx), fun _ => trivial⟩)).mono
    (fun _ _ _ _ _ => trivial) fun _ _ _ _ _ => trivial

theorem unsigned_plain (o : Op) (ho : o.isBasic = true) (purpose : Purpose) (tx : XRPLTransaction) :
    o ≠ .autofillAndSign purpose tx := by
  rintro rfl
  cases ho

theorem processSettlement_priced {t : Nat} (hcopy : ∀ u, l.walletCopy u = none)
    (hwrite : ∀ u, l.walletWrites u = none) :
    Safe (priced S) i (fun _ _ _ => True) (fun _ _ _ => True)
      (SettlementWorker.processSettlement t) l s := by
  have hfail : ∀ (reason : String) (txHash : Option Nat) (b : SettlementWorker.Outcome),
      Uses (fun o : Op => ∀ purpose tx, o ≠ .autofillAndSign purpose tx)
        (Prog.bind (SettlementWorker.failSettlement t reason txHash [.processing])
          fun _ => .ret b) := fun _ _ _ =>
    uses_bind (uses_failSettlement unsigned_plain nofun) fun _ => trivial
  have hretry : ∀ (txn : Txn) (reason : String),
      Uses (fun o : Op => ∀ purpose tx, o ≠ .autofillAndSign purpose tx)
        (SettlementWorker.retryOrFail t txn reason) := fun _ _ =>
    uses_retryOrFail unsigned_plain (fun _ => nofun) nofun fun _ => nofun
  rw [processSettlement_eq]
  refine Safe.bind settleClaim_priced fun claimed l₁ s₁ ⟨hu₁, hr₁⟩ => ?_
  cases claimed with
  | none => exact safe_ret fun _ => trivial
  | some txn =>
    show Safe (priced S) i _ _ (SettlementWorker.settleClaimed t txn) l₁ s₁
    unfold SettlementWorker.settleClaimed
    refine Safe.bind getRecipient_priced fun recipient l₂ s₂ ⟨hu₂, hr₂⟩ => ?_
    cases recipient with
    | none => exact unsigned_priced (hfail _ _ _)
    | some u =>
      have hu := hu₁.trans hu₂
      have hcopies := hu.copies.resolve_right id
      refine Safe.attempt_bind (pay_priced (by rw [hcopies.copies]; exact hcopy u)
        (hcopies.writes u (hwrite u)) ((hr₁ txn rfl).grows hu₂.stays.grows) (hr₂ u rfl)) ?_ ?_
      · intro result l₃ s₃ _
        show Safe (priced S) i _ _ (SettlementWorker.onResult t txn result) l₃ s₃
        unfold SettlementWorker.onResult
        split
        · exact unsigned_priced (uses_bind (uses_completeSettlement unsigned_plain nofun
            fun _ _ => nofun) fun _ => trivial)
        · exact unsigned_priced (hretry _ _)
        · exact unsigned_priced (hfail _ _ _)
        · exact unsigned_priced (hfail _ _ _)
      · intro exc l₃ s₃ _
        show Safe (priced S) i _ _ (SettlementWorker.onException t txn exc) l₃ s₃
        unfold SettlementWorker.onException
        split
        · exact unsigned_priced (hfail _ _ _)
        · refine call_priced True nofun (fun _ => trivial) (fun signed l₄ s₄ _ => ?_)
            fun _ _ _ _ => trivial
          cases signed with
          | some h => exact unsigned_priced (hfail _ _ _)
          | none => exact unsigned_priced (hretry _ _)

theorem processBurn_priced {r : Nat} (hcopy : ∀ u, l.walletCopy u = none)
    (hwrite : ∀ u, l.walletWrites u = none) :
    Safe (priced S) i (fun _ _ _ => True) (fun _ _ _ => True) (CashoutWorker.processBurn r)
      l s := by
  -- none of the three ways out signs anything
  have hfail : ∀ (req : CashOutRequest) (reason : String) (txHash : Option Nat)
      (b : CashoutWorker.Outcome),
        Uses (fun o : Op => ∀ purpose tx, o ≠ .autofillAndSign purpose tx)
        (Prog.bind (CashoutWorker.failAndRestore r req reason txHash) fun _ => .ret b) :=
    fun _ _ _ _ => uses_bind (uses_failAndRestore unsigned_plain nofun fun _ _ => nofun)
      fun _ => trivial
  have hhold : ∀ (reason : String),
    Uses (fun o : Op => ∀ purpose tx, o ≠ .autofillAndSign purpose tx)
      (Prog.bind (CashoutWorker.holdUnknown r reason) fun _ =>
        .ret CashoutWorker.Outcome.unknown) :=
    fun _ => uses_bind (uses_holdUnknown unsigned_plain fun _ => nofun) fun _ => trivial
  have hretry : ∀ (req : CashOutRequest) (reason : String),
      Uses (fun o : Op => ∀ purpose tx, o ≠ .autofillAndSign purpose tx)
        (CashoutWorker.retryOrFail r req reason) := by
    intro req reason
    unfold CashoutWorker.retryOrFail
    split
    · exact hfail _ _ _ _
    · exact uses_bind (uses_releaseClaim unsigned_plain nofun) fun _ =>
        uses_bind (uses_call nofun) fun _ => trivial
  unfold CashoutWorker.processBurn
  refine Safe.bind burnClaim_priced fun claimed l₁ s₁ ⟨hu₁, hr₁⟩ => ?_
  cases claimed with
  | none => exact safe_ret fun _ => trivial
  | some req =>
    have hcopies := hu₁.copies.resolve_right id
    -- the wallet is read after the claim, so that its address is the one to sign for
    refine selectWallet_priced (by rw [hcopies.copies]; exact hcopy _)
      (hcopies.writes _ (hwrite _)) (fun wallet l₂ s₂ hstays hwallet => ?_) fun _ _ _ => trivial
    cases wallet with
    | none => exact unsigned_priced (hfail _ _ _ _)
    | some w =>
      have hplain : ∀ o : Op, o.isBasic = true → o.Priced s₂ ∧ (o.loadsWallets = true → True) :=
        fun o ho => ⟨priced_plain s₂ o ho, fun _ => trivial⟩
      have hother : ∀ o : Op, o.Priced s₂ → o.Priced s₂ ∧ (o.loadsWallets = true → True) :=
        fun o ho => ⟨ho, fun _ => trivial⟩
      refine Safe.attempt_bind (R := fun _ _ _ => True) (X := fun _ _ _ => True)
        ((priced_of_uses (W := True)
          (uses_burnToIssuer hplain (hother _ ?_) (fun h => hother _ nofun)
          (fun h => hother _ nofun) fun signed => uses_burnRememberSigned hplain (hother _ nofun)
            fun h => hother _ nofun)).mono
          (fun _ _ _ _ _ => trivial) fun _ _ _ _ _ => trivial) ?_ ?_
      · intro purpose tx he
        cases he
        -- what is signed is the claimed request, whose terms no one has changed since
        obtain ⟨q, hq, hterms⟩ := (hr₁ req rfl).grows hstays.grows
        obtain ⟨w', hw', haddress⟩ := hwallet w rfl
        refine ⟨q, w', hq, by rw [hterms.wallet]; exact hw', ?_⟩
        unfold CashOutRequest.uctusdAmount
        rw [haddress, hterms.wallet, hterms.pricing]
      · intro result l₃ s₃ _
        show Safe (priced S) i _ _ (CashoutWorker.onResult r req result) l₃ s₃
        unfold CashoutWorker.onResult
        split
        · exact unsigned_priced (uses_bind (uses_completeBurn unsigned_plain fun _ => nofun)
            fun _ => trivial)
        · exact unsigned_priced (hretry _ _)
        · exact unsigned_priced (hhold _)
        · exact unsigned_priced (hfail _ _ _ _)
      · intro exc l₃ s₃ _
        show Safe (priced S) i _ _ (CashoutWorker.onException r req exc) l₃ s₃
        unfold CashoutWorker.onException
        split
        · exact unsigned_priced (hfail _ _ _ _)
        · refine call_priced True nofun (fun _ => trivial) (fun signed l₄ s₄ _ => ?_)
            fun _ _ _ _ => trivial
          cases signed with
          | some h => exact unsigned_priced (hhold _)
          | none => exact unsigned_priced (hretry _ _)

end Programs

/-! ## §6. Every reachable state. -/

/-- The queue's jobs, which sign. -/
def Entry.isJob : Entry → Bool
  | .settle _ | .burn _ => true
  | _ => false

theorem may_unsigned (hj : e.isJob = false) (he : e.may o) (purpose : Purpose)
    (tx : XRPLTransaction) : o ≠ .autofillAndSign purpose tx := by
  rintro rfl
  have hsigns : Signs e purpose tx := he
  cases hsigns <;> cases hj

theorem priced_sound (S : Setting) : (priced S).Sound where
  spawn := fun s hi => ⟨hi.stays ⟨.of_eq rfl rfl, .of_eq rfl⟩ rfl, fun _ => trivial⟩
  close := fun i s hi => ⟨hi.stays ⟨.of_eq rfl rfl, .of_eq rfl⟩ rfl, fun _ _ => trivial⟩
  env := fun v s s' _ _ hi hx => by
    refine ⟨?_, fun _ => trivial⟩
    rw [(env_eq hx).1]
    exact hi.stays ⟨.of_eq rfl rfl, .of_eq rfl⟩ rfl
  body := fun s e hi => by
    cases hj : e.isJob with
    | false => exact unsigned_priced ((body_uses S e).mono fun o ho => may_unsigned hj ho)
    | true =>
      cases e with
      | settle t =>
        exact Safe.bind (processSettlement_priced (fun _ => rfl) fun _ => rfl)
          fun _ _ _ _ => safe_ret fun _ => trivial
      | burn r =>
        exact Safe.bind (processBurn_priced (fun _ => rfl) fun _ => rfl)
          fun _ _ _ _ => safe_ret fun _ => trivial
      | _ => cases hj

/-- **EVERY SIGNATURE IS THE ONE ITS ROW CALLS FOR**, in every reachable state. -/
theorem priced_reach {w : World} (hw : w.Orderly) (hp : w.Priced) {k : Config (platform S)}
    (h : Reach (M := platform S) w k) : k.world.Priced :=
  (priced_sound S).reach (pricing_kept S) hw hp (fun _ _ => trivial) h

/-- One step leaves every row on its terms and every wallet with its account. -/
theorem stays_step {w : World} (hw : w.Orderly) {k k' : Config (platform S)}
    (h : Reach (M := platform S) w k) {lab : Label (platform S)} (hs : k.step lab = some k') :
    Stays k.world k'.world := by
  have hk := (pricing_kept S).reach hw h
  cases lab with
  | call i ch =>
    obtain ⟨l, o, f, r, l', w', hth, hx, rfl⟩ := Config.step_call hs
    exact exec_stays (hk.session i _ hth) hx
  | start e =>
    injection hs with hs
    subst hs
    exact ⟨.of_eq rfl rfl, .of_eq rfl⟩
  | stop i =>
    obtain ⟨_, _, rfl⟩ := Option.map_eq_some_iff.mp hs
    exact ⟨.of_eq rfl rfl, .of_eq rfl⟩
  | env v =>
    obtain ⟨w', hv, rfl⟩ := Option.map_eq_some_iff.mp hs
    rw [show w' = _ from (env_eq hv).1]
    exact ⟨.of_eq rfl rfl, .of_eq rfl⟩

theorem stays_run {w : World} (hw : w.Orderly) :
    ∀ {labs : List (Label (platform S))} {k k' : Config (platform S)},
      Reach (M := platform S) w k → k.run labs = some k' → Stays k.world k'.world
  | [], k, k', _, hr => by
      injection hr with hr
      exact hr ▸ .refl k.world
  | lab :: labs, k, k', h, hr => by
      obtain ⟨d, hd, hr⟩ := Option.bind_eq_some_iff.mp hr
      exact (stays_step hw h hd).trans (stays_run hw (h.step hd) hr)

end Orbyt
