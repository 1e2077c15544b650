/-
  Orbyt.Invariants.Posted — every row goes back to a form

  A session inserts rows only at figures that match its form's, no UPDATE touches the terms of
  a row, and nothing but COMMIT stores one.  Nothing is assumed of a run, nor of what a quote
  answers at any time: the configuration may be edited between any two calls.

  Main results:
    * `posting_stage` — what every session in flight has written;
    * `booked_run`    — every stored row was booked by a program, at the figures of the form that
                        this program was posted with.
-/
import Orbyt.Invariants.Lifecycle

namespace Orbyt

open Interleave
open Interleave.Prog
open Function (update)

variable {S : Setting} {i : Nat} {o : Op} {c : Choice} {l l' : Session} {s s' : World} {e : Entry}
  {k₀ k k' : Config (platform S)} {labs : List (Label (platform S))}

/-! ## §1. Rows and forms. -/

/-- A send at the figures of the form. -/
structure Txn.PostedBy (form : SendForm) (x : Txn) : Prop where
  sender : x.senderId = form.senderId
  exchangeRate : x.quote.exchangeRate = form.accepted.exchangeRate
  transactionFee : x.quote.transactionFee = form.accepted.transactionFee
  uctusdAmount : x.quote.uctusdAmount = form.accepted.uctusdAmount

/-- A cash-out at the figures of the form, where it has any. -/
structure CashOutRequest.PostedBy (form : CashOutForm) (q : CashOutRequest) : Prop where
  wallet : q.walletId = form.recipientId
  figures : ∀ accepted, form.accepted = some accepted →
    q.pricing.marketRate = accepted.marketRate ∧
    q.pricing.cashoutFeeUsd = accepted.cashoutFeeUsd ∧
    q.pricing.netPayout = accepted.netPayout

theorem Txn.PostedBy.sameTerms {form : SendForm} {x x' : Txn} (h : x.PostedBy form)
    (ht : x.SameTerms x') : x'.PostedBy form where
  sender := ht.sender.trans h.sender
  exchangeRate := by rw [ht.quote, h.exchangeRate]
  transactionFee := by rw [ht.quote, h.transactionFee]
  uctusdAmount := by rw [ht.quote, h.uctusdAmount]

theorem CashOutRequest.PostedBy.sameTerms {form : CashOutForm} {q q' : CashOutRequest}
    (h : q.PostedBy form) (ht : q.SameTerms q') : q'.PostedBy form where
  wallet := ht.wallet.trans h.wallet
  figures := by rw [ht.pricing]; exact h.figures

/-- The row is one that `e` was posted for. -/
def Entry.PostsTxn (e : Entry) (x : Txn) : Prop :=
  ∃ form, e = .createRemittance form ∧ x.PostedBy form

def Entry.PostsReq (e : Entry) (q : CashOutRequest) : Prop :=
  ∃ form, e = .createRequest form ∧ q.PostedBy form

theorem Entry.PostsTxn.sameTerms {x x' : Txn} (h : e.PostsTxn x) (ht : x.SameTerms x') :
    e.PostsTxn x' := by
  obtain ⟨form, he, hx⟩ := h
  exact ⟨form, he, hx.sameTerms ht⟩

theorem Entry.PostsReq.sameTerms {q q' : CashOutRequest} (h : e.PostsReq q) (ht : q.SameTerms q') :
    e.PostsReq q' := by
  obtain ⟨form, he, hq⟩ := h
  exact ⟨form, he, hq.sameTerms ht⟩

/-! ## §2. What a program inserts. -/

/-- What `e` inserts is what it was posted for. -/
def Entry.Posts (e : Entry) : Op → Prop
  | .insertTxn row => ∀ key now, e.PostsTxn (row key now)
  | .insertReq row => ∀ key now, e.PostsReq (row key now)
  | _ => True

theorem posts_plain (e : Entry) : ∀ o : Op, o.isBasic = true → e.Posts o := by
  intro o ho
  cases o <;> trivial

theorem createRemittance_posts (S : Setting) (form : SendForm) :
    Uses (Entry.Posts (.createRemittance form)) (body S (.createRemittance form)) := by
  refine uses_discard (uses_createRemittance (posts_plain _) ?_)
  intro recipientId quote last4 declined hmatch key now
  unfold CashinService.pricingMatches at hmatch
  rw [Bool.and_eq_true, Bool.and_eq_true, beq_iff_eq, beq_iff_eq, beq_iff_eq] at hmatch
  exact ⟨form, rfl, rfl, hmatch.1.1, hmatch.1.2, hmatch.2⟩

theorem createRequest_posts (S : Setting) (form : CashOutForm) :
    Uses (Entry.Posts (.createRequest form)) (body S (.createRequest form)) := by
  refine uses_discard (uses_createRequest (posts_plain _) ?_)
  intro pricing hmatch key now
  refine ⟨form, rfl, rfl, ?_⟩
  intro accepted haccepted
  rw [haccepted] at hmatch
  simp only [CashoutService.pricingMatches, Bool.and_eq_true, beq_iff_eq] at hmatch
  exact ⟨hmatch.1.1, hmatch.1.2, hmatch.2⟩

/-- Who posts no form inserts nothing. -/
theorem posts_of_may (hsend : ∀ form, e ≠ .createRemittance form)
    (hcash : ∀ form, e ≠ .createRequest form) (h : e.may o) : e.Posts o := by
  cases o with
  | insertTxn row =>
    obtain ⟨form, -, -, -, -, he, -⟩ := h
    exact absurd he (hsend form)
  | insertReq row =>
    obtain ⟨form, -, he, -⟩ := h
    exact absurd he (hcash form)
  | _ => trivial

theorem body_posts (S : Setting) (e : Entry) : Uses (fun o => e.may o ∧ e.Posts o) (body S e) := by
  refine (body_uses S e).and ?_
  cases e with
  | createRemittance form => exact createRemittance_posts S form
  | createRequest form => exact createRequest_posts S form
  | _ =>
    refine (body_uses S _).mono ?_
    intro o h
    refine posts_of_may ?_ ?_ h
    all_goals
      intro form he
      cases he

/-! ## §3. What a session has written. -/

/-- The rows that a session is about to add are those of its form. -/
structure Session.Posted (l : Session) (s : World) : Prop where
  txn : ∀ t x', l.txnWrites t = some x' → s.txns t = none → l.entry.PostsTxn x'
  req : ∀ r q', l.reqWrites r = some q' → s.reqs r = none → l.entry.PostsReq q'

theorem Session.Posted.start (e : Entry) : (Session.start e).Posted s where
  txn := by intro t x' hw; cases hw
  req := by intro r q' hw; cases hw

/-- No row ever disappears. -/
theorem TermsKept.noTxn (h : TermsKept s s') {t : Nat} (hn : s'.txns t = none) :
    s.txns t = none := by
  cases hx : s.txns t with
  | none => rfl
  | some x =>
    obtain ⟨x', hx', -⟩ := h.txn t x hx
    rw [hn] at hx'
    cases hx'

theorem TermsKept.noReq (h : TermsKept s s') {r : Nat} (hn : s'.reqs r = none) :
    s.reqs r = none := by
  cases hq : s.reqs r with
  | none => rfl
  | some q =>
    obtain ⟨q', hq', -⟩ := h.req r q hq
    rw [hn] at hq'
    cases hq'

theorem Session.Posted.later (h : l.Posted s) (ht : TermsKept s s') : l.Posted s' where
  txn := fun t x' hw hn => h.txn t x' hw (ht.noTxn hn)
  req := fun r q' hw hn => h.req r q' hw (ht.noReq hn)

/-- A row that is not stored yet is read as the session has written it. -/
theorem Session.Posted.readsTxn (h : l.Posted s) {t : Nat} {x : Txn} (hx : l.txn s t = some x)
    (hn : s.txns t = none) : l.entry.PostsTxn x := by
  rcases Session.txn_cases hx with hw | ⟨-, hst⟩
  · exact h.txn t x hw hn
  · rw [hn] at hst
    cases hst

theorem Session.Posted.readsReq (h : l.Posted s) {r : Nat} {q : CashOutRequest}
    (hq : l.req s r = some q) (hn : s.reqs r = none) : l.entry.PostsReq q := by
  rcases Session.req_cases hq with hw | ⟨-, hst⟩
  · exact h.req r q hw hn
  · rw [hn] at hst
    cases hst

theorem Session.Posted.call (h : l.Posted s) (hmay : l.entry.may o) (hposts : l.entry.Posts o)
    (hl : l.LogsWrites i s) {r : Except Exn o.Res} (hx : exec S i o c l s = some (r, l', s')) :
    l'.Posted s' := by
  have hkept := exec_terms hl hx
  constructor
  · intro t x' hw hn
    have hold := hkept.noTxn hn
    rw [exec_sameEntry hx]
    rcases exec_txnWrites hx hw with hw | ⟨x, cond, values, now, hread, -, rfl, ho⟩ |
      ⟨row, now, rfl, -, rfl⟩
    · exact h.txn t x' hw hold
    · refine (h.readsTxn hread hold).sameTerms ?_
      rcases ho with rfl | rfl
      · exact TxnUpdate.terms hmay now x
      · obtain ⟨-, asked, -, rfl⟩ := hmay
        exact ⟨rfl, rfl, rfl, rfl, rfl⟩
    · exact hposts _ now
  · intro r' q' hw hn
    have hold := hkept.noReq hn
    rw [exec_sameEntry hx]
    rcases exec_reqWrites hx hw with hw | ⟨q, cond, values, now, hread, -, rfl, rfl⟩ |
      ⟨row, now, rfl, -, rfl⟩
    · exact h.req r' q' hw hold
    · exact (h.readsReq hread hold).sameTerms (ReqUpdate.terms hmay now q)
    · exact hposts _ now

/-- **WHAT EVERY SESSION HAS WRITTEN**, in every reachable state. -/
theorem posting_stage (S : Setting) : (rules S).Stage (fun (_ : Nat) (l : Session) p (s : World) =>
    Uses (fun o => l.entry.may o ∧ l.entry.Posts o) p ∧ l.Posted s) where
  start := fun e s _ => ⟨body_posts S e, .start e⟩
  call := fun i o p c l s r l' s' _ hl ⟨⟨⟨hmay, hposts⟩, hrest⟩, hp⟩ hx => by
    refine ⟨?_, hp.call hmay hposts hl hx⟩
    rw [exec_sameEntry hx]
    exact hrest r
  moves := fun _ _ _ _ _ _ h hm => ⟨h.1, h.2.later hm.terms⟩

/-! ## §4. Runs. -/

/-- A stored row was stored on the same terms before, or is one that the session adds. -/
theorem exec_posted (h : l.Posted s) (hl : l.LogsWrites i s) {r : Except Exn o.Res}
    (hx : exec S i o c l s = some (r, l', s')) :
    (∀ t x', s'.txns t = some x' →
      (∃ x, s.txns t = some x ∧ x.SameTerms x') ∨ (s.txns t = none ∧ l.entry.PostsTxn x')) ∧
    ∀ k q', s'.reqs k = some q' →
      (∃ q, s.reqs k = some q ∧ q.SameTerms q') ∨ (s.reqs k = none ∧ l.entry.PostsReq q') := by
  by_cases ho : o = .commit
  · subst ho
    rcases exec_commit hx with ⟨-, -, rfl⟩ | ⟨-, rfl, -⟩
    · exact ⟨fun t x' hx' => .inl ⟨x', hx', .refl x'⟩, fun k q' hq' => .inl ⟨q', hq', .refl q'⟩⟩
    · constructor
      · intro t x' hx'
        rcases Session.txn_cases (show l.txn s t = some x' from hx') with hw | ⟨-, hst⟩
        · cases hst : s.txns t with
          | none => exact .inr ⟨rfl, h.txn t x' hw hst⟩
          | some x => exact .inl ⟨x, rfl, hl.txnTerms t x' hw x hst⟩
        · exact .inl ⟨x', hst, .refl x'⟩
      · intro k q' hq'
        rcases Session.req_cases (show l.req s k = some q' from hq') with hw | ⟨-, hst⟩
        · cases hst : s.reqs k with
          | none => exact .inr ⟨rfl, h.req k q' hw hst⟩
          | some q => exact .inl ⟨q, rfl, hl.reqTerms k q' hw q hst⟩
        · exact .inl ⟨q', hst, .refl q'⟩
  · have hu := exec_uncommitted ho hx
    rw [hu.txns, hu.reqs]
    exact ⟨fun t x' hx' => .inl ⟨x', hx', .refl x'⟩, fun k q' hq' => .inl ⟨q', hq', .refl q'⟩⟩

/-- The moment of the run `labs` from `k₀` at which `row` was stored for the first time: a call
of a program that had been posted as `e`, and what it stored. -/
def BookedBy {ρ : Type} (k₀ : Config (platform S)) (labs : List (Label (platform S)))
    (row : World → Option ρ) (e : Entry) (x : ρ) : Prop :=
  ∃ before i ch after k₁ th k₂, labs = before ++ .call i ch :: after ∧ k₀.run before = some k₁ ∧
    k₁.threads i = some th ∧ th.session.entry = e ∧ .start e ∈ before ∧
    k₁.step (.call i ch) = some k₂ ∧ row k₁.world = none ∧ row k₂.world = some x

theorem BookedBy.later {ρ : Type} {row : World → Option ρ} {x : ρ} (h : BookedBy k₀ labs row e x)
    (lab : Label (platform S)) : BookedBy k₀ (labs ++ [lab]) row e x := by
  obtain ⟨before, j, ch, after, k₁, th, k₂, rfl, h⟩ := h
  exact ⟨before, j, ch, after ++ [lab], k₁, th, k₂, by simp, h⟩

/-- Who is in flight was posted, and every row was booked at the figures of a form by the program
that was posted with it. -/
structure AllBooked (k₀ : Config (platform S)) (labs : List (Label (platform S)))
    (k : Config (platform S)) : Prop where
  entries : ∀ i th, k.threads i = some th → .start th.session.entry ∈ labs
  txn : ∀ t x', k.world.txns t = some x' → ∃ form x,
    BookedBy k₀ labs (·.txns t) (.createRemittance form) x ∧ x.PostedBy form ∧ x.SameTerms x'
  req : ∀ r q', k.world.reqs r = some q' → ∃ form q,
    BookedBy k₀ labs (·.reqs r) (.createRequest form) q ∧ q.PostedBy form ∧ q.SameTerms q'

/-- A step that stores nothing new. -/
theorem AllBooked.keeps (h : AllBooked k₀ labs k) (lab : Label (platform S))
    (hentries : ∀ i th, k'.threads i = some th → .start th.session.entry ∈ labs ++ [lab])
    (htxns : k'.world.txns = k.world.txns) (hreqs : k'.world.reqs = k.world.reqs) :
    AllBooked k₀ (labs ++ [lab]) k' := by
  refine ⟨hentries, ?_, ?_⟩
  · rw [htxns]
    intro t x' hx'
    obtain ⟨form, x, hb, hrest⟩ := h.txn t x' hx'
    exact ⟨form, x, hb.later lab, hrest⟩
  · rw [hreqs]
    intro r q' hq'
    obtain ⟨form, q, hb, hrest⟩ := h.req r q' hq'
    exact ⟨form, q, hb.later lab, hrest⟩

theorem AllBooked.step {lab : Label (platform S)} (h : AllBooked k₀ labs k) (hr : (rules S).Holds k)
    (hp : ∀ i th, k.threads i = some th → th.session.Posted k.world)
    (hrun : k₀.run labs = some k) (hs : k.step lab = some k') :
    AllBooked k₀ (labs ++ [lab]) k' := by
  have hlater : ∀ i th, k.threads i = some th → .start th.session.entry ∈ labs ++ [lab] :=
    fun i th hi => List.mem_append_left _ (h.entries i th hi)
  cases lab with
  | start e =>
    cases hs
    refine h.keeps (.start e) (fun i th hi => ?_) rfl rfl
    by_cases hin : i = k.world.nextTid
    · subst hin
      obtain rfl : _ = th := by simpa [update] using hi
      exact List.mem_append_right _ (List.mem_singleton.mpr rfl)
    · exact hlater i th (by simpa [update, hin] using hi)
  | call j ch =>
    obtain ⟨l, o, f, r, l', s', hth, hx, rfl⟩ := Config.step_call hs
    obtain ⟨htxn, hreq⟩ := exec_posted (hp j _ hth) (hr.session j _ hth) hx
    refine ⟨fun i th hi => ?_, fun t x' hx' => ?_, fun m q' hq' => ?_⟩
    · by_cases hij : i = j
      · subst hij
        obtain rfl : _ = th := by simpa [update] using hi
        show Label.start (M := platform S) l'.entry ∈ _
        rw [exec_sameEntry hx]
        exact hlater i _ hth
      · exact hlater i th (by simpa [update, hij] using hi)
    · rcases htxn t x' hx' with ⟨x, hst, hterms⟩ | ⟨hnone, form, hform, hposted⟩
      -- it was there: booked earlier, on the same terms
      · obtain ⟨form, x₀, hb, hposted, hkept⟩ := h.txn t x hst
        exact ⟨form, x₀, hb.later _, hposted, hkept.trans hterms⟩
      · -- stored by this call
        exact ⟨form, x', ⟨labs, j, ch, [], k, _, _, rfl, hrun, hth, hform,
          hform ▸ h.entries j _ hth, hs, hnone, hx'⟩, hposted, .refl x'⟩
    · rcases hreq m q' hq' with ⟨q, hst, hterms⟩ | ⟨hnone, form, hform, hposted⟩
      · obtain ⟨form, q₀, hb, hposted, hkept⟩ := h.req m q hst
        exact ⟨form, q₀, hb.later _, hposted, hkept.trans hterms⟩
      · exact ⟨form, q', ⟨labs, j, ch, [], k, _, _, rfl, hrun, hth, hform,
          hform ▸ h.entries j _ hth, hs, hnone, hq'⟩, hposted, .refl q'⟩
  | stop j =>
    obtain ⟨_, _, rfl⟩ := Option.map_eq_some_iff.mp hs
    refine h.keeps (.stop j) (fun i th hi => ?_) rfl rfl
    by_cases hij : i = j
    · simp [update, hij] at hi
    · exact hlater i th (by simpa [update, hij] using hi)
  | env v =>
    obtain ⟨s', hv, rfl⟩ := Option.map_eq_some_iff.mp hs
    -- the environment writes no rows
    obtain ⟨ht, hq⟩ : s'.txns = k.world.txns ∧ s'.reqs = k.world.reqs := by
      rw [(env_eq hv).1]
      exact ⟨rfl, rfl⟩
    exact h.keeps (.env v) hlater ht hq

/-- **EVERY ROW GOES BACK TO A FORM**: the program that stored it was posted with the form. -/
theorem booked_run {clock validated : Nat} {held : Nat → Bool} {labs : List (Label (platform S))}
    {k : Config (platform S)}
    (h : Config.run labs (Config.initial (World.initial clock validated held)) = some k) :
    AllBooked (Config.initial (World.initial clock validated held)) labs k := by
  have hw := World.Orderly.initial clock validated held
  induction labs using List.reverseRecOn generalizing k with
  | nil =>
    cases h
    refine ⟨fun i th hi => ?_, fun t x hx => ?_, fun r q hq => ?_⟩
    · simp [Config.initial] at hi
    · cases hx
    · cases hq
  | append_singleton labs lab ih =>
    obtain ⟨k₁, hrun, hs⟩ := Option.bind_eq_some_iff.mp ((Config.run_concat ..).symm.trans h)
    have hreach := Reach.run .initial hrun
    refine (ih hrun).step ((rules_kept S).reach hw hreach) (fun i th hi => ?_) hrun hs
    exact ((posting_stage S).reach (rules_kept S) hw hreach hi).2

end Orbyt
