/-
  Orbyt.Invariants.Resolving — every program keeps the burn protocol

  An approval publishes its burn and restores the reserve where the publish raises; an
  admin's reconcile resolves a held burn by what the ledger says about the hash it has read.
  Everything else the platform does is harmless to burns.

  Main result:
    * `burning_reach` — `Burns` in every reachable state.
-/
import Orbyt.Invariants.BurnJobs

namespace Orbyt

open Interleave
open ValidatedLedger
open CashoutWorker (isApproved completed failed)
open CashoutService (isRequested approved)

variable {S : Setting} {i : Nat} {o : Op} {c : Choice} {l l' : Session} {s s' : World}
  {r : Nat} {q q' req : CashOutRequest}

/-! ## §1. Rows that end. -/

/-- A write that ends a row whose hash is known, or that nobody is working on. -/
theorem burns_finish {cond : CashOutRequest → Bool}
    {values : Nat → CashOutRequest → CashOutRequest}
    (hstatus : ∀ now q, (values now q).status ≠ .requested)
    (h : ∀ s₁ c (a : Except Exn Bool) l' s' q, (burning S).Here i l s₁ →
      (burns S).Along i l s l s₁ →
      exec S i (.updateReq r cond values) c l s₁ = some (a, l', s') → l.failed = false →
      s₁.reqs r = some q → cond q = true → Onward s₁ s' → q.Kept S s' r (s'.reqOwner r) →
      q.SameBurn (values s'.clock q) ∧
      ((values s'.clock q).status = .completed → ∃ k, q.xrplBurnTxHash = some k ∧ s'.Paid k) ∧
      (S.quietPublishFailure = true → S.oneLedgerView = true → (values s'.clock q).status =
        .failed →
        (∀ k, q.xrplBurnTxHash = some k → s'.Lost k) ∧
        (q.xrplBurnTxHash = none → ∀ T, q.burnStartedAt = some T → T + jobTimeout < s'.clock))) :
    (burns S).WritesOver i r cond values l s := by
  refine burns_writesOver fun s₁ c a l' s' q hh ha hx hf hstored hcond hon _ hkept => ?_
  obtain ⟨hsame, hburned, hfailed⟩ := h s₁ c a l' s' q hh ha hx hf hstored hcond hon hkept
  have howner := (reqOwnerAfter_same (i := i) (s'.reqOwner r) (x := some q) hsame.started).1
  exact .of_same (hkept.finish hsame (hstatus _ q) hburned
    (fun hq hv hs => (hfailed hq hv hs).1)
    (fun hq hv hs hn _ T _ hT => (hfailed hq hv hs).2 hn T hT) howner) hsame

/-! ## §2. The approval. -/

theorem publish_safe (hc : l.Clear .cashouts) (hentry : l.entry.isApprove = true) :
    Safe (burning S) i (fun _ _ _ => True) (fun _ _ _ => True)
      (CashoutService.publish r req) l s := by
  unfold CashoutService.publish
  refine Safe.attempt_bind
    (R := fun _ (l' : Session) (s' : World) => (burns S).Along i l s l' s')
    (X := fun _ (l' : Session) (s' : World) => (burns S).Along i l s l' s') ?_
    (fun _ _ _ _ => safe_ret fun _ => trivial) fun e l₁ s₁ ha => ?_
  · have hcalm := Guard.calm_of_uses (i := i) (s := s) (burns S) (p := call (.enqueue (.burn r)))
      (Prog.uses_call ⟨rfl, rfl⟩) hc
    exact hcalm.mono (fun _ _ _ _ h => h.1) fun _ _ _ _ h => h.1
  · unfold CashoutWorker.failAndRestore
    dsimp only
    rw [Prog.bind_eq, Prog.bind_eq, Prog.bind_assoc]
    refine Guard.write_end (G := burns S) (T := .cashouts) ha.clear
      (burns_finish (fun _ _ => by exact nofun) ?_) fun hit => ?_
    · intro s₂ c a l' s' q hh ha₂ hx hf hstored hcond hon hkept
      refine ⟨⟨rfl, rfl, rfl, rfl⟩, (fun hs => by cases hs), fun hq _ _ => ?_⟩
      have hread : l₁.req s₂ r = some q := (ha.clear.req hf).trans hstored
      have happroved : q.status = .approved := eq_of_beq hcond
      have hquiet := exec_quiet hq (by rw [ha.entry]; exact hentry) hx hread hcond happroved
      unfold CashOutRequest.quiet at hquiet
      rw [Bool.and_eq_true, Option.isNone_iff_eq_none, Option.all_eq_true] at hquiet
      obtain ⟨hnone, hold⟩ := hquiet
      exact ⟨fun k hk => (by rw [hnone] at hk; cases hk),
        fun _ T hT => of_decide_eq_true (hold T hT)⟩
    · exact Prog.uses_bind failAndRestore_tail fun _ => trivial

/-- The approval itself is harmless up to its commit. -/
theorem approve_safe {admin : Nat} (hc : l.Clear .cashouts) (hentry : l.entry.isApprove = true) :
    Safe (burning S) i (fun _ _ _ => True) (fun _ _ _ => True)
      (CashoutService.approve r req admin) l s := by
  unfold CashoutService.approve
  refine Safe.bind
    (Safe.mono (Guard.ready_uses (G := burns S) (p := call (.lockWallet req.walletId))
    (Prog.uses_call trivial) (Guard.ready_of_clear hc)) (fun _ _ _ _ h => h) fun _ _ _ _ _ =>
      trivial) ?_
  rintro wallet l₁ s₁ ⟨hready₁, he₁⟩
  cases wallet with
  | none => exact safe_raise fun _ => trivial
  | some w =>
    dsimp only
    split
    · exact safe_raise fun _ => trivial
    · have happrove : Op.Sparing (.updateReq r isRequested (approved admin)) := fun now q hq =>
        ⟨⟨rfl, rfl, rfl, rfl⟩, .inr ⟨eq_of_beq hq, .inl rfl⟩⟩
      refine Safe.bind (Safe.mono (Guard.ready_uses (G := burns S)
        (p := call (.updateReq r isRequested (approved admin))) (Prog.uses_call happrove) hready₁)
        (fun _ _ _ _ h => h) fun _ _ _ _ _ => trivial) ?_
      rintro hit l₂ s₂ ⟨hready₂, he₂⟩
      split
      · refine Safe.bind (Safe.mono (Guard.ready_uses (G := burns S)
          (p := call (.setBalance req.walletId (w.balanceUctusd - req.uctusdAmount) (.debit r)))
          (Prog.uses_call trivial) hready₂) (fun _ _ _ _ h => h) fun _ _ _ _ _ => trivial) ?_
        rintro - l₃ s₃ ⟨hready₃, he₃⟩
        refine Guard.commit_bind hready₃ (fun l₄ s₄ hclear he₄ => ?_) fun _ _ _ _ => trivial
        refine Guard.calm_bind (burns S) rfl hclear (fun _ _ _ l₅ s₅ _ _ _ ha _ => ?_)
          fun _ _ _ _ _ _ _ _ => trivial
        refine publish_safe ha.clear ?_
        rw [ha.entry, he₄, he₃, he₂, he₁]
        exact hentry
      · refine Guard.commit_bind hready₂ (fun l₄ s₄ _ _ => ?_) fun _ _ _ _ => trivial
        exact safe_raise fun _ => trivial

/-! ## §3. The reconciliation. -/

/-- `req` is a stored version of the row, read some time ago. -/
structure Found (S : Setting) (r : Nat) (req : CashOutRequest) (s : World) : Prop where
  row : ∃ q, s.reqs r = some q ∧ req.Later q
  kept : ∃ owner, req.Kept S s r owner

theorem Found.along (h : Found S r req s) (ha : (burns S).Along i l s l' s') :
    Found S r req s' := by
  obtain ⟨⟨q, hq, hlater⟩, owner, hkept⟩ := h
  obtain ⟨q', hq', hlater'⟩ := ha.rely.rows r q hq
  exact ⟨⟨q', hq', hlater.trans hlater'⟩, owner, hkept.onward ha.onward⟩

/-- What a verdict says about the burn `k`. -/
def CashoutService.Verdict.Tells (S : Setting) (k : Nat) (s : World) : CashoutService.Verdict → Prop
  | .succeeded => s.Paid k
  | .rejected _ => s.Dead k
  | .expired _ => S.oneLedgerView = true → s.Dead k
  | .unresolved => True

theorem consultLedger_found {k : Nat} (hc : l.Clear .cashouts) (hv : l.view = none)
    (h : Found S r req s) (hk : req.xrplBurnTxHash = some k) :
    Safe (burning S) i
      (fun verdict l' s' => (burns S).Along i l s l' s' ∧ verdict.Tells S k s')
      (fun _ _ _ => True) (CashoutService.consultLedger req k) l s := by
  unfold CashoutService.consultLedger
  refine Guard.calm_bind (burns S) rfl hc (fun s₁ c₁ code l₂ s₂ hh ha₁ hx ha₂ _ => ?_)
    fun _ _ _ _ _ _ _ _ => trivial
  rcases exec_lookup_first hh.world.regular hv hx with ⟨e, he⟩ | ⟨code', n, hr, hn⟩ | ⟨hr, hm⟩
  · cases he
  · cases hr
    cases code' with
    | tesSUCCESS => exact safe_ret fun _ => ⟨ha₂, n, hn⟩
    | other name => exact safe_ret fun _ => ⟨ha₂, .inl ⟨n, _, hn, nofun⟩⟩
  · cases hr
    dsimp only
    split
    next lastLedger submittedAt hlast hsubmitted =>
      refine Guard.calm_bind (burns S) rfl ha₂.clear
        (fun s₃ c₃ latest l₄ s₄ _ ha₃ hx₃ ha₄ hv₄ => ?_)
        fun _ _ _ _ _ _ _ _ => trivial
      split
      · exact safe_ret fun _ => ⟨ha₂.trans ha₄, trivial⟩
      next hpast =>
        refine Guard.calm_bind (burns S) rfl ha₄.clear
          (fun s₅ c₅ complete l₆ s₆ _ ha₅ hx₅ ha₆ _ => ?_)
          fun _ _ _ _ _ _ _ _ => trivial
        have ha := (ha₂.trans ha₄).trans ha₆
        refine safe_ret fun _ => ⟨ha, ?_⟩
        split
        next hcomplete =>
          -- the three reads have seen one ledger
          intro hS
          obtain ⟨owner, hkept⟩ := (h.along ha₂).kept
          have hsigned := hkept.live k hk
          rw [hlast, hsubmitted] at hsigned
          obtain ⟨b, hb, -⟩ := hsigned.blob
          have hlatest : latest = (l₂.consulted s₂).validated := by
            rcases exec_latestValidated hx₃ with ⟨e, he⟩ | hr
            · cases he
            · rw [← (hm hS).consulted s₃ rfl]
              exact Except.ok.inj hr
          have hheld : (l₂.consulted s₂).holds submittedAt lastLedger := by
            rcases exec_completeRange hx₅ with ⟨e, he⟩ | ⟨b, hr, hheld⟩
            · cases he
            · cases hr
              rw [← (hm hS).consulted s₅ (hv₄ rfl)]
              exact hheld hcomplete
          rw [hlatest] at hpast
          have hdead : s₂.Dead k := (hm hS).dead hsigned (Nat.lt_of_not_le hpast) hheld
          exact hdead.onward (ha₄.trans ha₆).onward hb
        · trivial
    · exact safe_ret fun _ => ⟨ha₂, trivial⟩

/-- Ending the row by what the ledger has said about the hash that is on it. -/
theorem Found.finish {k : Nat} (h : Found S r req s) (hk : req.xrplBurnTxHash = some k)
    {values : Nat → CashOutRequest → CashOutRequest}
    (hsame : ∀ (now : Nat) (q : CashOutRequest), q.xrplBurnTxHash = some k →
      q.SameBurn (values now q))
    (hstatus : ∀ now q, (values now q).status ≠ .requested)
    (hpaid : ∀ now q, (values now q).status = .completed → s.Paid k)
    (hlost : ∀ now q, (values now q).status = .failed → S.oneLedgerView = true → s.Dead k) :
    (burns S).WritesOver i r isApproved values l s := by
  refine burns_finish hstatus fun s₁ c a l' s' q hh ha hx hf hstored hcond hon hkept => ?_
  obtain ⟨⟨y, hy, hlater⟩, owner, -⟩ := h.along ha
  obtain rfl : q = y := Option.some.inj (hstored.symm.trans hy)
  have hhash : q.xrplBurnTxHash = some k := hlater k hk
  obtain ⟨owner₀, hkept₀⟩ := h.kept
  obtain ⟨b, hb, -⟩ := (hkept₀.live k hk).blob
  have hall := ha.onward.trans hon
  refine ⟨hsame _ q hhash, fun hs => ⟨k, hhash, (hpaid _ q hs).onward hall hb⟩,
    fun _ hv hs => ⟨?_, ?_⟩⟩
  · intro m hm
    obtain rfl : k = m := Option.some.inj (hhash.symm.trans hm)
    exact .inl ((hlost _ q hs hv).onward hall hb)
  · intro hn
    rw [hhash] at hn
    cases hn

/-- **THE RECONCILIATION** keeps the protocol: what it writes is backed by the ledger. -/
theorem reconcile_safe (hc : l.Clear .cashouts) (hv : l.view = none) (h : Found S r req s) :
    Safe (burning S) i (fun _ _ _ => True) (fun _ _ _ => True)
      (CashoutService.reconcile r req) l s := by
  have hfail : ∀ k reason l s, l.Clear .cashouts → Found S r req s → req.xrplBurnTxHash = some k →
      (S.oneLedgerView = true → s.Dead k) →
      Safe (burning S) i (fun _ _ _ => True) (fun _ _ _ => True)
        (Prog.bind (CashoutWorker.failAndRestore r req reason (some k)) fun _ => .ret ()) l s := by
    intro k reason l s hc h hk hdead
    unfold CashoutWorker.failAndRestore
    rw [Prog.bind_eq, Prog.bind_assoc]
    exact Guard.write_end (G := burns S) (T := .cashouts) hc
      (h.finish hk (fun now q hq => ⟨hq.symm, rfl, rfl, rfl⟩) (fun _ _ => by exact nofun)
        (fun _ _ hs => by cases hs) fun _ _ _ hS => hdead hS)
      fun hit => Prog.uses_bind failAndRestore_tail fun _ => trivial
  unfold CashoutService.reconcile
  split
  · exact safe_raise fun _ => trivial
  · split
    next k hstatus hk =>
      refine Safe.bind (consultLedger_found hc hv h hk) ?_
      rintro verdict l₁ s₁ ⟨ha, htells⟩
      have h₁ := h.along ha
      cases verdict with
      | succeeded =>
        refine Safe.bind (R := fun _ _ _ => True) ?_ fun _ _ _ _ => safe_ret fun _ => trivial
        unfold CashoutWorker.completeBurn
        refine Guard.calm_bind (burns S) rfl ha.clear (fun _ _ stamp l₂ s₂ _ _ _ ha₂ _ => ?_)
          fun _ _ _ _ _ _ _ _ => trivial
        obtain ⟨owner, hkept⟩ := h₁.kept
        obtain ⟨b, hb, -⟩ := (hkept.live k hk).blob
        -- what was paid when the ledger was read is paid when it is written
        have hpaid : s₂.Paid k := World.Paid.onward htells ha₂.onward hb
        refine Guard.write_end (G := burns S) (T := .cashouts) ha₂.clear
          ((h₁.along ha₂).finish hk (fun now q hq => ⟨hq.symm, rfl, rfl, rfl⟩)
            (fun _ _ => by exact nofun) (fun _ _ _ => hpaid) fun _ _ hs => by cases hs)
              fun hit => ?_
        split
        · exact Prog.uses_bind (Prog.uses_call trivial) fun _ =>
            Prog.uses_bind (Prog.uses_call trivial) fun _ => trivial
        · exact Prog.uses_bind (Prog.uses_call trivial) fun _ => trivial
      | rejected code => exact hfail k _ l₁ s₁ ha.clear h₁ hk fun _ => htells
      | expired last => exact hfail k _ l₁ s₁ ha.clear h₁ hk htells
      | unresolved => exact safe_ret fun _ => trivial
    · exact safe_raise fun _ => trivial

/-! ## §4. All other programs. -/

/-- An admin's request that loads the row and then acts on it. -/
theorem onRequest_safe {act : CashOutRequest → Program Unit} (hc : l.Clear .cashouts)
    (hact : ∀ req l' s', (burns S).Along i l s l' s' → l'.view = l.view → Found S r req s' →
      Safe (burning S) i (fun _ _ _ => True) (fun _ _ _ => True) (act req) l' s') :
    Safe (burning S) i (fun _ _ _ => True) (fun _ _ _ => True)
      (CashoutService.onRequest r act) l s := by
  unfold CashoutService.onRequest
  refine Guard.calm_bind (burns S) rfl hc (fun s₁ c found l₂ s₂ hh _ hx ha hv₂ => ?_)
    fun _ _ _ _ _ _ _ _ => trivial
  cases found with
  | none => exact safe_ret fun _ => trivial
  | some req =>
    have hfound : Found S r req s₂ := by
      rcases exec_selectReq hx with ⟨e, he⟩ | ⟨hr, -, rfl⟩
      · cases he
      · have hf : l.failed = false := by
          cases hf : l.failed with
          | false => rfl
          | true =>
            obtain ⟨e, he, -⟩ := exec_failed rfl hf hx
            cases he
        have hrow : s₁.reqs r = some req := (hc.req hf).symm.trans (Except.ok.inj hr).symm
        have hon : Onward s₁ (s₁.tick S c) := exec_onward hh.session.locked hx
        exact ⟨⟨req, hrow, .refl req⟩, _, (hh.inv.rows r req hrow).onward hon⟩
    refine Guard.calm_bind (burns S) rfl ha.clear (fun _ _ _ l₃ s₃ _ _ _ ha₃ hv₃ => ?_)
      fun _ _ _ _ _ _ _ _ => trivial
    exact hact req l₃ s₃ (ha.trans ha₃) ((hv₃ rfl).trans (hv₂ rfl)) (hfound.along ha₃)

/-- What any other entry point can call is harmless. -/
theorem may_sparing {e : Entry} (hburn : ∀ r, e ≠ .burn r) (happrove : ∀ r a, e ≠ .approve r a)
    (hreconcile : ∀ r, e ≠ .reconcile r) (o : Op) (h : e.may o) : o.Sparing := by
  cases o with
  | updateReq m cond values =>
    intro now q hc
    have hu : ReqUpdate e m cond values := h
    cases hu with
    | claim | release | remember | complete | fail | hold => exact absurd rfl (hburn m)
    | approve | unpublished => exact absurd rfl (happrove m _)
    | reconcileComplete | reconcileFail => exact absurd rfl (hreconcile m)
    | reject => exact ⟨⟨rfl, rfl, rfl, rfl⟩, .inr ⟨eq_of_beq hc, .inr rfl⟩⟩
  | insertReq row =>
    obtain ⟨form, pricing, -, rfl⟩ := h
    exact fun key now => ⟨rfl, rfl, rfl⟩
  | handOver purpose k =>
    have hs : e.signs purpose := h
    cases purpose with
    | burn r' =>
      cases e with
      | burn r => exact absurd rfl (hburn r)
      | _ => exact hs
    | _ => trivial
  | _ => trivial

theorem Burns.initial (clock validated : Nat) (held : Nat → Bool) :
    Burns S (World.initial clock validated held) where
  rows := by intro r q hq; cases hq
  free := fun _ _ => rfl
  recorded := by intro k b r hb; cases hb

theorem burning_sound (hp : S.punctual = true) : (burning S).Sound where
  spawn := fun s h => by
    have hon : Onward s { s with nextTid := s.nextTid + 1 } := (spawn_others (j := 0)).onward
    exact ⟨h.of_same hon rfl rfl fun k b r hb _ hk => .inl ⟨hb, hk⟩,
      fun j => .of_same (Nat.le_refl _) rfl rfl⟩
  body := fun s e _ => by
    have hclear : (Session.start e).Clear .cashouts := .inr fun _ => rfl
    have hother : (∀ r, e ≠ .burn r) → (∀ r a, e ≠ .approve r a) → (∀ r, e ≠ .reconcile r) →
        SafeEnd (burning S) s.nextTid (body S e) (Session.start e)
          { s with nextTid := s.nextTid + 1 } := fun hburn happrove hreconcile =>
      spared_of_uses ((body_uses S e).mono (may_sparing hburn happrove hreconcile)) hclear
    cases e with
    | burn r =>
      exact Safe.bind (R := fun _ _ _ => True) (processBurn_safe hp hclear rfl rfl)
        fun _ _ _ _ => safe_ret fun _ => trivial
    | approve r admin =>
      exact onRequest_safe hclear fun req l' s' ha _ _ =>
        approve_safe ha.clear (by rw [ha.entry]; rfl)
    | reconcile r =>
      exact onRequest_safe hclear fun req l' s' ha hv hfound => reconcile_safe ha.clear hv hfound
    | _ => exact hother nofun nofun nofun
  close := fun i s h => by
    have hon : Onward s (s.releaseAll i) := (releaseAll_others (Nat.succ_ne_self i)).onward
    exact ⟨h.of_same hon rfl rfl fun k b r hb _ hk => .inl ⟨hb, hk⟩,
      fun j _ => .of_same (Nat.le_refl _) rfl rfl⟩
  env := fun v s s' _ _ h hx => by
    have hon : Onward s s' := (env_others (j := 0) hx).onward
    obtain ⟨he, -, -⟩ := env_eq hx
    have hsame : s'.reqs = s.reqs ∧ s'.reqOwner = s.reqOwner ∧ s'.blobs = s.blobs ∧
        s'.handed = s.handed := by rw [he]; exact ⟨rfl, rfl, rfl, rfl⟩
    obtain ⟨hr, howner, hb, hh⟩ := hsame
    refine ⟨h.of_same hon hr howner fun k b r hb' _ hk => ?_, fun j => .of_same hon.clock hr howner⟩
    rw [hb] at hb'
    rw [hh] at hk
    exact .inl ⟨hb', hk⟩

/-- **EVERY BURN IS ON ITS ROW**, in every reachable state. -/
theorem burning_reach (hp : S.punctual = true) {w : World} (hw : w.Orderly) (hi : Burns S w)
    {k : Config (platform S)} (h : Reach (M := platform S) w k) : Burns S k.world :=
  (burning_sound hp).reach (rules_kept S) hw hi (fun _ _ => trivial) h

end Orbyt
