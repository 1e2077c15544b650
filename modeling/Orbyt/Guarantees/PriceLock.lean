/-
  Orbyt.Guarantees.PriceLock — the price that was shown is the price that is booked

  Main results:
    * `pay_page_posts`    — what the pay page shows is read back as it was computed;
    * `review_page_posts` — so is what the cash-out review shows;
    * `price_lock`        — a page posted back is refused exactly if a term has changed, and a
      booked row has the figures that were posted, whatever is edited in between.
-/
import Orbyt.Guarantees.Pricing
import Orbyt.Invariants.Posted
import Orbyt.Platform.PriceLock

namespace Orbyt.PriceLock

open Interleave
open PyText Rounding
open Pricing hiding Quote CashOutPricing

variable {C : Context} {p : ℕ} {a : Fixed p} {source : RateSource} {config : FeeConfig}
  {currency : PayoutCurrency} {quote : Pricing.Quote} {pricing : Pricing.CashOutPricing}

/-! ## §1. Comparisons. -/

/-- Figures match exactly if each number that was posted is the figure. -/
theorem allEqual_eq_true : ∀ {figures : List (ℚ × Decimal)},
    allEqual figures = some true ↔ ∀ f ∈ figures, f.2.toRat = some f.1
  | [] => by simp [allEqual]
  | (figure, posted) :: rest => by
    rw [List.forall_mem_cons, ← allEqual_eq_true, ← Decimal.equals_eq_true]
    cases h : posted.equals figure with
    | none => simp [allEqual, h]
    | some matched => cases matched <;> simp [allEqual, h]

theorem allEqual_three {p₁ p₂ p₃ : ℕ} (x y z : ℚ) (a : Fixed p₁) (b : Fixed p₂) (c : Fixed p₃) :
    allEqual [(x, ofFixed a), (y, ofFixed b), (z, ofFixed c)]
      = some (decide (a.val = x ∧ b.val = y ∧ c.val = z)) := by
  unfold allEqual allEqual allEqual allEqual
  simp only [equals_val]
  by_cases ha : a.val = x
  · by_cases hb : b.val = y
    · by_cases hc : c.val = z <;> simp [ha, hb, hc]
    · simp [ha, hb]
  · simp [ha]

/-- Units stand for the number. -/
theorem units_eq_some {d : Decimal} {n : ℤ} :
    units p d = some n ↔ d.toRat = some (⟨n⟩ : Fixed p).val := by
  unfold units
  rw [Option.bind_eq_some_iff]
  constructor
  · rintro ⟨value, hd, h⟩
    split at h
    next hval =>
      obtain rfl := Option.some.inj h
      rw [hd]
      exact congrArg some hval.symm
    next => cases h
  · intro hd
    exact ⟨_, hd, by simp⟩

/-! ## §2. Sends. -/

namespace Send

open Transactions (RemittanceForm parseDecimal)

theorem parseDecimal_str (hp : 0 < p) (hp6 : p ≤ 6) (ha : Context.standard.Fits a) :
    parseDecimal (str a) = some (ofFixed a) := by
  unfold parseDecimal
  rw [remove_str hp hp6, strip_str hp hp6]
  exact ofText_str hp hp6 ha

/-- What is positive is an amount. -/
theorem parseSend_str (hp : 0 < p) (hp6 : p ≤ 6) (ha : Context.standard.Fits a)
    (hpos : 0 < a.val) : Transactions.parseAmount (str a) = .ok (some (ofFixed a)) := by
  have hunits : 0 < a.units := Fixed.val_pos.mp hpos
  have hcompared : Transactions.compared (ofFixed a) = .ok .gt := by
    unfold Transactions.compared
    rw [compareZero_ofFixed, if_neg hunits.ne', if_neg (not_lt.mpr hunits.le)]
  unfold Transactions.parseAmount
  rw [parseDecimal_str hp hp6 ha]
  dsimp only
  rw [hcompared]
  rfl

/-- The price lock is read back; the fee may be zero. -/
theorem acceptedQuote_str {rate uctusd : Fixed 6} {fee : Fixed 2}
    (hrate : Context.standard.Fits rate) (hfee : Context.standard.Fits fee)
    (huctusd : Context.standard.Fits uctusd) (hratePos : 0 < rate.val) (hfeePos : 0 ≤ fee.val)
    (huctusdPos : 0 < uctusd.val) :
    Transactions.acceptedQuote (str rate) (str fee) (str uctusd)
      = .ok (some ⟨ofFixed rate, ofFixed fee, ofFixed uctusd⟩) := by
  have hunits : 0 ≤ fee.units := Fixed.val_nonneg.mp hfeePos
  have hcompared : Transactions.compared (ofFixed fee) =
      .ok (if fee.units = 0 then .eq else .gt) := by
    unfold Transactions.compared
    rw [compareZero_ofFixed, if_neg (not_lt.mpr hunits)]
  unfold Transactions.acceptedQuote
  rw [parseSend_str (by decide) (by decide) hrate hratePos,
    parseSend_str (by decide) (by decide) huctusd huctusdPos,
    parseDecimal_str (by decide) (by decide) hfee]
  simp only [ok_bind, hcompared]
  split
  · rfl
  · rfl

/-- Quantising what has been quantised: the price of the amount that was shown. -/
theorem quoteFor_again {z : ℚ} {zar : Fixed 2} {fees : Option FeeConfig} (h : q C 2 z = .ok zar) :
    quoteFor C source fees zar.val currency = .ok quote ↔
      quoteFor C source fees z currency = .ok quote := by
  have hagain : q C 2 zar.val = q C 2 z := by
    rw [h]
    exact q_ok.mpr ⟨(q_ok.mp h).1, (Fixed.ofRat_val zar).symm⟩
  cases fees with
  | none => exact Iff.rfl
  | some config =>
    simp only [quoteFor_ok, calculateQuote_ok, hagain, quoted_again hagain]

/-- The figures of a quote that is shown can be put into a form. -/
structure Showable (quote : Pricing.Quote) : Prop where
  zar : Context.standard.Fits quote.zarAmount
  zarPos : 0 < quote.zarAmount.val
  rate : Context.standard.Fits quote.exchangeRate
  ratePos : 0 < quote.exchangeRate.val
  fee : Context.standard.Fits quote.transactionFee
  feeNonneg : 0 ≤ quote.transactionFee.val
  uctusd : Context.standard.Fits quote.uctusdAmount
  uctusdPos : 0 < quote.uctusdAmount.val

/-- What is quoted converts to something. -/
theorem quoteFor_uctusdPos {z : ℚ} (h : quoteFor C source (some config) z currency = .ok quote) :
    0 < quote.uctusdAmount.val := by
  obtain ⟨_, _, _, -, -, -, -, hcalc⟩ := quoteFor_ok.mp h
  exact (calculateQuote_ok.mp hcalc).1.uctusdPos

theorem quoteFor_showable {config : NonnegFeeConfig} {z : ℚ}
    (h : quoteFor .standard source (some (config : FeeConfig)) z currency = .ok quote) :
    q .standard 2 z = .ok quote.zarAmount ∧ Showable quote := by
  obtain ⟨minimum, asked, rate, hminimum, hasked, hle, -, hcalc⟩ := quoteFor_ok.mp h
  obtain ⟨hq, -⟩ := calculateQuote_ok.mp hcalc
  obtain rfl := Except.ok.inj (hasked.symm.trans hq.zar)
  have hminimumNonneg : 0 ≤ minimum.val := by
    rw [(q_ok.mp hminimum).2]
    exact Fixed.ofRat_nonneg config.nonneg.minSendZar
  have hzar : 0 ≤ quote.zarAmount.val := hminimumNonneg.trans hle
  have hfee : 0 ≤ quote.transactionFee.val := by
    rw [(q_ok.mp hq.fee).2]
    exact Fixed.ofRat_nonneg (Context.round_nonneg (add_nonneg config.nonneg.fixedFeeZar
      (Context.round_nonneg (mul_nonneg config.nonneg.percentageFee hzar))))
  -- what is left of the amount is positive, and so is what it converts to
  have hleft : 0 < quote.zarAmount.val - quote.transactionFee.val := by
    have hnet := hq.netPos
    rw [(q_ok.mp hq.net).2] at hnet
    by_contra hneg
    exact absurd (Fixed.pos_of_ofRat_pos hnet) (not_lt.mpr (Context.round_nonpos (not_lt.mp hneg)))
  have hrate : 0 < quote.exchangeRate.val := by
    have hsome := hq.uctusdPos
    rw [(q_ok.mp hq.uctusd).2] at hsome
    by_contra hneg
    refine absurd (Fixed.pos_of_ofRat_pos hsome) (not_lt.mpr (Context.round_nonpos ?_))
    exact div_nonpos_of_nonneg_of_nonpos hq.netPos.le (not_lt.mp hneg)
  exact ⟨hasked, (q_ok.mp hq.zar).1, by linarith, (q_ok.mp hq.exchange).1, hrate,
    (q_ok.mp hq.fee).1, hfee, (q_ok.mp hq.uctusd).1, hq.uctusdPos⟩

/-- The terms that a send is locked at. -/
def SameTerms (quote quote' : Pricing.Quote) : Prop :=
  quote'.exchangeRate = quote.exchangeRate ∧ quote'.transactionFee = quote.transactionFee ∧
    quote'.uctusdAmount = quote.uctusdAmount

/-- Posted back, the pay page asks for the amount it showed, at the terms it showed. -/
theorem pay_page_posts {config : NonnegFeeConfig} {uuid : Text → Option Nat}
    {user : Option Transactions.User}
    {beneficiaryId : Text} {beneficiary : Nat} {z : ℚ}
    (huser :
      Transactions.senderRedirect (α := Decimal × Nat × Transactions.AcceptedQuote) user = none)
    (hid : uuid beneficiaryId = some beneficiary)
    (h : quoteFor .standard source (some (config : FeeConfig)) z currency = .ok quote) :
    ∃ accepted, Transactions.createRemittance uuid user (payForm quote beneficiaryId)
        = .ok (.goesOn (ofFixed quote.zarAmount, beneficiary, accepted)) ∧
      ∀ quote', ∃ matched, pricingMatches quote' accepted = some matched ∧
        (matched = true ↔ SameTerms quote quote') := by
  obtain ⟨-, hs⟩ := quoteFor_showable h
  refine ⟨⟨ofFixed quote.exchangeRate, ofFixed quote.transactionFee, ofFixed quote.uctusdAmount⟩,
    ?_, fun quote' => ⟨_, allEqual_three _ _ _ _ _ _, ?_⟩⟩
  -- what was rendered is read back as it was
  · unfold Transactions.createRemittance
    rw [huser]
    unfold payForm
    rw [parseSend_str (by decide) (by decide) hs.zar hs.zarPos, ok_bind]
    rw [hid, acceptedQuote_str hs.rate hs.fee hs.uctusd hs.ratePos hs.feeNonneg hs.uctusdPos]
    rfl
  · rw [decide_eq_true_iff, Fixed.val_inj, Fixed.val_inj, Fixed.val_inj]
    unfold SameTerms
    rw [eq_comm, eq_comm (a := quote.transactionFee), eq_comm (a := quote.uctusdAmount)]

/-- The comparison of the decimals is the one of their units. -/
theorem matches_units {accepted : Transactions.AcceptedQuote} (hpos : 0 ≤ quote.uctusdAmount.val) :
    pricingMatches quote accepted = some true ↔
      ∃ a, figures accepted = some a ∧ CashinService.pricingMatches (row quote) a = true := by
  have hnat : (quote.uctusdAmount.units.toNat : ℤ) = quote.uctusdAmount.units :=
    Int.toNat_of_nonneg (Fixed.val_nonneg.mp hpos)
  unfold pricingMatches
  rw [allEqual_eq_true]
  simp only [List.forall_mem_cons, List.not_mem_nil, false_imp_iff, implies_true, and_true]
  constructor
  · rintro ⟨hrate, hfee, huctusd⟩
    refine ⟨⟨quote.exchangeRate.units, quote.transactionFee.units, quote.uctusdAmount.units.toNat⟩,
      ?_, ?_⟩
    · unfold figures
      rw [units_eq_some.mpr hrate, units_eq_some.mpr hfee, units_eq_some.mpr huctusd]
      exact if_neg (not_lt.mpr (Fixed.val_nonneg.mp hpos))
    · simp [CashinService.pricingMatches, row]
  · rintro ⟨a, ha, hm⟩
    unfold figures at ha
    obtain ⟨rate, hrate, ha⟩ := Option.bind_eq_some_iff.mp ha
    obtain ⟨fee, hfee, ha⟩ := Option.bind_eq_some_iff.mp ha
    obtain ⟨uctusd, huctusd, ha⟩ := Option.bind_eq_some_iff.mp ha
    split at ha
    · cases ha
    next hneg =>
    obtain rfl := Option.some.inj ha
    simp only [CashinService.pricingMatches, row, Bool.and_eq_true, beq_iff_eq] at hm
    obtain ⟨⟨rfl, rfl⟩, hsame⟩ := hm
    obtain rfl : quote.uctusdAmount.units = uctusd := by omega
    exact ⟨units_eq_some.mp hrate, units_eq_some.mp hfee, units_eq_some.mp huctusd⟩

/-- What is priced now passes against what was posted. -/
def Passes (repriced : Except PricingError Pricing.Quote) (accepted : Transactions.AcceptedQuote) :
    Prop := ∃ quote', repriced = .ok quote' ∧ pricingMatches quote' accepted = some true

end Send

/-! ## §3. Cash-outs. -/

namespace CashOut

theorem parseCurrency_value (currency : PayoutCurrency) :
    parseCurrency (value currency) = .ok currency := by
  cases currency <;> decide

theorem decimal_str (hp : 0 < p) (hp6 : p ≤ 6) (ha : Context.standard.Fits a) :
    decimal (str a) = .ok (ofFixed a) := by
  unfold decimal
  rw [ofText_str hp hp6 ha]

theorem places_pos (currency : PayoutCurrency) : 0 < places currency := by
  cases currency <;> decide

theorem places_le (currency : PayoutCurrency) : places currency ≤ 6 := by
  cases currency <;> decide

theorem cashoutPayout_fits {x fee rate : ℚ} {payout : Fixed (places currency)}
    (h : cashoutPayout C x fee rate currency = .ok payout) : C.Fits payout := by
  cases currency with
  | USD => exact (q_ok.mp h).1
  | ZAR => exact (q_ok.mp h).1

theorem getMarketRate_fits {rate : Fixed 6} (h : getMarketRate C source config = .ok rate) :
    C.Fits rate := by
  cases source with
  | config => exact (q_ok.mp h).1
  | static pinned => exact (q_ok.mp h).1
  | unsupported name => cases h

/-- The terms that a cash-out is locked at. -/
def SameTerms (pricing pricing' : Pricing.CashOutPricing) : Prop :=
  pricing'.marketRate = pricing.marketRate ∧ pricing'.cashoutFeeUsd = pricing.cashoutFeeUsd ∧
    pricing'.netPayout.val = pricing.netPayout.val

/-- Posted back, the review page asks for the amount it showed, at the terms it showed. -/
theorem review_page_posts {user : Option User} {amount : Fixed 6}
    (huser : requireRecipient (α := Fixed 6 × PayoutCurrency × Accepted) user = none)
    (hfits : Context.standard.Fits amount) (hpos : 0 < amount.val)
    (h : priceCashout .standard source (some config) amount currency = .ok pricing) :
    ∃ accepted, create .standard user (reviewForm pricing)
        = .ok (.goesOn (amount, currency, accepted)) ∧
      ∀ pricing', ∃ matched, pricingMatches pricing' accepted = some matched ∧
        (matched = true ↔ SameTerms pricing pricing') := by
  obtain ⟨hp, rfl⟩ := priceCashout_ok.mp h
  refine ⟨⟨ofFixed pricing.marketRate, ofFixed pricing.cashoutFeeUsd, ofFixed pricing.netPayout⟩,
    ?_, fun pricing' => ⟨_, allEqual_three _ _ _ _ _ _, ?_⟩⟩
  · have hread : readForm .standard (reviewForm pricing) = .ok (amount, pricing.targetCurrency,
        ⟨ofFixed pricing.marketRate, ofFixed pricing.cashoutFeeUsd,
          ofFixed pricing.netPayout⟩) := by
      unfold readForm reviewForm
      rw [hp.same, parseAmount_str hfits hpos, ok_bind, parseCurrency_value, ok_bind,
        decimal_str (by decide) (by decide) (getMarketRate_fits hp.rate), ok_bind,
        decimal_str (by decide) (by decide) (q_ok.mp hp.fee).1, ok_bind,
        decimal_str (places_pos _) (places_le _) (cashoutPayout_fits hp.payout), ok_bind]
      rfl
    unfold create
    rw [huser, hread]
  · rw [decide_eq_true_iff, Fixed.val_inj, Fixed.val_inj]
    unfold SameTerms
    rw [eq_comm, eq_comm (a := pricing.cashoutFeeUsd), eq_comm (a := pricing.netPayout.val)]

theorem matches_units {amount : Fixed 6} {accepted : Accepted} :
    pricingMatches pricing accepted = some true ↔ ∃ a, figures amount currency accepted = some a ∧
      CashoutService.pricingMatches (row pricing) (some a) = true := by
  have hpayout : ∀ n : ℤ, (Fixed.ofRat pricing.netPayout.val : Fixed 6).units = n ↔
      (⟨n⟩ : Fixed 6).val = pricing.netPayout.val := by
    intro n
    have hval := Fixed.ofRat_val_of_le (places_le pricing.targetCurrency) pricing.netPayout
    constructor
    · rintro rfl
      exact hval
    · intro h
      rw [← h, Fixed.ofRat_val]
  unfold pricingMatches
  rw [allEqual_eq_true]
  simp only [List.forall_mem_cons, List.not_mem_nil, false_imp_iff, implies_true, and_true]
  constructor
  · rintro ⟨hrate, hfee, hnet⟩
    have hunits : units 6 accepted.netPayout
        = some (Fixed.ofRat pricing.netPayout.val : Fixed 6).units := by
      rw [units_eq_some, hnet]
      exact congrArg some ((hpayout _).mp rfl).symm
    refine ⟨⟨amount.units.toNat, currency, pricing.marketRate.units, 0, 0,
      pricing.cashoutFeeUsd.units, (Fixed.ofRat pricing.netPayout.val : Fixed 6).units⟩, ?_, ?_⟩
    · unfold figures
      rw [units_eq_some.mpr hrate, units_eq_some.mpr hfee, hunits]
      rfl
    · simp [CashoutService.pricingMatches, row]
  · rintro ⟨a, ha, hm⟩
    unfold figures at ha
    obtain ⟨rate, hrate, ha⟩ := Option.bind_eq_some_iff.mp ha
    obtain ⟨fee, hfee, ha⟩ := Option.bind_eq_some_iff.mp ha
    obtain ⟨net, hnet, ha⟩ := Option.bind_eq_some_iff.mp ha
    obtain rfl := Option.some.inj ha
    simp only [CashoutService.pricingMatches, row, Bool.and_eq_true, beq_iff_eq] at hm
    obtain ⟨⟨rfl, rfl⟩, hsame⟩ := hm
    refine ⟨units_eq_some.mp hrate, units_eq_some.mp hfee, ?_⟩
    rw [units_eq_some.mp hnet, (hpayout _).mp hsame]

/-- What is priced now passes against what was posted. -/
def Passes (repriced : Except PricingError Pricing.CashOutPricing) (accepted : Accepted) : Prop :=
  ∃ pricing', repriced = .ok pricing' ∧ pricingMatches pricing' accepted = some true

end CashOut

/-! ## §4. The lock. -/

theorem sendPay_goesOn {user : Option Transactions.User} {beneficiaryId zarAmount : Text}
    {asked : Decimal}
    (h : Transactions.sendPay user beneficiaryId zarAmount = .ok (.goesOn asked)) :
    Transactions.senderRedirect (α := Decimal × Nat × Transactions.AcceptedQuote) user = none := by
  cases user with
  | none => cases h
  | some user =>
    obtain ⟨isAdmin, canSend, kycApproved⟩ := user
    cases isAdmin <;> cases canSend <;> cases kycApproved <;> first | rfl | cases h

theorem preview_goesOn {user : Option CashOut.User} {uctusdAmount targetCurrency : Text}
    {amount : Fixed 6}
    (h : CashOut.preview .standard user uctusdAmount targetCurrency
      = .ok (.goesOn (amount, currency))) :
    CashOut.requireRecipient (α := Fixed 6 × PayoutCurrency × CashOut.Accepted) user = none ∧
      Context.standard.Fits amount ∧ 0 < amount.val := by
  have huser : CashOut.requireRecipient (α := Fixed 6 × PayoutCurrency) user = none ∧
      CashOut.requireRecipient (α := Fixed 6 × PayoutCurrency × CashOut.Accepted) user = none := by
    cases user with
    | none => cases h
    | some user =>
      obtain ⟨isAdmin, canReceive⟩ := user
      cases isAdmin <;> cases canReceive <;> first | exact ⟨rfl, rfl⟩ | cases h
  refine ⟨huser.2, ?_⟩
  have hread : CashOut.readAmount .standard uctusdAmount targetCurrency =
      .ok (amount, currency) := by
    unfold CashOut.preview at h
    rw [huser.1] at h
    dsimp only at h
    split at h
    next asked hasked =>
      cases h
      exact hasked
    next => cases h
    next => cases h
  -- what it goes on with has been parsed, and a parsed amount has six places and is positive
  obtain ⟨a, ha, hrest⟩ := bind_ok.mp hread
  obtain ⟨currency', -, hend⟩ := bind_ok.mp hrest
  obtain rfl : a = amount := (Prod.mk.inj (Except.ok.inj hend)).1
  rcases parseAmount_cases .standard uctusdAmount with
    ⟨v, b, -, -, hb, hpos, hok⟩ | ⟨⟨text, herror⟩, -⟩
  · obtain rfl := Except.ok.inj (ha.symm.trans hok)
    exact ⟨(Context.quantize_eq_some.mp hb).1, hpos⟩
  · rw [ha] at herror
    cases herror

/-- **THE PRICE LOCK**: the pay page and the cash-out review, posted back as they were shown, pass
the comparison exactly if the terms that are computed by then, for the amount that was entered, are
those that were shown; what passes on decimals is what passes on stored figures; and in every run
each row was booked at the figures of its own form, that of the program which stored it, and is on
these terms still.  A fee below zero is refused when it is posted back, and no form of the admin's
is accepted with one (`fees_nonneg`). -/
theorem price_lock :
    (∀ user beneficiaryId zarAmount (asked : Decimal) z source (config : NonnegFeeConfig) currency
        quote,
      Transactions.sendPay user beneficiaryId zarAmount = .ok (.goesOn asked) →
      asked.toRat = some z →
      quoteFor .standard source (some (config : FeeConfig)) z currency = .ok quote →
      ∀ (uuid : Text → Option Nat) id beneficiary, uuid id = some beneficiary →
        ∃ accepted, Transactions.createRemittance uuid user (Send.payForm quote id)
            = .ok (.goesOn (ofFixed quote.zarAmount, beneficiary, accepted)) ∧
          ∀ source' fees' currency',
            Send.Passes (quoteFor .standard source' fees' quote.zarAmount.val currency') accepted ↔
              ∃ quote', quoteFor .standard source' fees' z currency' = .ok quote' ∧
                Send.SameTerms quote quote') ∧
    (∀ user uctusdAmount targetCurrency amount currency source config pricing,
      CashOut.preview .standard user uctusdAmount targetCurrency
        = .ok (.goesOn (amount, currency)) →
      priceCashout .standard source (some config) amount currency = .ok pricing →
      ∃ accepted, CashOut.create .standard user (CashOut.reviewForm pricing)
          = .ok (.goesOn (amount, currency, accepted)) ∧
        ∀ source' fees',
          CashOut.Passes (priceCashout .standard source' fees' amount currency) accepted ↔
            ∃ pricing', priceCashout .standard source' fees' amount currency = .ok pricing' ∧
              CashOut.SameTerms pricing pricing') ∧
    (∀ source config z currency quote accepted,
      quoteFor .standard source (some config) z currency = .ok quote →
      (Send.pricingMatches quote accepted = some true ↔ ∃ a, Send.figures accepted = some a ∧
        CashinService.pricingMatches (Send.row quote) a = true)) ∧
    (∀ pricing amount currency accepted,
      CashOut.pricingMatches pricing accepted = some true ↔
        ∃ a, CashOut.figures amount currency accepted = some a ∧
          CashoutService.pricingMatches (CashOut.row pricing) (some a) = true) ∧
    ∀ (S : Setting) clock validated held labs (k : Config (platform S)),
      Config.run labs (Config.initial (World.initial clock validated held)) = some k →
      (∀ t x', k.world.txns t = some x' → ∃ form x,
        BookedBy (Config.initial (World.initial clock validated held)) labs (·.txns t)
          (.createRemittance form) x ∧ x.PostedBy form ∧ x.SameTerms x') ∧
      ∀ r q', k.world.reqs r = some q' → ∃ form q,
        BookedBy (Config.initial (World.initial clock validated held)) labs (·.reqs r)
          (.createRequest form) q ∧ q.PostedBy form ∧ q.SameTerms q' := by
  refine ⟨?_, ?_, ?_, ?_, ?_⟩
  -- the pay page; what it was priced from is asked again at its rounded amount
  · intro user beneficiaryId zarAmount asked z source config currency quote hpage hz hquote uuid id
      beneficiary hid
    obtain ⟨accepted, hposted, hmatches⟩ :=
      Send.pay_page_posts (sendPay_goesOn hpage) hid hquote
    refine ⟨accepted, hposted, fun source' fees' currency' => ?_⟩
    refine exists_congr fun quote' => ?_
    rw [Send.quoteFor_again (Send.quoteFor_showable hquote).1]
    refine and_congr_right fun _ => ?_
    obtain ⟨matched, hmatched, hiff⟩ := hmatches quote'
    rw [hmatched, Option.some.injEq]
    exact hiff
  -- the cash-out review
  · intro user uctusdAmount targetCurrency amount currency source config pricing hpage hpricing
    obtain ⟨huser, hfits, hpos⟩ := preview_goesOn hpage
    obtain ⟨accepted, hposted, hmatches⟩ := CashOut.review_page_posts huser hfits hpos hpricing
    refine ⟨accepted, hposted, fun source' fees' => ?_⟩
    refine exists_congr fun pricing' => and_congr_right fun _ => ?_
    obtain ⟨matched, hmatched, hiff⟩ := hmatches pricing'
    rw [hmatched, Option.some.injEq]
    exact hiff
  · intro source config z currency quote accepted hquote
    exact Send.matches_units (Send.quoteFor_uctusdPos hquote).le
  · intro pricing amount currency accepted
    exact CashOut.matches_units
  · intro S clock validated held labs k hrun
    exact ⟨(booked_run hrun).txn, (booked_run hrun).req⟩

/-- The pay page of R1,000 on the seeded configuration, posted back before anything changes. -/
theorem price_lock_seeded : ∃ quote accepted,
    quoteFor .standard .config (some .seeded) 1000 .ZAR = .ok quote ∧
    Transactions.createRemittance (fun _ => some 7) (some ⟨false, true, true⟩)
        (Send.payForm quote ['7']) = .ok (.goesOn (ofFixed quote.zarAmount, 7, accepted)) ∧
    Send.Passes (quoteFor .standard .config (some .seeded) quote.zarAmount.val .ZAR) accepted := by
  obtain ⟨quote, hquote⟩ :
      ∃ quote, quoteFor .standard .config (some .seeded) 1000 .ZAR = .ok quote :=
    exists_ok (by decide +kernel)
  have hpage : Transactions.sendPay (some ⟨false, true, true⟩) ['7'] "1,000.00".toList
      = .ok (.goesOn (.finite false 100000 (-2))) := by decide +kernel
  obtain ⟨accepted, hposted, hpasses⟩ :=
    price_lock.1 _ _ _ _ _ _ .seeded _ _ hpage (by decide +kernel) hquote (fun _ => some 7) ['7']
      7 rfl
  exact ⟨quote, accepted, hquote, hposted,
    (hpasses .config (some .seeded) .ZAR).mpr ⟨quote, hquote, rfl, rfl, rfl⟩⟩

end Orbyt.PriceLock
