/-
  Orbyt.Guarantees.Pricing — what a price may be relied on for

  Main results:
    * `parse_amount_total` — every text is refused as a CashOutError or read half up;
    * `estimate_is_payout` — what the sender is shown is what the recipient is paid;
    * `money_accounted`    — a quote's figures add up, a payout's too, and a send whose fee
      consumes it or that rounds away is refused;
    * `pricing_monotone`   — more is never priced lower, and what is accepted stays accepted.
-/
import Orbyt.Platform.Pricing
import Orbyt.Rules.Amounts

namespace Orbyt.Pricing

open PyText Rounding

variable {C : Context} {source : RateSource} {config : FeeConfig} {currency : PayoutCurrency}
  {quote : Quote} {p : ℕ}

/-! ## §1. The steps. -/

theorem bind_ok {ε α β : Type} {x : Except ε α} {f : α → Except ε β} {b : β} :
    x >>= f = .ok b ↔ ∃ a, x = .ok a ∧ f a = .ok b := by
  cases x with
  | error e => exact ⟨nofun, fun ⟨_, h, _⟩ => nomatch h⟩
  | ok a =>
    constructor
    · intro h
      exact ⟨a, rfl, h⟩
    · rintro ⟨a', ha, h⟩
      obtain rfl := Except.ok.inj ha
      exact h

theorem ok_bind {ε α β : Type} (a : α) (f : α → Except ε β) : (Except.ok a >>= f) = f a := rfl

theorem q_ok {value : ℚ} {a : Fixed p} :
    q C p value = .ok a ↔ C.Fits a ∧ a = Fixed.ofRat value := by
  rw [← Context.quantize_eq_some]
  unfold q
  cases C.quantize p value with
  | none => simp
  | some b => simp

theorem q_exact (value : ℚ) : q .exact p value = .ok (Fixed.ofRat value) := by
  unfold q
  rw [Context.exact_quantize]

theorem divide_ok {a b x : ℚ} : divide C a b = .ok x ↔ b ≠ 0 ∧ x = C.round (a / b) := by
  unfold divide Context.div
  split
  next h => split at h <;> simp_all [eq_comm]
  next h => split at h <;> simp_all

/-- What `calculate_quote` returns, figure by figure. -/
structure Quoted (C : Context) (zarSend rate fixed percentage margin cashout minUsd : ℚ)
    (quote : Quote) : Prop where
  zar : q C 2 zarSend = .ok quote.zarAmount
  rate : q C 6 rate = .ok quote.marketRate
  fee : q C 2 (C.add fixed (C.mul percentage quote.zarAmount.val)) = .ok quote.transactionFee
  exchange : q C 6 (C.mul quote.marketRate.val (C.add 1 margin)) = .ok quote.exchangeRate
  net : q C 2 (C.sub quote.zarAmount.val quote.transactionFee.val) = .ok quote.netZarConverted
  netPos : 0 < quote.netZarConverted.val
  exchangeNe : quote.exchangeRate.val ≠ 0
  uctusd : q C 6 (C.round (quote.netZarConverted.val / quote.exchangeRate.val))
    = .ok quote.uctusdAmount
  uctusdPos : 0 < quote.uctusdAmount.val
  cashoutFee : cashoutFeeUsd C quote.uctusdAmount.val cashout minUsd = .ok quote.cashoutFeeEstimate
  payout : cashoutPayout C quote.uctusdAmount.val quote.cashoutFeeEstimate.val
    quote.marketRate.val quote.payoutCurrency = .ok quote.payoutEstimate
  margin : q C 6 margin = .ok quote.fxMargin

variable {zarSend rate fixed percentage margin cashout minUsd : ℚ}

theorem calculateQuote_ok :
    calculateQuote C zarSend rate fixed percentage margin cashout minUsd currency = .ok quote ↔
      Quoted C zarSend rate fixed percentage margin cashout minUsd quote ∧
        quote.payoutCurrency = currency := by
  unfold calculateQuote
  constructor
  -- figure by figure, as each is computed from the ones before
  · intro h
    obtain ⟨zar, hzar, h⟩ := bind_ok.mp h
    obtain ⟨marketRate, hrate, h⟩ := bind_ok.mp h
    obtain ⟨fee, hfee, h⟩ := bind_ok.mp h
    obtain ⟨exchange, hexchange, h⟩ := bind_ok.mp h
    obtain ⟨net, hnet, h⟩ := bind_ok.mp h
    split at h
    · cases h
    next hpos =>
    obtain ⟨ratio, hratio, h⟩ := bind_ok.mp h
    obtain ⟨hne, rfl⟩ := divide_ok.mp hratio
    obtain ⟨uctusd, huctusd, h⟩ := bind_ok.mp h
    split at h
    · cases h
    next hsome =>
    obtain ⟨cashoutFee, hcashoutFee, h⟩ := bind_ok.mp h
    obtain ⟨payout, hpayout, h⟩ := bind_ok.mp h
    obtain ⟨fxMargin, hmargin, h⟩ := bind_ok.mp h
    obtain rfl := Except.ok.inj h
    exact ⟨⟨hzar, hrate, hfee, hexchange, hnet, not_le.mp hpos, hne, huctusd, not_le.mp hsome,
      hcashoutFee, hpayout, hmargin⟩, rfl⟩
  · rintro ⟨h, rfl⟩
    rw [h.zar, ok_bind, h.rate, ok_bind, h.fee, ok_bind, h.exchange, ok_bind, h.net, ok_bind,
      if_neg (not_le.mpr h.netPos), divide_ok.mpr ⟨h.exchangeNe, rfl⟩, ok_bind, h.uctusd, ok_bind,
      if_neg (not_le.mpr h.uctusdPos), h.cashoutFee, ok_bind, h.payout, ok_bind, h.margin, ok_bind]
    rfl

/-- Of the amount a quote sees what it is quantised to. -/
theorem quoted_again {zarSend' : ℚ} (h : q C 2 zarSend = q C 2 zarSend') :
    Quoted C zarSend rate fixed percentage margin cashout minUsd quote ↔
      Quoted C zarSend' rate fixed percentage margin cashout minUsd quote :=
  ⟨fun hq => { hq with zar := h ▸ hq.zar }, fun hq => { hq with zar := h.symm ▸ hq.zar }⟩

/-- What `price_cashout` returns, figure by figure. -/
structure CashOutPriced (C : Context) (source : RateSource) (config : FeeConfig)
    (amount : Fixed 6) (pricing : CashOutPricing) : Prop where
  same : pricing.uctusdAmount = amount
  rate : getMarketRate C source config = .ok pricing.marketRate
  percentage : pricing.cashoutFeePercentage = config.cashoutFeePercentage
  minUsd : pricing.cashoutFeeMinUsd = config.cashoutFeeMinUsd
  fee : cashoutFeeUsd C amount.val config.cashoutFeePercentage config.cashoutFeeMinUsd
    = .ok pricing.cashoutFeeUsd
  payout : cashoutPayout C amount.val pricing.cashoutFeeUsd.val pricing.marketRate.val
    pricing.targetCurrency = .ok pricing.netPayout
  payoutPos : 0 < pricing.netPayout.val

variable {amount : Fixed 6} {pricing : CashOutPricing}

theorem priceCashout_ok :
    priceCashout C source (some config) amount currency = .ok pricing ↔
      CashOutPriced C source config amount pricing ∧ pricing.targetCurrency = currency := by
  unfold priceCashout
  constructor
  · intro h
    obtain ⟨rate, hrate, h⟩ := bind_ok.mp h
    obtain ⟨fee, hfee, h⟩ := bind_ok.mp h
    obtain ⟨payout, hpayout, h⟩ := bind_ok.mp h
    split at h
    · cases h
    next hpos =>
    obtain rfl := Except.ok.inj h
    exact ⟨⟨rfl, hrate, rfl, rfl, hfee, hpayout, not_le.mp hpos⟩, rfl⟩
  · rintro ⟨h, rfl⟩
    obtain ⟨uctusdAmount, targetCurrency, marketRate, cashoutFeePercentage,
      cashoutFeeMinUsd, feeUsd,
      netPayout⟩ := pricing
    obtain rfl : uctusdAmount = amount := h.same
    obtain rfl : cashoutFeePercentage = config.cashoutFeePercentage := h.percentage
    obtain rfl : cashoutFeeMinUsd = config.cashoutFeeMinUsd := h.minUsd
    show getMarketRate C source config >>= _ = _
    rw [h.rate, ok_bind, h.fee, ok_bind, h.payout, ok_bind, if_neg (not_le.mpr h.payoutPos)]
    rfl

/-! ## §2. Entered amounts. -/

/-- The number that a text denotes, once trimmed and without its commas. -/
def denotes (raw : Text) (v : ℚ) : Prop :=
  ∃ d, ofText (remove ',' (strip raw)) = some d ∧ d.toRat = some v

variable {raw : Text} {a : Fixed 6} {v : ℚ}

theorem denotes_unique {v' : ℚ} (h : denotes raw v) (h' : denotes raw v') : v = v' := by
  obtain ⟨d, hd, hv⟩ := h
  obtain ⟨d', hd', hv'⟩ := h'
  obtain rfl := Option.some.inj (hd.symm.trans hd')
  exact Option.some.inj (hv.symm.trans hv')

/-- A text is accepted exactly as the rounding of the number it denotes, if that is positive and
fits; otherwise it is refused, and never in another way. -/
theorem parseAmount_cases (C : Context) (raw : Text) :
    (∃ v a, denotes raw v ∧ 0 < v ∧ C.quantize 6 v = some a ∧ 0 < a.val ∧
      parseAmount C raw = .ok a) ∨
    (∃ text, parseAmount C raw = .error (.cashOut text)) ∧
      ∀ v a, denotes raw v → 0 < v → C.quantize 6 v = some a → a.val ≤ 0 := by
  unfold parseAmount
  cases hd : ofText (remove ',' (strip raw)) with
  | none =>
    -- not a number
    refine .inr ⟨⟨_, rfl⟩, ?_⟩
    rintro v a ⟨d, hd', -⟩
    rw [hd] at hd'
    cases hd'
  | some d =>
    dsimp only
    cases hv : d.toRat with
    | none =>
      -- NaN or an infinity
      refine .inr ⟨⟨_, rfl⟩, ?_⟩
      rintro v a ⟨d', hd', hv'⟩
      obtain rfl := Option.some.inj (hd.symm.trans hd')
      rw [hv] at hv'
      cases hv'
    | some v =>
      have hdenotes : denotes raw v := ⟨d, hd, hv⟩
      dsimp only
      split
      next hnonpos =>
        -- not positive
        refine .inr ⟨⟨_, rfl⟩, fun v' a h' hpos => ?_⟩
        obtain rfl := denotes_unique hdenotes h'
        exact absurd hpos (not_lt.mpr hnonpos)
      next hpos =>
        cases ha : C.quantize 6 v with
        | none =>
          -- `quantize` raises: more digits than the context has
          refine .inr ⟨⟨_, rfl⟩, fun v' a h' _ ha' => ?_⟩
          obtain rfl := denotes_unique hdenotes h'
          rw [ha] at ha'
          cases ha'
        | some a =>
          dsimp only
          split
          next hsmall =>
            -- rounded away
            refine .inr ⟨⟨_, rfl⟩, fun v' a' h' _ ha' => ?_⟩
            obtain rfl := denotes_unique hdenotes h'
            obtain rfl := Option.some.inj (ha.symm.trans ha')
            exact hsmall
          next hbig => exact .inl ⟨v, a, hdenotes, not_le.mp hpos, ha, not_le.mp hbig, rfl⟩

/-- An amount that has been quantised is entered again as it was printed. -/
theorem parseAmount_read {raw : Text} (h : ofText (remove ',' (strip raw)) = some (ofFixed a))
    (ha : C.Fits a) (hpos : 0 < a.val) : parseAmount C raw = .ok a := by
  have hq := Context.quantize_val ha
  rcases parseAmount_cases C raw with ⟨v, b, hv, -, hb, -, hok⟩ | ⟨-, hrefused⟩
  · obtain rfl := denotes_unique hv ⟨_, h, toRat_ofFixed a⟩
    obtain rfl := Option.some.inj (hb.symm.trans hq)
    exact hok
  · exact absurd hpos (not_lt.mpr (hrefused _ _ ⟨_, h, toRat_ofFixed a⟩ hpos hq))

theorem parseAmount_str (ha : Context.standard.Fits a) (hpos : 0 < a.val) :
    parseAmount .standard (str a) = .ok a := by
  refine parseAmount_read ?_ ha hpos
  rw [strip_str (by decide) (by decide), remove_str (by decide) (by decide)]
  exact ofText_str (by decide) (by decide) ha

theorem uctusd_ofFixed (ha : C.Fits a) (hpos : 0 < a.val) : uctusd C (ofFixed a) = .ok a := by
  unfold uctusd
  have hq : (ofFixed a).toRat.bind (C.quantize 6) = some a := by
    rw [toRat_ofFixed, Option.bind_some, Context.quantize_val ha]
  split
  next hnan =>
    cases hnan
  next =>
    rw [hq]
    exact if_neg (not_le.mpr hpos)

/-- **ENTERED AMOUNTS**: every text is either refused with a CashOutError, and then it denotes no
number that is positive, rounds to a millionth at least and fits the precision; or it is read as
the half-up rounding of the number it denotes, which is positive, is entered again as it is
printed, and can be put on the ledger. -/
theorem parse_amount_total (raw : Text) :
    ((∃ text, parseAmount .standard raw = .error (.cashOut text)) ∧
      ∀ v, denotes raw v → 0 < v → Context.standard.Fits (Fixed.ofRat v : Fixed 6) →
        ¬ 1 / 10 ^ 6 ≤ (Fixed.ofRat v : Fixed 6).val) ∨
    ∃ a : Fixed 6, parseAmount .standard raw = .ok a ∧ 0 < a.val ∧
      (∃ v, denotes raw v ∧ a = Fixed.ofRat v) ∧
      parseAmount .standard (str a) = .ok a ∧ uctusd .standard (ofFixed a) = .ok a := by
  rcases parseAmount_cases .standard raw with ⟨v, a, hv, -, ha, hpos, hok⟩ | ⟨herror, hrefused⟩
  · obtain ⟨hfits, rfl⟩ := Context.quantize_eq_some.mp ha
    exact .inr ⟨_, hok, hpos, ⟨v, hv, rfl⟩, parseAmount_str hfits hpos, uctusd_ofFixed hfits hpos⟩
  · refine .inl ⟨herror, fun v hv hpos hfits hbig => ?_⟩
    have hle := hrefused v _ hv hpos (Context.quantize_eq_some.mpr ⟨hfits, rfl⟩)
    have : (0 : ℚ) < 1 / 10 ^ 6 := by norm_num
    linarith

example : parseAmount .standard " 1,0.0000005 ".toList = .ok ⟨10000001⟩ := by decide +kernel

/-! ## §3. The estimate and the payout. -/

/-- **THE SENDER'S ESTIMATE IS THE RECIPIENT'S PAYOUT**: the amount of a quote, entered as it is
printed, with or without thousands separators, is read as that amount; under the same
configuration and rate it is priced with the fee and the payout of the estimate, or refused
where the estimate is not positive. -/
theorem estimate_is_payout {zarSend rate : ℚ}
    (hrate : getMarketRate .standard source config = q .standard 6 rate)
    (h : calculateQuote .standard zarSend rate config.fixedFeeZar config.percentageFee
      config.fxMargin config.cashoutFeePercentage config.cashoutFeeMinUsd currency = .ok quote) :
    quote.payoutCurrency = currency ∧
    parseAmount .standard (str quote.uctusdAmount) = .ok quote.uctusdAmount ∧
    parseAmount .standard (formatFixed 6 quote.uctusdAmount.units).toList
      = .ok quote.uctusdAmount ∧
    (0 < quote.payoutEstimate.val →
      priceCashout .standard source (some config) quote.uctusdAmount quote.payoutCurrency = .ok
        { uctusdAmount := quote.uctusdAmount
          targetCurrency := quote.payoutCurrency
          marketRate := quote.marketRate
          cashoutFeePercentage := config.cashoutFeePercentage
          cashoutFeeMinUsd := config.cashoutFeeMinUsd
          cashoutFeeUsd := quote.cashoutFeeEstimate
          netPayout := quote.payoutEstimate }) ∧
    (quote.payoutEstimate.val ≤ 0 → ∃ text,
      priceCashout .standard source (some config) quote.uctusdAmount quote.payoutCurrency
        = .error (.cashOut text)) := by
  obtain ⟨hq, hcurrency⟩ := calculateQuote_ok.mp h
  have hfits := (q_ok.mp hq.uctusd).1
  refine ⟨hcurrency, parseAmount_str hfits hq.uctusdPos,
    parseAmount_read (ofText_formatFixed (by decide) _ (by decide) hfits) hfits hq.uctusdPos,
    fun hpos => ?_, fun hneg => ?_⟩
  -- the figures of the quote are those `price_cashout` computes, one by one
  · exact priceCashout_ok.mpr
      ⟨⟨rfl, hrate.trans hq.rate, rfl, rfl, hq.cashoutFee, hq.payout, hpos⟩, rfl⟩
  · show ∃ text, getMarketRate .standard source config >>= _ = _
    rw [hrate.trans hq.rate, ok_bind, hq.cashoutFee, ok_bind, hq.payout, ok_bind, if_pos hneg]
    exact ⟨_, rfl⟩

theorem exists_ok {ε α : Type} {x : Except ε α} (h : x.toOption.isSome = true) :
    ∃ a, x = .ok a := by
  cases x with
  | error e => cases h
  | ok a => exact ⟨a, rfl⟩

/-- The worked example, to a payout in rand. -/
theorem estimate_is_payout_seeded : ∃ quote : Quote,
    calculateQuote .standard 1000 (37 / 2) FeeConfig.seeded.fixedFeeZar
      FeeConfig.seeded.percentageFee
      FeeConfig.seeded.fxMargin FeeConfig.seeded.cashoutFeePercentage
      FeeConfig.seeded.cashoutFeeMinUsd .ZAR = .ok quote ∧
    quote.payoutCurrency = .ZAR ∧
    parseAmount .standard (str quote.uctusdAmount) = .ok quote.uctusdAmount := by
  obtain ⟨quote, hquote⟩ := exists_ok (x := calculateQuote .standard 1000 (37 / 2)
    FeeConfig.seeded.fixedFeeZar FeeConfig.seeded.percentageFee FeeConfig.seeded.fxMargin
    FeeConfig.seeded.cashoutFeePercentage FeeConfig.seeded.cashoutFeeMinUsd .ZAR)
      (by decide +kernel)
  have hrate : getMarketRate .standard .config .seeded = q .standard 6 (37 / 2) := by
    decide +kernel
  have hall := estimate_is_payout hrate hquote
  exact ⟨quote, hquote, hall.1, hall.2.1⟩

/-! ## §4. Money accounting. -/

/-- The figures of a quote add up. -/
structure QuoteAccounts (rate : ℚ) (quote : Quote) : Prop where
  sum : quote.transactionFee.val + quote.netZarConverted.val = quote.zarAmount.val
  netPos : 0 < quote.netZarConverted.val
  uctusdPos : 0 < quote.uctusdAmount.val
  exchange : rate ≤ quote.exchangeRate.val
  converted : 2 * |quote.uctusdAmount.val * quote.exchangeRate.val - quote.netZarConverted.val|
    ≤ quote.exchangeRate.val * (1 / 10 ^ 6)

/-- The figures of a cash-out add up. -/
structure PayoutAccounts (config : FeeConfig) (pricing : CashOutPricing) : Prop where
  payoutPos : 0 < pricing.netPayout.val
  minimum : (Fixed.ofRat config.cashoutFeeMinUsd : Fixed 6).val ≤ pricing.cashoutFeeUsd.val
  below : pricing.cashoutFeeUsd.val < pricing.uctusdAmount.val
  usd : pricing.targetCurrency = .USD →
    pricing.cashoutFeeUsd.val + pricing.netPayout.val = pricing.uctusdAmount.val
  zar : pricing.targetCurrency = .ZAR →
    2 * |pricing.netPayout.val
      - (pricing.uctusdAmount.val - pricing.cashoutFeeUsd.val) * pricing.marketRate.val| ≤ 1 / 100

theorem ofRat_of_q {value : ℚ} {a : Fixed p} (h : q .exact p value = .ok a) :
    a = Fixed.ofRat value := (q_ok.mp h).2

/-- The effective rate is not below the market rate. -/
theorem rate_le_exchange {rate : Fixed 6} (hrate : 0 ≤ rate.val) (hmargin : 0 ≤ margin) :
    rate.val ≤ (Fixed.ofRat (rate.val * (1 + margin)) : Fixed 6).val :=
  Fixed.le_ofRat (by nlinarith)

theorem Quoted.accounts {rate : Fixed 6} (hrate : 0 < rate.val) (hmargin : 0 ≤ margin)
    (h : Quoted .exact zarSend rate.val fixed percentage margin cashout minUsd quote) :
    QuoteAccounts rate.val quote := by
  have hmarket : quote.marketRate = rate := (ofRat_of_q h.rate).trans (Fixed.ofRat_val rate)
  have hexchange : rate.val ≤ quote.exchangeRate.val := by
    rw [ofRat_of_q h.exchange, hmarket]
    exact rate_le_exchange hrate.le hmargin
  have hpos : 0 < quote.exchangeRate.val := hrate.trans_le hexchange
  have hnet : quote.netZarConverted.val = quote.zarAmount.val - quote.transactionFee.val := by
    rw [ofRat_of_q h.net]
    exact Fixed.ofRat_sub _ _
  refine ⟨by rw [hnet]; ring, h.netPos, h.uctusdPos, hexchange, ?_⟩
  -- the amount is off by half a millionth, and so by half that share of the rate once converted
  have hround := Fixed.abs_sub_ofRat_le (p := 6)
    (quote.netZarConverted.val / quote.exchangeRate.val)
  have huctusd : quote.uctusdAmount
      = Fixed.ofRat (quote.netZarConverted.val / quote.exchangeRate.val) := ofRat_of_q h.uctusd
  rw [← huctusd, abs_sub_comm] at hround
  calc 2 * |quote.uctusdAmount.val * quote.exchangeRate.val - quote.netZarConverted.val|
      = quote.exchangeRate.val * (2 * |quote.uctusdAmount.val
          - quote.netZarConverted.val / quote.exchangeRate.val|) := by
        have hsplit : quote.uctusdAmount.val * quote.exchangeRate.val - quote.netZarConverted.val
            = (quote.uctusdAmount.val - quote.netZarConverted.val / quote.exchangeRate.val)
              * quote.exchangeRate.val := by
          field_simp
        rw [hsplit, abs_mul, abs_of_pos hpos]
        ring
    _ ≤ quote.exchangeRate.val * (1 / 10 ^ 6) := mul_le_mul_of_nonneg_left hround hpos.le

theorem CashOutPriced.accounts (h : CashOutPriced .exact source config amount pricing)
    (hrate : 0 < pricing.marketRate.val) : PayoutAccounts config pricing := by
  obtain ⟨uctusdAmount, targetCurrency, marketRate, cashoutFeePercentage, cashoutFeeMinUsd, feeUsd,
    netPayout⟩ := pricing
  obtain rfl : uctusdAmount = amount := h.same
  have hfee : feeUsd = Fixed.ofRat
      (max (config.cashoutFeePercentage * uctusdAmount.val) config.cashoutFeeMinUsd) :=
    ofRat_of_q h.fee
  -- the fee is the larger of share and floor, and rounding keeps the order
  have hmin : (Fixed.ofRat config.cashoutFeeMinUsd : Fixed 6).val ≤ feeUsd.val := by
    rw [hfee]
    exact Fixed.ofRat_mono (le_max_right _ _)
  have hpos : 0 < netPayout.val := h.payoutPos
  cases targetCurrency with
  | USD =>
    have hpayout : netPayout = Fixed.ofRat (uctusdAmount.val - feeUsd.val) := ofRat_of_q h.payout
    -- a difference of whole units is rounded to itself
    have hval : netPayout.val = uctusdAmount.val - feeUsd.val := by
      rw [hpayout]
      exact Fixed.ofRat_sub _ _
    refine ⟨hpos, hmin, ?_, fun _ => ?_, nofun⟩
    · show feeUsd.val < uctusdAmount.val
      linarith
    · show feeUsd.val + netPayout.val = uctusdAmount.val
      linarith
  | ZAR =>
    have hpayout : netPayout = Fixed.ofRat ((uctusdAmount.val - feeUsd.val) * marketRate.val) :=
      ofRat_of_q h.payout
    refine ⟨hpos, hmin, ?_, nofun, fun _ => ?_⟩
    · rw [hpayout] at hpos
      have := pos_of_mul_pos_left (Fixed.pos_of_ofRat_pos hpos) hrate.le
      show feeUsd.val < uctusdAmount.val
      linarith
    · show 2 * |netPayout.val - (uctusdAmount.val - feeUsd.val) * marketRate.val| ≤ 1 / 100
      rw [hpayout, abs_sub_comm]
      exact (Fixed.abs_sub_ofRat_le (p := 2) _).trans (by norm_num)

/-- The fee of a send, and what is left of it once converted. -/
def feeOf (config : FeeConfig) (zar : Fixed 2) : Fixed 2 :=
  Fixed.ofRat (config.fixedFeeZar + config.percentageFee * zar.val)

def convertedOf (config : FeeConfig) (rate : Fixed 6) (zar : Fixed 2) : Fixed 6 :=
  Fixed.ofRat ((zar.val - (feeOf config zar).val)
    / (Fixed.ofRat (rate.val * (1 + config.fxMargin)) : Fixed 6).val)

theorem payout_exact (x fee rate : ℚ) (currency : PayoutCurrency) :
    ∃ payout, cashoutPayout .exact x fee rate currency = .ok payout := by
  cases currency with
  | USD => exact ⟨_, q_exact _⟩
  | ZAR => exact ⟨_, q_exact _⟩

/-- In exact arithmetic nothing but the size of the amount stops a quote. -/
theorem calculateQuote_refuses {config : NonnegFeeConfig} {rate : Fixed 6} (hrate : 0 < rate.val)
    (zarSend : ℚ) :
    (∃ text, calculateQuote .exact zarSend rate.val config.fixedFeeZar config.percentageFee
      config.fxMargin config.cashoutFeePercentage config.cashoutFeeMinUsd currency
        = .error (.amountTooSmall text)) ↔
      (Fixed.ofRat zarSend : Fixed 2).val ≤ (feeOf config (Fixed.ofRat zarSend)).val ∨
        (convertedOf config rate (Fixed.ofRat zarSend)).val = 0 := by
  have hexchange : 0 < (Fixed.ofRat (rate.val * (1 + config.fxMargin)) : Fixed 6).val :=
    hrate.trans_le (rate_le_exchange hrate.le config.nonneg.fxMargin)
  have hnet : ∀ zar fee : Fixed 2,
      (Fixed.ofRat (zar.val - fee.val) : Fixed 2).val = zar.val - fee.val :=
    Fixed.ofRat_sub
  unfold calculateQuote convertedOf feeOf
  simp only [q_exact, ok_bind, Fixed.ofRat_val, Context.exact_add, Context.exact_mul,
    Context.exact_sub, hnet]
  generalize (Fixed.ofRat zarSend : Fixed 2) = zar
  generalize (Fixed.ofRat (config.fixedFeeZar + config.percentageFee * zar.val) : Fixed 2) = fee
  by_cases hfee : zar.val - fee.val ≤ 0
  · rw [if_pos hfee]
    exact ⟨fun _ => .inl (by linarith), fun _ => ⟨_, rfl⟩⟩
  -- something is left; then only its rounding away refuses it
  · rw [if_neg hfee, divide_ok.mpr ⟨hexchange.ne', rfl⟩, ok_bind, Context.exact_round]
    have hround : 0 ≤ (Fixed.ofRat ((zar.val - fee.val)
        / (Fixed.ofRat (rate.val * (1 + config.fxMargin)) : Fixed 6).val) : Fixed 6).val :=
      Fixed.ofRat_nonneg (div_nonneg (by linarith) hexchange.le)
    show (∃ text, (if (Fixed.ofRat _ : Fixed 6).val ≤ 0 then _ else _) = _) ↔ _
    by_cases hsmall : (Fixed.ofRat ((zar.val - fee.val)
        / (Fixed.ofRat (rate.val * (1 + config.fxMargin)) : Fixed 6).val) : Fixed 6).val = 0
    · exact ⟨fun _ => .inr hsmall, fun _ => ⟨_, if_pos hsmall.le⟩⟩
    · constructor
      -- past the two checks every figure is computed, and none of them raises
      · rintro ⟨text, htext⟩
        rw [if_neg (fun hle => hsmall (le_antisymm hle hround))] at htext
        unfold cashoutFeeUsd at htext
        rw [q_exact, ok_bind] at htext
        obtain ⟨payout, hpayout⟩ := payout_exact _ _ _ _
        rw [hpayout] at htext
        cases htext
      · rintro (hle | hzero)
        · exact absurd (by linarith) hfee
        · exact absurd hzero hsmall

/-- **MONEY ACCOUNTING**, in exact arithmetic and at any positive rate: what a quote and a
cash-out are priced with adds up, and a send that its fee consumes, or that rounds to nothing,
is refused as too small. -/
theorem money_accounted {config : NonnegFeeConfig} {rate : Fixed 6}
    (hsource : getMarketRate .exact source config = .ok rate) (hrate : 0 < rate.val) :
    (∀ zarSend currency quote, calculateQuote .exact zarSend rate.val config.fixedFeeZar
      config.percentageFee config.fxMargin config.cashoutFeePercentage config.cashoutFeeMinUsd
      currency = .ok quote → QuoteAccounts rate.val quote) ∧
    (∀ zarSend currency, (∃ text, calculateQuote .exact zarSend rate.val config.fixedFeeZar
      config.percentageFee config.fxMargin config.cashoutFeePercentage config.cashoutFeeMinUsd
      currency = .error (.amountTooSmall text)) ↔
        (Fixed.ofRat zarSend : Fixed 2).val ≤ (feeOf config (Fixed.ofRat zarSend)).val ∨
          (convertedOf config rate (Fixed.ofRat zarSend)).val = 0) ∧
    ∀ amount currency pricing, priceCashout .exact source (some (config : FeeConfig))
      amount currency
        = .ok pricing →
      pricing.uctusdAmount = amount ∧ pricing.targetCurrency = currency ∧
        pricing.marketRate = rate ∧ PayoutAccounts config pricing := by
  refine ⟨fun zarSend currency quote h => ?_, fun zarSend currency => ?_,
    fun amount currency pricing h => ?_⟩
  · exact (calculateQuote_ok.mp h).1.accounts hrate config.nonneg.fxMargin
  · exact calculateQuote_refuses hrate zarSend
  · obtain ⟨hp, hcurrency⟩ := priceCashout_ok.mp h
    have hsame : pricing.marketRate = rate := Except.ok.inj (hp.rate.symm.trans hsource)
    exact ⟨hp.same, hcurrency, hsame, hp.accounts (hsame ▸ hrate)⟩

theorem money_accounted_seeded : ∃ quote : Quote,
    calculateQuote .exact 1000 (⟨18500000⟩ : Fixed 6).val FeeConfig.seeded.fixedFeeZar
      FeeConfig.seeded.percentageFee FeeConfig.seeded.fxMargin
      FeeConfig.seeded.cashoutFeePercentage FeeConfig.seeded.cashoutFeeMinUsd .ZAR = .ok quote ∧
    QuoteAccounts (⟨18500000⟩ : Fixed 6).val quote := by
  obtain ⟨quote, hquote⟩ := exists_ok (x := calculateQuote .exact 1000 (⟨18500000⟩ : Fixed 6).val
    FeeConfig.seeded.fixedFeeZar FeeConfig.seeded.percentageFee FeeConfig.seeded.fxMargin
    FeeConfig.seeded.cashoutFeePercentage FeeConfig.seeded.cashoutFeeMinUsd .ZAR)
      (by decide +kernel)
  have hrate : getMarketRate .exact .config NonnegFeeConfig.seeded = .ok ⟨18500000⟩ := by
    decide +kernel
  have hall := money_accounted hrate (by decide +kernel)
  exact ⟨quote, hquote, hall.1 1000 .ZAR quote hquote⟩

/-! ## §5. Monotone prices. -/

/-- What a fee of slope one at most leaves grows with the amount. -/
theorem rest_mono {a b : Fixed p} {f g : ℚ} (hab : a.val ≤ b.val) (hf : 0 ≤ f)
    (hstep : g - f ≤ b.val - a.val) :
    a.val - (Fixed.ofRat f : Fixed p).val ≤ b.val - (Fixed.ofRat g : Fixed p).val := by
  have := Fixed.ofRat_step hf hab hstep
  linarith

/-- A share of more than one leaves nothing. -/
theorem share_le_one {a : Fixed p} {x f : ℚ} (ha : 0 ≤ a.val) (hf : x * a.val ≤ f)
    (hrest : (Fixed.ofRat f : Fixed p).val < a.val) : x ≤ 1 := by
  by_contra hx
  have hle : a.val ≤ f := le_trans (by nlinarith) hf
  exact absurd (Fixed.le_ofRat hle) (not_le.mpr hrest)

theorem send_rest_mono {config : NonnegFeeConfig} {a b : Fixed 2} (ha : 0 ≤ a.val)
    (hab : a.val ≤ b.val) (hrest : (feeOf config a).val < a.val) :
    a.val - (feeOf config a).val ≤ b.val - (feeOf config b).val ∧
      (feeOf config a).val ≤ (feeOf config b).val := by
  have hfixed := config.nonneg.fixedFeeZar
  have hshare := config.nonneg.percentageFee
  have hone : config.percentageFee ≤ 1 := share_le_one ha (by linarith) hrest
  constructor
  · exact rest_mono hab (add_nonneg hfixed (mul_nonneg hshare ha)) (by nlinarith)
  · exact Fixed.ofRat_mono (by nlinarith)

theorem cashout_rest_mono {a b : Fixed 6} {share floor : ℚ} (hfloor : 0 ≤ floor)
    (hab : a.val ≤ b.val)
    (hrest : (Fixed.ofRat (max (share * a.val) floor) : Fixed 6).val < a.val) :
    a.val - (Fixed.ofRat (max (share * a.val) floor) : Fixed 6).val
      ≤ b.val - (Fixed.ofRat (max (share * b.val) floor) : Fixed 6).val := by
  have hf : 0 ≤ max (share * a.val) floor := le_max_of_le_right hfloor
  have ha : 0 ≤ a.val := (Fixed.ofRat_nonneg hf).trans hrest.le
  have hone : share ≤ 1 := share_le_one ha (le_max_left _ _) hrest
  refine rest_mono hab hf ?_
  have hgrow : share * b.val ≤ max (share * a.val) floor + (b.val - a.val) := by
    have := le_max_left (share * a.val) floor
    nlinarith
  have hflat : floor ≤ max (share * a.val) floor + (b.val - a.val) := by
    have := le_max_right (share * a.val) floor
    linarith
  have := max_le hgrow hflat
  linarith

theorem quoteFor_ok {zarSend : ℚ} :
    quoteFor C source (some config) zarSend currency = .ok quote ↔
      ∃ minimum asked rate, q C 2 config.minSendZar = .ok minimum ∧ q C 2 zarSend = .ok asked ∧
        minimum.val ≤ asked.val ∧ getMarketRate C source config = .ok rate ∧
        calculateQuote C zarSend rate.val config.fixedFeeZar config.percentageFee config.fxMargin
          config.cashoutFeePercentage config.cashoutFeeMinUsd currency = .ok quote := by
  unfold quoteFor
  constructor
  · intro h
    obtain ⟨minimum, hminimum, h⟩ := bind_ok.mp h
    obtain ⟨asked, hasked, h⟩ := bind_ok.mp h
    split at h
    · cases h
    next hle =>
    obtain ⟨rate, hrate, h⟩ := bind_ok.mp h
    exact ⟨minimum, asked, rate, hminimum, hasked, not_lt.mp hle, hrate, h⟩
  · rintro ⟨minimum, asked, rate, hminimum, hasked, hle, hrate, h⟩
    show q C 2 config.minSendZar >>= _ = _
    rw [hminimum, ok_bind, hasked, ok_bind, if_neg (not_lt.mpr hle), hrate, ok_bind]
    exact h

/-- In exact arithmetic a send is quoted once it is not below the minimum, something is left of
it, and that does not round away. -/
theorem quoteFor_accepts (currency : PayoutCurrency) {zarSend : ℚ} {minimum zar : Fixed 2}
    {rate exchange : Fixed 6}
    (hminimum : q .exact 2 config.minSendZar = .ok minimum) (hzar : q .exact 2 zarSend = .ok zar)
    (hle : minimum.val ≤ zar.val) (hrate : getMarketRate .exact source config = .ok rate)
    (hexchange : q .exact 6 (rate.val * (1 + config.fxMargin)) = .ok exchange)
    (hpos : 0 < exchange.val) (hrest : (feeOf config zar).val < zar.val)
    (hsome : 0 < (Fixed.ofRat ((zar.val - (feeOf config zar).val) / exchange.val) : Fixed 6).val) :
    ∃ quote, quoteFor .exact source (some config) zarSend currency = .ok quote ∧
      quote.transactionFee = feeOf config zar ∧
      quote.netZarConverted.val = zar.val - (feeOf config zar).val ∧
      quote.uctusdAmount = Fixed.ofRat ((zar.val - (feeOf config zar).val) / exchange.val) := by
  obtain ⟨uctusd, huctusd⟩ : ∃ uctusd : Fixed 6,
    uctusd = Fixed.ofRat ((zar.val - (feeOf config zar).val) / exchange.val) := ⟨_, rfl⟩
  obtain ⟨net, hnet⟩ : ∃ net : Fixed 2, net = Fixed.ofRat (zar.val - (feeOf config zar).val) :=
    ⟨_, rfl⟩
  have hnetVal : net.val = zar.val - (feeOf config zar).val := by
    rw [hnet]
    exact Fixed.ofRat_sub _ _
  obtain ⟨margin, hmargin⟩ : ∃ margin, q .exact 6 config.fxMargin = .ok margin := ⟨_, q_exact _⟩
  obtain ⟨fee, hfee⟩ : ∃ fee, cashoutFeeUsd .exact uctusd.val config.cashoutFeePercentage
    config.cashoutFeeMinUsd = .ok fee := ⟨_, q_exact _⟩
  obtain ⟨payout, hpayout⟩ := payout_exact uctusd.val fee.val rate.val currency
  refine ⟨⟨zar, feeOf config zar, net, rate, margin, exchange, uctusd, fee, currency, payout⟩,
    quoteFor_ok.mpr ⟨minimum, zar, rate, hminimum, hzar, hle, hrate,
      calculateQuote_ok.mpr ⟨?_, rfl⟩⟩, rfl, hnetVal, huctusd⟩
  refine ⟨hzar, (q_exact _).trans (congrArg _ (Fixed.ofRat_val rate)), q_exact _, hexchange, ?_, ?_,
    hpos.ne', ?_, ?_, hfee, hpayout, hmargin⟩
  -- the net, which no rounding changes
  · show q .exact 2 (zar.val - (feeOf config zar).val) = .ok net
    rw [hnet]
    exact q_exact _
  · show 0 < net.val
    rw [hnetVal]
    linarith
  · show q .exact 6 (net.val / exchange.val) = .ok uctusd
    rw [hnetVal, huctusd]
    exact q_exact _
  · show 0 < uctusd.val
    rw [huctusd]
    exact hsome

/-- Sending more is accepted too, and converts to no less. -/
theorem quote_mono {config : NonnegFeeConfig} {z₁ z₂ : ℚ} {quote₁ : Quote} (hz : z₁ ≤ z₂)
    (h : quoteFor .exact source (some (config : FeeConfig)) z₁ currency = .ok quote₁) :
    ∃ quote₂, quoteFor .exact source (some (config : FeeConfig)) z₂ currency = .ok quote₂ ∧
      quote₁.uctusdAmount.val ≤ quote₂.uctusdAmount.val ∧
      quote₁.netZarConverted.val ≤ quote₂.netZarConverted.val ∧
      quote₁.transactionFee.val ≤ quote₂.transactionFee.val := by
  obtain ⟨minimum, zar₁, rate, hminimum, hzar₁, hle, hrate, hcalc⟩ := quoteFor_ok.mp h
  obtain ⟨hq, -⟩ := calculateQuote_ok.mp hcalc
  obtain rfl := Except.ok.inj (hzar₁.symm.trans hq.zar)
  obtain ⟨zar₂, hzar₂⟩ : ∃ zar₂, q .exact 2 z₂ = .ok zar₂ := ⟨_, q_exact _⟩
  have hmarket : quote₁.marketRate = rate := (ofRat_of_q hq.rate).trans (Fixed.ofRat_val rate)
  have hgrows : quote₁.zarAmount.val ≤ zar₂.val := by
    rw [ofRat_of_q hzar₁, ofRat_of_q hzar₂]
    exact Fixed.ofRat_mono hz
  have hnonneg : 0 ≤ quote₁.zarAmount.val := by
    refine le_trans ?_ hle
    rw [ofRat_of_q hminimum]
    exact Fixed.ofRat_nonneg config.nonneg.minSendZar
  have hfee : quote₁.transactionFee = feeOf config quote₁.zarAmount := ofRat_of_q hq.fee
  have hnet : quote₁.netZarConverted.val
      = quote₁.zarAmount.val - (feeOf config quote₁.zarAmount).val := by
    rw [ofRat_of_q hq.net, ← hfee]
    exact Fixed.ofRat_sub _ _
  have hrest : (feeOf config quote₁.zarAmount).val < quote₁.zarAmount.val := by
    have := hq.netPos
    linarith
  obtain ⟨hmore, hfees⟩ := send_rest_mono hnonneg hgrows hrest
  have huctusd : quote₁.uctusdAmount
      = Fixed.ofRat (quote₁.netZarConverted.val / quote₁.exchangeRate.val) := ofRat_of_q hq.uctusd
  -- the rate is positive, since what it converts to is
  have hpos : 0 < quote₁.exchangeRate.val := by
    have hsome := hq.uctusdPos
    rw [huctusd] at hsome
    exact (div_pos_iff_of_pos_left hq.netPos).mp (Fixed.pos_of_ofRat_pos hsome)
  have hconverted : quote₁.uctusdAmount.val ≤ (Fixed.ofRat
      ((zar₂.val - (feeOf config zar₂).val) / quote₁.exchangeRate.val) : Fixed 6).val := by
    rw [huctusd, hnet]
    exact Fixed.ofRat_mono (div_le_div_of_nonneg_right hmore hpos.le)
  have hexchange : q .exact 6 (rate.val * (1 + config.fxMargin)) = .ok quote₁.exchangeRate := by
    rw [← hmarket]
    exact hq.exchange
  obtain ⟨quote₂, hquote₂, hfee₂, hnet₂, huctusd₂⟩ := quoteFor_accepts currency
    hminimum hzar₂ (hle.trans hgrows) hrate hexchange hpos (by linarith)
    (hq.uctusdPos.trans_le hconverted)
  refine ⟨quote₂, hquote₂, ?_, ?_, ?_⟩
  · rw [huctusd₂]
    exact hconverted
  · rw [hnet, hnet₂]
    exact hmore
  · rw [hfee, hfee₂]
    exact hfees

/-- More of it pays no less. -/
theorem payout_mono {x fee x' fee' rate : ℚ} {payout payout' : Fixed (places currency)}
    (hrate : 0 ≤ rate) (hrest : x - fee ≤ x' - fee')
    (h : cashoutPayout .exact x fee rate currency = .ok payout)
    (h' : cashoutPayout .exact x' fee' rate currency = .ok payout') : payout.val ≤ payout'.val := by
  cases currency with
  | USD =>
    rw [ofRat_of_q h, ofRat_of_q h']
    exact Fixed.ofRat_mono hrest
  | ZAR =>
    rw [ofRat_of_q h, ofRat_of_q h']
    exact Fixed.ofRat_mono (mul_le_mul_of_nonneg_right hrest hrate)

/-- Cashing out more is accepted too, and pays no less. -/
theorem cashout_mono {config : NonnegFeeConfig} {a₁ a₂ : Fixed 6} {pricing₁ : CashOutPricing}
    {rate : Fixed 6} (hrate : getMarketRate .exact source config = .ok rate) (hpos : 0 < rate.val)
    (ha : a₁.val ≤ a₂.val)
    (h : priceCashout .exact source (some (config : FeeConfig)) a₁ currency = .ok pricing₁) :
    ∃ pricing₂, priceCashout .exact source (some (config : FeeConfig)) a₂ currency = .ok pricing₂ ∧
      pricing₁.netPayout.val ≤ pricing₂.netPayout.val := by
  obtain ⟨hp, hcurrency⟩ := priceCashout_ok.mp h
  obtain ⟨uctusdAmount, targetCurrency, marketRate, cashoutFeePercentage, cashoutFeeMinUsd, feeUsd,
    netPayout⟩ := pricing₁
  obtain rfl : targetCurrency = currency := hcurrency
  obtain rfl : uctusdAmount = a₁ := hp.same
  obtain rfl : marketRate = rate := Except.ok.inj (hp.rate.symm.trans hrate)
  have hfee : feeUsd = Fixed.ofRat
      (max (config.cashoutFeePercentage * uctusdAmount.val) config.cashoutFeeMinUsd) :=
    ofRat_of_q hp.fee
  have hbelow : feeUsd.val < uctusdAmount.val := (hp.accounts hpos).below
  obtain ⟨fee₂, hfee₂⟩ : ∃ fee₂, cashoutFeeUsd .exact a₂.val config.cashoutFeePercentage
    config.cashoutFeeMinUsd = .ok fee₂ := ⟨_, q_exact _⟩
  -- what the fee leaves does not shrink, since the fee grows by less than the amount
  have hrest : uctusdAmount.val - feeUsd.val ≤ a₂.val - fee₂.val := by
    rw [hfee] at hbelow ⊢
    rw [ofRat_of_q hfee₂]
    exact cashout_rest_mono config.nonneg.cashoutFeeMinUsd ha hbelow
  obtain ⟨payout, hpayout⟩ := payout_exact a₂.val fee₂.val marketRate.val targetCurrency
  have hmore : netPayout.val ≤ payout.val := payout_mono hpos.le hrest hp.payout hpayout
  refine ⟨⟨a₂, targetCurrency, marketRate, config.cashoutFeePercentage,
    config.cashoutFeeMinUsd, fee₂,
    payout⟩, priceCashout_ok.mpr ⟨⟨rfl, hrate, rfl, rfl, hfee₂, hpayout, ?_⟩, rfl⟩, hmore⟩
  exact hp.payoutPos.trans_le hmore

/-- **PRICES ARE MONOTONE, AND ACCEPTANCE IS UPWARD CLOSED**, in exact arithmetic and at any
positive rate, for sends and for cash-outs. -/
theorem pricing_monotone {config : NonnegFeeConfig} {rate : Fixed 6}
    (hrate : getMarketRate .exact source config = .ok rate) (hpos : 0 < rate.val) :
    (∀ z₁ z₂ currency quote₁, z₁ ≤ z₂ →
      quoteFor .exact source (some (config : FeeConfig)) z₁ currency = .ok quote₁ →
      ∃ quote₂, quoteFor .exact source (some (config : FeeConfig)) z₂ currency = .ok quote₂ ∧
        quote₁.uctusdAmount.val ≤ quote₂.uctusdAmount.val ∧
        quote₁.netZarConverted.val ≤ quote₂.netZarConverted.val ∧
        quote₁.transactionFee.val ≤ quote₂.transactionFee.val) ∧
    ∀ (a₁ a₂ : Fixed 6) currency pricing₁, a₁.val ≤ a₂.val →
      priceCashout .exact source (some (config : FeeConfig)) a₁ currency = .ok pricing₁ →
      ∃ pricing₂, priceCashout .exact source (some (config : FeeConfig)) a₂ currency
          = .ok pricing₂ ∧
        pricing₁.netPayout.val ≤ pricing₂.netPayout.val := by
  constructor
  · intro z₁ z₂ currency quote₁ hz h
    exact quote_mono hz h
  · intro a₁ a₂ currency pricing₁ ha h
    exact cashout_mono hrate hpos ha h

theorem pricing_monotone_seeded : ∃ quote₁ quote₂ : Quote,
    quoteFor .exact .config (some .seeded) 1000 .ZAR = .ok quote₁ ∧
    quoteFor .exact .config (some .seeded) 2000 .ZAR = .ok quote₂ ∧
    quote₁.uctusdAmount.val ≤ quote₂.uctusdAmount.val := by
  obtain ⟨quote₁, h₁⟩ := exists_ok (x := quoteFor .exact .config (some .seeded) 1000 .ZAR)
    (by decide +kernel)
  have hrate : getMarketRate .exact .config NonnegFeeConfig.seeded = .ok ⟨18500000⟩ := by
    decide +kernel
  have hall := pricing_monotone hrate (by decide +kernel)
  obtain ⟨quote₂, h₂, hle, -⟩ := hall.1 1000 2000 .ZAR quote₁ (by norm_num) h₁
  exact ⟨quote₁, quote₂, h₁, h₂, hle⟩

end Orbyt.Pricing
