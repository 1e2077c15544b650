/-
  Orbyt.Guarantees.MoneyFields — what the money fields of a form may hold

  Main results:
    * `money_fields_read` — the fields are read or refused exactly where no comparison meets
      a NaN, and so do the three pages turn an unreadable amount or price into a refusal;
    * `money_field_raises` — the text `NaN` raises an InvalidOperation instead.
-/
import Orbyt.Platform.TransactionRoutes

namespace Orbyt.Transactions

open PyText

variable {α : Type} {raw rate fee uctusd : Text} {d : Decimal}

/-! ## §1. What is promised of a field. -/

/-- The text spells a NaN: commas and the blanks around it apart, and underscores anywhere. -/
def SpellsNaN (raw : Text) : Prop :=
  ∃ ascii, numericAsAscii (strip (remove ',' raw)) = some ascii ∧ PyText.SpellsNaN ascii

/-- The text is a number greater than zero. -/
def Positive (raw : Text) : Prop :=
  ∃ d, parseDecimal raw = some d ∧ d.compareZero = some .gt

/-- The text is a number, and not below zero. -/
def NotNegative (raw : Text) : Prop :=
  ∃ d order, parseDecimal raw = some d ∧ d.compareZero = some order ∧ order ≠ .lt

/-- An amount is nothing or greater than zero, and never an exception. -/
def ReadsAmount (raw : Text) : Prop :=
  parseAmount raw = .ok none ∨ ∃ d, parseAmount raw = .ok (some d) ∧ d.compareZero = some .gt

/-- The figures of a price lock that may be agreed to. -/
structure AcceptedQuote.Sound (quote : AcceptedQuote) : Prop where
  rate : quote.exchangeRate.compareZero = some .gt
  fee : ∃ order, quote.transactionFee.compareZero = some order ∧ order ≠ .lt
  uctusd : quote.uctusdAmount.compareZero = some .gt

/-- A price lock is nothing or sound, and never an exception. -/
def ReadsQuote (rate fee uctusd : Text) : Prop :=
  acceptedQuote rate fee uctusd = .ok none ∨
    ∃ quote, acceptedQuote rate fee uctusd = .ok (some quote) ∧ quote.Sound

/-- No comparison that is made meets a NaN: the fee is not compared when the rate is not a
number greater than zero. -/
def Comparable (rate fee uctusd : Text) : Prop :=
  ¬ SpellsNaN rate ∧ ¬ SpellsNaN uctusd ∧ (Positive rate → ¬ SpellsNaN fee)

def Refused (answer : Except Exn (Answer α)) : Prop :=
  ∃ url flash, answer = .ok (.redirect url flash)

theorem not_refused_error {e : Exn} : ¬ Refused (.error e : Except Exn (Answer α)) := by
  rintro ⟨url, flash, h⟩
  cases h

theorem refused_redirect {url : Url} {flash : Option (String × String)} :
    Refused (.ok (.redirect url flash) : Except Exn (Answer α)) := ⟨url, flash, rfl⟩

/-! ## §2. Fields. -/

theorem spellsNaN_iff : SpellsNaN raw ↔ ∃ d, parseDecimal raw = some d ∧ d.compareZero = none := by
  unfold SpellsNaN parseDecimal
  rw [← ofText_nan_iff]
  cases ofText (strip (remove ',' raw)) with
  | none => simp
  | some d => simp [Decimal.compareZero_none]

theorem Positive.not_nan (h : Positive raw) : ¬ SpellsNaN raw := by
  obtain ⟨d, hd, hgt⟩ := h
  rw [spellsNaN_iff]
  rintro ⟨d', hd', hnone⟩
  obtain rfl : d = d' := Option.some.inj (hd.symm.trans hd')
  rw [hgt] at hnone
  cases hnone

theorem compared_ok {order : Ordering} (h : d.compareZero = some order) :
    compared d = .ok order := by
  unfold compared
  rw [h]

theorem compared_nan (h : d.compareZero = none) : compared d = .error invalidOperation := by
  unfold compared
  rw [h]

theorem parseAmount_nan (h : SpellsNaN raw) : parseAmount raw = .error invalidOperation := by
  obtain ⟨d, hd, hnone⟩ := spellsNaN_iff.mp h
  unfold parseAmount
  simp only [hd, compared_nan hnone]
  rfl

theorem parseAmount_positive (h : Positive raw) :
    ∃ d, parseAmount raw = .ok (some d) ∧ d.compareZero = some .gt := by
  obtain ⟨d, hd, hgt⟩ := h
  refine ⟨d, ?_, hgt⟩
  unfold parseAmount
  simp only [hd, compared_ok hgt]
  rfl

theorem parseAmount_none (h : ¬ SpellsNaN raw) (hp : ¬ Positive raw) :
    parseAmount raw = .ok none := by
  unfold parseAmount
  cases hd : parseDecimal raw with
  | none => rfl
  | some d =>
    cases ho : d.compareZero with
    | none => exact absurd (spellsNaN_iff.mpr ⟨d, hd, ho⟩) h
    | some order =>
      have hne : order ≠ .gt := by
        rintro rfl
        exact hp ⟨d, hd, ho⟩
      simp only [compared_ok ho]
      show Except.ok (if order = .gt then some d else none) = _
      rw [if_neg hne]

theorem parseAmount_ok (h : ¬ SpellsNaN raw) : ∃ a, parseAmount raw = .ok a := by
  by_cases hp : Positive raw
  · obtain ⟨d, hrun, -⟩ := parseAmount_positive hp
    exact ⟨_, hrun⟩
  · exact ⟨_, parseAmount_none h hp⟩

theorem amount_reads : ReadsAmount raw ↔ ¬ SpellsNaN raw := by
  constructor
  · rintro h hnan
    rw [ReadsAmount, parseAmount_nan hnan] at h
    rcases h with h | ⟨d, h, -⟩ <;> cases h
  · intro h
    by_cases hp : Positive raw
    · exact .inr (parseAmount_positive hp)
    · exact .inl (parseAmount_none h hp)

/-! ## §3. The price lock. -/

/-- Without a rate above zero, or without a fee, there is nothing to agree to. -/
theorem acceptedQuote_none (hrate : ¬ SpellsNaN rate) (huctusd : ¬ SpellsNaN uctusd)
    (h : ¬ Positive rate ∨ parseDecimal fee = none) : acceptedQuote rate fee uctusd = .ok none := by
  obtain ⟨u, hu⟩ := parseAmount_ok huctusd
  unfold acceptedQuote
  by_cases hpos : Positive rate
  · obtain ⟨r, hr, -⟩ := parseAmount_positive hpos
    have hf := h.resolve_left (not_not.mpr hpos)
    rw [hr, hu, hf]
    rfl
  · rw [parseAmount_none hrate hpos, hu]
    rfl

/-- With both, the fee is compared; then it depends on its sign and on the UCTUSD amount. -/
theorem acceptedQuote_some {r f : Decimal} {u : Option Decimal}
    (hr : parseAmount rate = .ok (some r)) (hf : parseDecimal fee = some f)
    (hu : parseAmount uctusd = .ok u) :
    acceptedQuote rate fee uctusd = (compared f).map (fun order =>
      if order = .lt then none else u.map (fun uctusd => ⟨r, f, uctusd⟩)) := by
  unfold acceptedQuote
  rw [hr, hu, hf]
  show (compared f >>= fun order => if order = .lt then pure none else pure _) = _
  cases compared f with
  | error e => rfl
  | ok order =>
    show (if order = .lt then (.ok none : Except Exn _) else .ok _) =
      .ok (if order = .lt then _ else _)
    split <;> rfl

theorem acceptedQuote_raises (h : ¬ Comparable rate fee uctusd) :
    ∃ e, acceptedQuote rate fee uctusd = .error e := by
  by_cases hrate : SpellsNaN rate
  · unfold acceptedQuote
    rw [parseAmount_nan hrate]
    exact ⟨_, rfl⟩
  by_cases huctusd : SpellsNaN uctusd
  · obtain ⟨r, hr⟩ := parseAmount_ok hrate
    unfold acceptedQuote
    rw [hr, parseAmount_nan huctusd]
    exact ⟨_, rfl⟩
  -- what is left is a NaN for the fee, beside a rate above zero
  have hfee : Positive rate ∧ SpellsNaN fee := by
    by_contra hno
    exact h ⟨hrate, huctusd, fun hp hn => hno ⟨hp, hn⟩⟩
  obtain ⟨r, hr, -⟩ := parseAmount_positive hfee.1
  obtain ⟨f, hf, hnone⟩ := spellsNaN_iff.mp hfee.2
  obtain ⟨u, hu⟩ := parseAmount_ok huctusd
  rw [acceptedQuote_some hr hf hu, compared_nan hnone]
  exact ⟨_, rfl⟩

/-- A lock of three figures that can be compared is nothing, or all three are what they should
be. -/
theorem acceptedQuote_comparable (h : Comparable rate fee uctusd) :
    acceptedQuote rate fee uctusd = .ok none ∨
    (Positive rate ∧ NotNegative fee ∧ Positive uctusd) ∧
      ∃ quote, acceptedQuote rate fee uctusd = .ok (some quote) ∧ quote.Sound := by
  obtain ⟨hrate, huctusd, hfee⟩ := h
  by_cases hpos : Positive rate
  -- only behind a good rate is the fee compared
  · cases hf : parseDecimal fee with
    | none => exact .inl (acceptedQuote_none hrate huctusd (.inr hf))
    | some f =>
      obtain ⟨r, hr, hrgt⟩ := parseAmount_positive hpos
      cases ho : f.compareZero with
      | none => exact absurd (spellsNaN_iff.mpr ⟨f, hf, ho⟩) (hfee hpos)
      | some order =>
        by_cases hlt : order = .lt
        · obtain ⟨u, hu⟩ := parseAmount_ok huctusd
          left
          rw [acceptedQuote_some hr hf hu, compared_ok ho]
          show Except.ok (if order = .lt then none else _) = _
          rw [if_pos hlt]
        · by_cases hu : Positive uctusd
          · obtain ⟨u, hurun, hugt⟩ := parseAmount_positive hu
            refine .inr ⟨⟨hpos, ⟨f, order, hf, ho, hlt⟩, hu⟩, ⟨r, f, u⟩, ?_, hrgt,
              ⟨order, ho, hlt⟩, hugt⟩
            rw [acceptedQuote_some hr hf hurun, compared_ok ho]
            show Except.ok (if order = .lt then none else _) = _
            rw [if_neg hlt]
            rfl
          · left
            rw [acceptedQuote_some hr hf (parseAmount_none huctusd hu), compared_ok ho]
            show Except.ok (if order = .lt then none else none) = _
            rw [ite_self]
  · exact .inl (acceptedQuote_none hrate huctusd (.inl hpos))

theorem quote_reads : ReadsQuote rate fee uctusd ↔ Comparable rate fee uctusd := by
  constructor
  · intro h
    by_contra hno
    obtain ⟨e, he⟩ := acceptedQuote_raises hno
    rw [ReadsQuote, he] at h
    rcases h with h | ⟨q, h, -⟩ <;> cases h
  · intro h
    exact (acceptedQuote_comparable h).imp id And.right

/-! ## §4. The pages. -/

/-- The user is not sent away before the form is looked at. -/
def MaySend (user : Option User) : Prop :=
  ∃ u, user = some u ∧ u.isAdmin = false ∧ u.canSend = true ∧ u.kycApproved = true

theorem senderRedirect_none {user : Option User} (h : MaySend user) :
    (senderRedirect user : Option (Answer α)) = none := by
  obtain ⟨u, rfl, hadmin, hsend, hkyc⟩ := h
  simp [senderRedirect, hadmin, hsend, hkyc]

theorem senderRedirect_some (α : Type) {user : Option User} (h : ¬ MaySend user) :
    ∃ url flash, (senderRedirect user : Option (Answer α)) = some (.redirect url flash) := by
  cases user with
  | none => exact ⟨_, _, rfl⟩
  | some u =>
    unfold senderRedirect
    split
    next heq => cases heq
    next v heq =>
      cases heq
      split
      · exact ⟨_, _, rfl⟩
      · split
        next hadmin hmay =>
          rw [Bool.and_eq_true] at hmay
          exact absurd ⟨u, rfl, by simpa using hadmin, hmay⟩ h
        · exact ⟨_, _, rfl⟩

/-- A page that shows a quote refuses an amount that is not greater than zero, unless it is a
NaN. -/
theorem quotePage_refuses (user : Option User) (beneficiaryId zarAmount : Text) :
    (¬ Positive zarAmount → Refused (quotePage user beneficiaryId zarAmount)) ↔
      (MaySend user → ¬ SpellsNaN zarAmount) := by
  unfold quotePage
  by_cases hmay : MaySend user
  · rw [senderRedirect_none hmay]
    constructor
    · intro h _ hnan
      have hrefused := h fun hp => hp.not_nan hnan
      unfold quoteContext at hrefused
      rw [parseAmount_nan hnan] at hrefused
      exact not_refused_error hrefused
    · intro h hp
      unfold quoteContext
      rw [parseAmount_none (h hmay) hp]
      exact refused_redirect
  · obtain ⟨url, flash, hredirect⟩ := senderRedirect_some Decimal hmay
    rw [hredirect]
    exact ⟨fun _ h => absurd h hmay, fun _ _ => refused_redirect⟩

/-- What a booking needs of its form. -/
def Readable (form : RemittanceForm) : Prop :=
  Positive form.zarAmount ∧
    Positive form.exchangeRate ∧ NotNegative form.transactionFee ∧ Positive form.uctusdAmount

/-- The comparisons that a booking makes meet no NaN: the price lock is looked at when amount
and beneficiary have been read. -/
def FormComparable (uuid : Text → Option Nat) (form : RemittanceForm) : Prop :=
  ¬ SpellsNaN form.zarAmount ∧
    (Positive form.zarAmount → (uuid form.beneficiaryId).isSome = true →
      Comparable form.exchangeRate form.transactionFee form.uctusdAmount)

theorem createRemittance_refuses (uuid : Text → Option Nat) (user : Option User)
    (form : RemittanceForm) :
    (¬ Readable form → Refused (createRemittance uuid user form)) ↔
      (MaySend user → FormComparable uuid form) := by
  unfold createRemittance
  by_cases hmay : MaySend user
  · rw [senderRedirect_none hmay]
    constructor
    · intro h _
      have hamount : ¬ SpellsNaN form.zarAmount := by
        intro hnan
        have hrefused := h fun hr => hr.1.not_nan hnan
        rw [parseAmount_nan hnan] at hrefused
        exact not_refused_error hrefused
      refine ⟨hamount, fun hp huuid => ?_⟩
      by_contra hno
      -- the comparison that meets a NaN escapes
      obtain ⟨e, he⟩ := acceptedQuote_raises hno
      obtain ⟨b, hb⟩ := Option.isSome_iff_exists.mp huuid
      obtain ⟨a, ha, -⟩ := parseAmount_positive hp
      have hrefused := h fun hr => hno ⟨hr.2.1.not_nan, hr.2.2.2.not_nan, fun _ hnan => by
        obtain ⟨d, order, hd, ho, -⟩ := hr.2.2.1
        obtain ⟨d', hd', hnone⟩ := spellsNaN_iff.mp hnan
        obtain rfl : d = d' := Option.some.inj (hd.symm.trans hd')
        rw [ho] at hnone
        cases hnone⟩
      rw [ha, hb] at hrefused
      simp only [he] at hrefused
      exact not_refused_error hrefused
    · intro h hunreadable
      obtain ⟨hamount, hquote⟩ := h hmay
      by_cases hp : Positive form.zarAmount
      · obtain ⟨a, ha, -⟩ := parseAmount_positive hp
        rw [ha]
        cases hb : uuid form.beneficiaryId with
        | none => exact refused_redirect
        | some b =>
          rcases acceptedQuote_comparable (hquote hp (by rw [hb]; rfl)) with hnone | ⟨hall, -⟩
          · simp only [hnone]
            exact refused_redirect
          · exact absurd ⟨hp, hall⟩ hunreadable
      · rw [parseAmount_none hamount hp]
        exact refused_redirect
  · obtain ⟨url, flash, hredirect⟩ :=
      senderRedirect_some (Decimal × Nat × AcceptedQuote) hmay
    rw [hredirect]
    exact ⟨fun _ h => absurd h hmay, fun _ _ => refused_redirect⟩

/-! ## §5. All of them. -/

/-- **WHICH TEXTS ARE READ OR REFUSED**, and never raise: those with which no comparison meets
a NaN; and so it is for the forms of the three pages. -/
theorem money_fields_read (raw rate fee uctusd : Text) (uuid : Text → Option Nat)
    (user : Option User) (form : RemittanceForm) (beneficiaryId zarAmount : Text) :
    (ReadsAmount raw ↔ ¬ SpellsNaN raw) ∧
    (ReadsQuote rate fee uctusd ↔ Comparable rate fee uctusd) ∧
    ((¬ Readable form → Refused (createRemittance uuid user form)) ↔
      (MaySend user → FormComparable uuid form)) ∧
    ((¬ Positive zarAmount → Refused (sendReview user beneficiaryId zarAmount)) ↔
      (MaySend user → ¬ SpellsNaN zarAmount)) ∧
    ((¬ Positive zarAmount → Refused (sendPay user beneficiaryId zarAmount)) ↔
      (MaySend user → ¬ SpellsNaN zarAmount)) :=
  ⟨amount_reads, quote_reads, createRemittance_refuses uuid user form,
    quotePage_refuses user beneficiaryId zarAmount, quotePage_refuses user beneficiaryId zarAmount⟩

/-- The three letters `NaN` in the amount are an exception. -/
theorem money_field_raises : ¬ ∀ raw, ReadsAmount raw := by
  intro hall
  have hnan : SpellsNaN "NaN".toList := ⟨"NaN".toList, by decide, "NaN".toList, [], by decide⟩
  have hread := hall "NaN".toList
  rw [ReadsAmount, parseAmount_nan hnan] at hread
  rcases hread with h | ⟨d, h, -⟩ <;> cases h

end Orbyt.Transactions
