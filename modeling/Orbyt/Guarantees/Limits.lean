/-
  Orbyt.Guarantees.Limits — what a tier's limits may be relied on for

  Main results:
    * `remittance_limits` — in every run, whatever a sender's sends of one day, or of one
      month, add up to is within the tier's limit, failed cash-ins apart;
    * `allowance_stated` — when the allowance that a refusal names is the real one.
-/
import Orbyt.Guarantees.Balances
import Orbyt.Invariants.Limits
import Orbyt.Rules.Amounts

namespace Orbyt

open Interleave
open Tables

variable {S : Setting} {clock validated : Nat} {held : Nat → Bool} {k : Config (platform S)}

/-- Any number of rows together count for no more than all of them. -/
theorem World.sum_counted_le (s : World) (hs : s.Regular) (u : Nat) (W : Nat → Bool)
    (ids : Finset Nat) : ∑ t ∈ ids, worth (Txn.counted u W) (s.txns t) ≤ s.used u W := by
  have hsub : ids ⊆ Finset.range (max s.nextId (ids.sup (· + 1))) := by
    intro t ht
    have hle : t + 1 ≤ ids.sup (· + 1) := Finset.le_sup (f := (· + 1)) ht
    exact Finset.mem_range.mpr (by omega)
  calc ∑ t ∈ ids, worth (Txn.counted u W) (s.txns t)
      ≤ total (Txn.counted u W) s.txns (max s.nextId (ids.sup (· + 1))) :=
        Finset.sum_le_sum_of_subset hsub
    _ = s.used u W := total_extend (Nat.le_max_left _ _) hs.txnIds

/-- **THE LIMITS HOLD** while the tier stays as it is: for every sender, day and month,
whichever side of midnight a check and its insert fall on, and whoever else is sending,
confirming, failing or expiring. -/
theorem remittance_limits (hS : S.fixedTier = true)
    (h : Reach (M := platform S) (World.initial clock validated held) k) (u : Nat)
    (ids : Finset Nat) :
    (∀ d, ∑ t ∈ ids, worth (Txn.counted u (S.calendar.inDay d)) (k.world.txns t)
      ≤ S.tier.dailyLimitZar) ∧
    ∀ m, ∑ t ∈ ids, worth (Txn.counted u (S.calendar.inMonth m)) (k.world.txns t)
      ≤ S.tier.monthlyLimitZar := by
  have hregular := ((rules_kept S).reach (.initial clock validated held) h).world.regular
  have hwithin := allowance_reach hS (.initial clock validated held)
    (.initial S clock validated held) h
  exact ⟨fun d => Nat.le_trans (k.world.sum_counted_le hregular u _ ids) (hwithin.daily u d),
    fun m => Nat.le_trans (k.world.sum_counted_le hregular u _ ids) (hwithin.monthly u m)⟩

/-- A tier that has room for one send a day. -/
def Setting.oneSend : Setting := { Setting.usual with tier := ⟨100, 150⟩ }

/-- Two sends race: the second is checked once the first has committed. -/
def racing : List (Label (platform .oneSend)) :=
  .start (.createRemittance sendToTwo) :: sending .oneSend 1 sendToTwo 2 fiveToTwo
    ++ answering .oneSend 0 [.unit, .payee (some ⟨some 2, .USD, ""⟩), .quote fiveToTwo,
      .tier (some ⟨100, 150⟩)]
    ++ steps .oneSend 0 4 ++ [.stop 0]

theorem remittance_limits_racing :
    ∃ k, Reach (M := platform .oneSend) World.empty k ∧ k.world.nextTid = 2 ∧
      ∑ t ∈ {0, 1}, worth (Txn.counted 1 (shortDays.inDay 0)) (k.world.txns t) ≤ 100 := by
  have hrun : (Config.run racing (Config.initial World.empty)).map
      (fun k => (k.world.nextTid, k.world.nextId)) = some (2, 1) := by decide +kernel
  obtain ⟨k, hk, hids⟩ := Reach.of_run_map hrun
  have hlimits := remittance_limits rfl hk 1 {0, 1}
  exact ⟨k, hk, (Prod.ext_iff.mp hids).1, hlimits.1 0⟩

/-! ## §2. The allowance in a refusal. -/

open LimitService

/-- What `check_limit` reads of the tables: the tier, and for each window, after the clock, what
has been sent. -/
def usageAnswers (tier : LimitTier) (now : Nat → Nat) (dailyUsed monthlyUsed : Nat) :
    Nat → (o : Op) → Except Exn o.Res
  | 0, .limitTier _ => .ok (some tier)
  | 2, .sumZarSince _ _ => .ok dailyUsed
  | 4, .sumZarSince _ _ => .ok monthlyUsed
  | n, .now => .ok (now n)
  | _, _ => .error (.other "AssertionError" "no other statement")

variable {tier : LimitTier} {now : Nat → Nat} {dailyUsed monthlyUsed : Nat} {user amount : Nat}
  {check : LimitCheck}

/-- `check_limit` of an amount in cents, on what it reads. -/
def checked (S : Setting) (tier : LimitTier) (now : Nat → Nat)
    (dailyUsed monthlyUsed user amount : Nat) : Except Exn LimitCheck :=
  (checkLimit S user amount).answered (usageAnswers tier now dailyUsed monthlyUsed) 0

/-- The amount is accepted. -/
def Allows (S : Setting) (tier : LimitTier) (now : Nat → Nat)
    (dailyUsed monthlyUsed user amount : Nat) : Prop :=
  ∃ check, checked S tier now dailyUsed monthlyUsed user amount = .ok check ∧ check.allowed = true

def dailyExceeded (available : Nat) : String :=
  "Daily limit exceeded. You have R" ++ formatFixed 2 available ++ " available today."

def monthlyExceeded (available : Nat) : String :=
  "Monthly limit exceeded. You have R" ++ formatFixed 2 available ++ " available this month."

/-- A refusal that names what is left. -/
def Names (reason : String) (available : Nat) : Prop :=
  reason = dailyExceeded available ∨ reason = monthlyExceeded available

/-- The two checks of `check_limit`, in their order. -/
theorem checked_eq : checked S tier now dailyUsed monthlyUsed user amount = .ok
    (if tier.dailyLimitZar = 0 ∧ tier.monthlyLimitZar = 0 then
      ⟨false, "Your account must be KYC-approved before sending money.", 0, 0⟩
    else if tier.dailyLimitZar < dailyUsed + amount then
      ⟨false, dailyExceeded (tier.dailyLimitZar - dailyUsed), tier.dailyLimitZar - dailyUsed,
        tier.monthlyLimitZar - monthlyUsed⟩
    else if tier.monthlyLimitZar < monthlyUsed + amount then
      ⟨false, monthlyExceeded (tier.monthlyLimitZar - monthlyUsed), tier.dailyLimitZar - dailyUsed,
        tier.monthlyLimitZar - monthlyUsed⟩
    else ⟨true, "", tier.dailyLimitZar - dailyUsed, tier.monthlyLimitZar - monthlyUsed⟩) := by
  show Prog.answered _ 1 (checkTier S tier user amount) = _
  unfold checkTier
  by_cases hnone : tier.dailyLimitZar = 0 ∧ tier.monthlyLimitZar = 0
  · rw [if_pos hnone, if_pos hnone]
    rfl
  · rw [if_neg hnone, if_neg hnone]
    show Prog.answered _ 5 (if tier.dailyLimitZar < dailyUsed + amount then _ else _) = _
    by_cases hdaily : tier.dailyLimitZar < dailyUsed + amount
    · rw [if_pos hdaily, if_pos hdaily]
      rfl
    · rw [if_neg hdaily, if_neg hdaily]
      by_cases hmonthly : tier.monthlyLimitZar < monthlyUsed + amount
      · rw [if_pos hmonthly, if_pos hmonthly]
        rfl
      · rw [if_neg hmonthly, if_neg hmonthly]
        rfl

/-- Either window can bind. -/
theorem allows_iff (hpos : 0 < amount) : Allows S tier now dailyUsed monthlyUsed user amount ↔
    amount ≤ tier.dailyLimitZar - dailyUsed ∧ amount ≤ tier.monthlyLimitZar - monthlyUsed := by
  unfold Allows
  simp only [checked_eq, Except.ok.injEq, exists_eq_left']
  by_cases hnone : tier.dailyLimitZar = 0 ∧ tier.monthlyLimitZar = 0
  · simp only [if_pos hnone, Bool.false_eq_true, false_iff]
    omega
  · by_cases hdaily : tier.dailyLimitZar < dailyUsed + amount
    · simp only [if_neg hnone, if_pos hdaily, Bool.false_eq_true, false_iff]
      omega
    · by_cases hmonthly : tier.monthlyLimitZar < monthlyUsed + amount
      · simp only [if_neg hnone, if_neg hdaily, if_pos hmonthly, Bool.false_eq_true, false_iff]
        omega
      · simp only [if_neg hnone, if_neg hdaily, if_neg hmonthly, true_iff]
        omega

/-- The digits of such a refusal are those of the amount it names. -/
theorem Names.value {reason : String} {available : Nat} (h : Names reason available) :
    PyText.value (reason.toList.filter PyText.isAsciiDigit) = available := by
  have hformat := value_formatFixed (n := (available : Int)) (p := 2) (by decide)
  rcases h with rfl | rfl
  · unfold dailyExceeded
    rw [String.toList_append, String.toList_append, List.filter_append, List.filter_append,
      show ("Daily limit exceeded. You have R".toList.filter PyText.isAsciiDigit) = [] by decide,
      show (" available today.".toList.filter PyText.isAsciiDigit) = [] by decide,
      List.nil_append, List.append_nil, hformat]
    rfl
  · unfold monthlyExceeded
    rw [String.toList_append, String.toList_append, List.filter_append, List.filter_append,
      show ("Monthly limit exceeded. You have R".toList.filter PyText.isAsciiDigit) = [] by decide,
      show (" available this month.".toList.filter PyText.isAsciiDigit) = [] by decide,
      List.nil_append, List.append_nil, hformat]
    rfl

theorem Names.unique {reason : String} {a b : Nat} (ha : Names reason a) (hb : Names reason b) :
    a = b := ha.value.symm.trans hb.value

/-- Such a refusal is about a limit. -/
theorem Names.front {reason : String} {available : Nat} (h : Names reason available) :
    reason.toList.head? = some 'D' ∨ reason.toList.head? = some 'M' := by
  rcases h with rfl | rfl
  · unfold dailyExceeded
    rw [String.toList_append, String.toList_append]
    exact .inl rfl
  · unfold monthlyExceeded
    rw [String.toList_append, String.toList_append]
    exact .inr rfl

/-- What is named is the most that is accepted, and acceptance is being within what is left. -/
def Truthful (S : Setting) (tier : LimitTier) (now : Nat → Nat)
    (dailyUsed monthlyUsed user amount : Nat) (check : LimitCheck) : Prop :=
  (∀ available, Names check.reason available →
    (0 < available → Allows S tier now dailyUsed monthlyUsed user available) ∧
    ∀ more, available < more → ¬ Allows S tier now dailyUsed monthlyUsed user more) ∧
  (check.allowed = true ↔ amount ≤ min check.dailyRemaining check.monthlyRemaining)

/-- A refusal that names nothing says nothing wrong. -/
theorem truthful_of_silent (hsilent : check.reason.toList.head? ≠ some 'D')
    (hsilent' : check.reason.toList.head? ≠ some 'M')
    (hmin : check.allowed = true ↔ amount ≤ min check.dailyRemaining check.monthlyRemaining) :
    Truthful S tier now dailyUsed monthlyUsed user amount check := by
  refine ⟨fun available hnames => ?_, hmin⟩
  rcases hnames.front with h | h
  · exact absurd h hsilent
  · exact absurd h hsilent'

/-- A refusal is truthful if what it names is what both windows leave. -/
theorem truthful_iff {named : Nat} (hnames : Names check.reason named)
    (hless : tier.dailyLimitZar - dailyUsed ≤ named ∨ tier.monthlyLimitZar - monthlyUsed ≤ named)
    (hmin : check.allowed = true ↔ amount ≤ min check.dailyRemaining check.monthlyRemaining) :
    Truthful S tier now dailyUsed monthlyUsed user amount check ↔
      named ≤ tier.dailyLimitZar - dailyUsed ∧ named ≤ tier.monthlyLimitZar - monthlyUsed := by
  constructor
  · rintro ⟨htrue, -⟩
    by_cases hpos : 0 < named
    · exact (allows_iff hpos).mp ((htrue named hnames).1 hpos)
    · omega
  · intro hle
    refine ⟨fun available h => ?_, hmin⟩
    obtain rfl := h.unique hnames
    refine ⟨fun hpos => (allows_iff hpos).mpr hle, fun more hmore hallows => ?_⟩
    have := (allows_iff (by omega)).mp hallows
    omega

/-- **THE ALLOWANCE IN A REFUSAL** is the most that is accepted, exactly if the amount fits the
daily limit, or what the daily limit leaves is no more than what the monthly limit leaves. -/
theorem allowance_stated (hpos : 0 < amount)
    (hcheck : checked S tier now dailyUsed monthlyUsed user amount = .ok check) :
    Truthful S tier now dailyUsed monthlyUsed user amount check ↔
      dailyUsed + amount ≤ tier.dailyLimitZar ∨
        tier.dailyLimitZar - dailyUsed ≤ tier.monthlyLimitZar - monthlyUsed := by
  rw [checked_eq, Except.ok.injEq] at hcheck
  subst hcheck
  by_cases hnone : tier.dailyLimitZar = 0 ∧ tier.monthlyLimitZar = 0
  · rw [if_pos hnone]
    -- nothing can be sent, and the refusal names no amount
    refine iff_of_true (truthful_of_silent (by decide) (by decide) ?_) (by omega)
    simp only [Bool.false_eq_true, false_iff]
    omega
  · rw [if_neg hnone]
    by_cases hdaily : tier.dailyLimitZar < dailyUsed + amount
    -- the daily remainder is named: the most there is only if the month leaves no less
    · rw [if_pos hdaily, truthful_iff (.inl rfl) (.inl (Nat.le_refl _)) ?_]
      · omega
      · simp only [Bool.false_eq_true, false_iff]
        omega
    · rw [if_neg hdaily]
      by_cases hmonthly : tier.monthlyLimitZar < monthlyUsed + amount
      -- the monthly remainder is named, and the day leaves more than that
      · rw [if_pos hmonthly, truthful_iff (.inr rfl) (.inr (Nat.le_refl _)) ?_]
        · omega
        · simp only [Bool.false_eq_true, false_iff]
          omega
      · rw [if_neg hmonthly]
        refine iff_of_true (truthful_of_silent (by simp) (by simp) ?_) (by omega)
        simp only [true_iff]
        omega

/-- The seeded limits, most of the month used up. -/
theorem allowance_stated_in_month : Truthful .usual ⟨300000, 1000000⟩ (fun _ => 0) 0 400000 1 200000
    ⟨true, "", 300000, 600000⟩ :=
  (allowance_stated (by decide) (by decide +kernel)).mpr (.inl (by decide))

/-- With R1,000 left of the month, a send of R5,000 is told that R3,000 is left of the day, and
R3,000 is refused. -/
theorem allowance_overstated : ∃ check,
    checked .usual ⟨300000, 1000000⟩ (fun _ => 0) 0 900000 1 500000 = .ok check ∧
    check.allowed = false ∧
    check.reason = "Daily limit exceeded. You have R3,000.00 available today." ∧
    Names check.reason 300000 ∧
    ¬ Allows .usual ⟨300000, 1000000⟩ (fun _ => 0) 0 900000 1 300000 := by
  refine ⟨⟨false, "Daily limit exceeded. You have R3,000.00 available today.", 300000, 100000⟩,
    by decide +kernel, rfl, rfl, .inl (by decide +kernel), ?_⟩
  rintro ⟨check, hcheck, hallowed⟩
  have hrefused : checked .usual ⟨300000, 1000000⟩ (fun _ => 0) 0 900000 1 300000 = .ok
      ⟨false, monthlyExceeded 100000, 300000, 100000⟩ := by decide +kernel
  rw [hrefused] at hcheck
  cases hcheck
  cases hallowed

end Orbyt
