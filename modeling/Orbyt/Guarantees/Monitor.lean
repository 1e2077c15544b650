/-
  Orbyt.Guarantees.Monitor — what the transaction monitor lists

  Main results:
    * `monitor_exact` — which query strings are answered, whatever is stored, with exactly the
      sends that they describe.
-/
import Orbyt.Platform.Monitor

namespace Orbyt.Monitor

open PyText
open PyDate
open SqlLike (Folding isSpecial tokens accepts)

variable {zone : Zone} {F : Folding} {tables : Tables} {query : MonitorQuery} {x : Txn}

/-! ## §1. What the filters describe. -/

/-- A name or email address of the sender, the recipient or the beneficiary of `x`. -/
inductive PartyText (tables : Tables) (x : Txn) : Text → Prop where
  | sender {user : User} {text : Text} (h : tables.users x.senderId = some user)
      (ht : text = user.fullName ∨ text = user.email) : PartyText tables x text
  | recipient {u : Nat} {user : User} {text : Text} (hu : x.recipientUserId = some u)
      (h : tables.users u = some user) (ht : text = user.fullName ∨ text = user.email) :
      PartyText tables x text
  | beneficiary {beneficiary : Beneficiary} {text : Text}
      (h : tables.beneficiaries x.beneficiaryId = some beneficiary)
      (ht : text = beneficiary.fullName ∨ beneficiary.email = some text) : PartyText tables x text

/-- `x` was created on a local day inside the date range. -/
structure MonitorQuery.Covers (zone : Zone) (query : MonitorQuery) (τ : Nat) : Prop where
  dateFrom : ∀ raw d, query.dateFrom = some raw → fromisoformat (strip raw) = some d →
    (d.ordinal : Int) ≤ zone.localDay τ
  dateTo : ∀ raw d, query.dateTo = some raw → fromisoformat (strip raw) = some d →
    zone.localDay τ ≤ d.ordinal

/-- `x` satisfies every filter that is given and can be read. -/
structure Satisfies (zone : Zone) (F : Folding) (tables : Tables) (query : MonitorQuery)
    (x : Txn) : Prop where
  cashin : ∀ status name, (status, name) ∈ CashInStatus.members →
    query.cashin = some name.toList → x.cashinStatus = status
  settlement : ∀ status name, (status, name) ∈ SettlementStatus.members →
    query.settlement = some name.toList → x.settlementStatus = status
  covered : query.Covers zone x.createdAt
  aml : ∀ raw flag word, query.aml = some raw → (flag, word) ∈ amlWords →
    lower (strip raw) = word.toList → x.amlFlagged = flag
  party : ∀ raw, query.q = some raw → strip raw ≠ [] →
    ∃ text, PartyText tables x text ∧ F.Contains text (strip raw)

open Classical in
/-- `result` lists the rows whose send is `P`, newest first, cut at `limit`. -/
def IsNewest (limit : Nat) (rows : List (Nat × Txn)) (P : Txn → Prop)
    (result : List (Nat × Txn)) : Prop :=
  ∃ all : List (Nat × Txn), all.Perm (rows.filter (fun row => decide (P row.2))) ∧
    all.Pairwise (fun row row' => row'.2.createdAt ≤ row.2.createdAt) ∧
    result = all.take limit

/-! ## §2. Which queries are answered so. -/

/-- Both ends of the date range can be written, so can the term, and it holds no special character
(or nothing can be in the range in the first place). -/
structure MonitorQuery.Answerable (zone : Zone) (query : MonitorQuery) : Prop where
  dateFrom : ∀ raw d, query.dateFrom = some raw → fromisoformat (strip raw) = some d →
    0 ≤ zone.midnight d.ordinal
  dateTo : ∀ raw d, query.dateTo = some raw → fromisoformat (strip raw) = some d →
    d.ordinal < maxOrdinal
  noNul : ∀ raw, query.q = some raw → '\x00' ∉ strip raw
  plain : (∀ raw, query.q = some raw → ∀ c ∈ strip raw, isSpecial c = false) ∨
    ∀ τ : Nat, ¬ query.Covers zone τ

/-! ## §3. Reading the query string. -/

theorem enumFilter_eq_some {σ : Type} {members : List (σ × String)} {raw : Option Text} {s : σ}
    (hn : (members.map Prod.snd).Nodup) :
    enumFilter members raw = some s ↔ ∃ name, (s, name) ∈ members ∧ raw = some name.toList := by
  cases raw with
  | none => simp [enumFilter]
  | some raw =>
    show (members.find? _).map Prod.fst = some s ↔ _
    constructor
    · intro h
      obtain ⟨⟨s', name⟩, hm, rfl⟩ := Option.map_eq_some_iff.mp h
      have hname := List.find?_some hm
      exact ⟨name, List.mem_of_find?_eq_some hm, congrArg some (beq_iff_eq.mp hname).symm⟩
    · intro h
      obtain ⟨name, hmem, hraw⟩ := h
      obtain rfl := Option.some.inj hraw
      cases hfind : members.find? (fun m => m.2.toList == name.toList) with
      | none => exact absurd (List.find?_eq_none.mp hfind _ hmem) (by simp)
      | some m =>
        -- no two members have one value
        have hm := List.find?_some hfind
        have hsnd : m.2 = name := String.toList_inj.mp (beq_iff_eq.mp hm)
        have hsame := List.inj_on_of_nodup_map hn (List.mem_of_find?_eq_some hfind) hmem hsnd
        rw [hsame]
        rfl

/-- A status filter constrains the status if it can be read. -/
theorem enumFilter_all {σ : Type} [DecidableEq σ] {members : List (σ × String)}
    {raw : Option Text} {s : σ} (hn : (members.map Prod.snd).Nodup) :
    (enumFilter members raw).all (s == ·) = true ↔
      ∀ s' name, (s', name) ∈ members → raw = some name.toList → s = s' := by
  rw [Option.all_eq_true]
  constructor
  · intro h s' name hmem hraw
    exact beq_iff_eq.mp (h s' ((enumFilter_eq_some hn).mpr ⟨name, hmem, hraw⟩))
  · intro h s' hs'
    obtain ⟨name, hmem, hraw⟩ := (enumFilter_eq_some hn).mp hs'
    exact beq_iff_eq.mpr (h s' name hmem hraw)

theorem cashIn_nodup : (CashInStatus.members.map Prod.snd).Nodup := by decide

theorem settlement_nodup : (SettlementStatus.members.map Prod.snd).Nodup := by decide

theorem amlWords_nodup : (amlWords.map Prod.snd).Nodup := by decide

theorem dateFilter_eq_some {raw : Option Text} {d : Date} :
    dateFilter raw = some d ↔ ∃ text, raw = some text ∧ fromisoformat (strip text) = some d := by
  cases raw with
  | none => simp [dateFilter]
  | some text =>
    show (if text.isEmpty then none else fromisoformat (strip text)) = some d ↔ _
    cases text with
    | nil =>
      have hempty : fromisoformat (strip []) = none := by decide
      simp [hempty]
    | cons c text => simp

/-- What is left of `q`. -/
theorem term_eq : query.filters.term =
    if strip (query.q.getD []) = [] then none else some (strip (query.q.getD [])) := by
  unfold Filters.term MonitorQuery.filters
  by_cases hempty : strip (query.q.getD []) = []
  · simp only [hempty, if_true, Option.getD_none]
    rfl
  · simp only [hempty, if_false, Option.getD_some, strip_strip]

theorem term_eq_some {term : Text} :
    query.filters.term = some term ↔ ∃ raw, query.q = some raw ∧ strip raw = term ∧ term ≠ [] := by
  rw [term_eq]
  cases query.q with
  | none =>
    have hempty : strip ([] : Text) = [] := rfl
    simp [hempty]
  | some raw =>
    by_cases hempty : strip raw = []
    · simp only [Option.getD_some, hempty, if_true]
      constructor
      · intro h
        cases h
      · rintro ⟨_, hraw, rfl, hne⟩
        exact absurd hempty (by rwa [Option.some.inj hraw])
    · simp only [Option.getD_some, hempty, if_false, Option.some.injEq]
      constructor
      · rintro rfl
        exact ⟨raw, rfl, rfl, hempty⟩
      · rintro ⟨_, rfl, rfl, -⟩
        rfl

/-! ## §4. Dates. -/

theorem whenGiven_ok {α β : Type} {f : α → Except Exn β} {a : Option α} {b : Option β}
    (h : whenGiven f a = .ok b) :
    (a = none ∧ b = none) ∨ ∃ a₀ b₀, a = some a₀ ∧ b = some b₀ ∧ f a₀ = .ok b₀ := by
  cases a with
  | none =>
    cases h
    exact .inl ⟨rfl, rfl⟩
  | some a =>
    cases hf : f a with
    | error e =>
      rw [whenGiven, hf] at h
      cases h
    | ok b₀ =>
      rw [whenGiven, hf] at h
      cases h
      exact .inr ⟨a, b₀, rfl, rfl, hf⟩

theorem whenGiven_isOk {α β : Type} {f : α → Except Exn β} {a : Option α}
    (h : ∀ a₀, a = some a₀ → ∃ b, f a₀ = .ok b) : ∃ b, whenGiven f a = .ok b := by
  cases a with
  | none => exact ⟨none, rfl⟩
  | some a =>
    obtain ⟨b, hb⟩ := h a rfl
    exact ⟨some b, by rw [whenGiven, hb]; rfl⟩

theorem dayBounds_ok {d : Date} {τ : Nat} :
    dayBounds zone d = .ok τ ↔ zone.startUtc d = some τ := by
  unfold dayBounds
  cases zone.startUtc d <;> simp

theorem dayAfterBounds_ok {d : Date} {τ : Nat} :
    dayAfterBounds zone d = .ok τ ↔ ∃ d', d.next = some d' ∧ zone.startUtc d' = some τ := by
  unfold dayAfterBounds
  cases d.next with
  | none => simp
  | some d' => simp [dayBounds_ok]

/-- **The first bound**: from the beginning of the local day. -/
theorem since_all {raw : Option Text} {since : Option Nat} {τ : Nat}
    (h : whenGiven (dayBounds zone) (dateFilter raw) = .ok since) :
    since.all (fun n => decide (n ≤ τ)) = true ↔ ∀ text d, raw = some text →
      fromisoformat (strip text) = some d → (d.ordinal : Int) ≤ zone.localDay τ := by
  rcases whenGiven_ok h with ⟨hnone, rfl⟩ | ⟨d, n, hd, rfl, hn⟩
  · refine ⟨fun _ text d hraw hd => ?_, fun _ => rfl⟩
    rw [dateFilter_eq_some.mpr ⟨text, hraw, hd⟩] at hnone
    cases hnone
  · rw [Option.all_some, decide_eq_true_eq, zone.startUtc_eq_some (dayBounds_ok.mp hn)]
    constructor
    · intro hle text d' hraw hd'
      have hsame := dateFilter_eq_some.mpr ⟨text, hraw, hd'⟩
      rw [hd, Option.some.injEq] at hsame
      exact hsame ▸ hle
    · intro hall
      obtain ⟨text, hraw, hd⟩ := dateFilter_eq_some.mp hd
      exact hall text d hraw hd

/-- **The second bound**: to the end of the local day. -/
theorem before_all {raw : Option Text} {before : Option Nat} {τ : Nat}
    (h : whenGiven (dayAfterBounds zone) (dateFilter raw) = .ok before) :
    before.all (fun n => decide (τ < n)) = true ↔ ∀ text d, raw = some text →
      fromisoformat (strip text) = some d → zone.localDay τ ≤ d.ordinal := by
  rcases whenGiven_ok h with ⟨hnone, rfl⟩ | ⟨d, n, hd, rfl, hn⟩
  · refine ⟨fun _ text d hraw hd => ?_, fun _ => rfl⟩
    rw [dateFilter_eq_some.mpr ⟨text, hraw, hd⟩] at hnone
    cases hnone
  · obtain ⟨d', hnext, hstart⟩ := dayAfterBounds_ok.mp hn
    have hbound : τ < n ↔ zone.localDay τ ≤ d.ordinal := by
      have hle := zone.startUtc_eq_some hstart τ
      rw [Date.next_ordinal hnext] at hle
      omega
    rw [Option.all_some, decide_eq_true_eq, hbound]
    constructor
    · intro hle text d' hraw hd'
      have hsame := dateFilter_eq_some.mpr ⟨text, hraw, hd'⟩
      rw [hd, Option.some.injEq] at hsame
      exact hsame ▸ hle
    · intro hall
      obtain ⟨text, hraw, hd⟩ := dateFilter_eq_some.mp hd
      exact hall text d hraw hd

/-! ## §5. The term. -/

theorem likePattern_eq {F : Folding} {term : Text} (h : '\x00' ∉ term) :
    ∃ q, tokens (term.map F.fold ++ ['%']) = some q ∧ likePattern F term = .ok (.any :: q) := by
  obtain ⟨q, hq, -⟩ := SqlLike.sample_accepted (term.map F.fold)
  have hpattern : ("%".toList ++ term ++ "%".toList).map F.fold
      = '%' :: (term.map F.fold ++ ['%']) := by
    simp [F.kept '%' rfl]
  refine ⟨q, hq, ?_⟩
  unfold likePattern
  rw [if_neg h, hpattern, tokens, hq]
  rfl

/-- A term that is searched for has no NUL character. -/
theorem likePattern_ok {F : Folding} {term : Text} {p : List SqlLike.Token}
    (h : likePattern F term = .ok p) : '\x00' ∉ term := by
  intro hmem
  unfold likePattern at h
  rw [if_pos hmem] at h
  cases h

/-- **A plain term is searched for as it stands.** -/
theorem ilike_plain {term column : Text} {q : List SqlLike.Token}
    (hplain : ∀ c ∈ term, isSpecial c = false)
    (hq : tokens (term.map F.fold ++ ['%']) = some q) :
    ilike F (.any :: q) column = true ↔ F.Contains column term := by
  have hfolded : ∀ c ∈ term.map F.fold, isSpecial c = false := by
    intro c hc
    obtain ⟨d, hd, rfl⟩ := List.mem_map.mp hc
    rw [F.special]
    exact hplain d hd
  have hclosing : tokens ['%'] = some [.any] := rfl
  rw [SqlLike.tokens_plain hfolded, hclosing, Option.map_some] at hq
  obtain rfl : (term.map F.fold).map SqlLike.Token.lit ++ [.any] = q := Option.some.inj hq
  exact SqlLike.accepts_contains

theorem matchesParty_iff {p : List SqlLike.Token} :
    matchesParty F tables p x = true ↔ ∃ text, PartyText tables x text ∧ ilike F p text = true := by
  unfold matchesParty
  simp only [Bool.or_eq_true, Option.any_eq_true]
  constructor
  · rintro ((⟨user, h, hm⟩ | ⟨user, h, hm⟩) | ⟨b, h, hm⟩)
    · rcases hm with hm | hm
      · exact ⟨_, .sender h (.inl rfl), hm⟩
      · exact ⟨_, .sender h (.inr rfl), hm⟩
    · obtain ⟨u, hu, h⟩ := Option.bind_eq_some_iff.mp h
      rcases hm with hm | hm
      · exact ⟨_, .recipient hu h (.inl rfl), hm⟩
      · exact ⟨_, .recipient hu h (.inr rfl), hm⟩
    · rcases hm with hm | ⟨email, hemail, hm⟩
      · exact ⟨_, .beneficiary h (.inl rfl), hm⟩
      · exact ⟨_, .beneficiary h (.inr hemail), hm⟩
  · rintro ⟨text, hparty, hm⟩
    cases hparty with
    | sender h ht =>
      refine .inl (.inl ⟨_, h, ?_⟩)
      rcases ht with rfl | rfl
      · exact .inl hm
      · exact .inr hm
    | @recipient u user _ hu h ht =>
      refine .inl (.inr ⟨user, Option.bind_eq_some_iff.mpr ⟨u, hu, h⟩, ?_⟩)
      rcases ht with rfl | rfl
      · exact .inl hm
      · exact .inr hm
    | beneficiary h ht =>
      refine .inr ⟨_, h, ?_⟩
      rcases ht with rfl | ht
      · exact .inl hm
      · exact .inr ⟨text, ht, hm⟩

/-! ## §6. The listing. -/

/-- A term, if there is one, is found in the row. -/
def TermMatches (F : Folding) (tables : Tables) (query : MonitorQuery) (x : Txn) : Prop :=
  ∀ term q, query.filters.term = some term → tokens (term.map F.fold ++ ['%']) = some q →
    matchesParty F tables (.any :: q) x = true

/-- What is listed of a query that is answered. -/
structure Listed (zone : Zone) (F : Folding) (tables : Tables) (query : MonitorQuery)
    (x : Txn) : Prop where
  cashin : ∀ status name, (status, name) ∈ CashInStatus.members →
    query.cashin = some name.toList → x.cashinStatus = status
  settlement : ∀ status name, (status, name) ∈ SettlementStatus.members →
    query.settlement = some name.toList → x.settlementStatus = status
  covered : query.Covers zone x.createdAt
  aml : ∀ raw flag word, query.aml = some raw → (flag, word) ∈ amlWords →
    lower (strip raw) = word.toList → x.amlFlagged = flag
  term : TermMatches F tables query x

theorem amlFilter_all : (amlFilter query.aml).all (x.amlFlagged == ·) = true ↔
    ∀ raw flag word, query.aml = some raw → (flag, word) ∈ amlWords →
      lower (strip raw) = word.toList → x.amlFlagged = flag := by
  unfold amlFilter
  rw [enumFilter_all amlWords_nodup]
  cases query.aml with
  | none =>
    refine ⟨fun _ raw flag word h => absurd h (by simp), fun _ flag word hmem hword => ?_⟩
    have hblank : lower (strip []) = [] := rfl
    rw [Option.getD_none, hblank] at hword
    simp only [amlWords, List.mem_cons, Prod.mk.injEq, List.not_mem_nil, or_false] at hmem
    rcases hmem with ⟨-, rfl⟩ | ⟨-, rfl⟩ | ⟨-, rfl⟩ | ⟨-, rfl⟩ <;> simp at hword
  | some raw =>
    simp only [Option.getD_some, Option.some.injEq]
    constructor
    · rintro h _ flag word rfl hmem hword
      exact h flag word hmem hword
    · intro h flag word hmem hword
      exact h raw flag word rfl hmem hword

theorem pattern_all {pattern : Option (List SqlLike.Token)}
    (h : whenGiven (likePattern F) query.filters.term = .ok pattern) :
    pattern.all (fun p => matchesParty F tables p x) = true ↔ TermMatches F tables query x := by
  rcases whenGiven_ok h with ⟨hnone, rfl⟩ | ⟨term, p, hterm, rfl, hp⟩
  · refine ⟨fun _ term q hterm _ => ?_, fun _ => rfl⟩
    rw [hnone] at hterm
    cases hterm
  · obtain ⟨q, hq, hpattern⟩ := likePattern_eq (likePattern_ok hp)
    obtain rfl : .any :: q = p := Except.ok.inj (hpattern.symm.trans hp)
    rw [Option.all_some]
    constructor
    · intro hm term' q' hterm' hq'
      obtain rfl : term = term' := Option.some.inj (hterm.symm.trans hterm')
      obtain rfl : q = q' := Option.some.inj (hq.symm.trans hq')
      exact hm
    · intro hm
      exact hm term q hterm hq

theorem selects_iff {since before : Option Nat} {pattern : Option (List SqlLike.Token)}
    (hsince : whenGiven (dayBounds zone) query.filters.dateFrom = .ok since)
    (hbefore : whenGiven (dayAfterBounds zone) query.filters.dateTo = .ok before)
    (hpattern : whenGiven (likePattern F) query.filters.term = .ok pattern) :
    selects F tables query.filters since before pattern x = true ↔
      Listed zone F tables query x := by
  have hcashin : query.filters.cashinStatus.all (x.cashinStatus == ·) = true ↔ _ :=
    enumFilter_all cashIn_nodup
  have hsettlement : query.filters.settlementStatus.all (x.settlementStatus == ·) = true ↔ _ :=
    enumFilter_all settlement_nodup
  have haml : query.filters.amlFlagged.all (x.amlFlagged == ·) = true ↔ _ := amlFilter_all
  unfold selects
  simp only [Bool.and_eq_true]
  rw [hcashin, hsettlement, since_all hsince, before_all hbefore, haml, pattern_all hpattern]
  constructor
  · rintro ⟨⟨⟨⟨⟨hcashin, hsettlement⟩, hfrom⟩, hto⟩, haml⟩, hterm⟩
    exact ⟨hcashin, hsettlement, ⟨hfrom, hto⟩, haml, hterm⟩
  · intro h
    exact ⟨⟨⟨⟨⟨h.cashin, h.settlement⟩, h.covered.dateFrom⟩, h.covered.dateTo⟩, h.aml⟩, h.term⟩

/-- **What is answered, and with what**: nothing raises exactly if both dates can be written as
instants and the term as a text. -/
theorem transactionMonitor_ok {result : List (Nat × Txn)}
    (h : transactionMonitor zone F tables query = .ok result) :
    ((∀ raw d, query.dateFrom = some raw → fromisoformat (strip raw) = some d →
        0 ≤ zone.midnight d.ordinal) ∧
      (∀ raw d, query.dateTo = some raw → fromisoformat (strip raw) = some d →
        d.ordinal < maxOrdinal) ∧ ∀ raw, query.q = some raw → '\x00' ∉ strip raw) ∧
    ∃ P : Txn → Bool, (∀ x, P x = true ↔ Listed zone F tables query x) ∧
      result = ((tables.transactions.filter (fun row => P row.2)).mergeSort newestFirst).take
        monitorLimit := by
  unfold transactionMonitor listTransactions at h
  -- each of the three may raise, and the page is answered only if none does
  cases hsince : whenGiven (dayBounds zone) query.filters.dateFrom with
  | error e =>
    rw [hsince] at h
    cases h
  | ok since =>
    cases hbefore : whenGiven (dayAfterBounds zone) query.filters.dateTo with
    | error e =>
      rw [hsince, hbefore] at h
      cases h
    | ok before =>
      cases hpattern : whenGiven (likePattern F) query.filters.term with
      | error e =>
        rw [hsince, hbefore, hpattern] at h
        cases h
      | ok pattern =>
        rw [hsince, hbefore, hpattern] at h
        cases h
        refine ⟨⟨fun raw d hraw hd => ?_, fun raw d hraw hd => ?_, fun raw hraw => ?_⟩,
          selects F tables query.filters since before pattern, fun x => ?_, rfl⟩
        · have hgiven := dateFilter_eq_some.mpr ⟨raw, hraw, hd⟩
          rcases whenGiven_ok hsince with ⟨hnone, -⟩ | ⟨d', n, hd', -, hn⟩
          · cases hnone.symm.trans hgiven
          · obtain rfl : d' = d := Option.some.inj (hd'.symm.trans hgiven)
            rw [← Zone.startUtc_isSome, dayBounds_ok.mp hn]
            rfl
        · have hgiven := dateFilter_eq_some.mpr ⟨raw, hraw, hd⟩
          rcases whenGiven_ok hbefore with ⟨hnone, -⟩ | ⟨d', n, hd', -, hn⟩
          · cases hnone.symm.trans hgiven
          · obtain rfl : d' = d := Option.some.inj (hd'.symm.trans hgiven)
            obtain ⟨d'', hnext, -⟩ := dayAfterBounds_ok.mp hn
            rw [← Date.next_isSome, hnext]
            rfl
        · by_cases hempty : strip raw = []
          · simp [hempty]
          · have hgiven := term_eq_some.mpr ⟨raw, hraw, rfl, hempty⟩
            rcases whenGiven_ok hpattern with ⟨hnone, -⟩ | ⟨term, p, hterm, -, hp⟩
            · cases hnone.symm.trans hgiven
            · obtain rfl : term = strip raw := Option.some.inj (hterm.symm.trans hgiven)
              exact likePattern_ok hp
        · exact selects_iff hsince hbefore hpattern

/-- Nothing else raises. -/
theorem transactionMonitor_isOk
    (hfrom : ∀ raw d, query.dateFrom = some raw → fromisoformat (strip raw) = some d →
      0 ≤ zone.midnight d.ordinal)
    (hto : ∀ raw d, query.dateTo = some raw → fromisoformat (strip raw) = some d →
      d.ordinal < maxOrdinal)
    (hnul : ∀ raw, query.q = some raw → '\x00' ∉ strip raw) :
    ∃ result, transactionMonitor zone F tables query = .ok result := by
  obtain ⟨since, hsince⟩ : ∃ b, whenGiven (dayBounds zone) query.filters.dateFrom = .ok b := by
    refine whenGiven_isOk fun d hd => ?_
    obtain ⟨raw, hraw, hd⟩ := dateFilter_eq_some.mp hd
    obtain ⟨n, hn⟩ := Option.isSome_iff_exists.mp (Zone.startUtc_isSome.mpr (hfrom raw d hraw hd))
    exact ⟨n, dayBounds_ok.mpr hn⟩
  obtain ⟨before, hbefore⟩ : ∃ b, whenGiven (dayAfterBounds zone) query.filters.dateTo = .ok b := by
    refine whenGiven_isOk fun d hd => ?_
    obtain ⟨raw, hraw, hd⟩ := dateFilter_eq_some.mp hd
    obtain ⟨d', hnext⟩ := Option.isSome_iff_exists.mp (Date.next_isSome.mpr (hto raw d hraw hd))
    have hstart : (zone.startUtc d').isSome = true := Zone.startUtc_next hnext
    obtain ⟨n, hn⟩ := Option.isSome_iff_exists.mp hstart
    exact ⟨n, dayAfterBounds_ok.mpr ⟨d', hnext, hn⟩⟩
  obtain ⟨pattern, hpattern⟩ : ∃ b, whenGiven (likePattern F) query.filters.term = .ok b := by
    refine whenGiven_isOk fun term hterm => ?_
    obtain ⟨raw, hraw, rfl, -⟩ := term_eq_some.mp hterm
    obtain ⟨q, -, hq⟩ := likePattern_eq (F := F) (hnul raw hraw)
    exact ⟨_, hq⟩
  unfold transactionMonitor listTransactions
  rw [hsince, hbefore, hpattern]
  exact ⟨_, rfl⟩

/-- What is listed comes newest first. -/
theorem isNewest_mergeSort {rows : List (Nat × Txn)} {limit : Nat} {P : Txn → Bool}
    {Q : Txn → Prop} (h : ∀ x, P x = true ↔ Q x) :
    IsNewest limit rows Q
      (((rows.filter (fun row => P row.2)).mergeSort newestFirst).take limit) := by
  classical
  refine ⟨(rows.filter (fun row => P row.2)).mergeSort newestFirst, ?_, ?_, rfl⟩
  · have hsame : (fun row : Nat × Txn => decide (Q row.2)) = fun row => P row.2 := by
      funext row
      rw [Bool.eq_iff_iff, decide_eq_true_eq, h]
    rw [hsame]
    exact List.mergeSort_perm _ _
  · have htrans : ∀ a b c, newestFirst a b = true → newestFirst b c = true →
        newestFirst a c = true := by
      intro a b c hab hbc
      exact decide_eq_true (Nat.le_trans (of_decide_eq_true hbc) (of_decide_eq_true hab))
    have htotal : ∀ a b, (newestFirst a b || newestFirst b a) = true := by
      intro a b
      unfold newestFirst
      rcases Nat.le_total a.2.createdAt b.2.createdAt with hle | hle <;> simp [hle]
    have hsorted := List.pairwise_mergeSort htrans htotal (rows.filter (fun row => P row.2))
    exact hsorted.imp fun h => of_decide_eq_true h

theorem IsNewest.eq_nil {limit : Nat} {row : Nat × Txn} {P : Txn → Prop}
    {result : List (Nat × Txn)} (h : IsNewest limit [row] P result) (hP : ¬ P row.2) :
    result = [] := by
  obtain ⟨all, hperm, -, rfl⟩ := h
  have hnone : all = [] :=
    List.Perm.eq_nil (hperm.trans (List.Perm.of_eq (List.filter_cons_of_neg (by simpa using hP))))
  rw [hnone, List.take_nil]

/-- A query whose term is plain lists what it describes. -/
theorem MonitorQuery.Answerable.listed (h : query.Answerable zone) :
    Listed zone F tables query x ↔ Satisfies zone F tables query x := by
  rcases h.plain with hplain | hnothing
  · have hterm : TermMatches F tables query x ↔ ∀ raw, query.q = some raw → strip raw ≠ [] →
        ∃ text, PartyText tables x text ∧ F.Contains text (strip raw) := by
      constructor
      · intro hm raw hraw hne
        obtain ⟨q, hq, -⟩ := likePattern_eq (F := F) (h.noNul raw hraw)
        obtain ⟨text, hparty, hlike⟩ := matchesParty_iff.mp
          (hm (strip raw) q (term_eq_some.mpr ⟨raw, hraw, rfl, hne⟩) hq)
        exact ⟨text, hparty, (ilike_plain (hplain raw hraw) hq).mp hlike⟩
      · intro hall term q hterm hq
        obtain ⟨raw, hraw, rfl, hne⟩ := term_eq_some.mp hterm
        obtain ⟨text, hparty, hcontains⟩ := hall raw hraw hne
        exact matchesParty_iff.mpr
          ⟨text, hparty, (ilike_plain (hplain raw hraw) hq).mpr hcontains⟩
    exact ⟨fun h => ⟨h.cashin, h.settlement, h.covered, h.aml, hterm.mp h.term⟩,
      fun h => ⟨h.cashin, h.settlement, h.covered, h.aml, hterm.mpr h.party⟩⟩
  · exact ⟨fun h => absurd h.covered (hnothing _), fun h => absurd h.covered (hnothing _)⟩

/-! ## §7. A term with special characters. -/

/-- A send that every filter but the term lets through, created at `τ`. -/
def described (query : MonitorQuery) (τ : Nat) : Txn :=
  { CashinService.newTransaction ⟨0, true, true, 0, 0, ⟨0, 0, 0⟩⟩ 0 ⟨0, 0, 0, 0, 0, 0, 0⟩ "" false 0
      τ with
    recipientUserId := none
    cashinStatus := (enumFilter CashInStatus.members query.cashin).getD .pending
    settlementStatus := (enumFilter SettlementStatus.members query.settlement).getD .notQueued
    amlFlagged := (amlFilter query.aml).getD false }

/-- Its sender goes by `name`, and has no email address to speak of. -/
def oneSend (query : MonitorQuery) (τ : Nat) (name : Text) : Tables where
  transactions := [(0, described query τ)]
  users := fun u => if u = 0 then some ⟨name, []⟩ else none
  beneficiaries := fun _ => none

theorem getD_of_all {σ : Type} [DecidableEq σ] {a : Option σ} {s : σ} :
    a.all (a.getD s == ·) = true := by
  cases a <;> simp

theorem described_listed {τ : Nat} (hτ : query.Covers zone τ)
    (hterm : TermMatches F tables query (described query τ)) :
    Listed zone F tables query (described query τ) where
  cashin := (enumFilter_all cashIn_nodup).mp getD_of_all
  settlement := (enumFilter_all settlement_nodup).mp getD_of_all
  covered := hτ
  aml := amlFilter_all.mp getD_of_all
  term := hterm

/-- The pattern of a term takes the term's sample for it. -/
theorem sample_matches {raw : Text} {τ : Nat} (hraw : query.q = some raw) :
    TermMatches F (oneSend query τ (SqlLike.sample (strip raw))) query (described query τ) := by
  intro term q hterm hq
  obtain ⟨raw', hraw', rfl, -⟩ := term_eq_some.mp hterm
  obtain rfl : raw = raw' := Option.some.inj (hraw.symm.trans hraw')
  obtain ⟨q', hq', haccepts⟩ := SqlLike.sample_accepted ((strip raw).map F.fold)
  obtain rfl : q = q' := Option.some.inj (hq.symm.trans hq')
  refine matchesParty_iff.mpr ⟨SqlLike.sample (strip raw), .sender rfl (.inl rfl), ?_⟩
  unfold ilike
  rw [← SqlLike.sample_map]
  exact SqlLike.accepts_any_self haccepts

/-- But the sample does not contain it. -/
theorem sample_not_satisfies {raw : Text} {c : Char} {τ : Nat} (hraw : query.q = some raw)
    (hc : c ∈ strip raw) (hs : isSpecial c = true) :
    ¬ Satisfies zone F (oneSend query τ (SqlLike.sample (strip raw))) query
      (described query τ) := by
  intro h
  have hfolded : c ∈ (strip raw).map F.fold := List.mem_map.mpr ⟨c, hc, F.kept c hs⟩
  obtain ⟨text, hparty, hcontains⟩ := h.party raw hraw (List.ne_nil_of_mem hc)
  cases hparty with
  | @sender user _ hu ht =>
    have huser : (⟨SqlLike.sample (strip raw), []⟩ : User) = user := Option.some.inj hu
    subst huser
    rcases ht with rfl | rfl
    · unfold Folding.Contains at hcontains
      rw [← SqlLike.sample_map] at hcontains
      exact SqlLike.sample_not_contains hfolded hs hcontains
    · -- nothing but the empty text is part of the empty text
      have hempty := List.eq_nil_of_infix_nil hcontains
      rw [hempty] at hfolded
      cases hfolded
  | recipient hr => cases hr
  | beneficiary hb => cases hb

/-! ## §8. The monitor. -/

/-- **THE MONITOR LISTS WHAT THE FILTERS DESCRIBE**, whatever is stored: exactly if both ends of
the date range can be written, the term has no NUL character, and no special character either (or
nothing can be in the range in the first place). -/
theorem monitor_exact (zone : Zone) (F : Folding) (query : MonitorQuery) :
    (∀ tables, ∃ result, transactionMonitor zone F tables query = .ok result ∧
      IsNewest monitorLimit tables.transactions (Satisfies zone F tables query) result) ↔
      query.Answerable zone := by
  constructor
  · intro h
    obtain ⟨_, hok, -⟩ := h ⟨[], fun _ => none, fun _ => none⟩
    obtain ⟨⟨hfrom, hto, hnul⟩, -⟩ := transactionMonitor_ok hok
    refine ⟨hfrom, hto, hnul, ?_⟩
    by_contra hnot
    simp only [not_or, not_forall, not_not] at hnot
    obtain ⟨⟨raw, hraw, c, hc, hs⟩, τ, hτ⟩ := hnot
    have hspecial : isSpecial c = true := by simpa using hs
    -- one send, whose sender is named as the pattern has it
    obtain ⟨result, hok, hnewest⟩ := h (oneSend query τ (SqlLike.sample (strip raw)))
    obtain ⟨-, P, hP, hlisted⟩ := transactionMonitor_ok hok
    have hselected : P (described query τ) = true :=
      (hP _).mpr (described_listed hτ (sample_matches hraw))
    have hone : result = [(0, described query τ)] := by
      rw [hlisted]
      simp [oneSend, hselected, monitorLimit]
    have hnone : result = [] := hnewest.eq_nil (sample_not_satisfies hraw hc hspecial)
    rw [hone] at hnone
    cases hnone
  · intro h tables
    obtain ⟨result, hok⟩ : ∃ result, transactionMonitor zone F tables query = .ok result :=
      transactionMonitor_isOk h.dateFrom h.dateTo h.noNul
    obtain ⟨-, P, hP, rfl⟩ := transactionMonitor_ok hok
    exact ⟨_, hok, isNewest_mergeSort fun x => (hP x).trans h.listed⟩

def johannesburg : Zone := .fixed (7200 * 1000000) (by decide)

/-- The search is for a percent sign. -/
def percentSign : MonitorQuery := ⟨none, none, none, none, some "%".toList, none⟩

/-- The only send is Thandi's. -/
def sendOfThandi : Tables := oneSend percentSign 0 "Thandi".toList

/-- Every send is found under a percent sign. -/
theorem monitor_wildcard :
    ¬ ∀ (query : MonitorQuery) (tables : Tables), ∃ result,
      transactionMonitor johannesburg .ascii tables query = .ok result ∧
        IsNewest monitorLimit tables.transactions (Satisfies johannesburg .ascii tables query)
          result := by
  intro h
  have hfound : ((transactionMonitor johannesburg .ascii sendOfThandi percentSign).toOption.map
      (List.map Prod.fst)) = some [0] := by decide +kernel
  obtain ⟨result, hok, hnewest⟩ := h percentSign sendOfThandi
  -- no name and no email has a percent sign in it
  have hunsatisfied : ¬ Satisfies johannesburg .ascii sendOfThandi percentSign
      (described percentSign 0) := by
    intro hs
    obtain ⟨text, hparty, hcontains⟩ := hs.party "%".toList rfl (by decide)
    cases hparty with
    | @sender user _ hu ht =>
      have huser : (⟨"Thandi".toList, []⟩ : User) = user := Option.some.inj hu
      subst huser
      rcases ht with rfl | rfl
      · exact absurd hcontains (by decide)
      · exact absurd hcontains (by decide)
    | recipient hr => cases hr
    | beneficiary hb => cases hb
  have hnone : result = [] := hnewest.eq_nil hunsatisfied
  rw [hok, hnone] at hfound
  cases hfound

end Orbyt.Monitor
