/-
  Orbyt.Guarantees.LedgerRange — a server's ledger coverage is never overstated

  What a chunk of `complete_ledgers` says is `Denotes`, and `renderRanges` is how the server
  writes its list.  A chunk that says nothing gives no coverage, so a server that reports only
  ledgers it holds is believed only about ledgers it holds.  A numeral past the limit of `int`
  says nothing either, which is why only indices within it are read back.

  Main results:
    * `parseChunk_iff` — a chunk is read as what it denotes;
    * `parse_render` — what the server writes is read back;
    * `completeRange_iff` — the platform's range query may answer exactly what
      `has_complete_ledger_range` reads of some server that reports only ledgers it holds;
    * `coverage_not_overstated` — the answer never claims more than the server does.
-/
import Mathlib.Data.Int.ConditionallyCompleteOrder
import Mathlib.Order.Interval.Set.Basic
import Orbyt.Platform.LedgerRange
import Orbyt.Rules.Statements

namespace Orbyt.XrplService

open PyText Set

variable {chunk complete complete' t : Text} {low high start stop : Int} {resp : ServerInfo}

/-! ## §1. What a chunk says. -/

/-- One index, or everything between the numbers on both sides of the first hyphen. -/
inductive Denotes (chunk : Text) : Int → Int → Prop where
  | index {n : Int} (hone : '-' ∉ strip chunk) (hn : int (strip chunk) = some n) :
      Denotes chunk n n
  | range {low high : Int} {a b : Text} (hsplit : strip chunk = a ++ '-' :: b) (hfirst : '-' ∉ a)
      (hlow : int a = some low) (hhigh : int b = some high) : Denotes chunk low high

def Unparseable (chunk : Text) : Prop := ∀ low high, ¬ Denotes chunk low high

/-- The two sides of the first hyphen. -/
theorem splitHyphen_eq {a b : Text} (hfirst : '-' ∉ a) : splitHyphen (a ++ '-' :: b) = (a, b) := by
  have hpass : ∀ c ∈ a, (c != '-') = true := by
    intro c hc
    rw [bne_iff_ne]
    intro he
    exact hfirst (he ▸ hc)
  unfold splitHyphen
  rw [List.takeWhile_append_of_pos hpass, List.dropWhile_append_of_pos hpass]
  simp

theorem exists_splitHyphen (h : '-' ∈ t) :
    t = (splitHyphen t).1 ++ '-' :: (splitHyphen t).2 ∧ '-' ∉ (splitHyphen t).1 := by
  obtain ⟨a, b, rfl, hfirst⟩ := List.eq_append_cons_of_mem h
  rw [splitHyphen_eq hfirst]
  exact ⟨rfl, hfirst⟩

/-- Neither nothing nor `empty` is a number. -/
theorem int_skipped (h : t = [] ∨ t = "empty".toList) : int t = none ∧ '-' ∉ t := by
  obtain rfl | rfl := h <;> decide

/-- **A CHUNK** is read as what it denotes. -/
theorem parseChunk_iff : parseChunk chunk = some (low, high) ↔ Denotes chunk low high := by
  unfold parseChunk
  constructor
  · intro h
    dsimp only at h
    split at h
    · cases h
    split at h
    next hmem =>
      obtain ⟨heq, hfirst⟩ := exists_splitHyphen hmem
      simp only [Option.bind_eq_bind, Option.bind_eq_some_iff, Option.pure_def, Option.some.injEq,
        Prod.mk.injEq] at h
      obtain ⟨low', hlow, high', hhigh, rfl, rfl⟩ := h
      exact .range heq hfirst hlow hhigh
    next hmem =>
      simp only [Option.bind_eq_bind, Option.bind_eq_some_iff, Option.pure_def, Option.some.injEq,
        Prod.mk.injEq] at h
      obtain ⟨n, hn, rfl, rfl⟩ := h
      exact .index hmem hn
  · intro h
    cases h with
    | index hone hn =>
      have hkept : ¬ (strip chunk = [] ∨ strip chunk = "empty".toList) := by
        intro hskip
        rw [(int_skipped hskip).1] at hn
        cases hn
      simp only [if_neg hkept, if_neg hone, hn]
      rfl
    | range hsplit hfirst hlow hhigh =>
      have hmem : '-' ∈ strip chunk := by simp [hsplit]
      have hkept : ¬ (strip chunk = [] ∨ strip chunk = "empty".toList) :=
        fun hskip => (int_skipped hskip).2 hmem
      simp only [if_neg hkept, if_pos hmem]
      simp only [hsplit, splitHyphen_eq hfirst, hlow, hhigh]
      rfl

theorem mem_parse : (low, high) ∈ parseCompleteLedgers complete ↔
    ∃ chunk ∈ split ',' complete, Denotes chunk low high := by
  unfold parseCompleteLedgers
  simp only [List.mem_filterMap, parseChunk_iff]

/-! ## §2. What the server writes. -/

def renderRange (range : ℕ × ℕ) : Text :=
  if range.1 = range.2 then strNat range.1 else strNat range.1 ++ '-' :: strNat range.2

/-- `complete_ledgers`, of a server that holds these ranges. -/
def renderRanges (ranges : List (ℕ × ℕ)) : Text :=
  if ranges = [] then "empty".toList else [','].intercalate (ranges.map renderRange)

/-- What holds of the digits and the hyphen holds of a range as it is written. -/
theorem renderRange_forall {P : Char → Prop} (hdigits : ∀ n < 10, P (Char.ofNat (48 + n)))
    (hhyphen : P '-') {range : ℕ × ℕ} {c : Char} (hc : c ∈ renderRange range) : P c := by
  have hstr : ∀ n, c ∈ strNat n → P c := fun n hn => digit_forall hdigits ((plain_strNat n).2 c hn)
  unfold renderRange at hc
  split at hc
  · exact hstr _ hc
  rw [List.mem_append, List.mem_cons] at hc
  obtain hc | rfl | hc := hc
  · exact hstr _ hc
  · exact hhyphen
  · exact hstr _ hc

theorem strip_renderRange (range : ℕ × ℕ) : strip (renderRange range) = renderRange range := by
  have hsolid : ∀ c ∈ renderRange range, ¬ isSpace c = true := fun c hc =>
    renderRange_forall (P := fun c => ¬ isSpace c = true) (by decide) (by decide) hc
  unfold strip
  rw [List.dropWhile_eq_self_iff.mpr fun _ => hsolid _ (List.getElem_mem _),
    List.rdropWhile_eq_self_iff.mpr fun hne => hsolid _ (List.getLast_mem hne)]

theorem hyphen_not_mem_strNat (n : ℕ) : '-' ∉ strNat n := by
  intro h
  have hd : isAsciiDigit '-' = true := (plain_strNat n).2 _ h
  exact absurd hd (by decide)

/-- A range within the limit of `int` denotes itself. -/
theorem denotes_renderRange {range : ℕ × ℕ} (hle : range.1 ≤ range.2)
    (hlimit : range.2 < 10 ^ maxStrDigits) : Denotes (renderRange range) range.1 range.2 := by
  have hint : ∀ n ≤ range.2, int (strNat n) = some (n : Int) := by
    intro n hn
    rw [int_strNat, if_pos (by omega)]
  by_cases hone : range.1 = range.2
  · rw [← hone]
    have hrender : strip (renderRange range) = strNat range.1 := by
      rw [strip_renderRange, renderRange, if_pos hone]
    apply Denotes.index
    · rw [hrender]
      exact hyphen_not_mem_strNat _
    · rw [hrender]
      exact hint _ hle
  · have hrender : strip (renderRange range) = strNat range.1 ++ '-' :: strNat range.2 := by
      rw [strip_renderRange, renderRange, if_neg hone]
    exact .range hrender (hyphen_not_mem_strNat _) (hint _ hle) (hint _ (Nat.le_refl _))

theorem split_renderRanges {ranges : List (ℕ × ℕ)} (h : ranges ≠ []) :
    split ',' (renderRanges ranges) = ranges.map renderRange := by
  have hno : ∀ chunk ∈ ranges.map renderRange, ',' ∉ chunk := by
    intro chunk hchunk hc
    obtain ⟨range, -, rfl⟩ := List.mem_map.mp hchunk
    exact renderRange_forall (P := fun c => c ≠ ',') (by decide) (by decide) hc rfl
  unfold renderRanges split
  rw [if_neg h, ← List.splitOn_eq_splitOnP]
  exact List.splitOn_intercalate _ hno (by simpa using h)

/-- **ROUND TRIP**: what the server writes is read back as the ranges it holds. -/
theorem parse_render {ranges : List (ℕ × ℕ)}
    (h : ∀ range ∈ ranges, range.1 ≤ range.2 ∧ range.2 < 10 ^ maxStrDigits) :
    parseCompleteLedgers (renderRanges ranges) =
      ranges.map (fun range => ((range.1 : Int), (range.2 : Int))) := by
  by_cases hempty : ranges = []
  · subst hempty
    decide
  unfold parseCompleteLedgers
  rw [split_renderRanges hempty, List.filterMap_map, ← List.filterMap_eq_map]
  apply List.filterMap_congr
  intro range hrange
  obtain ⟨hle, hlimit⟩ := h range hrange
  exact parseChunk_iff.mpr (denotes_renderRange hle hlimit)

/-! ## §3. Coverage. -/

/-- The answer is what one parsed range says. -/
theorem hasCompleteLedgerRange_iff : hasCompleteLedgerRange start stop resp = true ↔
    resp.isSuccessful = true ∧
      ∃ range ∈ parseCompleteLedgers (resp.completeLedgers.getD []),
        range.1 ≤ start ∧ stop ≤ range.2 := by
  unfold hasCompleteLedgerRange
  cases resp.isSuccessful <;> simp

/-- What the server may be asked about is held, if every chunk says what is held. -/
theorem hasCompleteLedgerRange_chunk (h : hasCompleteLedgerRange start stop resp = true) :
    ∃ chunk ∈ split ',' (resp.completeLedgers.getD []), ∃ low high, Denotes chunk low high ∧
      Icc start stop ⊆ Icc low high := by
  obtain ⟨-, ⟨low, high⟩, hmem, hlow, hhigh⟩ := hasCompleteLedgerRange_iff.mp h
  obtain ⟨chunk, hchunk, hdenotes⟩ := mem_parse.mp hmem
  exact ⟨chunk, hchunk, low, high, hdenotes, Icc_subset_Icc hlow hhigh⟩

/-- Every ledger that the list names is one the server holds. -/
def ServerInfo.Reports {κ : Type} (resp : ServerInfo) (L : ValidatedLedger.Ledger κ) : Prop :=
  ∀ chunk ∈ split ',' (resp.completeLedgers.getD []), ∀ first last, Denotes chunk first last →
    ∀ n : ℕ, (n : Int) ∈ Icc first last → L.held n = true

section Served

variable {S : Setting} {i : Nat} {l : Session} {s : World} {window : ℕ × ℕ}

/-- Such a server answers for a window only if it holds the window. -/
theorem hasCompleteLedgerRange_holds {κ : Type} {L : ValidatedLedger.Ledger κ}
    (hreport : resp.Reports L) (h : hasCompleteLedgerRange window.1 window.2 resp = true) :
    L.holds window.1 window.2 := by
  obtain ⟨chunk, hchunk, first, last, hdenotes, hsub⟩ := hasCompleteLedgerRange_chunk h
  intro n hlow hhigh
  have hin : (n : Int) ∈ Icc first last :=
    hsub ⟨Int.ofNat_le.mpr hlow, Int.ofNat_le.mpr hhigh⟩
  exact hreport chunk hchunk first last hdenotes n hin

/-- A server that holds a window can say so. -/
theorem exists_reports {κ : Type} {L : ValidatedLedger.Ledger κ} (hle : window.1 ≤ window.2)
    (hlimit : window.2 < 10 ^ maxStrDigits) (hheld : L.holds window.1 window.2) :
    ∃ resp : ServerInfo, resp.Reports L ∧
      hasCompleteLedgerRange window.1 window.2 resp = true := by
  have hdenotes := denotes_renderRange hle hlimit
  refine ⟨⟨true, some (renderRanges [window])⟩, ?_, ?_⟩
  · intro chunk hchunk first last hsays n hin
    rw [Option.getD_some, split_renderRanges (by simp), List.map_singleton,
      List.mem_singleton] at hchunk
    subst hchunk
    -- a chunk says one thing
    have hsame := (parseChunk_iff.mpr hsays).symm.trans (parseChunk_iff.mpr hdenotes)
    obtain ⟨rfl, rfl⟩ := Prod.mk.inj (Option.some.inj hsame)
    exact hheld n (Int.ofNat_le.mp hin.1) (Int.ofNat_le.mp hin.2)
  · rw [hasCompleteLedgerRange_iff]
    refine ⟨rfl, (window.1, window.2), ?_, le_refl _, le_refl _⟩
    exact mem_parse.mpr ⟨_, by rw [Option.getD_some, split_renderRanges (by simp)]; simp, hdenotes⟩

/-- **THE RANGE QUERY OF THE PLATFORM** may answer exactly what `has_complete_ledger_range`
reads of a server that reports only ledgers it holds. -/
theorem completeRange_iff (hle : window.1 ≤ window.2) (hlimit : window.2 < 10 ^ maxStrDigits)
    (b : Bool) :
    perform S i l s (.flag b) (.completeRange window.1 window.2) = some (.ok b, l, s) ↔
      ∃ resp : ServerInfo, resp.Reports (l.consulted s) ∧
        hasCompleteLedgerRange window.1 window.2 resp = b := by
  cases b with
  | false =>
    -- a server that does not answer reports nothing
    refine ⟨fun _ => ⟨⟨false, none⟩, ?_, rfl⟩, fun _ => rfl⟩
    intro chunk hchunk first last hsays n hin
    have hnone : parseCompleteLedgers [] = [] := by decide
    have hmem := mem_parse.mpr ⟨chunk, hchunk, hsays⟩
    rw [Option.getD_none, hnone] at hmem
    cases hmem
  | true =>
    rw [perform_completeRange]
    constructor
    · intro hheld
      exact exists_reports hle hlimit hheld
    · rintro ⟨resp, hreport, hserved⟩
      exact hasCompleteLedgerRange_holds hreport hserved

end Served

/-- **COVERAGE IS NEVER OVERSTATED.** -/
theorem coverage_not_overstated (start stop : Int) (hwindow : start ≤ stop) :
    -- a true answer is one chunk's word, and true of what the server holds
    (∀ resp, hasCompleteLedgerRange start stop resp = true →
      ∃ chunk ∈ split ',' (resp.completeLedgers.getD []), ∃ low high, Denotes chunk low high ∧
        Icc start stop ⊆ Icc low high) ∧
    (∀ resp, ∀ held : Set Int,
      (∀ chunk ∈ split ',' (resp.completeLedgers.getD []), ∀ low high, Denotes chunk low high →
        Icc low high ⊆ held) →
      hasCompleteLedgerRange start stop resp = true → Icc start stop ⊆ held) ∧
    -- chunks that cannot be parsed add nothing
    (∀ complete complete', (∀ chunk ∈ split ',' complete', chunk ∈ split ',' complete ∨
        Unparseable chunk) →
      hasCompleteLedgerRange start stop ⟨true, some complete'⟩ = true →
      hasCompleteLedgerRange start stop ⟨true, some complete⟩ = true) ∧
    -- what the server writes is read back, as long as `int` reads it
    (∀ ranges : List (ℕ × ℕ), (∀ range ∈ ranges, range.1 ≤ range.2 ∧ range.2 < 10 ^ maxStrDigits) →
      parseCompleteLedgers (renderRanges ranges) =
        ranges.map (fun range => ((range.1 : Int), (range.2 : Int))) ∧
      (hasCompleteLedgerRange start stop ⟨true, some (renderRanges ranges)⟩ = true ↔
        ∃ range ∈ ranges, Icc start stop ⊆ Icc (range.1 : Int) range.2)) := by
  refine ⟨fun resp h => hasCompleteLedgerRange_chunk h, ?_, ?_, ?_⟩
  · intro resp held hreport h
    obtain ⟨chunk, hchunk, low, high, hdenotes, hsub⟩ := hasCompleteLedgerRange_chunk h
    exact hsub.trans (hreport chunk hchunk low high hdenotes)
  · intro complete complete' hadded h
    rw [hasCompleteLedgerRange_iff] at h ⊢
    obtain ⟨hok, ⟨low, high⟩, hmem, hcover⟩ := h
    refine ⟨rfl, (low, high), ?_, hcover⟩
    obtain ⟨chunk, hchunk, hdenotes⟩ := mem_parse.mp hmem
    obtain hold | hjunk := hadded chunk hchunk
    · exact mem_parse.mpr ⟨chunk, hold, hdenotes⟩
    · exact absurd hdenotes (hjunk low high)
  · intro ranges hranges
    have hparse := parse_render hranges
    refine ⟨hparse, ?_⟩
    rw [hasCompleteLedgerRange_iff]
    simp only [Option.getD_some, hparse, List.mem_map, true_and, Icc_subset_Icc_iff hwindow]
    constructor
    · rintro ⟨-, ⟨range, hrange, rfl⟩, hcover⟩
      exact ⟨range, hrange, hcover⟩
    · rintro ⟨range, hrange, hcover⟩
      exact ⟨_, ⟨range, hrange, rfl⟩, hcover⟩

/-- A server that holds the ledgers 5 to 9 and 12 covers 6 to 8. -/
theorem coverage_of_six_to_eight :
    hasCompleteLedgerRange 6 8 ⟨true, some (renderRanges [(5, 9), (12, 12)])⟩ = true := by
  have hlimit : 12 < 10 ^ maxStrDigits :=
    length_strNat_le.mp (show (strNat 12).length ≤ maxStrDigits by decide)
  have hranges : ∀ range ∈ [(5, 9), (12, 12)], range.1 ≤ range.2 ∧ range.2 < 10 ^ maxStrDigits := by
    intro range hrange
    simp only [List.mem_cons, List.not_mem_nil, or_false] at hrange
    obtain rfl | rfl := hrange
    · exact ⟨by decide, lt_trans (by decide) hlimit⟩
    · exact ⟨le_refl _, hlimit⟩
  refine ((coverage_not_overstated 6 8 (by decide)).2.2.2 _ hranges).2.mpr ⟨(5, 9), by simp, ?_⟩
  exact Icc_subset_Icc (by decide) (by decide)

/-- An index past the limit of `int` is lost. -/
theorem parse_render_long {n : ℕ} (h : ¬ n < 10 ^ maxStrDigits) :
    parseCompleteLedgers (renderRanges [(n, n)]) = [] := by
  have hlong : int (strNat n) = none := by rw [int_strNat, if_neg h]
  have hrender : renderRange (n, n) = strNat n := if_pos rfl
  have hstrip : strip (strNat n) = strNat n := by rw [← hrender, strip_renderRange]
  have hskip : parseChunk (strNat n) = none := by
    unfold parseChunk
    simp only [hstrip, if_neg (hyphen_not_mem_strNat n), hlong]
    simp
  unfold parseCompleteLedgers
  rw [split_renderRanges (by simp), List.map_singleton, hrender]
  simp [hskip]

/-- The least numeral that `int` refuses has one digit more than the limit. -/
theorem render_not_parsed :
    parseCompleteLedgers (renderRanges [(10 ^ maxStrDigits, 10 ^ maxStrDigits)]) ≠
      [(((10 ^ maxStrDigits : ℕ) : Int), ((10 ^ maxStrDigits : ℕ) : Int))] := by
  rw [parse_render_long (lt_irrefl _)]
  exact (List.cons_ne_nil _ _).symm

end Orbyt.XrplService
