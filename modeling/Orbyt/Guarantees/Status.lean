/-
  Orbyt.Guarantees.Status — which ids a polling page is answered about

  `selection t c` says it without the loop: the first `MAX_IDS` distinct valid ids of both
  lists, each tagged with what it is asked for as.  The loop's local variables are at every
  round those of `parsed`, of the ids it has been through; once they are full, the ids that
  follow change nothing, which is why the early return is as good as going on.

  Main result: `parseIds_selects`.
-/
import Orbyt.Lib.Selection
import Orbyt.Platform.Status

namespace Orbyt.Status

open PyText Selection

/-! ## §1. What is asked for. -/

/-- The valid ids of one list, tagged. -/
def asked (kind : Kind) (raws : List Text) : List (Kind × Uuid) :=
  raws.filterMap (fun raw => (uuid raw).map (kind, ·))

/-- The first `MAX_IDS` distinct valid ids of `t` followed by `c`. -/
def selection (t c : List Text) : List (Kind × Uuid) :=
  firstDistinct MAX_IDS (asked .t t ++ asked .c c)

/-- The ids of one kind, in their order. -/
def ofKind (kind : Kind) (l : List (Kind × Uuid)) : List Uuid :=
  l.filterMap (fun p => if p.1 = kind then some p.2 else none)

variable {l l' : List (Kind × Uuid)} {kind : Kind} {value : Uuid} {raw : Text}

theorem ofKind_same : ofKind kind (l ++ [(kind, value)]) = ofKind kind l ++ [value] := by
  simp [ofKind]

theorem ofKind_other {kind' : Kind} (h : kind' ≠ kind) :
    ofKind kind (l ++ [(kind', value)]) = ofKind kind l := by
  simp [ofKind, h]

theorem nodup_ofKind (h : l.Nodup) : (ofKind kind l).Nodup := by
  apply h.filterMap
  intro p q id hp hq
  -- both carry the kind asked for and the same id
  simp only [Option.mem_def, Option.ite_none_right_eq_some, Option.some.injEq] at hp hq
  exact Prod.ext (hp.1.trans hq.1.symm) (hp.2.trans hq.2.symm)

/-- Every id is of one of the kinds. -/
theorem length_ofKind : (ofKind .t l).length + (ofKind .c l).length = l.length := by
  induction l with
  | nil => rfl
  | cons p l ih =>
    obtain ⟨kind, value⟩ := p
    unfold ofKind at ih ⊢
    cases kind <;> simp <;> omega

/-! ## §2. The loop. -/

/-- The local variables once the loop has been through the ids `l`. -/
def parsed (l : List (Kind × Uuid)) : Parsed :=
  { seen := firstDistinct MAX_IDS l
    txnIds := ofKind .t (firstDistinct MAX_IDS l)
    cashoutIds := ofKind .c (firstDistinct MAX_IDS l) }

theorem parsed_full (l' : List (Kind × Uuid)) (h : MAX_IDS ≤ (parsed l).seen.length) :
    parsed (l ++ l') = parsed l := by
  unfold parsed
  rw [firstDistinct_full h]

theorem parsed_add (hroom : (parsed l).seen.length < MAX_IDS) (hnew : (kind, value) ∉ l) :
    (parsed l).add kind value = parsed (l ++ [(kind, value)]) := by
  have happ := firstDistinct_new hroom hnew
  unfold parsed
  rw [happ]
  cases kind with
  | t => simp only [Parsed.add, ofKind_same, ofKind_other (show Kind.t ≠ Kind.c by decide)]
  | c => simp only [Parsed.add, ofKind_same, ofKind_other (show Kind.c ≠ Kind.t by decide)]

/-- What a part of the loop that goes through the ids `l'` leaves after `l`: it goes on with
their variables, or returns them, and then they are full. -/
def Went (l l' : List (Kind × Uuid)) (outcome : Except Parsed Parsed) : Prop :=
  outcome = .ok (parsed (l ++ l')) ∨
    outcome = .error (parsed (l ++ l')) ∧ MAX_IDS ≤ (parsed (l ++ l')).seen.length

/-- **ONE ROUND.** -/
theorem parseOne_went (l : List (Kind × Uuid)) (kind : Kind) (raw : Text) :
    Went l (asked kind [raw]) (parseOne kind (parsed l) raw) := by
  unfold parseOne
  by_cases hfull : MAX_IDS ≤ (parsed l).seen.length
  · rw [if_pos hfull]
    right
    rw [parsed_full _ hfull]
    exact ⟨rfl, hfull⟩
  rw [if_neg hfull]
  left
  have hroom : (parsed l).seen.length < MAX_IDS := by omega
  cases hraw : uuid raw with
  | none => simp [asked, hraw]
  | some value =>
    have hasked : asked kind [raw] = [(kind, value)] := by simp [asked, hraw]
    -- while there is room, what has been seen is what has been asked
    have hmem : (kind, value) ∈ (parsed l).seen ↔ (kind, value) ∈ l := mem_firstDistinct hroom
    rw [hasked]
    by_cases hseen : (kind, value) ∈ l
    · simp only [if_pos (hmem.mpr hseen)]
      unfold parsed
      rw [firstDistinct_known hseen]
    · simp only [if_neg (mt hmem.mp hseen)]
      rw [parsed_add hroom hseen]

/-- **THE INNER LOOP**: the rounds one after the other. -/
theorem parseKind_went (l : List (Kind × Uuid)) (kind : Kind) (raws : List Text) :
    Went l (asked kind raws) (parseKind kind (parsed l) raws) := by
  induction raws generalizing l with
  | nil =>
    left
    simp [asked, parseKind]
  | cons raw rest ih =>
    have hasked : l ++ asked kind (raw :: rest) = l ++ asked kind [raw] ++ asked kind rest := by
      rw [List.append_assoc]
      unfold asked
      rw [← List.filterMap_append, List.singleton_append]
    unfold Went parseKind
    rw [hasked]
    obtain hon | ⟨hreturn, hfull⟩ := parseOne_went l kind raw
    · rw [hon]
      exact ih _
    · -- the early return: what follows would have changed nothing
      right
      rw [hreturn, parsed_full _ hfull]
      exact ⟨rfl, hfull⟩

/-! ## §3. The selection. -/

/-- **THE IDS OF A POLL** are the first `MAX_IDS` distinct valid ones of both lists, in
request order and split by kind: none twice, and no more than `MAX_IDS` of both. -/
theorem parseIds_selects (t c : List Text) :
    parseIds t c = (ofKind .t (selection t c), ofKind .c (selection t c)) ∧
      (parseIds t c).1.Nodup ∧ (parseIds t c).2.Nodup ∧
      (parseIds t c).1.length + (parseIds t c).2.length ≤ MAX_IDS := by
  have hids : parseIds t c = (ofKind .t (selection t c), ofKind .c (selection t c)) := by
    have hempty : ({} : Parsed) = parsed [] := rfl
    unfold parseIds
    rw [hempty]
    obtain hon | ⟨hreturn, hfull⟩ := parseKind_went [] .t t
    · rw [hon]
      obtain hend | ⟨hreturn, -⟩ := parseKind_went ([] ++ asked .t t) .c c
      · simp only [Except.bind, hend]
        rfl
      · simp only [Except.bind, hreturn]
        rfl
    · -- the first list has filled the bound
      simp only [hreturn, Except.bind]
      have hsel := parsed_full (asked .c c) hfull
      rw [List.nil_append] at hsel ⊢
      rw [← hsel]
      rfl
  have hnodup := nodup_firstDistinct MAX_IDS (asked .t t ++ asked .c c)
  have hlen := length_firstDistinct_le MAX_IDS (asked .t t ++ asked .c c)
  rw [hids]
  refine ⟨rfl, nodup_ofKind hnodup, nodup_ofKind hnodup, ?_⟩
  rw [length_ofKind]
  exact hlen

end Orbyt.Status
