import PhiTransport.Api.Scalar
import PhiTransport.Base.Json.Numbers

/-!
# What a placeholder list says on the wire

`%k` picks the `k`-th element of the array, so the elements have to stand where
the values stood, and an element may depend on its own value only. `Carries`
is what a reader finds for a value: the exact integer for an integer, and for a
finite double a number that is read as that double and no other.
-/

namespace PhiTransport

open Octets Rfc8259

/-- A double is written as a JSON number that is read back as that double. -/
def RecoversDoubles (toChars : ToChars) : Prop :=
  ∀ entry q h t, Double.value entry = .finite q h → toChars entry = some t →
    ∃ n : Number, t = n.text ∧ Binary64.RoundsTo n.value q

/-- The buffer is large enough for the finite doubles of the list. -/
def FitsBuffer (toChars : ToChars) (values : ScalarList) : Prop :=
  ∀ entry, Double.isFinite entry = true → Scalar.double entry ∈ values →
    ∃ t, toChars entry = some t

theorem exists_value {entry : Double} (h : entry.isFinite = true) :
    ∃ q hq, entry.value = .finite q hq := by
  rw [Double.isFinite] at h
  cases hvalue : entry.value with
  | nan => rw [hvalue] at h; exact absurd h Bool.false_ne_true
  | inf negative => rw [hvalue] at h; exact absurd h Bool.false_ne_true
  | finite q hq => exact ⟨q, hq, rfl⟩

theorem RecoversDoubles.writesNumbers {toChars : ToChars} (hc : RecoversDoubles toChars) :
    WritesNumbers toChars := by
  intro entry t hfin ht
  obtain ⟨q, hq, hvalue⟩ := exists_value hfin
  obtain ⟨n, hn, -⟩ := hc entry q hq t hvalue ht
  exact ⟨n, hn⟩

/-- There is nothing to put in the place of the scalar. -/
def Scalar.isNull : Scalar → Bool
  | .monostate => true
  | .double entry => !entry.isFinite
  | _ => false

/-- The JSON value `v` has the scalar in it. -/
def Carries (v : Json) : Scalar → Prop
  | .monostate => v = .null
  | .boolean entry => v = .bool entry
  | .int64 entry => ∃ n : Number, v = .num n ∧ n.frac = [] ∧ n.exp = none ∧ n.value = entry.toInt
  | .double entry =>
      match entry.value with
      | .finite q _ => ∃ n : Number, v = .num n ∧ ∀ r, Binary64.RoundsTo n.value r ↔ r = q
      | _ => v = .null
  | .string entry => v = .str entry

section

variable {toChars : ToChars} {v : Json} {value : Scalar}

theorem eq_null_iff_of_ne {w : Json} (h : v = w) (hw : w ≠ .null) : v = .null ↔ false = true := by
  rw [h]
  exact iff_of_false hw Bool.false_ne_true

theorem scalarJson_eq_null_iff (h : ScalarJson toChars v value) :
    v = .null ↔ value.isNull = true := by
  cases value with
  | monostate => exact iff_of_true h rfl
  | boolean entry => exact eq_null_iff_of_ne h Json.noConfusion
  | int64 entry => exact eq_null_iff_of_ne h Json.noConfusion
  | string entry => exact eq_null_iff_of_ne h Json.noConfusion
  | double entry =>
      rw [ScalarJson] at h
      show v = .null ↔ (!entry.isFinite) = true
      cases hfin : entry.isFinite with
      | true =>
          rw [hfin, if_pos rfl] at h
          obtain ⟨n, hn, -⟩ := h
          exact eq_null_iff_of_ne hn Json.noConfusion
      | false =>
          rw [hfin, if_neg Bool.false_ne_true] at h
          exact iff_of_true h rfl

/-- The number written for a double that fits is read as that double only. -/
theorem carries_double (hc : RecoversDoubles toChars) {entry : Double} {t : Bytes}
    (hfin : entry.isFinite = true) (ht : toChars entry = some t)
    (h : ScalarJson toChars v (.double entry)) : Carries v (.double entry) := by
  obtain ⟨q, hq, hvalue⟩ := exists_value hfin
  rw [ScalarJson, if_pos hfin] at h
  obtain ⟨n, rfl, hn⟩ := h
  obtain ⟨n', rfl, hround⟩ := hc entry q hq t hvalue ht
  have htext : n.text = n'.text := by
    rw [hn, doubleToText, ht]
    rfl
  -- one text has one number in it
  have hsame : Json.num n = .num n' := by
    apply text_unique (text_number n)
    rw [htext]
    exact text_number n'
  rw [Json.num.inj hsame, Carries, hvalue]
  refine ⟨n', rfl, fun r => ?_⟩
  constructor
  · intro hr
    exact hr.unique hround
  · rintro rfl
    exact hround

theorem carries_of_scalarJson (hc : RecoversDoubles toChars) {values : ScalarList}
    (hfit : FitsBuffer toChars values) (hmem : value ∈ values) (h : ScalarJson toChars v value) :
    Carries v value := by
  cases value with
  | monostate => exact h
  | boolean entry => exact h
  | int64 entry => exact ⟨.ofInt entry.toInt, h, rfl, rfl, Number.value_ofInt _⟩
  | string entry => exact h
  | double entry =>
      by_cases hfin : entry.isFinite = true
      · obtain ⟨t, ht⟩ := hfit entry hfin hmem
        exact carries_double hc hfin ht h
      · rw [ScalarJson, if_neg hfin] at h
        rw [Carries]
        cases hvalue : entry.value with
        | nan => exact h
        | inf negative => exact h
        | finite q hq => exact absurd (congrArg Binary64.isFinite hvalue) hfin

end

/-- What a reader finds for one scalar. -/
def elementOf (toChars : ToChars) (value : Scalar) : Json :=
  (readText (scalarToJson toChars value)).getD .null

/-- The elements of the array are made of the scalars one by one. -/
theorem elements_eq_map {toChars : ToChars} (hc : WritesNumbers toChars) {values : ScalarList}
    {vs : List Json} (h : Text (.arr vs) (scalarListToJson toChars values)) :
    vs = values.map (elementOf toChars) := by
  obtain ⟨ws, htext, hws⟩ := text_scalarListToJson hc values
  have hsame : ws = vs := Json.arr.inj (text_unique htext h)
  have hone : List.Forall₂ (fun v value => v = elementOf toChars value) vs values := by
    rw [← hsame]
    refine hws.imp fun v value hv => ?_
    rw [elementOf, readText_of_text hv]
    rfl
  have heq : List.Forall₂ (· = ·) vs (values.map (elementOf toChars)) :=
    List.forall₂_map_right_iff.mpr hone
  rwa [List.forall₂_eq_eq_eq] at heq

/-- **Placeholder lists survive position by position.** The text is an array
with one element a scalar; each element carries its scalar, is null exactly
where there is nothing to carry, and is the same in every list with that scalar
at that place. -/
theorem scalarListToJson_positions {toChars : ToChars} (hc : RecoversDoubles toChars)
    {values : ScalarList} (hfit : FitsBuffer toChars values) :
    ∃ vs : List Json,
      (∀ v, Text v (scalarListToJson toChars values) ↔ v = .arr vs) ∧
      vs.length = values.length ∧
      (∀ (i : ℕ) (h : i < vs.length) (h' : i < values.length),
        Carries (vs.get ⟨i, h⟩) (values.get ⟨i, h'⟩) ∧
          (vs.get ⟨i, h⟩ = .null ↔ (values.get ⟨i, h'⟩).isNull = true)) ∧
      ∀ (values' : ScalarList) (vs' : List Json), Text (.arr vs') (scalarListToJson toChars values') →
        ∀ k : ℕ, values'[k]? = values[k]? → vs'[k]? = vs[k]? := by
  obtain ⟨vs, htext, hvs⟩ := scalarJson_scalarListToJson hc.writesNumbers values
  refine ⟨vs, ?_, hvs.length_eq, ?_, ?_⟩
  · intro v
    constructor
    · intro hv
      exact text_unique hv htext
    · rintro rfl
      exact htext
  · intro i h h'
    have hi := hvs.get h h'
    exact ⟨carries_of_scalarJson hc hfit (List.get_mem _ _) hi, scalarJson_eq_null_iff hi⟩
  · intro values' vs' htext' k hk
    rw [elements_eq_map hc.writesNumbers htext, elements_eq_map hc.writesNumbers htext',
      List.getElem?_map, List.getElem?_map, hk]

/-! ### A list with one scalar of each kind -/

theorem value_minusZeroNumber : minusZeroNumber.value = 0 := by
  have hdigits : natOfDigits (minusZeroNumber.int ++ minusZeroNumber.frac) = 0 := rfl
  rw [Number.value, hdigits, Nat.cast_zero, mul_zero, zero_mul]

theorem recoversDoubles_smallIntegerChars : RecoversDoubles smallIntegerChars := by
  intro entry q hq t hvalue ht
  unfold smallIntegerChars at ht
  split at ht
  · refine ⟨minusZeroNumber, (Option.some.inj ht).symm, ?_⟩
    have hzero : q = 0 := by
      injection hvalue with hzero
      exact hzero.symm
    rw [value_minusZeroNumber, hzero]
    exact Binary64.roundsTo_self Binary64.representable_zero
  · next q' h =>
    injection hvalue with hsame
    subst hsame
    split_ifs at ht with hsmall
    refine ⟨.ofInt q'.num, ?_, ?_⟩
    · rw [Number.text_ofInt]
      exact (Option.some.inj ht).symm
    · rw [Number.value_ofInt, Rat.coe_int_num_of_den_eq_one hsmall.1]
      exact Binary64.roundsTo_self h
  · exact absurd ht (Option.some_ne_none t).symm

/-- Separators and quotes in the string, an integer past `2 ^ 53`, both zeros. -/
def mixedParams : ScalarList :=
  [.monostate, .boolean true, .int64 9007199254740993,
    .double (.of (.finite 0 Binary64.representable_zero)), .double .minusZero,
    .double (.of .nan), .string (ascii "],\",[")]

theorem fitsBuffer_mixedParams : FitsBuffer smallIntegerChars mixedParams := by
  intro entry hfin hmem
  have hentry : entry = .of (.finite 0 Binary64.representable_zero) ∨ entry = .minusZero ∨
      entry = .of .nan := by simpa [mixedParams] using hmem
  rcases hentry with rfl | rfl | rfl
  · exact ⟨decimalInt 0, rfl⟩
  · exact ⟨ascii "-0", rfl⟩
  · exact absurd hfin Bool.false_ne_true

theorem scalarListToJson_positions_mixedParams :
    ∃ vs : List Json,
      (∀ v, Text v (scalarListToJson smallIntegerChars mixedParams) ↔ v = .arr vs) ∧
      vs.length = 7 ∧
      ∀ h : 6 < vs.length, vs.get ⟨6, h⟩ = .str (ascii "],\",[") := by
  obtain ⟨vs, hall, hlen, hat, -⟩ :=
    scalarListToJson_positions recoversDoubles_smallIntegerChars fitsBuffer_mixedParams
  exact ⟨vs, hall, hlen, fun h => (hat 6 h (Nat.lt_succ_self 6)).1⟩

end PhiTransport
