import PhiTransport.Api.CommandFrame
import Mathlib.Data.Rat.Floor

/-!
# Correlation ids

What the two readers of a `cid` make of it. A number goes through a cast that
drops its fraction and is undefined beyond 64 bits; a string is read digit by
digit, exactly.

- `cidFromNumber_of_ne`, `cidFromNumber_twoPow64` — the number reader in closed
  form, by whether the number is the one the guard misses.
- `cidDigits_eq_some_iff` — the digit loop against the number the digits denote.
-/

namespace PhiTransport

open Octets Nlohmann Rfc8259

/-! ## The number reader -/

theorem representable_twoPow64 : Representable (2 ^ 64) :=
  ⟨1, 64, by norm_num, by norm_num, by norm_num, by norm_num⟩

/-- The least number that is too large for a `CmdId`. -/
def twoPow64 : Binary64 := .finite (2 ^ 64) representable_twoPow64

/-- The integer part of a number in `[0, 2 ^ 64)`. -/
def integerPart : Binary64 → Option ℕ
  | .finite q _ => if 0 ≤ q ∧ q < 2 ^ 64 then some ⌊q⌋₊ else none
  | _ => none

/-- The bound `cidFromNumber` compares with: the largest `CmdId` has rounded up. -/
theorem ofUInt64_maxCmdId : Binary64.ofUInt64 maxCmdId = twoPow64 := by
  have hround : Binary64.roundNat maxCmdId.toNat = 2 ^ 64 := by decide
  have hcast : ((Binary64.roundNat maxCmdId.toNat : ℕ) : ℚ) = 2 ^ 64 := by
    rw [hround]
    norm_num
  unfold Binary64.ofUInt64 twoPow64
  congr 1

theorem trunc_of_nonneg {q : ℚ} (h : 0 ≤ q) : Binary64.trunc q = ⌊q⌋ := by
  rw [Binary64.trunc, Rat.floor_def', Int.tdiv_eq_ediv_of_nonneg (Rat.num_nonneg.mpr h)]

theorem cidFromNumber_finite (q : ℚ) (h : Representable q) :
    cidFromNumber (.finite q h) =
      if q < 0 ∨ 2 ^ 64 < q then .ok none
      else if q = 2 ^ 64 then .error .undefined
      else .ok (some (UInt64.ofNat ⌊q⌋₊)) := by
  unfold cidFromNumber
  rw [ofUInt64_maxCmdId]
  simp only [zeroDouble, twoPow64, Binary64.le, Binary64.lt, decide_eq_true_eq,
    Bool.not_eq_true', decide_eq_false_iff_not, not_le]
  by_cases hneg : q < 0
  · rw [if_pos hneg, if_pos (Or.inl hneg)]
  by_cases hbig : 2 ^ 64 < q
  · rw [if_neg hneg, if_pos hbig, if_pos (Or.inr hbig)]
  -- past both comparisons the cast decides
  have hnonneg : 0 ≤ q := not_lt.mp hneg
  rw [if_neg hneg, if_neg hbig, if_neg (not_or.mpr ⟨hneg, hbig⟩)]
  unfold Binary64.toUInt64
  dsimp only
  rw [trunc_of_nonneg hnonneg]
  by_cases htop : q = 2 ^ 64
  · have hfloor : ⌊(2 : ℚ) ^ 64⌋ = 2 ^ 64 := by norm_num
    rw [if_pos htop, if_neg]
    · rfl
    · rw [htop, hfloor]
      omega
  · rw [if_neg htop, if_pos]
    · rfl
    · constructor
      · exact Int.floor_nonneg.mpr hnonneg
      · apply Int.floor_lt.mpr
        exact_mod_cast lt_of_le_of_ne (not_lt.mp hbig) htop

theorem cidFromNumber_of_ne {value : Binary64} (h : value ≠ twoPow64) :
    cidFromNumber value = .ok ((integerPart value).map UInt64.ofNat) := by
  cases value with
  | nan => rfl
  | inf negative =>
      unfold cidFromNumber
      rw [ofUInt64_maxCmdId]
      cases negative <;> rfl
  | finite q hq =>
      rw [cidFromNumber_finite, integerPart]
      have hne : q ≠ 2 ^ 64 := by
        rintro rfl
        exact h rfl
      by_cases hout : q < 0 ∨ 2 ^ 64 < q
      · rw [if_pos hout, if_neg]
        · rfl
        · rintro ⟨hlow, hhigh⟩
          rcases hout with hneg | hbig
          · exact absurd hneg (not_lt.mpr hlow)
          · exact absurd hbig (not_lt.mpr hhigh.le)
      · rw [if_neg hout, if_neg hne, if_pos]
        · rfl
        · rw [not_or, not_lt, not_lt] at hout
          exact ⟨hout.1, lt_of_le_of_ne hout.2 hne⟩

theorem cidFromNumber_twoPow64 : cidFromNumber twoPow64 = .error .undefined := by
  unfold twoPow64
  rw [cidFromNumber_finite, if_neg, if_pos rfl]
  norm_num

theorem cidFromNumber_defined {value : Binary64} :
    (∃ cid, cidFromNumber value = .ok cid) ↔ value ≠ twoPow64 := by
  constructor
  · rintro ⟨cid, hcid⟩ rfl
    rw [cidFromNumber_twoPow64] at hcid
    cases hcid
  · intro h
    exact ⟨_, cidFromNumber_of_ne h⟩

/-! ## Integers through a double -/

theorem finite_eq_twoPow64_iff {q : ℚ} {h : Representable q} :
    Binary64.finite q h = twoPow64 ↔ q = 2 ^ 64 := by
  unfold twoPow64
  rw [Binary64.finite.injEq]

theorem ofUInt64_eq_twoPow64_iff (n : UInt64) :
    Binary64.ofUInt64 n = twoPow64 ↔ ¬n.toNat < 2 ^ 64 - 1024 := by
  have hle : Binary64.roundNat n.toNat ≤ 2 ^ 64 := Binary64.roundNat_le (k := 11) n.toNat_lt
  unfold Binary64.ofUInt64
  rw [finite_eq_twoPow64_iff, ← Binary64.roundNat_lt_iff n.toNat_lt]
  constructor
  · intro heq hlt
    have : Binary64.roundNat n.toNat = 2 ^ 64 := by exact_mod_cast heq
    omega
  · intro hge
    have : Binary64.roundNat n.toNat = 2 ^ 64 := by omega
    exact_mod_cast this

theorem ofInt64_ne_twoPow64 (i : Int64) : Binary64.ofInt64 i ≠ twoPow64 := by
  have hlow := i.le_toInt
  have hhigh := i.toInt_lt
  have hround := (Binary64.roundNat_lt_iff (n := i.toInt.natAbs) (by omega)).mpr (by omega)
  unfold Binary64.ofInt64
  split
  · intro heq
    rw [finite_eq_twoPow64_iff] at heq
    have : (0 : ℚ) ≤ (Binary64.roundNat i.toInt.natAbs : ℚ) := Nat.cast_nonneg _
    linarith
  · intro heq
    rw [finite_eq_twoPow64_iff] at heq
    have : Binary64.roundNat i.toInt.natAbs = 2 ^ 64 := by exact_mod_cast heq
    omega

theorem cidFromNumber_ofUInt64 (n : CmdId) :
    cidFromNumber (.ofUInt64 n) =
      if Binary64.roundNat n.toNat < 2 ^ 64 then
        .ok (some (UInt64.ofNat (Binary64.roundNat n.toNat)))
      else .error .undefined := by
  by_cases hlt : Binary64.roundNat n.toNat < 2 ^ 64
  · have hne : Binary64.ofUInt64 n ≠ twoPow64 := by
      rw [Ne, ofUInt64_eq_twoPow64_iff, not_not]
      exact (Binary64.roundNat_lt_iff n.toNat_lt).mp hlt
    have hpart : integerPart (.ofUInt64 n) = some (Binary64.roundNat n.toNat) := by
      unfold Binary64.ofUInt64 integerPart
      dsimp only
      rw [if_pos, Nat.floor_natCast]
      exact ⟨Nat.cast_nonneg _, by exact_mod_cast hlt⟩
    rw [cidFromNumber_of_ne hne, hpart, if_pos hlt]
    rfl
  · have htop : Binary64.ofUInt64 n = twoPow64 := by
      rw [ofUInt64_eq_twoPow64_iff]
      exact mt (Binary64.roundNat_lt_iff n.toNat_lt).mpr hlt
    rw [htop, cidFromNumber_twoPow64, if_neg hlt]

/-- **The conversion is defined** for every number but `2 ^ 64`, the value of
the bound itself: there the guard lets a number pass that the cast cannot
take. The last 1024 integers a client may send are rounded to it. -/
theorem cidFromNumber_defined_iff (value : Binary64) (n : UInt64) (i : Int64) :
    (cidFromNumber value = .ok ((integerPart value).map UInt64.ofNat) ↔ value ≠ twoPow64) ∧
    Binary64.ofUInt64 maxCmdId = twoPow64 ∧
    ((∃ cid, readCid (.numberUnsigned n) = .ok cid) ↔ n.toNat < 2 ^ 64 - 1024) ∧
    ∃ cid, readCid (.numberInteger i) = .ok cid := by
  refine ⟨⟨?_, cidFromNumber_of_ne⟩, ofUInt64_maxCmdId, ?_, ?_⟩
  · intro hok
    exact cidFromNumber_defined.mp ⟨_, hok⟩
  · rw [readCid_number rfl, cidFromNumber_defined, Ne, ofUInt64_eq_twoPow64_iff, not_not]
  · rw [readCid_number rfl, cidFromNumber_defined]
    exact ofInt64_ne_twoPow64 i

/-- The bound passes its own guard, and so does the largest integer `cid`. -/
theorem cidFromNumber_undefined :
    cidFromNumber twoPow64 = .error .undefined ∧
      readCid (.numberUnsigned 18446744073709551615) = .error .undefined := by
  refine ⟨cidFromNumber_twoPow64, ?_⟩
  have htop : Binary64.ofUInt64 18446744073709551615 = twoPow64 := by
    rw [ofUInt64_eq_twoPow64_iff]
    decide
  rw [readCid_number rfl, htop, cidFromNumber_twoPow64]

/-! ## Numbers as ids -/

/-- `value` is the number of the id `n`. -/
def Denotes (value : Binary64) (n : CmdId) : Prop := ∃ h, value = .finite n.toNat h

/-- An accepted number is returned as itself, and what is no id is refused. -/
def ExactCid (value : Binary64) : Prop :=
  (∀ n, cidFromNumber value = .ok (some n) → Denotes value n) ∧
    ((∀ n, ¬Denotes value n) → cidFromNumber value = .ok none)

/-- The number has a fraction to lose: it is between `0` and `2 ^ 64` and not whole. -/
def HasFraction : Binary64 → Prop
  | .finite q _ => 0 < q ∧ q < 2 ^ 64 ∧ q.den ≠ 1
  | _ => False

/-- If both numbers are accepted and differ, so do their ids. -/
def KeptApart (a b : Binary64) : Prop :=
  ∀ m n, cidFromNumber a = .ok (some m) → cidFromNumber b = .ok (some n) → a ≠ b → m ≠ n

theorem integerPart_lt {value : Binary64} {n : ℕ} (h : integerPart value = some n) :
    n < 2 ^ 64 := by
  unfold integerPart at h
  split at h
  · split_ifs at h with hrange
    rw [← Option.some.inj h, Nat.floor_lt hrange.1]
    exact_mod_cast hrange.2
  · cases h

theorem cidFromNumber_eq_some_iff {value : Binary64} {n : CmdId} :
    cidFromNumber value = .ok (some n) ↔ integerPart value = some n.toNat := by
  by_cases htop : value = twoPow64
  · have hpart : integerPart twoPow64 = none := by
      unfold twoPow64 integerPart
      exact if_neg fun h => lt_irrefl _ h.2
    rw [htop, cidFromNumber_twoPow64, hpart]
    simp
  · rw [cidFromNumber_of_ne htop, Except.ok.injEq, Option.map_eq_some_iff]
    constructor
    · rintro ⟨k, hk, rfl⟩
      rw [UInt64.toNat_ofNat_of_lt' (integerPart_lt hk), hk]
    · intro hk
      exact ⟨_, hk, UInt64.ofNat_toNat⟩

theorem exactCid_of_hasFraction {value : Binary64} (h : HasFraction value) :
    ¬ExactCid value := by
  cases value with
  | nan => exact absurd h id
  | inf negative => exact absurd h id
  | finite q hq =>
      rintro ⟨-, hrefused⟩
      obtain ⟨hpos, hlt, hden⟩ := h
      have hnone : ∀ n, ¬Denotes (.finite q hq) n := by
        rintro n ⟨h', heq⟩
        rw [Binary64.finite.injEq] at heq
        exact hden (heq ▸ Rat.den_natCast _)
      have hpart : integerPart (.finite q hq) = some ⌊q⌋₊ := if_pos ⟨hpos.le, hlt⟩
      have hne : Binary64.finite q hq ≠ twoPow64 := by
        rw [Ne, finite_eq_twoPow64_iff]
        exact hlt.ne
      have := hrefused hnone
      rw [cidFromNumber_of_ne hne, hpart] at this
      cases this

/-- Without a fraction the integer part is the whole number. -/
theorem denotes_of_integerPart {value : Binary64} {n : CmdId} (hfrac : ¬HasFraction value)
    (h : integerPart value = some n.toNat) : Denotes value n := by
  cases value with
  | nan => cases h
  | inf negative => cases h
  | finite q hq =>
      unfold integerPart at h
      dsimp only at h
      split_ifs at h with hrange
      have hden : q.den = 1 := by
        rcases hrange.1.lt_or_eq with hpos | hzero
        · by_contra hden
          exact hfrac ⟨hpos, hrange.2, hden⟩
        · rw [← hzero]
          rfl
      have hnum : ((q.num.toNat : ℕ) : ℚ) = q := by
        have hcast : ((q.num.toNat : ℕ) : ℤ) = q.num :=
          Int.toNat_of_nonneg (Rat.num_nonneg.mpr hrange.1)
        rw [← Int.cast_natCast, hcast]
        exact (Rat.den_eq_one_iff q).mp hden
      have hfloor : ⌊q⌋₊ = q.num.toNat := by
        conv_lhs => rw [← hnum]
        exact Nat.floor_natCast _
      have hq' : q = (n.toNat : ℚ) := by
        rw [← Option.some.inj h, hfloor, hnum]
      exact ⟨hq' ▸ hq, by simp only [hq']⟩

theorem exactCid_of_whole {value : Binary64} (hfrac : ¬HasFraction value)
    (hne : value ≠ twoPow64) : ExactCid value := by
  have hexact : ∀ n, cidFromNumber value = .ok (some n) → Denotes value n := by
    intro n hn
    exact denotes_of_integerPart hfrac (cidFromNumber_eq_some_iff.mp hn)
  refine ⟨hexact, fun hnone => ?_⟩
  have hok := cidFromNumber_of_ne hne
  cases hpart : integerPart value with
  | none => rw [hok, hpart, Option.map_none]
  | some k =>
      rw [hpart, Option.map_some] at hok
      exact absurd (hexact _ hok) (hnone _)

theorem not_exactCid_twoPow64 : ¬ExactCid twoPow64 := by
  rintro ⟨-, hrefused⟩
  have hnone : ∀ n, ¬Denotes twoPow64 n := by
    rintro n ⟨h, heq⟩
    have htop := finite_eq_twoPow64_iff.mp heq.symm
    have : n.toNat = 2 ^ 64 := by exact_mod_cast htop
    exact absurd n.toNat_lt (by omega)
  have := hrefused hnone
  rw [cidFromNumber_twoPow64] at this
  cases this

theorem keptApart_iff (a b : Binary64) :
    KeptApart a b ↔ (a ≠ b → integerPart a = integerPart b → integerPart a = none) := by
  unfold KeptApart
  simp only [cidFromNumber_eq_some_iff]
  constructor
  · intro h hne heq
    cases hpart : integerPart a with
    | none => rfl
    | some k =>
        -- both are accepted, as the same id
        have hk : integerPart a = some (UInt64.ofNat k).toNat := by
          rw [hpart, UInt64.toNat_ofNat_of_lt' (integerPart_lt hpart)]
        exact absurd rfl (h _ _ hk (heq ▸ hk) hne)
  · rintro h m n hm hn hne rfl
    have := h hne (hm.trans hn.symm)
    rw [hm] at this
    cases this

/-- **Different numbers, different ids** holds of whole numbers and fails of
the others: a number keeps its own id exactly when it has no fraction and is
not the bound, and two accepted numbers share one exactly when they share their
integer part. -/
theorem exactCid_iff (a b : Binary64) :
    (ExactCid a ↔ ¬HasFraction a ∧ a ≠ twoPow64) ∧
    (KeptApart a b ↔ (a ≠ b → integerPart a = integerPart b → integerPart a = none)) ∧
    (¬HasFraction a → ¬HasFraction b → KeptApart a b) := by
  refine ⟨⟨fun h => ⟨?_, ?_⟩, ?_⟩, keptApart_iff a b, ?_⟩
  · intro hfrac
    exact exactCid_of_hasFraction hfrac h
  · rintro rfl
    exact not_exactCid_twoPow64 h
  · rintro ⟨hfrac, hne⟩
    exact exactCid_of_whole hfrac hne
  · intro hfa hfb m n hm hn hne
    rintro rfl
    obtain ⟨_, rfl⟩ := denotes_of_integerPart hfa (cidFromNumber_eq_some_iff.mp hm)
    obtain ⟨_, rfl⟩ := denotes_of_integerPart hfb (cidFromNumber_eq_some_iff.mp hn)
    exact hne rfl

/-- The numbers `1` and `1.5` are answered under one id. -/
theorem cidFromNumber_collision :
    ∃ h h', Binary64.finite 1 h ≠ Binary64.finite (3 / 2) h' ∧
      cidFromNumber (.finite 1 h) = .ok (some 1) ∧
      cidFromNumber (.finite (3 / 2) h') = .ok (some 1) := by
  have h : Representable 1 := ⟨1, 0, by norm_num⟩
  have h' : Representable (3 / 2) := ⟨3, -1, by norm_num⟩
  refine ⟨h, h', ?_, ?_, ?_⟩
  · rw [Ne, Binary64.finite.injEq]
    norm_num
  · have hfloor : ⌊(1 : ℚ)⌋₊ = 1 := by norm_num
    rw [cidFromNumber_finite, hfloor]
    norm_num
  · have hfloor : ⌊(3 / 2 : ℚ)⌋₊ = 1 :=
      (Nat.floor_eq_iff (by norm_num)).mpr ⟨by norm_num, by norm_num⟩
    rw [cidFromNumber_finite, hfloor]
    norm_num

/-! ## The string reader -/

theorem maxCmdId_toNat : maxCmdId.toNat = 2 ^ 64 - 1 := by decide

/-- Taking a digit from the largest id does not wrap. -/
theorem maxCmdId_sub_toNat {d : CmdId} (hd : d.toNat ≤ 9) :
    (maxCmdId - d).toNat = 2 ^ 64 - 1 - d.toNat := by
  have hle : d ≤ maxCmdId := by
    rw [UInt64.le_iff_toNat_le, maxCmdId_toNat]
    omega
  rw [UInt64.toNat_sub_of_le _ _ hle, maxCmdId_toNat]

/-- The guard of the loop says that one more digit would not fit. -/
theorem guard_iff {value d : CmdId} (hd : d.toNat ≤ 9) :
    value > (maxCmdId - d) / 10 ↔ 2 ^ 64 ≤ value.toNat * 10 + d.toNat := by
  rw [gt_iff_lt, UInt64.lt_iff_toNat_lt, UInt64.toNat_div, maxCmdId_sub_toNat hd]
  have hten : (10 : UInt64).toNat = 10 := rfl
  rw [hten]
  omega

theorem mul_ten_toNat {value : CmdId} (h : value.toNat * 10 < 2 ^ 64) :
    (value * 10).toNat = value.toNat * 10 := by
  rw [UInt64.toNat_mul]
  exact Nat.mod_eq_of_lt h

theorem mul_ten_add_toNat {value d : CmdId} (h : value.toNat * 10 + d.toNat < 2 ^ 64) :
    (value * 10 + d).toNat = value.toNat * 10 + d.toNat := by
  rw [UInt64.toNat_add, mul_ten_toNat (by omega)]
  exact Nat.mod_eq_of_lt h

theorem digit_toNat {c : UInt8} (h : isDigit c = true) :
    (c - 0x30).toUInt64.toNat = digitVal c ∧ digitVal c ≤ 9 := by
  obtain ⟨hlow, hhigh⟩ := isDigit_iff.mp h
  have hle : (0x30 : UInt8) ≤ c := UInt8.le_iff_toNat_le.mpr hlow
  rw [UInt8.toNat_toUInt64, UInt8.toNat_sub_of_le _ _ hle, digitVal]
  constructor
  · rfl
  · omega

theorem cidDigits_eq_some_iff (value v : CmdId) (t : Bytes) :
    cidDigits value t = some v ↔
      Digits t ∧ v.toNat = value.toNat * 10 ^ t.length + natOfDigits t := by
  induction t generalizing value with
  | nil =>
      rw [cidDigits, Option.some.injEq, ← UInt64.toNat_inj]
      simp [digits_nil, natOfDigits, eq_comm]
  | cons c t ih =>
      have hcons : Digits (c :: t) ↔ isDigit c = true ∧ Digits t := List.forall_mem_cons
      rw [cidDigits, hcons]
      by_cases hdigit : isDigit c = true
      · obtain ⟨hval, hle⟩ := digit_toNat hdigit
        have hnot : ¬(c < 0x30 ∨ c > 0x39) := by
          obtain ⟨hlow, hhigh⟩ := isDigit_iff.mp hdigit
          rw [gt_iff_lt, UInt8.lt_iff_toNat_lt, UInt8.lt_iff_toNat_lt]
          simp only [UInt8.reduceToNat]
          omega
        have hnext : value.toNat * 10 ^ (c :: t).length + natOfDigits (c :: t) =
            (value.toNat * 10 + digitVal c) * 10 ^ t.length + natOfDigits t := by
          rw [natOfDigits_cons, List.length_cons, pow_succ]
          ring
        rw [if_neg hnot, hnext]
        dsimp only
        have hnine : (c - 0x30).toUInt64.toNat ≤ 9 := by omega
        by_cases hfull : value > (maxCmdId - (c - 0x30).toUInt64) / 10
        · -- from here on the number is too large, whatever digits follow
          rw [if_pos hfull]
          have hbig := (guard_iff hnine).mp hfull
          have hpow : 0 < 10 ^ t.length := Nat.pow_pos (by omega)
          have hgrow := Nat.le_mul_of_pos_right (value.toNat * 10 + digitVal c) hpow
          have hv := v.toNat_lt
          constructor
          · intro hnone
            cases hnone
          · rintro ⟨-, heq⟩
            omega
        · have hfits := mt (guard_iff hnine).mpr hfull
          rw [if_neg hfull, ih, mul_ten_add_toNat (by omega), hval]
          simp [hdigit]
      · have hout : c < 0x30 ∨ c > 0x39 := by
          rw [isDigit_iff] at hdigit
          rw [gt_iff_lt, UInt8.lt_iff_toNat_lt, UInt8.lt_iff_toNat_lt]
          simp only [UInt8.reduceToNat]
          omega
        rw [if_pos hout]
        simp [hdigit]

theorem not_isSpace_of_isDigit {b : UInt8} (h : isDigit b = true) : isSpace b = false := by
  by_contra hspace
  rw [Bool.not_eq_false, isSpace_iff] at hspace
  simp only [List.mem_cons, List.not_mem_nil, or_false] at hspace
  rcases hspace with rfl | rfl | rfl | rfl <;> exact absurd h (by decide)

theorem cidFromString_eq_some_iff (text : Bytes) (v : CmdId) :
    cidFromString text = some v ↔
      ∃ w ds w', text = w ++ ds ++ w' ∧ (∀ b ∈ w, b ∈ [0x20, 0x09, 0x0A, 0x0D]) ∧
        (∀ b ∈ w', b ∈ [0x20, 0x09, 0x0A, 0x0D]) ∧ ds ≠ [] ∧ Digits ds ∧
        natOfDigits ds = v.toNat := by
  have hloop : ∀ ds, cidDigits 0 ds = some v ↔ Digits ds ∧ natOfDigits ds = v.toNat := by
    intro ds
    rw [cidDigits_eq_some_iff, UInt64.toNat_zero, Nat.zero_mul, Nat.zero_add,
      eq_comm (a := v.toNat)]
  simp only [← isSpace_iff]
  unfold cidFromString
  dsimp only
  constructor
  · intro h
    split at h
    · cases h
    · next hne =>
      obtain ⟨w, w', htext, hw, hw'⟩ := trim_split isSpace text
      obtain ⟨hdigits, hval⟩ := (hloop _).mp h
      exact ⟨w, _, w', htext, hw, hw', by simpa using hne, hdigits, hval⟩
  · rintro ⟨w, ds, w', rfl, hw, hw', hne, hdigits, hval⟩
    rw [trim_append hw (fun b hb => not_isSpace_of_isDigit (hdigits b hb)) hne hw', if_neg]
    · exact (hloop ds).mpr ⟨hdigits, hval⟩
    · simpa using hne

/-- **An exact decimal reader.** A string is read as an id exactly when it is
whitespace around digits that denote the id, and no step of the loop wraps,
whatever the number read so far. -/
theorem cidFromString_exact :
    (∀ text v, cidFromString text = some v ↔
      ∃ w ds w', text = w ++ ds ++ w' ∧ (∀ b ∈ w, b ∈ [0x20, 0x09, 0x0A, 0x0D]) ∧
        (∀ b ∈ w', b ∈ [0x20, 0x09, 0x0A, 0x0D]) ∧ ds ≠ [] ∧ Digits ds ∧
        natOfDigits ds = v.toNat) ∧
    (∀ value d : CmdId, d.toNat ≤ 9 →
      ((maxCmdId - d) / 10).toNat = (2 ^ 64 - 1 - d.toNat) / 10 ∧
      (¬value > (maxCmdId - d) / 10 → (value * 10).toNat = value.toNat * 10 ∧
        (value * 10 + d).toNat = value.toNat * 10 + d.toNat)) ∧
    ∀ n : CmdId, cidFromString (decimal n.toNat) = some n := by
  refine ⟨cidFromString_eq_some_iff, fun value d hd => ⟨?_, fun hfits => ?_⟩, fun n => ?_⟩
  · rw [UInt64.toNat_div, maxCmdId_sub_toNat hd]
    rfl
  · have := mt (guard_iff hd).mpr hfits
    exact ⟨mul_ten_toNat (by omega), mul_ten_add_toNat (by omega)⟩
  · rw [cidFromString_eq_some_iff]
    exact ⟨[], decimal n.toNat, [], by simp, by simp, by simp, decimal_ne_nil _,
      fun b hb => isDigit_of_mem_decimal hb, natOfDigits_decimal _⟩

end PhiTransport
