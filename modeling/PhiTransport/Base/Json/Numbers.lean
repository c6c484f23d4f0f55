import PhiTransport.Base.Json.Grammar
import PhiTransport.Base.Binary64
import Mathlib.Algebra.Order.Field.Power

/-!
# The numbers literals denote

A number literal denotes a rational (`Number.value`). A reader that keeps
numbers as doubles makes the nearest one of it, ties to the even significand
(`Binary64.RoundsTo`), and there is only one (`RoundsTo.unique`): between two
doubles with even significands lies another. The conversion of an integer
(`roundNat`) makes the same one (`roundsTo_roundNat`).
-/

namespace Rfc8259

open Octets

/-! ## Literals -/

def Exponent.toInt (e : Exponent) : ℤ :=
  if e.sign = some true then -(natOfDigits e.digits : ℤ) else natOfDigits e.digits

/-- The power of ten a literal is scaled by; none written is zero. -/
def expInt : Option Exponent → ℤ
  | none => 0
  | some e => e.toInt

/-- The rational a literal denotes: its digits, the point moved in front of the
fraction, and the exponent. -/
def Number.value (n : Number) : ℚ :=
  (if n.minus then -1 else 1) * natOfDigits (n.int ++ n.frac) *
    (10 : ℚ) ^ (expInt n.exp - n.frac.length)

theorem Number.value_ofInt (i : ℤ) : (Number.ofInt i).value = i := by
  have hdigits : natOfDigits ((Number.ofInt i).int ++ (Number.ofInt i).frac) = i.natAbs := by
    show natOfDigits (decimal i.natAbs ++ []) = i.natAbs
    rw [List.append_nil, natOfDigits_decimal]
  have hscale : (10 : ℚ) ^ (expInt (Number.ofInt i).exp - (Number.ofInt i).frac.length) = 1 :=
    zpow_zero 10
  rw [Number.value, hdigits, hscale, mul_one]
  show (if decide (i < 0) = true then (-1 : ℚ) else 1) * i.natAbs = i
  by_cases h : i < 0
  · rw [if_pos (decide_eq_true h), Nat.cast_natAbs, abs_of_neg h]
    simp
  · rw [if_neg (by simpa using h), Nat.cast_natAbs, abs_of_nonneg (not_lt.mp h), one_mul]

end Rfc8259

namespace Binary64

/-! ## Rounding -/

/-- Halfway between the largest double and `2 ^ 1024`; from there on a reader
has no finite double left. -/
def overflowBound : ℚ := (2 ^ 54 - 1) * 2 ^ 970

/-- The last bit of the significand is clear: the significand of full length, or
the one of the smallest exponent. -/
def EvenSignificand (q : ℚ) : Prop :=
  ∃ m e : ℤ, Even m ∧ m.natAbs < 2 ^ 53 ∧ -1074 ≤ e ∧ e ≤ 971 ∧
    (2 ^ 52 ≤ m.natAbs ∨ e = -1074) ∧ q = m * (2 : ℚ) ^ e

/-- The double `q` is the one a reader makes of the number `x`. -/
structure RoundsTo (x q : ℚ) : Prop where
  representable : Representable q
  in_range : |x| < overflowBound
  nearest : ∀ r, Representable r → |x - q| ≤ |x - r|
  even : ∀ r, Representable r → r ≠ q → |x - r| = |x - q| → EvenSignificand q

theorem representable_neg {q : ℚ} (h : Representable q) : Representable (-q) := by
  obtain ⟨m, e, hm, he, he', rfl⟩ := h
  exact ⟨-m, e, by rwa [Int.natAbs_neg], he, he', by push_cast; ring⟩

theorem EvenSignificand.neg {q : ℚ} (h : EvenSignificand q) : EvenSignificand (-q) := by
  obtain ⟨m, e, heven, hm, he, he', hnorm, rfl⟩ := h
  refine ⟨-m, e, heven.neg, ?_, he, he', ?_, by push_cast; ring⟩
  · rwa [Int.natAbs_neg]
  · rwa [Int.natAbs_neg]

/-- A positive double with a significand of full length has no smaller exponent above it. -/
theorem exponent_le {m m' e e' : ℤ} (hm : 0 ≤ m) (hnorm : 2 ^ 52 ≤ m.natAbs ∨ e = -1074)
    (hm' : m'.natAbs < 2 ^ 53) (he' : -1074 ≤ e') (h : (m : ℚ) * 2 ^ e < m' * 2 ^ e') : e ≤ e' := by
  by_contra hlt
  have hlong : 2 ^ 52 ≤ m := by omega
  have hstep : (2 : ℚ) ^ e' ≤ 2 ^ (e - 1) := zpow_le_zpow_right₀ one_le_two (by omega)
  have hpow : (0 : ℚ) < 2 ^ e' := zpow_pos two_pos e'
  have hsmall : (m' : ℚ) ≤ 2 ^ 53 := by
    have : m' ≤ 2 ^ 53 := by omega
    exact_mod_cast this
  have hbelow : (m' : ℚ) * 2 ^ e' ≤ m * 2 ^ e := by
    calc (m' : ℚ) * 2 ^ e' ≤ 2 ^ 53 * 2 ^ e' := mul_le_mul_of_nonneg_right hsmall hpow.le
      _ ≤ 2 ^ 53 * 2 ^ (e - 1) := mul_le_mul_of_nonneg_left hstep (by positivity)
      _ = 2 ^ 52 * 2 ^ e := by rw [zpow_sub_one₀ two_ne_zero]; ring
      _ ≤ m * 2 ^ e := by
          apply mul_le_mul_of_nonneg_right _ (zpow_pos two_pos e).le
          exact_mod_cast hlong
  exact absurd h (not_lt.mpr hbelow)

theorem exists_between_of_nonneg {q r : ℚ} (hq : EvenSignificand q) (hr : EvenSignificand r)
    (hpos : 0 ≤ q) (h : q < r) : ∃ s, Representable s ∧ q < s ∧ s < r := by
  obtain ⟨m, e, heven, hm, he, he', hnorm, rfl⟩ := hq
  obtain ⟨m', e', heven', hm', hlow, -, -, rfl⟩ := hr
  have hpow : (0 : ℚ) < 2 ^ e := zpow_pos two_pos e
  have hm0 : 0 ≤ m := by exact_mod_cast nonneg_of_mul_nonneg_left hpos hpow
  obtain ⟨k, rfl⟩ := Int.le.dest (exponent_le hm0 hnorm hm' hlow h)
  -- both on the grid of the lower one, at even places
  have hgrid : (m' : ℚ) * 2 ^ (e + (k : ℤ)) = (m' * 2 ^ k : ℤ) * 2 ^ e := by
    push_cast
    rw [zpow_add₀ two_ne_zero, zpow_natCast]
    ring
  rw [hgrid] at h ⊢
  have hlt : m < m' * 2 ^ k := by exact_mod_cast lt_of_mul_lt_mul_right h hpow.le
  obtain ⟨a, rfl⟩ := heven
  obtain ⟨b, hb⟩ : Even (m' * 2 ^ k) := heven'.mul_right _
  rw [hb] at hlt ⊢
  refine ⟨((a + a + 1 : ℤ) : ℚ) * 2 ^ e, ⟨a + a + 1, e, by omega, he, he', rfl⟩, ?_, ?_⟩
  · apply mul_lt_mul_of_pos_right _ hpow
    exact_mod_cast Int.lt_succ (a + a)
  · apply mul_lt_mul_of_pos_right _ hpow
    have hroom : a + a + 1 < b + b := by omega
    exact_mod_cast hroom

/-- Between two doubles with even significands lies another double. -/
theorem exists_between {q r : ℚ} (hq : EvenSignificand q) (hr : EvenSignificand r) (h : q < r) :
    ∃ s, Representable s ∧ q < s ∧ s < r := by
  rcases le_or_gt 0 q with hpos | hneg
  · exact exists_between_of_nonneg hq hr hpos h
  rcases le_or_gt r 0 with hneg' | hpos'
  · obtain ⟨s, hs, hrs, hsq⟩ :=
      exists_between_of_nonneg hr.neg hq.neg (neg_nonneg.mpr hneg') (neg_lt_neg h)
    exact ⟨-s, representable_neg hs, lt_neg_of_lt_neg hsq, neg_lt_of_neg_lt hrs⟩
  · exact ⟨0, representable_zero, hneg, hpos'⟩

/-- What lies between two numbers at one distance is nearer than they are. -/
theorem abs_sub_lt_of_between {x q r s : ℚ} (heq : |x - q| = |x - r|) (hqs : q < s) (hsr : s < r) :
    |x - s| < |x - q| := by
  have hmid : x - q = r - x := by
    rcases abs_eq_abs.mp heq with hsame | hopp
    · linarith
    · linarith
  rw [abs_of_pos (by linarith : 0 < x - q), abs_lt]
  constructor
  · linarith
  · linarith

theorem RoundsTo.le {x q r : ℚ} (hq : RoundsTo x q) (hr : RoundsTo x r) : r ≤ q := by
  by_contra hgt
  have h : q < r := not_le.mp hgt
  have heq : |x - q| = |x - r| :=
    le_antisymm (hq.nearest r hr.representable) (hr.nearest q hq.representable)
  have hqeven := hq.even r hr.representable h.ne' heq.symm
  have hreven := hr.even q hq.representable h.ne heq
  obtain ⟨s, hs, hqs, hsr⟩ := exists_between hqeven hreven h
  exact absurd (abs_sub_lt_of_between heq hqs hsr) (not_lt.mpr (hq.nearest s hs))

/-- A reader makes one double of a number. -/
theorem RoundsTo.unique {x q r : ℚ} (hq : RoundsTo x q) (hr : RoundsTo x r) : q = r :=
  le_antisymm (hr.le hq) (hq.le hr)

theorem abs_lt_overflowBound {q : ℚ} (h : Representable q) : |q| < overflowBound := by
  obtain ⟨m, e, hm, -, he, rfl⟩ := h
  have hpow : (0 : ℚ) < 2 ^ (970 : ℕ) := by positivity
  have hexp : (2 : ℚ) ^ e ≤ 2 ^ (971 : ℤ) := zpow_le_zpow_right₀ one_le_two he
  have habs : |(m : ℚ)| ≤ 2 ^ 53 - 1 := by
    have : (m.natAbs : ℤ) ≤ 2 ^ 53 - 1 := by omega
    rw [← Int.cast_abs, Int.abs_eq_natAbs]
    exact_mod_cast this
  have hscale : (0 : ℚ) < 2 ^ e := zpow_pos two_pos e
  rw [abs_mul, abs_of_pos hscale]
  calc |(m : ℚ)| * 2 ^ e ≤ (2 ^ 53 - 1) * 2 ^ (971 : ℤ) :=
        mul_le_mul habs hexp hscale.le (by norm_num)
    _ = (2 ^ 54 - 2) * 2 ^ (970 : ℕ) := by
        have htwice : ((2 ^ 53 - 1) * 2 : ℚ) = 2 ^ 54 - 2 := by norm_num
        rw [show (971 : ℤ) = (970 : ℕ) + 1 by norm_num, zpow_add_one₀ two_ne_zero, zpow_natCast,
          ← htwice, mul_assoc, mul_comm (2 : ℚ)]
    _ < overflowBound := mul_lt_mul_of_pos_right (by norm_num) hpow

/-- A double is read as itself. -/
theorem roundsTo_self {q : ℚ} (h : Representable q) : RoundsTo q q where
  representable := h
  in_range := abs_lt_overflowBound h
  nearest r _ := by
    rw [sub_self, abs_zero]
    exact abs_nonneg _
  even r _ hne heq := by
    rw [sub_self, abs_zero, abs_eq_zero, sub_eq_zero] at heq
    exact absurd heq.symm hne

/-! ## Integers -/

/-- The two candidates of `roundNat`, with what decides between them. -/
theorem roundNat_cases (n : ℕ) :
    (roundNat n = n / 2 ^ excess n * 2 ^ excess n ∧ 2 * (n % 2 ^ excess n) ≤ 2 ^ excess n ∧
      (2 * (n % 2 ^ excess n) = 2 ^ excess n → Even (n / 2 ^ excess n))) ∨
    (roundNat n = (n / 2 ^ excess n + 1) * 2 ^ excess n ∧
      2 ^ excess n ≤ 2 * (n % 2 ^ excess n) ∧
      (2 * (n % 2 ^ excess n) = 2 ^ excess n → Even (n / 2 ^ excess n + 1))) := by
  unfold roundNat
  dsimp only
  split
  · next h =>
    refine Or.inl ⟨rfl, by omega, fun heq => ?_⟩
    rw [Nat.even_iff]
    omega
  · next h =>
    refine Or.inr ⟨rfl, by omega, fun heq => ?_⟩
    rw [Nat.even_iff]
    omega

/-- Of the multiples of the unit none is nearer, and one as near means the
multiple taken is an even one. -/
theorem roundNat_nearest (n : ℕ) : ∃ p : ℕ, roundNat n = p * 2 ^ excess n ∧
    n / 2 ^ excess n ≤ p ∧ p ≤ n / 2 ^ excess n + 1 ∧
    ∀ j : ℤ, ((n : ℤ) - roundNat n).natAbs ≤ ((n : ℤ) - j * 2 ^ excess n).natAbs ∧
      (((n : ℤ) - j * 2 ^ excess n).natAbs = ((n : ℤ) - roundNat n).natAbs →
        j * 2 ^ excess n ≠ roundNat n → Even p) := by
  have hunit : 0 < 2 ^ excess n := Nat.two_pow_pos _
  have hdiv := Nat.div_add_mod' n (2 ^ excess n)
  have hmod := Nat.mod_lt n hunit
  have hcases := roundNat_cases n
  have hcast : ((2 ^ excess n : ℕ) : ℤ) = 2 ^ excess n := by push_cast; rfl
  simp only [← hcast]
  generalize hu : 2 ^ excess n = unit at *
  generalize n / unit = k at *
  generalize n % unit = rest at *
  have hsplit : (n : ℤ) = (k : ℤ) * unit + rest := by exact_mod_cast hdiv.symm
  rcases hcases with ⟨hround, hle, heven⟩ | ⟨hround, hle, heven⟩
  · refine ⟨k, hround, le_rfl, Nat.le_succ k, fun j => ?_⟩
    rw [hround, hsplit]
    push_cast
    rcases lt_trichotomy j k with hj | rfl | hj
    · have : (j + 1) * (unit : ℤ) ≤ k * unit := Int.mul_le_mul_of_nonneg_right hj (by omega)
      rw [Int.add_mul] at this
      constructor
      · omega
      · omega
    · exact ⟨le_rfl, fun _ hne => absurd rfl hne⟩
    · have : ((k : ℤ) + 1) * unit ≤ j * unit := Int.mul_le_mul_of_nonneg_right hj (by omega)
      rw [Int.add_mul] at this
      constructor
      · omega
      · intro htie _
        apply heven
        omega
  · refine ⟨k + 1, hround, Nat.le_succ k, le_rfl, fun j => ?_⟩
    rw [hround, hsplit]
    push_cast
    rw [Int.add_mul]
    rcases lt_trichotomy j (k + 1) with hj | rfl | hj
    · have : j * (unit : ℤ) ≤ k * unit :=
        Int.mul_le_mul_of_nonneg_right (Int.lt_add_one_iff.mp hj) (by omega)
      constructor
      · omega
      · intro htie _
        apply heven
        omega
    · rw [Int.add_mul]
      exact ⟨le_rfl, fun _ hne => absurd rfl hne⟩
    · have : ((k : ℤ) + 1 + 1) * unit ≤ j * unit := Int.mul_le_mul_of_nonneg_right hj (by omega)
      rw [Int.add_mul, Int.add_mul] at this
      constructor
      · omega
      · omega

theorem abs_sub_cast (n : ℕ) (z : ℤ) : |(n : ℚ) - z| = ((n - z : ℤ).natAbs : ℚ) := by
  rw [Nat.cast_natAbs]
  push_cast
  rfl

/-- A double is a multiple of the unit, or lies below the numbers of that many bits. -/
theorem grid_or_lt (n : ℕ) {r : ℚ} (hr : Representable r) :
    (∃ j : ℤ, r = ((j * 2 ^ excess n : ℤ) : ℚ)) ∨ r < ((2 ^ 52 * 2 ^ excess n : ℤ) : ℚ) := by
  obtain ⟨m, e, hm, he, he', rfl⟩ := hr
  rcases le_or_gt (excess n : ℤ) e with hle | hlt
  · obtain ⟨t, rfl⟩ := Int.le.dest hle
    refine Or.inl ⟨m * 2 ^ t, ?_⟩
    push_cast
    rw [zpow_add₀ two_ne_zero, zpow_natCast, zpow_natCast]
    ring
  · right
    have hsmall : (m : ℚ) < 2 ^ 53 := by
      have : m < 2 ^ 53 := by omega
      exact_mod_cast this
    have hstep : (2 : ℚ) ^ e ≤ 2 ^ ((excess n : ℤ) - 1) := zpow_le_zpow_right₀ one_le_two (by omega)
    calc (m : ℚ) * 2 ^ e < 2 ^ 53 * 2 ^ e := mul_lt_mul_of_pos_right hsmall (zpow_pos two_pos e)
      _ ≤ 2 ^ 53 * 2 ^ ((excess n : ℤ) - 1) := mul_le_mul_of_nonneg_left hstep (by norm_num)
      _ = ((2 ^ 52 * 2 ^ excess n : ℤ) : ℚ) := by
          push_cast
          rw [zpow_sub_one₀ two_ne_zero, zpow_natCast]
          ring

/-- Beyond 53 bits the quotient has them all. -/
theorem le_div_excess {n : ℕ} (h : excess n ≠ 0) : 2 ^ 52 ≤ n / 2 ^ excess n := by
  have hne : n ≠ 0 := by
    rintro rfl
    exact h rfl
  have hlog : n.log2 = 52 + excess n := by
    unfold excess at h ⊢
    omega
  rw [Nat.le_div_iff_mul_le (Nat.two_pow_pos _), ← pow_add, ← hlog]
  exact Nat.log2_self_le hne

theorem evenSignificand_mul {p e : ℕ} (hlow : 2 ^ 52 ≤ p) (hhigh : p ≤ 2 ^ 53) (heven : Even p)
    (he : e ≤ 970) : EvenSignificand ((p * 2 ^ e : ℕ) : ℚ) := by
  rcases Nat.lt_or_eq_of_le hhigh with hlt | rfl
  · refine ⟨p, e, by exact_mod_cast heven, by simpa using hlt, by omega, by omega,
      Or.inl (by simpa using hlow), ?_⟩
    push_cast
    rw [zpow_natCast]
  · refine ⟨2 ^ 52, e + 1, ⟨2 ^ 51, by norm_num⟩, by norm_num, by omega, by omega,
      Or.inl (by norm_num), ?_⟩
    push_cast
    rw [zpow_add_one₀ two_ne_zero, zpow_natCast]
    ring

/-- An integer below `2 ^ 64` becomes the double a reader makes of it. -/
theorem roundsTo_roundNat {n : ℕ} (h : n < 2 ^ 64) : RoundsTo n (roundNat n) := by
  by_cases hexact : excess n = 0
  · have hself : roundNat n = n := by
      have hlt := div_excess_lt n
      rw [hexact, pow_zero, Nat.div_one] at hlt
      exact (roundNat_eq_self_iff n).mpr ⟨n, 0, hlt, by simp⟩
    have hrep := representable_roundNat h
    rw [hself] at hrep ⊢
    exact roundsTo_self hrep
  obtain ⟨p, hround, hlow, hhigh, hnear⟩ := roundNat_nearest n
  have hquot := le_div_excess hexact
  have hlt := div_excess_lt n
  have hexcess : excess n ≤ 11 := excess_le h
  -- off the grid a double is farther than the lowest number of that many bits
  have hfar : ∀ r, r < ((2 ^ 52 * 2 ^ excess n : ℤ) : ℚ) →
      |(n : ℚ) - roundNat n| < |(n : ℚ) - r| := by
    intro r hr
    have hgrid : |(n : ℚ) - (roundNat n : ℤ)| ≤ |(n : ℚ) - ((2 ^ 52 * 2 ^ excess n : ℤ) : ℚ)| := by
      rw [abs_sub_cast, abs_sub_cast]
      exact Nat.cast_le.mpr (hnear (2 ^ 52 : ℤ)).1
    have hbelow : ((2 ^ 52 * 2 ^ excess n : ℤ) : ℚ) ≤ n := by
      exact_mod_cast (Nat.le_div_iff_mul_le (Nat.two_pow_pos _)).mp hquot
    rw [abs_of_nonneg (sub_nonneg.mpr hbelow)] at hgrid
    rw [abs_of_pos (sub_pos.mpr (lt_of_lt_of_le hr hbelow))]
    exact lt_of_le_of_lt (by exact_mod_cast hgrid) (sub_lt_sub_left hr _)
  refine ⟨representable_roundNat h, ?_, ?_, ?_⟩
  · have hn : (n : ℚ) < 2 ^ 64 := by exact_mod_cast h
    rw [abs_of_nonneg (Nat.cast_nonneg n)]
    calc (n : ℚ) < 2 ^ 64 := hn
      _ ≤ 2 ^ 970 := pow_le_pow_right₀ one_le_two (by norm_num)
      _ ≤ overflowBound := le_mul_of_one_le_left (by positivity) (by norm_num)
  · intro r hr
    rcases grid_or_lt n hr with ⟨j, rfl⟩ | hsmall
    · have hj := (hnear j).1
      rw [← Int.cast_natCast (roundNat n), abs_sub_cast, abs_sub_cast]
      exact_mod_cast hj
    · exact (hfar r hsmall).le
  · intro r hr hne htie
    rcases grid_or_lt n hr with ⟨j, rfl⟩ | hsmall
    · have heven : Even p := by
        apply (hnear j).2
        · rw [← Int.cast_natCast (roundNat n), abs_sub_cast, abs_sub_cast] at htie
          exact_mod_cast htie
        · intro heq
          apply hne
          rw [heq]
          rfl
      rw [hround]
      exact evenSignificand_mul (hquot.trans hlow) (by omega) heven (by omega)
    · exact absurd htie (hfar r hsmall).ne'

end Binary64
