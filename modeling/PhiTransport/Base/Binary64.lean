import Mathlib.Data.Rat.Cast.Order
import Mathlib.Tactic.Ring
import Mathlib.Tactic.Linarith
import Mathlib.Tactic.NormNum

/-!
# Doubles as exact rationals

A finite double is a rational `m · 2 ^ e` with a significand below `2 ^ 53`;
the structure carries that fact, so no other rational can be one. `-0.0` is
identified with `0.0`, as a JSON library's `==` does and every comparison and
conversion below. A library's writer does print the sign, so what is said here of
a text it writes holds up to the sign of a zero.

The conversions are those of the language: an unsigned integer becomes the
nearest double, ties to even (`roundNat`), and a double becomes an integer by
dropping its fraction, which is undefined behaviour when the result does not
fit. `roundNat_eq_self_iff` says which integers survive the way to a double.
-/

/-- The two ways a call can fail to return. -/
inductive Fault where
  | thrown
  | undefined
deriving DecidableEq

/-- A rational that a finite double can hold. -/
def Representable (q : ℚ) : Prop :=
  ∃ m e : ℤ, m.natAbs < 2 ^ 53 ∧ -1074 ≤ e ∧ e ≤ 971 ∧ q = m * (2 : ℚ) ^ e

inductive Binary64 where
  | nan
  | inf (negative : Bool)
  | finite (q : ℚ) (h : Representable q)

namespace Binary64

theorem representable_zero : Representable 0 := ⟨0, 0, by simp⟩

/-! ## Comparison and truncation -/

/-- `a <= b`; false as soon as one side is NaN. -/
def le : Binary64 → Binary64 → Bool
  | nan, _ | _, nan => false
  | inf true, _ | _, inf false => true
  | inf false, _ | _, inf true => false
  | finite a _, finite b _ => decide (a ≤ b)

/-- `a < b`; false as soon as one side is NaN. -/
def lt : Binary64 → Binary64 → Bool
  | nan, _ | _, nan => false
  | inf false, _ | _, inf true => false
  | inf true, _ | _, inf false => true
  | finite a _, finite b _ => decide (a < b)

def isFinite : Binary64 → Bool
  | finite _ _ => true
  | _ => false

/-- The integer part, towards zero. -/
def trunc (q : ℚ) : ℤ := q.num.tdiv q.den

/-- Conversion to an unsigned 64-bit integer, defined when the integer part fits. -/
def toUInt64 : Binary64 → Except Fault UInt64
  | finite q _ =>
      if 0 ≤ trunc q ∧ trunc q < 2 ^ 64 then .ok (UInt64.ofNat (trunc q).toNat)
      else .error .undefined
  | _ => .error .undefined

/-! ## Integers to doubles -/

/-- The exponent at which the 53 leading bits of `n` become the integer part. -/
def excess (n : ℕ) : ℕ := n.log2 - 52

/-- The nearest double of a natural number, ties to the even significand. -/
def roundNat (n : ℕ) : ℕ :=
  let unit := 2 ^ excess n
  if 2 * (n % unit) < unit ∨ (2 * (n % unit) = unit ∧ n / unit % 2 = 0) then n / unit * unit
  else (n / unit + 1) * unit

theorem div_excess_lt (n : ℕ) : n / 2 ^ excess n < 2 ^ 53 := by
  rw [Nat.div_lt_iff_lt_mul (Nat.two_pow_pos _), ← pow_add]
  apply Nat.lt_of_lt_of_le Nat.lt_log2_self
  apply Nat.pow_le_pow_right Nat.two_pos
  show n.log2 + 1 ≤ 53 + (n.log2 - 52)
  omega

theorem representable_mul_pow {m e : ℕ} (hm : m ≤ 2 ^ 53) (he : e ≤ 970) :
    Representable ((m * 2 ^ e : ℕ) : ℚ) := by
  rcases Nat.lt_or_eq_of_le hm with hlt | rfl
  · refine ⟨m, e, by simpa using hlt, by omega, by omega, ?_⟩
    push_cast
    rw [zpow_natCast]
  · refine ⟨2 ^ 52, e + 1, by norm_num, by omega, by omega, ?_⟩
    push_cast
    rw [zpow_add_one₀ two_ne_zero, zpow_natCast]
    ring

theorem roundNat_eq_mul (n : ℕ) :
    ∃ m, m ≤ 2 ^ 53 ∧ roundNat n = m * 2 ^ excess n := by
  have hlt := div_excess_lt n
  unfold roundNat
  dsimp only
  split
  · exact ⟨_, by omega, rfl⟩
  · exact ⟨_, by omega, rfl⟩

theorem excess_le {n k : ℕ} (h : n < 2 ^ (53 + k)) : excess n ≤ k := by
  show n.log2 - 52 ≤ k
  by_cases hn : n = 0
  · subst hn
    exact Nat.zero_le k
  · have hlog := (Nat.log2_lt hn).mpr h
    omega

theorem representable_roundNat {n : ℕ} (h : n < 2 ^ 64) : Representable (roundNat n : ℚ) := by
  obtain ⟨m, hm, heq⟩ := roundNat_eq_mul n
  have hexcess : excess n ≤ 11 := excess_le h
  rw [heq]
  exact representable_mul_pow hm (by omega)

/-- Rounding stays below the next power of two. -/
theorem roundNat_le {n k : ℕ} (h : n < 2 ^ (53 + k)) : roundNat n ≤ 2 ^ (53 + k) := by
  obtain ⟨m, hm, heq⟩ := roundNat_eq_mul n
  have hpow : 2 ^ excess n ≤ 2 ^ k := Nat.pow_le_pow_right Nat.two_pos (excess_le h)
  calc roundNat n = m * 2 ^ excess n := heq
    _ ≤ 2 ^ 53 * 2 ^ k := Nat.mul_le_mul hm hpow
    _ = 2 ^ (53 + k) := (pow_add 2 53 k).symm

/-- The last 1024 integers below `2 ^ 64` are nearer to it than to the double before. -/
theorem roundNat_lt_iff {n : ℕ} (h : n < 2 ^ 64) : roundNat n < 2 ^ 64 ↔ n < 2 ^ 64 - 1024 := by
  by_cases hn : n < 2 ^ 63
  · have hround : roundNat n ≤ 2 ^ 63 := roundNat_le (k := 10) hn
    apply iff_of_true
    · exact Nat.lt_of_le_of_lt hround (by norm_num)
    · omega
  · -- here the doubles are the multiples of 2048
    have hlog : n.log2 = 63 := by
      have hne : n ≠ 0 := by omega
      have hlt := (Nat.log2_lt hne).mpr h
      have hge := (Nat.le_log2 hne).mpr (not_lt.mp hn)
      omega
    unfold roundNat excess
    rw [hlog]
    dsimp only
    split <;> omega

/-- The integers a double holds exactly: those with at most 53 significant bits. -/
theorem roundNat_eq_self_iff (n : ℕ) :
    roundNat n = n ↔ ∃ m k, m < 2 ^ 53 ∧ n = m * 2 ^ k := by
  have hunit : 0 < 2 ^ excess n := Nat.two_pow_pos _
  constructor
  · intro h
    obtain ⟨m, -, heq⟩ := roundNat_eq_mul n
    have hdvd : 2 ^ excess n ∣ n := ⟨m, by rw [Nat.mul_comm, ← heq, h]⟩
    exact ⟨n / 2 ^ excess n, excess n, div_excess_lt n, (Nat.div_mul_cancel hdvd).symm⟩
  · rintro ⟨m, k, hm, heq⟩
    -- the last bit a double keeps is no higher than the lowest bit set in `n`
    have hdvd : 2 ^ excess n ∣ n := by
      by_cases he : excess n = 0
      · simp [he]
      · have hn : n ≠ 0 := by
          rintro rfl
          exact he (by decide)
        have hlow := Nat.log2_self_le hn
        have hlog : n.log2 = excess n + 52 := by
          unfold excess at he ⊢
          omega
        have hbits : 2 ^ (excess n + 52) < 2 ^ (53 + k) := by
          rw [← hlog, pow_add 2 53 k]
          apply Nat.lt_of_le_of_lt hlow
          rw [heq]
          exact Nat.mul_lt_mul_of_pos_right hm (Nat.two_pow_pos k)
        have hle : excess n ≤ k := by
          have := (Nat.pow_lt_pow_iff_right (by omega : 1 < 2)).mp hbits
          omega
        have hk : 2 ^ k ∣ n := ⟨m, by rw [heq, Nat.mul_comm]⟩
        exact (Nat.pow_dvd_pow 2 hle).trans hk
    have hmod : n % 2 ^ excess n = 0 := Nat.mod_eq_zero_of_dvd hdvd
    unfold roundNat
    dsimp only
    rw [if_pos (Or.inl (by omega)), Nat.div_mul_cancel hdvd]

/-- `static_cast<double>` of an unsigned 64-bit integer. -/
def ofUInt64 (n : UInt64) : Binary64 :=
  finite (roundNat n.toNat) (representable_roundNat n.toNat_lt)

/-- `static_cast<double>` of a signed 64-bit integer. -/
def ofInt64 (i : Int64) : Binary64 :=
  if h : i.toInt < 0 then
    finite (-(roundNat i.toInt.natAbs : ℚ)) (by
      have hlow := i.le_toInt
      obtain ⟨m, e, hm, he, he', heq⟩ := representable_roundNat (n := i.toInt.natAbs) (by omega)
      exact ⟨-m, e, by rwa [Int.natAbs_neg], he, he', by rw [heq]; push_cast; ring⟩)
  else
    finite (roundNat i.toInt.natAbs) (representable_roundNat (by
      have hlow := i.le_toInt
      have hhigh := i.toInt_lt
      omega))

example : roundNat (2 ^ 53 + 1) = 2 ^ 53 := by decide
example : roundNat (2 ^ 64 - 1) = 2 ^ 64 := by decide

end Binary64
