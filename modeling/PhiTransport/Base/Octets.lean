import Mathlib.Data.Nat.Digits.Lemmas
import Mathlib.Data.List.DropRight
import Mathlib.Data.List.TakeWhile

/-!
# Byte strings

The text layer is byte strings throughout: a byte above `0x7F` is a byte like
any other, and nothing here decodes UTF-8. The module holds the decimal
notation of numbers, the search functions of a C++ string (`find`, `rfind`,
`substr`), cutting whitespace off both ends, and the facts about splitting a
byte string at a separator that unambiguity arguments use.
-/

namespace Octets

abbrev Bytes : Type := List UInt8

/-- The bytes of an ASCII literal. -/
def ascii (s : String) : Bytes := s.toList.map fun c => UInt8.ofNat c.toNat

/-! ## Decimal notation -/

def isDigit (b : UInt8) : Bool := decide (0x30 ≤ b) && decide (b ≤ 0x39)

def digitByte (d : ℕ) : UInt8 := UInt8.ofNat (0x30 + d)

def digitVal (b : UInt8) : ℕ := b.toNat - 0x30

/-- The number a run of digits denotes, most significant digit first. -/
def natOfDigits (ds : Bytes) : ℕ := Nat.ofDigits 10 (ds.reverse.map digitVal)

theorem natOfDigits_cons (c : UInt8) (t : Bytes) :
    natOfDigits (c :: t) = digitVal c * 10 ^ t.length + natOfDigits t := by
  unfold natOfDigits
  rw [List.reverse_cons, List.map_append, Nat.ofDigits_append]
  simp [Nat.add_comm, Nat.mul_comm]

/-- Decimal notation without leading zeros. -/
def decimal (n : ℕ) : Bytes :=
  if n = 0 then [0x30] else (Nat.digits 10 n).reverse.map digitByte

/-- Decimal notation of an integer, with a minus sign below zero. -/
def decimalInt (i : ℤ) : Bytes :=
  if i < 0 then 0x2D :: decimal i.natAbs else decimal i.natAbs

theorem isDigit_iff {b : UInt8} : isDigit b = true ↔ 48 ≤ b.toNat ∧ b.toNat ≤ 57 := by
  simp [isDigit, UInt8.le_iff_toNat_le]

theorem digitByte_toNat {d : ℕ} (h : d < 10) : (digitByte d).toNat = 48 + d := by
  simp only [digitByte, UInt8.toNat_ofNat']
  omega

theorem digitVal_digitByte {d : ℕ} (h : d < 10) : digitVal (digitByte d) = d := by
  rw [digitVal, digitByte_toNat h]
  omega

theorem isDigit_digitByte {d : ℕ} (h : d < 10) : isDigit (digitByte d) = true := by
  rw [isDigit_iff, digitByte_toNat h]
  omega

theorem decimal_zero : decimal 0 = [0x30] := rfl

theorem decimal_of_ne_zero {n : ℕ} (h : n ≠ 0) :
    decimal n = (Nat.digits 10 n).reverse.map digitByte := if_neg h

theorem decimal_ne_nil (n : ℕ) : decimal n ≠ [] := by
  rcases eq_or_ne n 0 with rfl | h
  · exact List.cons_ne_nil _ _
  · rw [decimal_of_ne_zero h]
    simpa using Nat.digits_ne_nil_iff_ne_zero.mpr h

theorem digit_lt {n d : ℕ} (h : d ∈ Nat.digits 10 n) : d < 10 :=
  Nat.digits_lt_base (Nat.one_lt_succ_succ 8) h

theorem isDigit_of_mem_decimal {n : ℕ} {b : UInt8} (hb : b ∈ decimal n) :
    isDigit b = true := by
  rcases eq_or_ne n 0 with rfl | h
  · rw [decimal_zero, List.mem_singleton] at hb
    rw [hb]
    rfl
  · rw [decimal_of_ne_zero h] at hb
    obtain ⟨d, hd, rfl⟩ := List.mem_map.mp hb
    exact isDigit_digitByte (digit_lt (List.mem_reverse.mp hd))

theorem natOfDigits_decimal (n : ℕ) : natOfDigits (decimal n) = n := by
  rcases eq_or_ne n 0 with rfl | h
  · rfl
  · rw [decimal_of_ne_zero h, natOfDigits, ← List.map_reverse, List.reverse_reverse, List.map_map]
    have hid : (Nat.digits 10 n).map (digitVal ∘ digitByte) = Nat.digits 10 n := by
      conv_rhs => rw [← List.map_id (Nat.digits 10 n)]
      apply List.map_congr_left
      intro d hd
      exact digitVal_digitByte (digit_lt hd)
    rw [hid, Nat.ofDigits_digits]

theorem decimal_inj {n m : ℕ} (h : decimal n = decimal m) : n = m := by
  rw [← natOfDigits_decimal n, h, natOfDigits_decimal]

/-- Only the numeral of zero starts with the digit zero. -/
theorem decimal_head_ne_zero {n : ℕ} (hn : n ≠ 0) {b : UInt8} {t : Bytes}
    (h : decimal n = b :: t) : b ≠ 0x30 := by
  rw [decimal_of_ne_zero hn] at h
  have hne : Nat.digits 10 n ≠ [] := Nat.digits_ne_nil_iff_ne_zero.mpr hn
  have hlast := Nat.getLast_digit_ne_zero 10 hn
  have hlt : (Nat.digits 10 n).getLast hne < 10 := digit_lt (List.getLast_mem hne)
  have hb : b = digitByte ((Nat.digits 10 n).getLast hne) := by
    have hrev := List.dropLast_append_getLast hne
    rw [← hrev, List.reverse_append, List.reverse_singleton, List.singleton_append,
      List.map_cons] at h
    exact (List.cons.inj h).1.symm
  intro hzero
  have := congrArg UInt8.toNat (hb.symm.trans hzero)
  rw [digitByte_toNat hlt] at this
  simp at this
  exact hlast this

/-- A numeral followed by something other than a digit is read off uniquely. -/
theorem decimal_append_inj {n m : ℕ} {b c : UInt8} {s t : Bytes}
    (hb : isDigit b = false) (hc : isDigit c = false)
    (h : decimal n ++ b :: s = decimal m ++ c :: t) : n = m ∧ b :: s = c :: t := by
  -- the digits at the front of both sides are the numerals
  have htake := congrArg (List.takeWhile isDigit) h
  rw [List.takeWhile_append_of_pos fun a ha => isDigit_of_mem_decimal ha,
    List.takeWhile_append_of_pos fun a ha => isDigit_of_mem_decimal ha,
    List.takeWhile_cons_of_neg (by simp [hb]), List.takeWhile_cons_of_neg (by simp [hc]),
    List.append_nil, List.append_nil] at htake
  refine ⟨decimal_inj htake, ?_⟩
  rw [htake] at h
  exact List.append_cancel_left h

theorem decimalInt_inj {i j : ℤ} (h : decimalInt i = decimalInt j) : i = j := by
  have hminus : ∀ {n : ℕ} {t : Bytes}, decimal n ≠ 0x2D :: t := by
    intro n t ht
    have := isDigit_of_mem_decimal (n := n) (b := 0x2D) (by rw [ht]; exact List.mem_cons_self)
    exact absurd this (by decide)
  unfold decimalInt at h
  -- only a numeral below zero starts with the minus sign
  by_cases hi : i < 0 <;> by_cases hj : j < 0
  · rw [if_pos hi, if_pos hj] at h
    have := decimal_inj (List.cons.inj h).2
    omega
  · rw [if_pos hi, if_neg hj] at h
    exact absurd h.symm hminus
  · rw [if_neg hi, if_pos hj] at h
    exact absurd h hminus
  · rw [if_neg hi, if_neg hj] at h
    have := decimal_inj h
    omega

/-! ## Searching and cutting -/

/-- `std::string::find`: the first position of `c`, `none` for `npos`. -/
def find (c : UInt8) : Bytes → Option ℕ
  | [] => none
  | b :: t => if b = c then some 0 else (find c t).map (· + 1)

/-- `std::string::rfind`: the last position of `c`. -/
def rfind (c : UInt8) : Bytes → Option ℕ
  | [] => none
  | b :: t =>
      match rfind c t with
      | some i => some (i + 1)
      | none => if b = c then some 0 else none

/-- `std::string_view::substr`. -/
def substr (t : Bytes) (pos n : ℕ) : Bytes := (t.drop pos).take n

theorem find_append {c : UInt8} {a b : Bytes} (h : c ∉ a) :
    find c (a ++ c :: b) = some a.length := by
  induction a with
  | nil => simp [find]
  | cons x a ih =>
      rw [List.mem_cons, not_or] at h
      rw [List.cons_append, find, if_neg (Ne.symm h.1), ih h.2]
      rfl

theorem rfind_eq_none {c : UInt8} {t : Bytes} (h : c ∉ t) : rfind c t = none := by
  induction t with
  | nil => rfl
  | cons x t ih =>
      rw [List.mem_cons, not_or] at h
      rw [rfind, ih h.2]
      exact if_neg (Ne.symm h.1)

theorem rfind_append {c : UInt8} {b : Bytes} (h : c ∉ b) (a : Bytes) :
    rfind c (a ++ c :: b) = some a.length := by
  induction a with
  | nil => simp [rfind, rfind_eq_none h]
  | cons x a ih =>
      rw [List.cons_append, rfind, ih]
      rfl

theorem substr_append (a b c : Bytes) : substr (a ++ b ++ c) a.length b.length = b := by
  simp [substr]

/-! ## Cutting off both ends -/

section

variable {α : Type} {p : α → Bool}

theorem dropWhile_of_forall_not {t : List α} (h : ∀ b ∈ t, p b = false) : t.dropWhile p = t := by
  cases t with
  | nil => rfl
  | cons b t =>
      apply List.dropWhile_cons_of_neg
      rw [h b List.mem_cons_self]
      exact Bool.false_ne_true

/-- Cutting off both ends leaves the part between when nothing of it can be cut. -/
theorem trim_append {w t w' : List α} (hw : ∀ b ∈ w, p b = true) (ht : ∀ b ∈ t, p b = false)
    (hne : t ≠ []) (hw' : ∀ b ∈ w', p b = true) :
    ((w ++ t ++ w').dropWhile p).rdropWhile p = t := by
  have hfront : (w ++ t ++ w').dropWhile p = t ++ w' := by
    rw [List.append_assoc, List.dropWhile_append_of_pos hw]
    cases t with
    | nil => exact absurd rfl hne
    | cons b t =>
        apply List.dropWhile_cons_of_neg
        rw [ht b List.mem_cons_self]
        exact Bool.false_ne_true
  have hback : ∀ b ∈ w'.reverse, p b = true := by
    intro b hb
    exact hw' b (List.mem_reverse.mp hb)
  have hrest : ∀ b ∈ t.reverse, p b = false := by
    intro b hb
    exact ht b (List.mem_reverse.mp hb)
  rw [hfront, List.rdropWhile, List.reverse_append, List.dropWhile_append_of_pos hback,
    dropWhile_of_forall_not hrest, List.reverse_reverse]

/-- What is cut off both ends. -/
theorem trim_split (p : α → Bool) (t : List α) :
    ∃ w w', t = w ++ (t.dropWhile p).rdropWhile p ++ w' ∧ (∀ b ∈ w, p b = true) ∧
      ∀ b ∈ w', p b = true := by
  refine ⟨t.takeWhile p, (t.dropWhile p).rtakeWhile p, ?_, ?_, ?_⟩
  · rw [List.append_assoc, List.rdropWhile_append_rtakeWhile, List.takeWhile_append_dropWhile]
  · intro b hb
    exact List.mem_takeWhile_imp hb
  · intro b hb
    exact List.mem_rtakeWhile_imp hb

end

/-! ## Splitting at a separator -/

section

variable {α : Type} [BEq α] [LawfulBEq α] {c : α}

/-- Two splits of one list at a `c` are the same when as many `c`s follow. -/
theorem append_cons_inj_of_count {xs xs' ys ys' : List α}
    (h : xs ++ c :: ys = xs' ++ c :: ys') (hc : ys.count c = ys'.count c) :
    xs = xs' ∧ ys = ys' := by
  induction xs generalizing xs' with
  | nil =>
      cases xs' with
      | nil => exact ⟨rfl, (List.cons.inj h).2⟩
      | cons x xs' =>
          -- a later split on the right would leave fewer of them there
          have htail : ys = xs' ++ c :: ys' := (List.cons.inj h).2
          rw [htail, List.count_append, List.count_cons_self] at hc
          omega
  | cons x xs ih =>
      cases xs' with
      | nil =>
          have htail : xs ++ c :: ys = ys' := (List.cons.inj h).2
          rw [← htail, List.count_append, List.count_cons_self] at hc
          omega
      | cons x' xs' =>
          obtain ⟨hhead, htail⟩ := List.cons.inj h
          obtain ⟨hxs, hys⟩ := ih htail
          constructor
          · rw [hhead, hxs]
          · exact hys

/-- The first `c` splits a list in one way. -/
theorem append_cons_inj_of_notMem {xs xs' ys ys' : List α} (hx : c ∉ xs) (hx' : c ∉ xs')
    (h : xs ++ c :: ys = xs' ++ c :: ys') : xs = xs' ∧ ys = ys' := by
  apply append_cons_inj_of_count h
  have := congrArg (List.count c) h
  rw [List.count_append, List.count_append, List.count_cons_self, List.count_cons_self,
    List.count_eq_zero.mpr hx, List.count_eq_zero.mpr hx'] at this
  omega

end

end Octets
