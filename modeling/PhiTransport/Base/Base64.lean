import PhiTransport.Base.Octets

/-!
# Base64

The standard alphabet with padding: three bytes become four letters. What a
reader of a larger text needs of it is that the letters come from the alphabet
(`isBase64_of_mem_encode`) and that the bytes can be told from them
(`encode_injective`).
-/

namespace Base64

open Octets

def alphabet : Bytes :=
  ascii "ABCDEFGHIJKLMNOPQRSTUVWXYZabcdefghijklmnopqrstuvwxyz0123456789+/"

def padding : UInt8 := 0x3D

/-- The letters an encoding is made of, padding included. -/
def isBase64 (b : UInt8) : Bool := alphabet.contains b || b == padding

/-- The letter of a six-bit number. -/
def letter (n : ℕ) : UInt8 := alphabet.getD n padding

def encode : Bytes → Bytes
  | [] => []
  | [a] => [letter (a.toNat / 4), letter (a.toNat % 4 * 16), padding, padding]
  | [a, b] =>
      [letter (a.toNat / 4), letter (a.toNat % 4 * 16 + b.toNat / 16), letter (b.toNat % 16 * 4),
        padding]
  | a :: b :: c :: t =>
      letter (a.toNat / 4) :: letter (a.toNat % 4 * 16 + b.toNat / 16) ::
        letter (b.toNat % 16 * 4 + c.toNat / 64) :: letter (c.toNat % 64) :: encode t

theorem idxOf_letter {n : ℕ} (hn : n < 64) : alphabet.idxOf (letter n) = n := by
  have hall : ∀ n < 64, alphabet.idxOf (letter n) = n := by decide +kernel
  exact hall n hn

theorem letter_inj {m n : ℕ} (hm : m < 64) (hn : n < 64) (h : letter m = letter n) : m = n := by
  rw [← idxOf_letter hm, h, idxOf_letter hn]

theorem letter_ne_padding {n : ℕ} (hn : n < 64) : letter n ≠ padding := by
  have hall : ∀ n < 64, letter n ≠ padding := by decide +kernel
  exact hall n hn

theorem isBase64_letter {n : ℕ} (hn : n < 64) : isBase64 (letter n) = true := by
  have hall : ∀ n < 64, isBase64 (letter n) = true := by decide +kernel
  exact hall n hn

/-! ## The six-bit numbers of three bytes -/

theorem first_lt (a : UInt8) : a.toNat / 4 < 64 :=
  Nat.div_lt_of_lt_mul a.toNat_lt

theorem second_lt (a b : UInt8) : a.toNat % 4 * 16 + b.toNat / 16 < 64 := by
  have hb := b.toNat_lt
  omega

theorem third_lt (b c : UInt8) : b.toNat % 16 * 4 + c.toNat / 64 < 64 := by
  have hc := c.toNat_lt
  omega

theorem fourth_lt (c : UInt8) : c.toNat % 64 < 64 := Nat.mod_lt _ (Nat.zero_lt_succ 63)

/-- The first two letters tell the first byte and the high half of the second. -/
theorem eq_of_second (a a' b b' : UInt8) (h₁ : letter (a.toNat / 4) = letter (a'.toNat / 4))
    (h₂ : letter (a.toNat % 4 * 16 + b.toNat / 16) = letter (a'.toNat % 4 * 16 + b'.toNat / 16)) :
    a = a' ∧ b.toNat / 16 = b'.toNat / 16 := by
  have hb := b.toNat_lt
  have hb' := b'.toNat_lt
  have hfirst := letter_inj (first_lt a) (first_lt a') h₁
  have hsecond := letter_inj (second_lt a b) (second_lt a' b') h₂
  rw [← UInt8.toNat_inj]
  constructor <;> omega

/-- With the high half of the second byte, the third letter tells the rest of
it and the two high bits of the third. -/
theorem eq_of_third (b b' c c' : UInt8) (h : b.toNat / 16 = b'.toNat / 16)
    (h₃ : letter (b.toNat % 16 * 4 + c.toNat / 64) = letter (b'.toNat % 16 * 4 + c'.toNat / 64)) :
    b = b' ∧ c.toNat / 64 = c'.toNat / 64 := by
  have hc := c.toNat_lt
  have hc' := c'.toNat_lt
  have hthird := letter_inj (third_lt b c) (third_lt b' c') h₃
  rw [← UInt8.toNat_inj]
  constructor <;> omega

/-- With the two high bits of the third byte, the fourth letter tells it. -/
theorem eq_of_fourth {c c' : UInt8} (h : c.toNat / 64 = c'.toNat / 64)
    (h₄ : letter (c.toNat % 64) = letter (c'.toNat % 64)) : c = c' := by
  have hfourth := letter_inj (fourth_lt c) (fourth_lt c') h₄
  rw [← UInt8.toNat_inj]
  omega

/-! ## What an encoding is made of -/

theorem isBase64_of_mem_encode : ∀ {t : Bytes} {b : UInt8}, b ∈ encode t → isBase64 b = true
  | [], b, h => by simp [encode] at h
  -- a missing byte counts as zero
  | [a], b, h => by
      simp only [encode, List.mem_cons, List.not_mem_nil, or_false] at h
      rcases h with rfl | rfl | rfl | rfl
      · exact isBase64_letter (first_lt a)
      · exact isBase64_letter (second_lt a 0)
      · rfl
      · rfl
  | [a, c], b, h => by
      simp only [encode, List.mem_cons, List.not_mem_nil, or_false] at h
      rcases h with rfl | rfl | rfl | rfl
      · exact isBase64_letter (first_lt a)
      · exact isBase64_letter (second_lt a c)
      · exact isBase64_letter (third_lt c 0)
      · rfl
  | a :: c :: d :: t, b, h => by
      simp only [encode, List.mem_cons] at h
      rcases h with rfl | rfl | rfl | rfl | h
      · exact isBase64_letter (first_lt a)
      · exact isBase64_letter (second_lt a c)
      · exact isBase64_letter (third_lt c d)
      · exact isBase64_letter (fourth_lt d)
      · exact isBase64_of_mem_encode h

theorem encode_inj : ∀ {s t : Bytes}, encode s = encode t → s = t
  | [], [], _ => rfl
  | [], [_], h => by simp [encode] at h
  | [], [_, _], h => by simp [encode] at h
  | [], _ :: _ :: _ :: _, h => by simp [encode] at h
  | [_], [], h => by simp [encode] at h
  | [_, _], [], h => by simp [encode] at h
  | _ :: _ :: _ :: _, [], h => by simp [encode] at h
  | [a], [a'], h => by
      simp only [encode, List.cons.injEq, and_true] at h
      obtain ⟨rfl, -⟩ := eq_of_second a a' 0 0 h.1 h.2
      rfl
  | [a, b], [a', b'], h => by
      simp only [encode, List.cons.injEq, and_true] at h
      obtain ⟨rfl, hb⟩ := eq_of_second a a' b b' h.1 h.2.1
      obtain ⟨rfl, -⟩ := eq_of_third b b' 0 0 hb h.2.2
      rfl
  | a :: b :: c :: s, a' :: b' :: c' :: t, h => by
      simp only [encode, List.cons.injEq] at h
      obtain ⟨rfl, hb⟩ := eq_of_second a a' b b' h.1 h.2.1
      obtain ⟨rfl, hc⟩ := eq_of_third b b' c c' hb h.2.2.1
      rw [eq_of_fourth hc h.2.2.2.1, encode_inj h.2.2.2.2]
  -- texts of different remainders: one has a letter where the other is padded
  | [_], [_, b'], h => by
      simp only [encode, List.cons.injEq, and_true] at h
      exact absurd h.2.2 (letter_ne_padding (third_lt b' 0)).symm
  | [_, b], [_], h => by
      simp only [encode, List.cons.injEq, and_true] at h
      exact absurd h.2.2 (letter_ne_padding (third_lt b 0))
  | [_], _ :: _ :: c' :: _, h => by
      simp only [encode, List.cons.injEq] at h
      exact absurd h.2.2.2.1 (letter_ne_padding (fourth_lt c')).symm
  | _ :: _ :: c :: _, [_], h => by
      simp only [encode, List.cons.injEq] at h
      exact absurd h.2.2.2.1 (letter_ne_padding (fourth_lt c))
  | [_, _], _ :: _ :: c' :: _, h => by
      simp only [encode, List.cons.injEq] at h
      exact absurd h.2.2.2.1 (letter_ne_padding (fourth_lt c')).symm
  | _ :: _ :: c :: _, [_, _], h => by
      simp only [encode, List.cons.injEq] at h
      exact absurd h.2.2.2.1 (letter_ne_padding (fourth_lt c))

theorem encode_injective : Function.Injective encode := fun _ _ => encode_inj

example : encode (ascii "Man") = ascii "TWFu" := by decide
example : encode (ascii "n,,") = ascii "biws" := by decide

end Base64
