import PhiTransport.Base.Nlohmann
import Mathlib.Data.List.DropRight

/-!
# Where UTF-8 text may be cut

A byte that is no continuation byte starts a character, so a text may be cut in
front of it: it is UTF-8 exactly when both parts are. ASCII bytes can be cut off
on both sides, which is why trimming and escaping by ASCII bytes neither repair
nor break a text.
-/

namespace Nlohmann

open Octets

/-! ## The boundary -/

section

variable {a b c : UInt8}

theorem within_of_subset {low high low' high' : UInt8} (hlow : low' ≤ low) (hhigh : high ≤ high')
    (h : within low' high' a = false) : within low high a = false := by
  rw [within, Bool.and_eq_false_iff, decide_eq_false_iff_not, decide_eq_false_iff_not] at *
  rcases h with h | h
  · exact Or.inl fun hle => h (UInt8.le_trans hlow hle)
  · exact Or.inr fun hle => h (UInt8.le_trans hle hhigh)

theorem isTail_ascii (h : a < 0x80) : isTail a = false := by
  have hlt : ¬0x80 ≤ a := UInt8.not_le.mpr h
  rw [isTail, within, decide_eq_false hlt, Bool.false_and]

/-- The second byte of a character is a continuation byte, whatever the first. -/
theorem isLead3_of_not_tail (h : isTail a = false) (b : UInt8) : isLead3 b a = false := by
  have hlow : within 0xA0 0xBF a = false := within_of_subset (by decide) (by decide) h
  have hhigh : within 0x80 0x9F a = false := within_of_subset (by decide) (by decide) h
  simp [isLead3, h, hlow, hhigh]

theorem isLead4_of_not_tail (h : isTail a = false) (b : UInt8) : isLead4 b a = false := by
  have hlow : within 0x90 0xBF a = false := within_of_subset (by decide) (by decide) h
  have hhigh : within 0x80 0x8F a = false := within_of_subset (by decide) (by decide) h
  simp [isLead4, h, hlow, hhigh]

/-- A character that is cut short is not completed by the start of another. -/
theorem validUtf8_short_one (hb : ¬b < 0x80) (h : isTail a = false) (t : Bytes) :
    validUtf8 (b :: a :: t) = false := by
  unfold validUtf8
  rw [if_neg hb]
  cases t with
  | nil => simp [h]
  | cons c t =>
      cases t with
      | nil => simp [h, isLead3_of_not_tail h]
      | cons d t => simp [h, isLead3_of_not_tail h, isLead4_of_not_tail h]

theorem validUtf8_short_two (hb : ¬b < 0x80) (hbc : ¬(within 0xC2 0xDF b && isTail c) = true)
    (h : isTail a = false) (t : Bytes) : validUtf8 (b :: c :: a :: t) = false := by
  unfold validUtf8
  rw [if_neg hb]
  dsimp only
  rw [if_neg hbc]
  cases t with
  | nil => simp [h]
  | cons d t => simp [h]

/-- **Cutting in front of a character.** -/
theorem validUtf8_append_cons (h : isTail a = false) (s t : Bytes) :
    validUtf8 (s ++ a :: t) = (validUtf8 s && validUtf8 (a :: t)) := by
  fun_induction validUtf8 s with
  | case1 => rw [List.nil_append, Bool.true_and]
  | case2 b s hb ih =>
      rw [← ih]
      conv_lhs => unfold validUtf8
      exact if_pos hb
  | case3 b hb => exact validUtf8_short_one hb h t
  | case4 b hb c s hbc ih =>
      rw [← ih]
      conv_lhs => unfold validUtf8
      exact (if_neg hb).trans (if_pos hbc)
  | case5 b hb c hbc => exact validUtf8_short_two hb hbc h t
  | case6 b hb c hbc d s hbcd ih =>
      rw [← ih]
      conv_lhs => unfold validUtf8
      exact (if_neg hb).trans ((if_neg hbc).trans (if_pos hbcd))
  | case7 b hb c hbc d hbcd =>
      show validUtf8 (b :: c :: d :: a :: t) = false
      unfold validUtf8
      refine (if_neg hb).trans ((if_neg hbc).trans ((if_neg hbcd).trans ?_))
      dsimp only
      rw [h, Bool.and_false, Bool.false_and]
  | case8 b hb c hbc d hbcd e s ih =>
      rw [Bool.and_assoc, ← ih]
      conv_lhs => unfold validUtf8
      exact (if_neg hb).trans ((if_neg hbc).trans (if_neg hbcd))

end

/-! ## ASCII -/

section

variable {a : UInt8}

theorem validUtf8_cons_ascii (h : a < 0x80) (t : Bytes) : validUtf8 (a :: t) = validUtf8 t := by
  conv_lhs => unfold validUtf8
  exact if_pos h

/-- An ASCII byte is a boundary on both sides. -/
theorem validUtf8_append_ascii (h : a < 0x80) (s t : Bytes) :
    validUtf8 (s ++ a :: t) = (validUtf8 s && validUtf8 t) := by
  rw [validUtf8_append_cons (isTail_ascii h), validUtf8_cons_ascii h]

theorem validUtf8_ascii_append {s : Bytes} (h : s.all (· < 0x80) = true) (t : Bytes) :
    validUtf8 (s ++ t) = validUtf8 t := by
  induction s with
  | nil => rfl
  | cons a s ih =>
      rw [List.all_cons, Bool.and_eq_true, decide_eq_true_eq] at h
      rw [List.cons_append, validUtf8_cons_ascii h.1, ih h.2]

theorem validUtf8_append_ascii_append {u : Bytes} (hne : u ≠ []) (h : u.all (· < 0x80) = true)
    (s t : Bytes) : validUtf8 (s ++ (u ++ t)) = (validUtf8 s && validUtf8 t) := by
  obtain ⟨b, u, rfl⟩ := List.exists_cons_of_ne_nil hne
  rw [List.all_cons, Bool.and_eq_true, decide_eq_true_eq] at h
  rw [List.cons_append, validUtf8_append_ascii h.1, validUtf8_ascii_append h.2]

theorem validUtf8_concat (h : a < 0x80) (s : Bytes) : validUtf8 (s ++ [a]) = validUtf8 s := by
  rw [validUtf8_append_ascii h, validUtf8, Bool.and_true]

/-! ## Trimming and escaping -/

variable {p : UInt8 → Bool} {escape : UInt8 → Bytes}

theorem validUtf8_dropWhile (hp : ∀ a, p a = true → a < 0x80) (t : Bytes) :
    validUtf8 (t.dropWhile p) = validUtf8 t := by
  induction t with
  | nil => rfl
  | cons a t ih =>
      by_cases ha : p a = true
      · rw [List.dropWhile_cons_of_pos ha, ih, validUtf8_cons_ascii (hp a ha)]
      · rw [List.dropWhile_cons_of_neg ha]

theorem validUtf8_rdropWhile (hp : ∀ a, p a = true → a < 0x80) (t : Bytes) :
    validUtf8 (t.rdropWhile p) = validUtf8 t := by
  induction t using List.reverseRecOn with
  | nil => rfl
  | append_singleton t a ih =>
      by_cases ha : p a = true
      · rw [List.rdropWhile_concat_pos _ _ _ ha, ih, validUtf8_concat (hp a ha)]
      · rw [List.rdropWhile_concat_neg _ _ _ ha]

/-- What stands in front of an escaped text is carried along: a character may
start there and end in the text. -/
theorem validUtf8_append_flatMap (hhigh : ∀ c, 0x80 ≤ c → escape c = [c])
    (hlow : ∀ c, c < 0x80 → escape c ≠ [] ∧ (escape c).all (· < 0x80) = true) (s t : Bytes) :
    validUtf8 (s ++ t.flatMap escape) = validUtf8 (s ++ t) := by
  induction t generalizing s with
  | nil => rfl
  | cons c t ih =>
      rw [List.flatMap_cons]
      by_cases hc : c < 0x80
      · obtain ⟨hne, hall⟩ := hlow c hc
        have htail : validUtf8 (t.flatMap escape) = validUtf8 t := ih []
        rw [validUtf8_append_ascii_append hne hall, htail, validUtf8_append_ascii hc]
      · rw [hhigh c (UInt8.not_lt.mp hc), ← List.append_assoc, ih, List.append_assoc,
          List.singleton_append]

/-- **Escaping ASCII** neither repairs nor breaks a text. -/
theorem validUtf8_flatMap (hhigh : ∀ c, 0x80 ≤ c → escape c = [c])
    (hlow : ∀ c, c < 0x80 → escape c ≠ [] ∧ (escape c).all (· < 0x80) = true) (t : Bytes) :
    validUtf8 (t.flatMap escape) = validUtf8 t :=
  validUtf8_append_flatMap hhigh hlow [] t

end

end Nlohmann
