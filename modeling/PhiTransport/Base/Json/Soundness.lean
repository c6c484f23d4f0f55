import PhiTransport.Base.Json.Reader

/-!
# What the reader accepts

The converse of completeness: whatever `readText` accepts has a derivation in
the grammar, so being JSON text is decided by running the reader
(`text_iff_readText`). Each reader is shown to split its input into a text of
the item it returns and the rest it hands back.
-/

namespace Rfc8259

open Octets

/-- What `item` reads is a text of the item, followed by what it hands back. -/
def Sound {α : Type} (P : α → Bytes → Prop) (item : Bytes → Option (α × Bytes)) : Prop :=
  ∀ t x r, item t = some (x, r) → ∃ a, t = a ++ r ∧ P x a

/-! ## Leaves -/

theorem unitsText_of_readUnits (t : Bytes) : ∀ (us : List CharUnit) (r : Bytes),
    readUnits t = some (us, r) → ∃ u, t = u ++ quote :: r ∧ UnitsText us u := by
  fun_induction readUnits t with
  | case1 => simp
  | case2 t =>
      intro us r h
      simp only [Option.some.injEq, Prod.mk.injEq] at h
      obtain ⟨rfl, rfl⟩ := h
      exact ⟨[], rfl, rfl⟩
  | case3 => simp
  | case4 h i j k t hne ih =>
      intro us r hread
      obtain ⟨x, hx, hmap⟩ := Option.bind_eq_some_iff.mp hread
      obtain ⟨p, hp, heq⟩ := Option.map_eq_some_iff.mp hmap
      simp only [Prod.mk.injEq] at heq
      obtain ⟨rfl, rfl⟩ := heq
      obtain ⟨u, rfl, hu⟩ := ih p.1 p.2 hp
      exact ⟨_ ++ u, rfl, _, u, rfl, .unicode hx, hu⟩
  | case5 => simp
  | case6 c t hc hne ih =>
      intro us r hread
      obtain ⟨e, he, hmap⟩ := Option.bind_eq_some_iff.mp hread
      obtain ⟨p, hp, heq⟩ := Option.map_eq_some_iff.mp hmap
      simp only [Prod.mk.injEq] at heq
      obtain ⟨rfl, rfl⟩ := heq
      obtain ⟨u, rfl, hu⟩ := ih p.1 p.2 hp
      exact ⟨_ ++ u, rfl, _, u, rfl, .escape he, hu⟩
  | case7 b t hq hb hun ih =>
      intro us r hread
      obtain ⟨p, hp, heq⟩ := Option.map_eq_some_iff.mp hread
      simp only [Prod.mk.injEq] at heq
      obtain ⟨rfl, rfl⟩ := heq
      obtain ⟨u, rfl, hu⟩ := ih p.1 p.2 hp
      exact ⟨_ ++ u, rfl, _, u, rfl, .plain hun, hu⟩
  | case8 => simp

theorem readString_sound : Sound StringText readString := by
  intro t s r h
  cases t with
  | nil => simp [readString] at h
  | cons b t =>
      rw [readString] at h
      by_cases hb : b = quote
      · rw [if_pos hb] at h
        obtain ⟨p, hp, heq⟩ := Option.map_eq_some_iff.mp h
        simp only [Prod.mk.injEq] at heq
        obtain ⟨rfl, rfl⟩ := heq
        obtain ⟨u, rfl, hu⟩ := unitsText_of_readUnits t p.1 p.2 hp
        exact ⟨quote :: u ++ [quote], by simp [hb], p.1, u, rfl, hu, rfl⟩
      · rw [if_neg hb] at h
        exact absurd h (by simp)

theorem readMinus_split (t : Bytes) :
    t = (if (readMinus t).1 then [0x2D] else []) ++ (readMinus t).2 := by
  cases t with
  | nil => rfl
  | cons b t =>
      by_cases hb : b = 0x2D
      · simp [readMinus, hb]
      · simp [readMinus, hb]

theorem readDigits_split (t : Bytes) : t = (readDigits t).1.1 ++ (readDigits t).2 := by
  simp [readDigits]

theorem readFrac_split {t r : Bytes} {f : { ds : Bytes // Digits ds }}
    (h : readFrac t = some (f, r)) : t = fracText f.1 ++ r := by
  cases t with
  | nil =>
      simp only [readFrac, Option.some.injEq, Prod.mk.injEq] at h
      obtain ⟨rfl, rfl⟩ := h
      rfl
  | cons b t =>
      rw [readFrac] at h
      by_cases hb : b = 0x2E
      · rw [if_pos hb] at h
        by_cases hnil : (readDigits t).1.1 = []
        · rw [if_pos hnil] at h
          exact absurd h (by simp)
        · rw [if_neg hnil, Option.some.injEq] at h
          have hsplit := readDigits_split t
          rw [h] at hsplit hnil
          rw [fracText, if_neg hnil, hb, hsplit]
          rfl
      · rw [if_neg hb] at h
        simp only [Option.some.injEq, Prod.mk.injEq] at h
        obtain ⟨rfl, rfl⟩ := h
        rfl

theorem readSign_split (t : Bytes) : t = signText (readSign t).1 ++ (readSign t).2 := by
  cases t with
  | nil => rfl
  | cons b t =>
      by_cases hm : b = 0x2D
      · simp [readSign, signText, hm]
      · by_cases hp : b = 0x2B
        · simp [readSign, signText, hp]
        · simp [readSign, signText, hm, hp]

theorem readExp_split {t r : Bytes} {e : Option Exponent} (h : readExp t = some (e, r)) :
    t = expText e ++ r := by
  cases t with
  | nil =>
      simp only [readExp, Option.some.injEq, Prod.mk.injEq] at h
      obtain ⟨rfl, rfl⟩ := h
      rfl
  | cons b t =>
      rw [readExp] at h
      by_cases hb : b = 0x45 ∨ b = 0x65
      · rw [if_pos hb] at h
        dsimp only at h
        split at h
        · next hne =>
          simp only [Option.some.injEq, Prod.mk.injEq] at h
          obtain ⟨rfl, rfl⟩ := h
          have hletter : (if decide (b = 0x45) then 0x45 else 0x65) = b := by
            rcases hb with rfl | rfl <;> rfl
          simp only [expText, Exponent.text, hletter, List.cons_append, List.append_assoc]
          rw [← readDigits_split, ← readSign_split]
        · exact absurd h (by simp)
      · rw [if_neg hb] at h
        simp only [Option.some.injEq, Prod.mk.injEq] at h
        obtain ⟨rfl, rfl⟩ := h
        rfl

theorem readNumber_sound : Sound (fun n t => t = n.text) readNumber := by
  intro t n r h
  rw [readNumber] at h
  split at h
  · next hint =>
    obtain ⟨f, hf, hmap⟩ := Option.bind_eq_some_iff.mp h
    obtain ⟨e, he, heq⟩ := Option.map_eq_some_iff.mp hmap
    simp only [Prod.mk.injEq] at heq
    obtain ⟨rfl, rfl⟩ := heq
    refine ⟨_, ?_, rfl⟩
    simp only [Number.text, List.append_assoc]
    rw [← readExp_split he, ← readFrac_split hf, ← readDigits_split]
    exact readMinus_split t
  · exact absurd h (by simp)

theorem readWord_split {word t r : Bytes} {v w : Json}
    (h : readWord word w t = some (v, r)) : v = w ∧ t = word ++ r := by
  unfold readWord at h
  split at h
  · next htake =>
    simp only [Option.some.injEq, Prod.mk.injEq] at h
    obtain ⟨rfl, rfl⟩ := h
    refine ⟨rfl, ?_⟩
    conv_lhs => rw [← List.take_append_drop word.length t, htake]
  · exact absurd h (by simp)

/-! ## Lists and values -/

theorem skipWs_split (t : Bytes) : ∃ w, t = w ++ skipWs t ∧ Blank w :=
  ⟨t.takeWhile isWs, by simp [skipWs], fun _ hb => List.mem_takeWhile_imp hb⟩

section Lists

variable {α : Type} {P : α → Bytes → Prop} {item : Bytes → Option (α × Bytes)}

theorem readPadded_sound (h : Sound P item) :
    Sound (fun x => Padded (P x)) (readPadded item) := by
  intro t x r hread
  obtain ⟨p, hp, heq⟩ := Option.map_eq_some_iff.mp hread
  simp only [Prod.mk.injEq] at heq
  obtain ⟨rfl, rfl⟩ := heq
  obtain ⟨w, hw, hblank⟩ := skipWs_split t
  obtain ⟨u, hu, hP⟩ := h _ _ _ hp
  obtain ⟨w', hw', hblank'⟩ := skipWs_split p.2
  refine ⟨w ++ u ++ w', ?_, w, u, w', rfl, hblank, hP, hblank'⟩
  rw [List.append_assoc, ← hw', List.append_assoc, ← hu, ← hw]

theorem readTail_sound (h : Sound P item) {close : UInt8} (n : ℕ) (t : Bytes)
    (xs : List α) (r : Bytes) (hread : readTail item close n t = some (xs, r)) :
    ∃ b, t = b ++ close :: r ∧ TailText P xs b := by
  induction n generalizing t xs r with
  | zero => simp [readTail] at hread
  | succ n ih =>
      rcases t with _ | ⟨c, t⟩
      · simp [readTail] at hread
      rw [readTail] at hread
      by_cases hclose : c = close
      · rw [if_pos hclose] at hread
        simp only [Option.some.injEq, Prod.mk.injEq] at hread
        obtain ⟨rfl, rfl⟩ := hread
        exact ⟨[], by simp [hclose], rfl⟩
      · rw [if_neg hclose] at hread
        by_cases hcomma : c = comma
        · rw [if_pos hcomma] at hread
          obtain ⟨p, hp, hmap⟩ := Option.bind_eq_some_iff.mp hread
          obtain ⟨q, hq, heq⟩ := Option.map_eq_some_iff.mp hmap
          simp only [Prod.mk.injEq] at heq
          obtain ⟨rfl, rfl⟩ := heq
          obtain ⟨a, ha, hPa⟩ := h _ _ _ hp
          obtain ⟨b, hb, hTb⟩ := ih p.2 q.1 q.2 hq
          exact ⟨comma :: a ++ b, by simp [hcomma, ha, hb], a, b, rfl, hPa, hTb⟩
        · rw [if_neg hcomma] at hread
          exact absurd hread (by simp)

theorem readList_sound (h : Sound P item) {close : UInt8} {n : ℕ} {t : Bytes}
    {xs : List α} {r : Bytes} (hread : readList item close n t = some (xs, r)) :
    ∃ b, t = b ++ close :: r ∧ ListText P xs b := by
  obtain ⟨w, hw, hblank⟩ := skipWs_split t
  rw [readList] at hread
  split at hread
  · exact absurd hread (by simp)
  · next c u hskip =>
    by_cases hclose : c = close
    · rw [if_pos hclose] at hread
      simp only [Option.some.injEq, Prod.mk.injEq] at hread
      obtain ⟨rfl, rfl⟩ := hread
      exact ⟨w, by rw [← hclose, ← hskip, ← hw], hblank⟩
    · rw [if_neg hclose] at hread
      obtain ⟨p, hp, hmap⟩ := Option.bind_eq_some_iff.mp hread
      obtain ⟨q, hq, heq⟩ := Option.map_eq_some_iff.mp hmap
      simp only [Prod.mk.injEq] at heq
      obtain ⟨rfl, rfl⟩ := heq
      obtain ⟨a, ha, hPa⟩ := h _ _ _ hp
      obtain ⟨b, hb, hTb⟩ := readTail_sound h n p.2 q.1 q.2 hq
      exact ⟨a ++ b, by rw [List.append_assoc, ← hb, ← ha], a, b, rfl, hPa, hTb⟩

end Lists

theorem readMember_sound {value : Bytes → Option (Json × Bytes)} (h : Sound Spells value) :
    Sound MemberText (readMember value) := by
  intro t m r hread
  obtain ⟨p, hp, hmatch⟩ := Option.bind_eq_some_iff.mp hread
  obtain ⟨a, ha, hkey⟩ := readPadded_sound readString_sound _ _ _ hp
  split at hmatch
  · exact absurd hmatch (by simp)
  · next c u hc =>
    by_cases hcolon : c = colon
    · rw [if_pos hcolon] at hmatch
      obtain ⟨q, hq, heq⟩ := Option.map_eq_some_iff.mp hmatch
      simp only [Prod.mk.injEq] at heq
      obtain ⟨rfl, rfl⟩ := heq
      obtain ⟨b, hb, hval⟩ := readPadded_sound h _ _ _ hq
      exact ⟨a ++ colon :: b, by simp [ha, hc, hcolon, hb], a, b, rfl, hkey, hval⟩
    · rw [if_neg hcolon] at hmatch
      exact absurd hmatch (by simp)

theorem readValue_sound : ∀ n : ℕ, Sound Spells (readValue n)
  | 0 => fun t v r h => by simp [readValue] at h
  | n + 1 => fun t v r h => by
      have ih := readValue_sound n
      have word : ∀ {name : Bytes} {w : Json}, Spells w name →
          readWord name w t = some (v, r) → ∃ a, t = a ++ r ∧ Spells v a := by
        intro name w hw hread
        obtain ⟨rfl, hsplit⟩ := readWord_split hread
        exact ⟨name, hsplit, hw⟩
      cases t with
      | nil => simp [readValue] at h
      | cons b t =>
          rw [readValue] at h
          split at h
          · obtain ⟨p, hp, heq⟩ := Option.map_eq_some_iff.mp h
            simp only [Prod.mk.injEq] at heq
            obtain ⟨rfl, rfl⟩ := heq
            obtain ⟨a, ha, hstr⟩ := readString_sound _ _ _ hp
            exact ⟨a, ha, by rwa [Spells]⟩
          split at h
          · next hb =>
            obtain ⟨p, hp, heq⟩ := Option.map_eq_some_iff.mp h
            simp only [Prod.mk.injEq] at heq
            obtain ⟨rfl, rfl⟩ := heq
            obtain ⟨a, ha, hlist⟩ := readList_sound (readPadded_sound ih) hp
            exact ⟨lbracket :: a ++ [rbracket], by simp [hb, ha],
              spells_arr.mpr ⟨a, rfl, hlist⟩⟩
          split at h
          · next hb =>
            obtain ⟨p, hp, heq⟩ := Option.map_eq_some_iff.mp h
            simp only [Prod.mk.injEq] at heq
            obtain ⟨rfl, rfl⟩ := heq
            obtain ⟨a, ha, hlist⟩ := readList_sound (readMember_sound ih) hp
            exact ⟨lbrace :: a ++ [rbrace], by simp [hb, ha],
              spells_obj.mpr ⟨a, rfl, hlist⟩⟩
          split at h
          · exact word (by rw [Spells]) h
          split at h
          · exact word (by rw [Spells]; rfl) h
          split at h
          · exact word (by rw [Spells]; rfl) h
          · obtain ⟨p, hp, heq⟩ := Option.map_eq_some_iff.mp h
            simp only [Prod.mk.injEq] at heq
            obtain ⟨rfl, rfl⟩ := heq
            obtain ⟨a, ha, hnum⟩ := readNumber_sound _ _ _ hp
            exact ⟨a, ha, by rw [Spells]; exact hnum⟩

/-- **Soundness.** What the reader accepts is JSON text of the value it returns. -/
theorem text_of_readText {t : Bytes} {v : Json} (h : readText t = some v) : Text v t := by
  obtain ⟨p, hp, hend⟩ := Option.bind_eq_some_iff.mp h
  obtain ⟨a, ha, htext⟩ := readPadded_sound (readValue_sound _) _ _ _ hp
  split at hend
  · next hnil =>
    rw [Option.some.injEq] at hend
    rw [ha, hnil, List.append_nil, ← hend]
    exact htext
  · exact absurd hend (by simp)

/-- The reader decides the grammar. -/
theorem text_iff_readText {t : Bytes} {v : Json} : Text v t ↔ readText t = some v :=
  ⟨readText_of_text, text_of_readText⟩

/-- A text of only whitespace is no JSON text. -/
theorem not_text_of_blank {t : Bytes} (h : Blank t) (v : Json) : ¬Text v t := by
  intro htext
  obtain ⟨b, u, hskip, -⟩ := skipWs_text htext []
  rw [List.append_nil, skipWs_blank h] at hskip
  exact absurd hskip (by simp)

end Rfc8259
