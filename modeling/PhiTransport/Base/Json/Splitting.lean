import PhiTransport.Base.Json.Soundness

/-!
# Where a text ends

Texts are found inside longer ones: an item ends at the comma behind it, a
member's key at its colon. Both readers stop at the end of what they read, so
there is one place to cut, and a derivation of a whole list can be taken apart
from the front.

- `Delimited` — a kind of text that is cut off in one way only.
- `listText_cons_inv` — the first item of a list, when its text is known.
- `listText_last_inv` — the last member, when no comma is left.
- `not_listText_of_hole` — a member without a value belongs to no list.
-/

namespace Rfc8259

open Octets

/-! ## Self-delimiting texts -/

section Delimited

variable {α : Type} {P : α → Bytes → Prop}

/-- In front of a closing byte there is one way to cut a text of `P` off. -/
def Delimited (P : α → Bytes → Prop) : Prop :=
  ∀ ⦃x y : α⦄ ⦃a b r s : Bytes⦄, P x a → P y b → Closed r → Closed s → a ++ r = b ++ s →
    x = y ∧ r = s

/-- What a reader reads to the end delimits itself. -/
theorem Delimited.of_reads {item : ℕ → Bytes → Option (α × Bytes)}
    (h : ∀ n x, Reads P (item n) n x) : Delimited P := by
  intro x y a b r s ha hb hr hs heq
  have hx := h (a.length + b.length + 1) x a r ha (by omega) hr
  have hy := h (a.length + b.length + 1) y b s hb (by omega) hs
  rw [heq, hy] at hx
  simp only [Option.some.injEq, Prod.mk.injEq] at hx
  exact ⟨hx.1.symm, hx.2.symm⟩

theorem listText_of_tailText {xs : List α} {t : Bytes} (h : TailText P xs (comma :: t)) :
    ListText P xs t := by
  cases xs with
  | nil => exact absurd h (List.cons_ne_nil _ _)
  | cons x xs =>
      obtain ⟨a, b, heq, ha, hb⟩ := h
      rw [List.cons_append, List.cons.injEq] at heq
      exact ⟨a, b, heq.2, ha, hb⟩

theorem not_blank_append_cons {b : UInt8} (hb : isWs b = false) (a t : Bytes) :
    ¬Blank (a ++ b :: t) :=
  fun h => Bool.false_ne_true (hb.symm.trans (h b (by simp)))

/-- The first item of a list whose text starts with a known item. -/
theorem listText_cons_inv (hP : Delimited P) {x : α} {xs : List α} {a t : Bytes} (hx : P x a)
    (h : ListText P xs (a ++ comma :: t)) : ∃ ys, xs = x :: ys ∧ ListText P ys t := by
  cases xs with
  | nil => exact absurd h (not_blank_append_cons rfl a t)
  | cons y ys =>
      obtain ⟨b, s, heq, hy, hs⟩ := h
      obtain ⟨rfl, rfl⟩ := hP hx hy (closed_cons.mpr rfl) (closed_of_tailText hs) heq
      exact ⟨ys, rfl, listText_of_tailText hs⟩

/-- Known items in front of the last text of a joined list. -/
theorem listText_intercalate_inv (hP : Delimited P) {xs ys : List α} {ts : List Bytes}
    {t : Bytes} (hxs : List.Forall₂ P xs ts)
    (h : ListText P ys ([comma].intercalate (ts ++ [t]))) :
    ∃ zs, ys = xs ++ zs ∧ ListText P zs t := by
  induction hxs generalizing ys with
  | nil =>
      rw [List.nil_append, List.intercalate_singleton] at h
      exact ⟨ys, rfl, h⟩
  | @cons x a xs ts hx hxs ih =>
      have hjoin : [comma].intercalate (a :: ts ++ [t]) =
          a ++ comma :: [comma].intercalate (ts ++ [t]) := by
        cases ts with
        | nil => rfl
        | cons b ts =>
            rw [List.cons_append, List.cons_append, List.intercalate_cons_cons]
            simp
      rw [hjoin] at h
      obtain ⟨zs, rfl, hzs⟩ := listText_cons_inv hP hx h
      obtain ⟨zs', rfl, hzs'⟩ := ih hzs
      exact ⟨zs', rfl, hzs'⟩

end Delimited

theorem memberText_delimited : Delimited MemberText := by
  apply Delimited.of_reads
  intro n m a r ha hn hr
  exact readMember_append ((readValue_of_spells m.2).text n) ha hn hr

/-- A string literal ends at its own quote, whatever comes behind. -/
theorem stringText_split {s s' u u' r r' : Bytes} (h : StringText s u) (h' : StringText s' u')
    (heq : u ++ r = u' ++ r') : s = s' ∧ u = u' ∧ r = r' := by
  have hread := readString_of_stringText h r
  rw [heq, readString_of_stringText h' r'] at hread
  simp only [Option.some.injEq, Prod.mk.injEq] at hread
  obtain ⟨rfl, rfl⟩ := hread
  exact ⟨rfl, List.append_cancel_right heq, rfl⟩

/-! ## The bytes of a literal -/

theorem escapeByte_ascii {c b : UInt8} (h : escapeByte c = some b) :
    0x20 ≤ c ∧ c < 0x80 ∧ b < 0x80 := by
  unfold escapeByte at h
  repeat' split at h
  all_goals first
    | (next hc => rw [hc]; cases h; decide)
    | exact absurd h (by simp)

theorem hexVal_ascii {c : UInt8} {x : ℕ} (h : hexVal c = some x) : 0x20 ≤ c ∧ c < 0x80 := by
  rw [UInt8.le_iff_toNat_le, UInt8.lt_iff_toNat_lt]
  unfold hexVal at h
  split at h
  · next hdigit =>
    rw [isDigit_iff] at hdigit
    exact ⟨Nat.le_trans (by decide) hdigit.1, Nat.lt_of_le_of_lt hdigit.2 (by decide)⟩
  split at h
  · next hlower =>
    simp only [UInt8.le_iff_toNat_le] at hlower
    exact ⟨Nat.le_trans (by decide) hlower.1, Nat.lt_of_le_of_lt hlower.2 (by decide)⟩
  split at h
  · next hupper =>
    simp only [UInt8.le_iff_toNat_le] at hupper
    exact ⟨Nat.le_trans (by decide) hupper.1, Nat.lt_of_le_of_lt hupper.2 (by decide)⟩
  · exact absurd h (by simp)

theorem hexQuad_ascii {i j k l : UInt8} {x : ℕ} (h : hexQuad i j k l = some x) :
    ∀ c ∈ [i, j, k, l], 0x20 ≤ c ∧ c < 0x80 := by
  simp only [hexQuad, Option.bind_eq_bind, Option.bind_eq_some_iff] at h
  obtain ⟨w, hw, x, hx, y, hy, z, hz, -⟩ := h
  intro c hc
  simp only [List.mem_cons, List.not_mem_nil, or_false] at hc
  rcases hc with rfl | rfl | rfl | rfl
  · exact hexVal_ascii hw
  · exact hexVal_ascii hx
  · exact hexVal_ascii hy
  · exact hexVal_ascii hz

theorem unitText_ge {u : CharUnit} {t : Bytes} (h : UnitText u t) : ∀ b ∈ t, 0x20 ≤ b := by
  cases h with
  | plain hun =>
      intro b hb
      rw [List.mem_singleton.mp hb]
      exact (unescaped_iff.mp hun).1
  | escape he =>
      intro b hb
      simp only [List.mem_cons, List.not_mem_nil, or_false] at hb
      rcases hb with rfl | rfl
      · decide
      · exact (escapeByte_ascii he).1
  | unicode hx =>
      intro b hb
      rcases List.mem_cons.mp hb with rfl | hb
      · decide
      rcases List.mem_cons.mp hb with rfl | hb
      · decide
      · exact (hexQuad_ascii hx b hb).1

theorem unitsText_ge {us : List CharUnit} {t : Bytes} (h : UnitsText us t) :
    ∀ b ∈ t, 0x20 ≤ b := by
  induction us generalizing t with
  | nil =>
      rw [UnitsText] at h
      simp [h]
  | cons u us ih =>
      obtain ⟨a, b, rfl, ha, hb⟩ := h
      intro c hc
      rcases List.mem_append.mp hc with hc | hc
      · exact unitText_ge ha c hc
      · exact ih hb c hc

/-- A literal has no control byte in it. -/
theorem stringText_ge {s t : Bytes} (h : StringText s t) : ∀ b ∈ t, 0x20 ≤ b := by
  obtain ⟨us, u, rfl, hu, -⟩ := h
  intro b hb
  rcases List.mem_cons.mp hb with rfl | hb
  · decide
  rcases List.mem_append.mp hb with hb | hb
  · exact unitsText_ge hu b hb
  · rw [List.mem_singleton.mp hb]
    decide

/-! ## Members -/

/-- The key and the value of a member whose key is known. -/
theorem memberText_inv {key u t r : Bytes} {m : Bytes × Json} {a : Bytes}
    (hu : StringText key u) (h : MemberText m a) (heq : a ++ r = u ++ colon :: t) :
    m.1 = key ∧ ∃ b, Text m.2 b ∧ t = b ++ r := by
  obtain ⟨p, b, rfl, hp, hb⟩ := h
  have hread := readPadded_key hp (b ++ r)
  rw [List.append_assoc, List.cons_append] at heq
  rw [heq, readPadded_key (padded_of hu)] at hread
  simp only [Option.some.injEq, Prod.mk.injEq, List.cons.injEq, true_and] at hread
  exact ⟨hread.1.symm, b, hb, hread.2⟩

/-- With no comma left, a list is its last member. -/
theorem listText_last_inv {ms : List (Bytes × Json)} {key u t : Bytes}
    (hu : StringText key u) (hcomma : comma ∉ t)
    (h : ListText MemberText ms (u ++ colon :: t)) : ∃ v, ms = [(key, v)] ∧ Text v t := by
  cases ms with
  | nil => exact absurd h (not_blank_append_cons rfl u t)
  | cons m ms =>
      obtain ⟨a, r, heq, ha, hr⟩ := h
      obtain ⟨hkey, b, hb, rfl⟩ := memberText_inv hu ha heq.symm
      cases ms with
      | nil =>
          rw [TailText] at hr
          rw [hr, List.append_nil]
          exact ⟨m.2, by rw [← hkey], hb⟩
      | cons n ms =>
          obtain ⟨c, d, rfl, -, -⟩ := hr
          exact absurd (by simp) hcomma

/-- A colon with nothing but whitespace behind it is in no member list. -/
theorem not_listText_of_hole {ms : List (Bytes × Json)} {key u w r : Bytes}
    (hu : StringText key u) (hw : Blank w) (hr : Closed r) :
    ¬ListText MemberText ms (u ++ colon :: (w ++ r)) := by
  intro h
  cases ms with
  | nil => exact not_blank_append_cons rfl u (w ++ r) h
  | cons m ms =>
      obtain ⟨a, s, heq, ha, -⟩ := h
      obtain ⟨-, b, hb, hsplit⟩ := memberText_inv hu ha heq.symm
      -- the value would start with the byte that closes the member
      obtain ⟨c, z, hc, hclose⟩ := skipWs_text hb s
      rw [← hsplit, skipWs_append hw hr.headNot_ws] at hc
      rw [hc, closed_cons] at hr
      exact Bool.false_ne_true (hclose.symm.trans hr)

theorem listText_of_objectText {ms : List (Bytes × Json)} {b : Bytes}
    (h : ObjectText ms (lbrace :: b ++ [rbrace])) : ListText MemberText ms b := by
  obtain ⟨w, b', w', heq, hw, hw', hb⟩ := objectText_iff.mp h
  -- neither side has whitespace outside its braces
  have hnil : w = [] := by
    cases w with
    | nil => rfl
    | cons c w =>
        simp only [List.cons_append, List.cons.injEq] at heq
        have hc := hw c List.mem_cons_self
        rw [← heq.1] at hc
        exact absurd hc (by decide)
  have hnil' : w' = [] := by
    rcases List.eq_nil_or_concat w' with rfl | ⟨v, c, rfl⟩
    · rfl
    · rw [List.concat_eq_append, ← List.append_assoc] at heq
      have hlast := List.singleton_inj.mp (List.append_inj' heq rfl).2
      have hc := hw' c (by simp)
      rw [← hlast] at hc
      exact absurd hc (by decide)
  subst hnil hnil'
  simp only [List.nil_append, List.append_nil, List.cons_append, List.cons.injEq, true_and] at heq
  rwa [List.append_cancel_right heq]

end Rfc8259
