import PhiTransport.Frames.Splicing

/-!
# Objects inside objects

A member's value may itself be the text of a `jsonObject` call. `Nested` is such
an expression: texts at the leaves, calls above them. `Denotes` is the value an
expression stands for, leaf by leaf, and the text of an expression spells that
value and no other, however deep the calls nest.
-/

namespace PhiTransport

open Octets Rfc8259

/-! ## Expressions -/

/-- The value texts a caller can write: a text of its own, or a call with such
texts as its values. -/
inductive Nested where
  | text (valueJson : Bytes)
  | object (members : List (Bytes × Nested))

mutual
/-- The text an expression evaluates to, the calls made from the inside out. -/
def Nested.toText : Nested → Bytes
  | .text valueJson => valueJson
  | .object members => jsonObject (nestedFields members)
def nestedFields : List (Bytes × Nested) → List (Bytes × Bytes)
  | [] => []
  | (key, n) :: members => (key, n.toText) :: nestedFields members
end

mutual
/-- Every text at a leaf is empty or JSON text. -/
def Nested.Valid : Nested → Prop
  | .text valueJson => valueJson = [] ∨ ∃ v, Text v valueJson
  | .object members => ValidMembers members
def ValidMembers : List (Bytes × Nested) → Prop
  | [] => True
  | (_, n) :: members => n.Valid ∧ ValidMembers members
end

mutual
/-- The value an expression stands for. -/
def Nested.Denotes : Nested → Json → Prop
  | .text valueJson, v => SlotText v valueJson
  | .object members, v => ∃ ms, v = .obj ms ∧ DenotesMembers members ms
def DenotesMembers : List (Bytes × Nested) → List (Bytes × Json) → Prop
  | [], ms => ms = []
  | (key, n) :: members, ms =>
      ∃ v rest, ms = (key, v) :: rest ∧ n.Denotes v ∧ DenotesMembers members rest
end

/-! ## What an expression spells -/

/-- A slot has one value. -/
theorem slotText_unique {v w : Json} {t : Bytes} (h : SlotText v t) (h' : SlotText w t) : v = w := by
  rcases h with ⟨rfl, rfl⟩ | h
  · rcases h' with ⟨-, rfl⟩ | h'
    · rfl
    · exact absurd rfl (text_ne_nil h')
  · rcases h' with ⟨rfl, -⟩ | h'
    · exact absurd rfl (text_ne_nil h)
    · exact text_unique h h'

mutual
theorem exists_denotes : ∀ {n : Nested}, n.Valid → ∃ v, n.Denotes v
  | .text valueJson, h => by
      rw [Nested.Valid] at h
      rcases h with rfl | ⟨v, hv⟩
      · exact ⟨.obj [], Or.inl ⟨rfl, rfl⟩⟩
      · exact ⟨v, Or.inr hv⟩
  | .object members, h => by
      rw [Nested.Valid] at h
      obtain ⟨ms, hms⟩ := exists_denotesMembers h
      exact ⟨.obj ms, ms, rfl, hms⟩
theorem exists_denotesMembers :
    ∀ {members : List (Bytes × Nested)}, ValidMembers members → ∃ ms, DenotesMembers members ms
  | [], _ => ⟨[], rfl⟩
  | (key, n) :: members, h => by
      rw [ValidMembers] at h
      obtain ⟨v, hv⟩ := exists_denotes h.1
      obtain ⟨ms, hms⟩ := exists_denotesMembers h.2
      exact ⟨(key, v) :: ms, v, ms, rfl, hv, hms⟩
end

mutual
theorem slotText_of_denotes : ∀ {n : Nested} {v : Json}, n.Denotes v → SlotText v n.toText
  | .text valueJson, v, h => h
  | .object members, v, h => by
      obtain ⟨ms, rfl, hms⟩ := h
      exact Or.inr (objectText_jsonObject (slots_of_denotes hms))
theorem slots_of_denotes :
    ∀ {members : List (Bytes × Nested)} {ms : List (Bytes × Json)}, DenotesMembers members ms →
      List.Forall₂ (fun m f => m.1 = f.1 ∧ SlotText m.2 f.2) ms (nestedFields members)
  | [], ms, h => by
      rw [DenotesMembers] at h
      rw [h, nestedFields]
      exact .nil
  | (key, n) :: members, ms, h => by
      obtain ⟨v, rest, rfl, hv, hrest⟩ := h
      exact .cons ⟨rfl, slotText_of_denotes hv⟩ (slots_of_denotes hrest)
end

theorem exists_slots_of_text {members : List (Bytes × Bytes)}
    (h : ∀ f ∈ members, f.2 = [] ∨ ∃ v, Text v f.2) :
    ∃ ms : List (Bytes × Json),
      List.Forall₂ (fun m f => m.1 = f.1 ∧ SlotText m.2 f.2) ms members := by
  apply exists_slots
  · intro f hf
    rcases h f hf with hnil | htext
    · rw [hnil]
      exact Or.inl blank_nil
    · exact Or.inr htext
  · intro f hf hb
    rcases h f hf with hnil | ⟨v, hv⟩
    · exact hnil
    · exact absurd hv (not_text_of_blank hb v)

/-- **An object is assembled from any member list.** Values that are empty or
JSON text give an object with exactly these members in this order, and calls
nested to any depth spell the value their expression stands for. -/
theorem jsonObject_assembles :
    (∀ members : List (Bytes × Bytes), (∀ f ∈ members, f.2 = [] ∨ ∃ v, Text v f.2) →
      ∃ ms : List (Bytes × Json),
        List.Forall₂ (fun m f => m.1 = f.1 ∧ SlotText m.2 f.2) ms members ∧
        ∀ ms', ObjectText ms' (jsonObject members) ↔ ms' = ms) ∧
    (∀ members : List (Bytes × Nested), ValidMembers members →
      ∃ ms, DenotesMembers members ms ∧
        ∀ ms', ObjectText ms' (Nested.object members).toText ↔ ms' = ms) ∧
    ∀ n : Nested, n.Valid → ∃ v, n.Denotes v ∧ ∀ v', SlotText v' n.toText ↔ v' = v := by
  refine ⟨?_, ?_, ?_⟩
  · intro members h
    obtain ⟨ms, hms⟩ := exists_slots_of_text h
    exact ⟨ms, hms, objectText_only (objectText_jsonObject hms)⟩
  · intro members h
    obtain ⟨ms, hms⟩ := exists_denotesMembers h
    exact ⟨ms, hms, objectText_only (objectText_jsonObject (slots_of_denotes hms))⟩
  · intro n h
    obtain ⟨v, hv⟩ := exists_denotes h
    have hslot := slotText_of_denotes hv
    refine ⟨v, hv, fun v' => ⟨fun hv' => slotText_unique hv' hslot, ?_⟩⟩
    rintro rfl
    exact hslot

/-- Two calls, a quote in the outer key and nothing in the inner value. -/
def quotedOuter : List (Bytes × Nested) :=
  [(ascii "a\"b", .object [(ascii "inner", .text [])]), (ascii "n", .text (decimal 7))]

theorem validMembers_quotedOuter : ValidMembers quotedOuter := by
  simp only [quotedOuter, ValidMembers, Nested.Valid, and_true, true_or, true_and]
  exact Or.inr ⟨_, text_nat 7⟩

theorem jsonObject_assembles_quotedOuter :
    ValidMembers quotedOuter ∧
    ∀ ms, ObjectText ms (Nested.object quotedOuter).toText ↔
      ms = [(ascii "a\"b", .obj [(ascii "inner", .obj [])]), (ascii "n", .num (.ofNat 7))] := by
  have hvalue : DenotesMembers quotedOuter
      [(ascii "a\"b", .obj [(ascii "inner", .obj [])]), (ascii "n", .num (.ofNat 7))] :=
    ⟨_, _, rfl, ⟨_, rfl, _, _, rfl, Or.inl ⟨rfl, rfl⟩, rfl⟩, _, _, rfl, Or.inr (text_nat 7), rfl⟩
  obtain ⟨ms, -, hms⟩ := jsonObject_assembles.2.1 quotedOuter validMembers_quotedOuter
  rw [← (hms _).mp (objectText_jsonObject (slots_of_denotes hvalue))] at hms
  exact ⟨validMembers_quotedOuter, hms⟩

end PhiTransport
