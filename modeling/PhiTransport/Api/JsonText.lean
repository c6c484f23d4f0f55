import PhiTransport.Base.Json.Soundness

/-!
# JSON text helpers

The concatenation helpers of the data path: quoting, one member, a whole
object, and the splice that puts a member in front of an object's own. None of
them parses, so each is followed by the statement of what the text it builds
spells: `stringText_jsonQuoted`, `memberText_jsonField`,
`objectText_jsonObject` and `objectText_withJsonField`.
-/

namespace PhiTransport

open Octets Rfc8259

/-- An empty JSON object, for payload slots that carry nothing. -/
def emptyJsonObject : Bytes := [lbrace, rbrace]

def isEmptyJsonObject (json : Bytes) : Bool :=
  json.all fun c =>
    c == 0x20 || c == 0x09 || c == 0x0A || c == 0x0D || c == lbrace || c == rbrace

/-! ## Quoting -/

def hexDigits : Bytes := ascii "0123456789abcdef"

/-- What one byte contributes to a quoted string. -/
def jsonEscaped (c : UInt8) : Bytes :=
  if c = quote then [backslash, quote]
  else if c = backslash then [backslash, backslash]
  else if c = 0x08 then ascii "\\b"
  else if c = 0x0C then ascii "\\f"
  else if c = 0x0A then ascii "\\n"
  else if c = 0x0D then ascii "\\r"
  else if c = 0x09 then ascii "\\t"
  else if c < 0x20 then
    ascii "\\u00" ++ [hexDigits.getD ((c >>> 4) &&& 0x0F).toNat 0,
      hexDigits.getD (c &&& 0x0F).toNat 0]
  else [c]

/-- A JSON string literal for `text`, quoted and escaped. -/
def jsonQuoted (text : Bytes) : Bytes := [quote] ++ text.flatMap jsonEscaped ++ [quote]

theorem hexQuad_control : ∀ n < 32, hexQuad 0x30 0x30
    (hexDigits.getD ((UInt8.ofNat n >>> 4) &&& 0x0F).toNat 0)
    (hexDigits.getD (UInt8.ofNat n &&& 0x0F).toNat 0) = some n := by decide

theorem decode_code {x : ℕ} (h : isHighSurrogate x = false) (us : List CharUnit) :
    decode (.code x :: us) = utf8 x ++ decode us := by
  cases us with
  | nil => simp [decode]
  | cons u us =>
      cases u with
      | byte b => simp [decode]
      | code y => rw [decode, h, Bool.false_and, if_neg Bool.false_ne_true]

/-- A byte is written by a short escape, as a control code, or as itself. -/
theorem jsonEscaped_cases (c : UInt8) :
    (∃ e, escapeByte e = some c ∧ jsonEscaped c = [backslash, e]) ∨
    (c < 0x20 ∧ ∃ h l, hexQuad 0x30 0x30 h l = some c.toNat ∧
      jsonEscaped c = [backslash, letterU, 0x30, 0x30, h, l]) ∨
    (isUnescaped c = true ∧ jsonEscaped c = [c]) := by
  by_cases hq : c = quote
  · exact Or.inl ⟨quote, by rw [hq]; rfl, by rw [hq]; rfl⟩
  by_cases hb : c = backslash
  · exact Or.inl ⟨backslash, by rw [hb]; rfl, by rw [hb]; rfl⟩
  by_cases h8 : c = 0x08
  · exact Or.inl ⟨0x62, by rw [h8]; rfl, by rw [h8]; rfl⟩
  by_cases hC : c = 0x0C
  · exact Or.inl ⟨0x66, by rw [hC]; rfl, by rw [hC]; rfl⟩
  by_cases hA : c = 0x0A
  · exact Or.inl ⟨0x6E, by rw [hA]; rfl, by rw [hA]; rfl⟩
  by_cases hD : c = 0x0D
  · exact Or.inl ⟨0x72, by rw [hD]; rfl, by rw [hD]; rfl⟩
  by_cases h9 : c = 0x09
  · exact Or.inl ⟨0x74, by rw [h9]; rfl, by rw [h9]; rfl⟩
  have hrest : jsonEscaped c = if c < 0x20 then
      ascii "\\u00" ++ [hexDigits.getD ((c >>> 4) &&& 0x0F).toNat 0,
        hexDigits.getD (c &&& 0x0F).toNat 0] else [c] := by
    rw [jsonEscaped, if_neg hq, if_neg hb, if_neg h8, if_neg hC, if_neg hA, if_neg hD, if_neg h9]
  by_cases hctl : c < 0x20
  · have hquad := hexQuad_control c.toNat (UInt8.lt_iff_toNat_lt.mp hctl)
    rw [UInt8.ofNat_toNat] at hquad
    rw [hrest, if_pos hctl]
    exact Or.inr (Or.inl ⟨hctl, _, _, hquad, rfl⟩)
  · rw [hrest, if_neg hctl]
    exact Or.inr (Or.inr ⟨unescaped_iff.mpr ⟨UInt8.not_lt.mp hctl, hq, hb⟩, rfl⟩)

/-- The escape of a byte is one unit of a literal, and it decodes to that byte. -/
theorem unitText_jsonEscaped (c : UInt8) :
    ∃ u, UnitText u (jsonEscaped c) ∧ ∀ us, decode (u :: us) = c :: decode us := by
  rcases jsonEscaped_cases c with ⟨e, he, htext⟩ | ⟨hctl, h, l, hquad, htext⟩ | ⟨hun, htext⟩
  · rw [htext]
    exact ⟨.byte c, .escape he, fun us => by rw [decode]⟩
  · rw [htext]
    refine ⟨.code c.toNat, .unicode hquad, fun us => ?_⟩
    have hlt : c.toNat < 32 := UInt8.lt_iff_toNat_lt.mp hctl
    have hhigh : isHighSurrogate c.toNat = false := by
      simp only [isHighSurrogate, decide_eq_false_iff_not]
      omega
    rw [decode_code hhigh, utf8, if_pos (by omega), UInt8.ofNat_toNat]
    rfl
  · rw [htext]
    exact ⟨.byte c, .plain hun, fun us => by rw [decode]⟩

theorem unitsText_jsonEscaped (s : Bytes) :
    ∃ us, UnitsText us (s.flatMap jsonEscaped) ∧ decode us = s := by
  induction s with
  | nil => exact ⟨[], rfl, by rw [decode]⟩
  | cons c s ih =>
      obtain ⟨u, hu, hdec⟩ := unitText_jsonEscaped c
      obtain ⟨us, hus, hs⟩ := ih
      refine ⟨u :: us, ⟨_, _, List.flatMap_cons, hu, hus⟩, ?_⟩
      rw [hdec, hs]

/-- A quoted string is a literal of exactly the bytes it was made from. -/
theorem stringText_jsonQuoted (s : Bytes) : StringText s (jsonQuoted s) := by
  obtain ⟨us, hus, hs⟩ := unitsText_jsonEscaped s
  exact ⟨us, _, rfl, hus, hs.symm⟩

theorem text_jsonQuoted (s : Bytes) : Text (.str s) (jsonQuoted s) :=
  text_str (stringText_jsonQuoted s)

theorem readString_jsonQuoted_append (s t : Bytes) :
    readString (jsonQuoted s ++ t) = some (s, t) :=
  readString_of_stringText (stringText_jsonQuoted s) t

/-- A quoted string delimits itself: what follows cannot be mistaken for it. -/
theorem jsonQuoted_append_cancel {s s' t t' : Bytes}
    (h : jsonQuoted s ++ t = jsonQuoted s' ++ t') : s = s' ∧ t = t' := by
  have hread := congrArg readString h
  rw [readString_jsonQuoted_append, readString_jsonQuoted_append] at hread
  simpa using hread

/-! ## One member -/

/-- The value of a member slot: `{}` where the text is empty. -/
def SlotText (v : Json) (valueJson : Bytes) : Prop :=
  (valueJson = [] ∧ v = .obj []) ∨ Text v valueJson

/-- Nest `valueJson` under `key`. -/
def jsonField (key valueJson : Bytes) : Bytes :=
  jsonQuoted key ++ [colon] ++ (if valueJson.isEmpty then emptyJsonObject else valueJson)

theorem text_emptyJsonObject : Text (.obj []) emptyJsonObject := by
  have h : ListText MemberText [] [] := blank_nil
  exact objectText_of_list h

theorem text_ne_nil {v : Json} {t : Bytes} (h : Text v t) : t ≠ [] := by
  rintro rfl
  exact not_text_of_blank blank_nil v h

theorem memberText_jsonField {v : Json} {valueJson : Bytes} (key : Bytes)
    (h : SlotText v valueJson) : MemberText (key, v) (jsonField key valueJson) := by
  rw [jsonField, List.append_assoc, List.singleton_append]
  rcases h with ⟨rfl, rfl⟩ | h
  · exact memberText_of (stringText_jsonQuoted key) text_emptyJsonObject
  · have hne : valueJson.isEmpty = false := by simpa using text_ne_nil h
    rw [hne]
    exact memberText_of (stringText_jsonQuoted key) h

theorem memberText_jsonField_text {v : Json} {valueJson : Bytes} (key : Bytes)
    (h : Text v valueJson) : MemberText (key, v) (jsonField key valueJson) :=
  memberText_jsonField key (Or.inr h)

/-! ## Whole objects -/

section Items

variable {α : Type}

/-- The loop every list of this API is assembled by: a comma before each item
but the first. -/
def appendItems (render : α → Bytes) (items : List α) (out : Bytes) : Bytes :=
  (items.foldl
    (fun s item => ((if s.2 then s.1 else s.1 ++ [comma]) ++ render item, false))
    (out, true)).1

/-- Past the first item the loop puts a comma before each. -/
theorem foldl_items (render : α → Bytes) (items : List α) (out : Bytes) :
    (items.foldl
      (fun s item => ((if s.2 then s.1 else s.1 ++ [comma]) ++ render item, false))
      (out, false)).1 = out ++ items.flatMap fun item => comma :: render item := by
  induction items generalizing out with
  | nil => simp
  | cons x items ih =>
      rw [List.foldl_cons, if_neg Bool.false_ne_true, ih, List.flatMap_cons]
      simp

theorem appendItems_eq (render : α → Bytes) (items : List α) (out : Bytes) :
    appendItems render items out = out ++ [comma].intercalate (items.map render) := by
  cases items with
  | nil => simp [appendItems]
  | cons x items =>
      -- joining with commas, seen from the first item
      have htail : ∀ (items : List α) (x : α), [comma].intercalate ((x :: items).map render) =
          render x ++ items.flatMap fun item => comma :: render item := by
        intro items
        induction items with
        | nil => simp [List.intercalate_singleton]
        | cons y items ih =>
            intro x
            rw [List.map_cons, List.map_cons, List.intercalate_cons_cons, ← List.map_cons, ih y,
              List.flatMap_cons]
            simp
      rw [htail, appendItems, List.foldl_cons, if_pos rfl, foldl_items, List.append_assoc]

/-- The loop builds the inside of a list whose items its calls render. -/
theorem listText_appendItems {β : Type} {P : β → Bytes → Prop} {render : α → Bytes}
    {items : List α} {xs : List β}
    (h : List.Forall₂ (fun x item => P x (render item)) xs items) :
    ListText P xs (appendItems render items []) := by
  rw [appendItems_eq, List.nil_append]
  exact listText_intercalate (List.forall₂_map_right_iff.mpr h)

/-- Between its brackets the loop builds an array. -/
theorem text_appendItems {render : α → Bytes} {items : List α} {vs : List Json}
    (h : List.Forall₂ (fun v item => Text v (render item)) vs items) :
    Text (.arr vs) (lbracket :: appendItems render items [] ++ [rbracket]) :=
  text_arr (listText_appendItems h)

theorem appendItems_append (render : α → Bytes) (items : List α) (out : Bytes) :
    appendItems render items out = out ++ appendItems render items [] := by
  rw [appendItems_eq, appendItems_eq, List.nil_append]

end Items

/-- Assemble an object from members whose values are already JSON text. -/
def jsonObject (members : List (Bytes × Bytes)) : Bytes :=
  appendItems (fun m => jsonField m.1 m.2) members [lbrace] ++ [rbrace]

theorem objectText_jsonObject {members : List (Bytes × Bytes)} {ms : List (Bytes × Json)}
    (h : List.Forall₂ (fun m f => m.1 = f.1 ∧ SlotText m.2 f.2) ms members) :
    ObjectText ms (jsonObject members) := by
  rw [jsonObject, appendItems_append, List.singleton_append]
  apply objectText_of_list
  apply listText_appendItems
  apply h.imp
  rintro ⟨key, v⟩ ⟨key', valueJson⟩ ⟨rfl, hv⟩
  exact memberText_jsonField key hv

/-! ## The splice -/

/-- Insert `key: valueJson` as the first member of the object text `objectJson`. -/
def withJsonField (objectJson key valueJson : Bytes) : Bytes :=
  [lbrace] ++ jsonField key valueJson ++
    (if !isEmptyJsonObject objectJson then
      -- the outermost braces: the first that opens and the last that closes
      match find lbrace objectJson, rfind rbrace objectJson with
      | some openPos, some closePos =>
          if closePos > openPos then
            [comma] ++ substr objectJson (openPos + 1) (closePos - openPos - 1)
          else []
      | _, _ => []
    else []) ++ [rbrace]

theorem isEmptyJsonObject_append (s t : Bytes) :
    isEmptyJsonObject (s ++ t) = (isEmptyJsonObject s && isEmptyJsonObject t) := by
  simp [isEmptyJsonObject]

theorem isEmptyJsonObject_blank {t : Bytes} (h : Blank t) : isEmptyJsonObject t = true := by
  rw [isEmptyJsonObject, List.all_eq_true]
  intro b hb
  have := h b hb
  simp only [isWs, Bool.or_eq_true] at this
  simp only [Bool.or_eq_true]
  tauto

/-- On object text the character scan answers whether there are members. -/
theorem isEmptyJsonObject_iff {ms : List (Bytes × Json)} {t : Bytes} (h : ObjectText ms t) :
    isEmptyJsonObject t = true ↔ ms = [] := by
  obtain ⟨w, b, w', rfl, hw, hw', hb⟩ := objectText_iff.mp h
  constructor
  · intro hempty
    cases ms with
    | nil => rfl
    | cons m ms =>
        -- a member brings the quote of its key, which the scan does not pass over
        obtain ⟨a, c, rfl, ha, -⟩ := hb
        have hquote := memberText_quote_mem ha
        rw [isEmptyJsonObject, List.all_eq_true] at hempty
        have := hempty quote (by simp [hquote])
        exact absurd this (by decide)
  · rintro rfl
    simp only [isEmptyJsonObject_append, isEmptyJsonObject_blank hw, isEmptyJsonObject_blank hw',
      Bool.true_and, Bool.and_true]
    rw [← List.singleton_append, isEmptyJsonObject_append, isEmptyJsonObject_blank hb]
    rfl

theorem notMem_of_blank {w : Bytes} (hw : Blank w) {b : UInt8} (hb : isWs b = false) : b ∉ w :=
  fun hmem => Bool.false_ne_true (hb.symm.trans (hw b hmem))

/-- The splice keeps the text between the outer braces byte for byte. -/
theorem withJsonField_eq {w b w' : Bytes} (hw : Blank w) (hw' : Blank w') (key valueJson : Bytes)
    (hne : isEmptyJsonObject (w ++ (lbrace :: b ++ [rbrace]) ++ w') = false) :
    withJsonField (w ++ (lbrace :: b ++ [rbrace]) ++ w') key valueJson =
      lbrace :: (jsonField key valueJson ++ comma :: b) ++ [rbrace] := by
  have hopen : find lbrace (w ++ (lbrace :: b ++ [rbrace]) ++ w') = some w.length := by
    have := find_append (c := lbrace) (a := w) (b := b ++ [rbrace] ++ w')
      (notMem_of_blank hw rfl)
    simpa using this
  have hclose : rfind rbrace (w ++ (lbrace :: b ++ [rbrace]) ++ w') =
      some (w.length + (b.length + 1)) := by
    have := rfind_append (c := rbrace) (notMem_of_blank hw' rfl) (w ++ lbrace :: b)
    simpa using this
  have hsub : substr (w ++ (lbrace :: b ++ [rbrace]) ++ w') (w.length + 1)
      (w.length + (b.length + 1) - w.length - 1) = b := by
    have := substr_append (w ++ [lbrace]) b (rbrace :: w')
    simpa using this
  unfold withJsonField
  rw [hne, hopen, hclose]
  simp only [Bool.not_false, if_pos, hsub]
  rw [if_pos (by omega)]
  simp

theorem withJsonField_empty {objectJson : Bytes} (h : isEmptyJsonObject objectJson = true)
    (key valueJson : Bytes) :
    withJsonField objectJson key valueJson = lbrace :: jsonField key valueJson ++ [rbrace] := by
  rw [withJsonField, h]
  simp

/-- What the splice accepts as an object: object text, or a blank text for `{}`. -/
def PayloadText (ms : List (Bytes × Json)) (t : Bytes) : Prop :=
  ObjectText ms t ∨ (Blank t ∧ ms = [])

/-- The splice puts the new member in front and keeps the others in order. -/
theorem objectText_withJsonField {ms : List (Bytes × Json)} {objectJson valueJson : Bytes}
    {v : Json} (ho : PayloadText ms objectJson) (key : Bytes) (hv : SlotText v valueJson) :
    ObjectText ((key, v) :: ms) (withJsonField objectJson key valueJson) := by
  have hm := memberText_jsonField key hv
  have alone : isEmptyJsonObject objectJson = true →
      ObjectText [(key, v)] (withJsonField objectJson key valueJson) := by
    intro hempty
    rw [withJsonField_empty hempty]
    exact objectText_of_list (listText_singleton hm)
  rcases ho with ho | ⟨hblank, rfl⟩
  · by_cases hms : ms = []
    · subst hms
      exact alone ((isEmptyJsonObject_iff ho).mpr rfl)
    · have hne : isEmptyJsonObject objectJson = false := by
        rw [← Bool.not_eq_true, isEmptyJsonObject_iff ho]
        exact hms
      obtain ⟨w, b, w', rfl, hw, hw', hb⟩ := objectText_iff.mp ho
      rw [withJsonField_eq hw hw' key valueJson hne]
      exact objectText_of_list (listText_cons hm hms hb)
  · exact alone (isEmptyJsonObject_blank hblank)

end PhiTransport
