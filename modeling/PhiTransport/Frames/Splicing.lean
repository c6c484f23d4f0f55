import PhiTransport.Api.Envelope
import PhiTransport.Base.Json.Splitting

/-!
# Texts put inside texts

The helpers of the data path work by concatenation alone. Three questions
decide whether that is safe: where a quoted string ends, which braces the
splice cuts at, and what a payload that carries nothing leaves in its slot.
-/

namespace PhiTransport

open Octets Rfc8259

/-! ## Quoted strings -/

/-- The bytes a text encoding puts above ASCII. -/
def highBytes (t : Bytes) : Bytes := t.filter fun b => decide (0x80 ≤ b)

theorem highBytes_append (s t : Bytes) : highBytes (s ++ t) = highBytes s ++ highBytes t :=
  List.filter_append ..

theorem highBytes_of_ascii {t : Bytes} (h : ∀ b ∈ t, b < 0x80) : highBytes t = [] := by
  rw [highBytes, List.filter_eq_nil_iff]
  intro b hb
  have hlt := h b hb
  simpa using hlt

theorem highBytes_jsonEscaped (c : UInt8) : highBytes (jsonEscaped c) = highBytes [c] := by
  rcases jsonEscaped_cases c with ⟨e, he, htext⟩ | ⟨hctl, h, l, hquad, htext⟩ | ⟨-, htext⟩
  · obtain ⟨-, he', hc⟩ := escapeByte_ascii he
    rw [htext, highBytes_of_ascii, highBytes_of_ascii]
    · simpa using hc
    · simpa using ⟨by decide, he'⟩
  · have hquad' := hexQuad_ascii hquad
    rw [htext, highBytes_of_ascii, highBytes_of_ascii]
    · have : c < 0x80 := UInt8.lt_trans hctl (by decide)
      simpa using this
    · have hdigits : ∀ b ∈ [0x30, 0x30, h, l], b < 0x80 := fun b hb => (hquad' b hb).2
      intro b hb
      rcases List.mem_cons.mp hb with rfl | hb
      · decide
      rcases List.mem_cons.mp hb with rfl | hb
      · decide
      · exact hdigits b hb
  · rw [htext]

theorem highBytes_flatMap (s : Bytes) : highBytes (s.flatMap jsonEscaped) = highBytes s := by
  induction s with
  | nil => rfl
  | cons c s ih =>
      rw [List.flatMap_cons, highBytes_append, highBytes_jsonEscaped, ih, ← highBytes_append]
      rfl

theorem highBytes_jsonQuoted (s : Bytes) : highBytes (jsonQuoted s) = highBytes s := by
  rw [jsonQuoted, highBytes_append, highBytes_append, highBytes_flatMap]
  have hquote : highBytes [quote] = [] := rfl
  rw [hquote, List.nil_append, List.append_nil]

/-- **A quoted string delimits itself.** Whatever follows it, the grammar finds
one literal at its start, the whole of it, and reads its bytes back; there are
no control bytes in it and the bytes above ASCII stand as they are. -/
theorem jsonQuoted_delimits :
    (∀ s : Bytes, StringText s (jsonQuoted s)) ∧
    (∀ s t : Bytes, readString (jsonQuoted s ++ t) = some (s, t)) ∧
    (∀ s t s' u r : Bytes, StringText s' u → jsonQuoted s ++ t = u ++ r →
      s' = s ∧ u = jsonQuoted s ∧ r = t) ∧
    (∀ s : Bytes, ∀ b ∈ jsonQuoted s, 0x20 ≤ b) ∧
    (∀ s : Bytes, highBytes (jsonQuoted s) = highBytes s) ∧
    (∀ s s' t t' : Bytes, jsonQuoted s ++ t = jsonQuoted s' ++ t' → s = s' ∧ t = t') ∧
    Function.Injective jsonQuoted := by
  refine ⟨stringText_jsonQuoted, readString_jsonQuoted_append, ?_, ?_, highBytes_jsonQuoted, ?_,
    ?_⟩
  · intro s t s' u r hu heq
    exact stringText_split hu (stringText_jsonQuoted s) heq.symm
  · intro s
    exact stringText_ge (stringText_jsonQuoted s)
  · intro s s' t t' h
    exact jsonQuoted_append_cancel h
  · intro s s' h
    have happ : jsonQuoted s ++ [] = jsonQuoted s' ++ [] := by rw [h]
    exact (jsonQuoted_append_cancel happ).1

/-! ## The splice -/

/-- **The splice cuts at the object's own braces.** The new member stands in
front of the members the object had, the text between the braces is kept byte
for byte, and the scan for emptiness is right about every object text. -/
theorem withJsonField_splices {ms : List (Bytes × Json)} {objectJson valueJson : Bytes}
    {v : Json} (ho : PayloadText ms objectJson) (hv : SlotText v valueJson) (key : Bytes) :
    (∀ ms', ObjectText ms' (withJsonField objectJson key valueJson) ↔ ms' = (key, v) :: ms) ∧
    (ms ≠ [] → ∃ w b w', objectJson = w ++ (lbrace :: b ++ [rbrace]) ++ w' ∧ Blank w ∧ Blank w' ∧
      withJsonField objectJson key valueJson =
        lbrace :: (jsonField key valueJson ++ comma :: b) ++ [rbrace]) ∧
    (ms = [] → withJsonField objectJson key valueJson =
      lbrace :: jsonField key valueJson ++ [rbrace]) ∧
    (ObjectText ms objectJson → (isEmptyJsonObject objectJson = true ↔ ms = [])) := by
  have hobj := objectText_withJsonField ho key hv
  refine ⟨objectText_only hobj, ?_, ?_, isEmptyJsonObject_iff⟩
  · intro hne
    rcases ho with ho | ⟨-, hnil⟩
    · obtain ⟨w, b, w', heq, hw, hw', -⟩ := objectText_iff.mp ho
      have hscan : isEmptyJsonObject objectJson = false := by
        rw [← Bool.not_eq_true, isEmptyJsonObject_iff ho]
        exact hne
      rw [heq] at hscan
      refine ⟨w, b, w', heq, hw, hw', ?_⟩
      rw [heq, withJsonField_eq hw hw' key valueJson hscan]
    · exact absurd hnil hne
  · intro hnil
    apply withJsonField_empty
    rcases ho with ho | ⟨hblank, -⟩
    · exact (isEmptyJsonObject_iff ho).mpr hnil
    · exact isEmptyJsonObject_blank hblank

/-- A payload with braces in its strings and whitespace around it. -/
def bracesPayload : Bytes :=
  ascii " " ++ jsonObject [([rbrace], jsonQuoted [rbrace, lbrace])] ++ ascii " \n"

theorem objectText_bracesPayload :
    ObjectText [([rbrace], .str [rbrace, lbrace])] bracesPayload := by
  have hobj : ObjectText [([rbrace], .str [rbrace, lbrace])]
      (jsonObject [([rbrace], jsonQuoted [rbrace, lbrace])]) :=
    objectText_jsonObject (.cons ⟨rfl, Or.inr (text_jsonQuoted _)⟩ .nil)
  exact objectText_iff.mpr ⟨ascii " ", _, ascii " \n", rfl, by decide, by decide,
    listText_of_objectText hobj⟩

theorem withJsonField_splices_braces :
    PayloadText [([rbrace], .str [rbrace, lbrace])] bracesPayload ∧
    ∀ ms', ObjectText ms' (withJsonField bracesPayload (ascii "sync") (decimal 1)) ↔
      ms' = [(ascii "sync", .num (.ofNat 1)), ([rbrace], .str [rbrace, lbrace])] :=
  ⟨Or.inl objectText_bracesPayload,
    (withJsonField_splices (Or.inl objectText_bracesPayload) (Or.inr (text_nat 1))
      (ascii "sync")).1⟩

/-! ## Blank payloads -/

/-- A text a caller may hand over as a value: blank, or JSON text. -/
def ValueText (t : Bytes) : Prop := Blank t ∨ ∃ v, Text v t

/-- The value such a text stands for: `{}` where it is blank. -/
def StandsFor (v : Json) (t : Bytes) : Prop := (Blank t ∧ v = .obj []) ∨ Text v t

theorem standsFor_of_slotText {v : Json} {t : Bytes} (h : SlotText v t) : StandsFor v t := by
  rcases h with ⟨rfl, rfl⟩ | h
  · exact Or.inl ⟨blank_nil, rfl⟩
  · exact Or.inr h

/-- Off the blank texts of positive length a slot has a value. -/
theorem exists_slotText {t : Bytes} (h : ValueText t) (hb : Blank t → t = []) :
    ∃ v, SlotText v t := by
  rcases h with h | ⟨v, hv⟩
  · exact ⟨.obj [], Or.inl ⟨hb h, rfl⟩⟩
  · exact ⟨v, Or.inr hv⟩

theorem jsonField_of_ne_nil {valueJson : Bytes} (h : valueJson ≠ []) (key : Bytes) :
    jsonField key valueJson = jsonQuoted key ++ colon :: valueJson := by
  have hne : valueJson.isEmpty = false := by simpa using h
  simp [jsonField, hne]

/-- A blank value leaves a hole, whatever members follow it. -/
theorem not_listText_of_blank {ms : List (Bytes × Json)} {valueJson r : Bytes} (key : Bytes)
    (hb : Blank valueJson) (hne : valueJson ≠ []) (hr : Closed r) :
    ¬ListText MemberText ms (jsonField key valueJson ++ r) := by
  rw [jsonField_of_ne_nil hne, List.append_assoc, List.cons_append]
  exact not_listText_of_hole (stringText_jsonQuoted key) hb hr

theorem not_objectText_of_blank {ms : List (Bytes × Json)} {valueJson : Bytes} (key : Bytes)
    (hb : Blank valueJson) (hne : valueJson ≠ []) :
    ¬ObjectText ms (lbrace :: jsonField key valueJson ++ [rbrace]) := by
  intro h
  have hlist := listText_of_objectText h
  rw [← List.append_nil (jsonField key valueJson)] at hlist
  exact not_listText_of_blank key hb hne closed_nil hlist

/-- The inside of an object, member by member: one hole anywhere spoils it. -/
theorem blank_of_listText {members : List (Bytes × Bytes)} (h : ∀ f ∈ members, ValueText f.2)
    {ms : List (Bytes × Json)}
    (hlist : ListText MemberText ms ([comma].intercalate (members.map fun f => jsonField f.1 f.2))) :
    ∀ f ∈ members, Blank f.2 → f.2 = [] := by
  induction members generalizing ms with
  | nil => simp
  | cons f members ih =>
      have hf := h f List.mem_cons_self
      have hrest : ∀ g ∈ members, ValueText g.2 := fun g hg => h g (List.mem_cons_of_mem _ hg)
      -- what stands behind the first member
      obtain ⟨r, hr, heq⟩ : ∃ r, Closed r ∧
          [comma].intercalate ((f :: members).map fun f => jsonField f.1 f.2) =
            jsonField f.1 f.2 ++ r := by
        cases members with
        | nil => exact ⟨[], closed_nil, by simp [List.intercalate_singleton]⟩
        | cons g members =>
            rw [List.map_cons, List.map_cons, List.intercalate_cons_cons, List.append_assoc]
            exact ⟨_, closed_cons.mpr rfl, rfl⟩
      have hfirst : Blank f.2 → f.2 = [] := by
        intro hb
        by_contra hne
        rw [heq] at hlist
        exact not_listText_of_blank f.1 hb hne hr hlist
      intro g hg
      rcases List.mem_cons.mp hg with rfl | hg
      · exact hfirst
      · cases members with
        | nil => exact absurd hg List.not_mem_nil
        | cons k members =>
            obtain ⟨v, hv⟩ := exists_slotText hf hfirst
            rw [List.map_cons, List.map_cons, List.intercalate_cons_cons, List.append_assoc]
              at hlist
            obtain ⟨ms', -, htail⟩ :=
              listText_cons_inv memberText_delimited (memberText_jsonField f.1 hv) hlist
            exact ih hrest htail g hg

theorem jsonObject_eq (members : List (Bytes × Bytes)) :
    jsonObject members =
      lbrace :: [comma].intercalate (members.map fun f => jsonField f.1 f.2) ++ [rbrace] := by
  rw [jsonObject, appendItems_eq]
  rfl

theorem blank_of_jsonObject {members : List (Bytes × Bytes)} (h : ∀ f ∈ members, ValueText f.2)
    {ms : List (Bytes × Json)} (hms : ObjectText ms (jsonObject members)) :
    ∀ f ∈ members, Blank f.2 → f.2 = [] := by
  rw [jsonObject_eq] at hms
  exact blank_of_listText h (listText_of_objectText hms)

theorem exists_slots {members : List (Bytes × Bytes)} (h : ∀ f ∈ members, ValueText f.2)
    (hb : ∀ f ∈ members, Blank f.2 → f.2 = []) :
    ∃ ms : List (Bytes × Json),
      List.Forall₂ (fun m f => m.1 = f.1 ∧ SlotText m.2 f.2) ms members := by
  induction members with
  | nil => exact ⟨[], .nil⟩
  | cons f members ih =>
      obtain ⟨v, hv⟩ := exists_slotText (h f List.mem_cons_self) (hb f List.mem_cons_self)
      obtain ⟨ms, hms⟩ := ih (fun g hg => h g (List.mem_cons_of_mem _ hg))
        (fun g hg => hb g (List.mem_cons_of_mem _ hg))
      exact ⟨(f.1, v) :: ms, .cons ⟨rfl, hv⟩ hms⟩

/-! ### What the character scan calls empty -/

/-- Of the values only an object starts with a brace. -/
theorem spells_brace {v : Json} {u : Bytes} (h : Spells v (lbrace :: u)) : ∃ ms, v = .obj ms := by
  have hne : ∀ {b : UInt8} {t : Bytes}, lbrace :: u = b :: t → lbrace = b := by
    intro b t heq
    exact (List.cons.inj heq).1
  cases v with
  | null =>
      rw [Spells] at h
      exact absurd (hne h) (by decide)
  | bool b =>
      rw [Spells] at h
      cases b
      · exact absurd (hne h) (by decide)
      · exact absurd (hne h) (by decide)
  | num n =>
      rw [Spells] at h
      obtain ⟨b, t, hbt, hb⟩ := number_start n
      rw [← hne (h.trans hbt)] at hb
      exact absurd hb (by decide)
  | str s =>
      rw [Spells] at h
      obtain ⟨us, b, heq, -, -⟩ := h
      exact absurd (hne heq) (by decide)
  | arr xs =>
      obtain ⟨b, heq, -⟩ := spells_arr.mp h
      exact absurd (hne heq) (by decide)
  | obj ms => exact ⟨ms, rfl⟩

theorem isEmptyJsonObject_text {v : Json} {t : Bytes} (h : Text v t) :
    isEmptyJsonObject t = true ↔ v = .obj [] := by
  constructor
  · intro hempty
    obtain ⟨w, u, w', rfl, hw, hu, hw'⟩ := id h
    obtain ⟨b, s, rfl, hb, hclose⟩ := spells_start hu
    -- the first byte of the value is in the class of the scan
    have hscan := List.all_eq_true.mp hempty b (by simp)
    have hbrace : b = lbrace := by
      have hnr : b ≠ rbrace := by
        rintro rfl
        exact absurd hclose (by decide)
      simp only [isWs, Bool.or_eq_false_iff] at hb
      simpa [hb, hnr] using hscan
    subst hbrace
    obtain ⟨ms, rfl⟩ := spells_brace hu
    rw [(isEmptyJsonObject_iff h).mp hempty]
  · rintro rfl
    exact (isEmptyJsonObject_iff h).mpr rfl

theorem comma_notMem_of_isEmptyJsonObject {t : Bytes} (h : isEmptyJsonObject t = true) :
    comma ∉ t := by
  intro hmem
  have hscan := List.all_eq_true.mp h comma hmem
  exact absurd hscan (by decide)

/-! ### The envelope -/

/-- The members of an envelope in front of the payload, as texts. -/
def envelopeFields (type topic : Bytes) (cid : Option CmdId) : List (Bytes × Bytes) :=
  [(ascii "type", jsonQuoted type), (ascii "topic", jsonQuoted topic)] ++
    (match cid with
      | some n => [(ascii "cid", decimal n.toNat)]
      | none => [])

theorem makeEnvelope_eq_jsonObject (type topic : Bytes) (cid : Option CmdId)
    (payloadJson : Bytes) : makeEnvelope type topic cid payloadJson =
      jsonObject (envelopeFields type topic cid ++ [(ascii "payload", payloadJson)]) := by
  cases cid with
  | none => simp [makeEnvelope, jsonObject, appendItems, envelopeFields]
  | some n => simp [makeEnvelope, jsonObject, appendItems, envelopeFields]

theorem text_of_mem_envelopeFields {type topic : Bytes} {cid : Option CmdId} {f : Bytes × Bytes}
    (h : f ∈ envelopeFields type topic cid) : ∃ v, Text v f.2 := by
  rcases List.mem_append.mp h with h | h
  · simp only [List.mem_cons, List.not_mem_nil, or_false] at h
    rcases h with rfl | rfl
    · exact ⟨_, text_jsonQuoted type⟩
    · exact ⟨_, text_jsonQuoted topic⟩
  · cases cid with
    | none => exact absurd h List.not_mem_nil
    | some n =>
        rw [List.mem_singleton.mp h]
        exact ⟨_, text_nat n.toNat⟩

theorem forall₂_envelopeFields (type topic : Bytes) (cid : Option CmdId) :
    ∃ ms : List (Bytes × Json), List.Forall₂ MemberText ms
      ((envelopeFields type topic cid).map fun f => jsonField f.1 f.2) := by
  have hfields : ∀ f ∈ envelopeFields type topic cid, ∃ v, Text v f.2 :=
    fun f hf => text_of_mem_envelopeFields hf
  obtain ⟨ms, hms⟩ := exists_slots (fun f hf => Or.inr (hfields f hf)) (by
    intro f hf hb
    obtain ⟨v, hv⟩ := hfields f hf
    exact absurd hv (not_text_of_blank hb v))
  refine ⟨ms, List.forall₂_map_right_iff.mpr (hms.imp ?_)⟩
  rintro ⟨key, v⟩ ⟨key', valueJson⟩ ⟨rfl, hv⟩
  exact memberText_jsonField key hv

/-- An envelope whose payload has no comma carries a value in that slot. -/
theorem text_of_makeEnvelope {ms : List (Bytes × Json)} {type topic : Bytes}
    {cid : Option CmdId} {payloadJson : Bytes} (hne : payloadJson ≠ []) (hcomma : comma ∉ payloadJson)
    (h : ObjectText ms (makeEnvelope type topic cid payloadJson)) : ∃ v, Text v payloadJson := by
  rw [makeEnvelope_eq_jsonObject, jsonObject_eq, List.map_append] at h
  obtain ⟨hs, hhs⟩ := forall₂_envelopeFields type topic cid
  obtain ⟨zs, -, hzs⟩ :=
    listText_intercalate_inv memberText_delimited hhs (listText_of_objectText h)
  dsimp only at hzs
  rw [jsonField_of_ne_nil hne] at hzs
  obtain ⟨v, -, hv⟩ := listText_last_inv (stringText_jsonQuoted _) hcomma hzs
  exact ⟨v, hv⟩

/-! ### Where there is no hole -/

section

variable {t : Bytes}

theorem objectText_jsonField {v : Json} (h : SlotText v t) (key : Bytes) :
    ObjectText [(key, v)] (lbrace :: jsonField key t ++ [rbrace]) :=
  objectText_of_list (listText_singleton (memberText_jsonField key h))

theorem jsonField_iff (ht : ValueText t) (key : Bytes) :
    (∃ v, StandsFor v t ∧ ∀ ms, ObjectText ms (lbrace :: jsonField key t ++ [rbrace]) ↔
      ms = [(key, v)]) ↔ (Blank t → t = []) := by
  constructor
  · rintro ⟨v, -, hv⟩ hb
    by_contra hne
    exact not_objectText_of_blank key hb hne ((hv _).mpr rfl)
  · intro hb
    obtain ⟨v, hv⟩ := exists_slotText ht hb
    exact ⟨v, standsFor_of_slotText hv, objectText_only (objectText_jsonField hv key)⟩

theorem jsonObject_iff {members : List (Bytes × Bytes)} (h : ∀ f ∈ members, ValueText f.2) :
    (∃ ms : List (Bytes × Json),
      List.Forall₂ (fun m f => m.1 = f.1 ∧ StandsFor m.2 f.2) ms members ∧
      ObjectText ms (jsonObject members)) ↔ ∀ f ∈ members, Blank f.2 → f.2 = [] := by
  constructor
  · rintro ⟨ms, -, hms⟩
    exact blank_of_jsonObject h hms
  · intro hb
    obtain ⟨ms, hms⟩ := exists_slots h hb
    refine ⟨ms, hms.imp ?_, objectText_jsonObject hms⟩
    rintro m f ⟨hkey, hv⟩
    exact ⟨hkey, standsFor_of_slotText hv⟩

theorem makeEnvelope_iff (ht : ValueText t) (type topic : Bytes) (cid : Option CmdId) :
    (∃ v, StandsFor v t ∧ ObjectText (envelopeMembers type topic cid v)
      (makeEnvelope type topic cid t)) ↔ (Blank t → t = []) := by
  constructor
  · rintro ⟨v, -, hv⟩
    rw [makeEnvelope_eq_jsonObject] at hv
    refine blank_of_jsonObject ?_ hv (ascii "payload", t) (by simp)
    intro f hf
    rcases List.mem_append.mp hf with hf | hf
    · exact Or.inr (text_of_mem_envelopeFields hf)
    · rw [List.mem_singleton.mp hf]
      exact ht
  · intro hb
    obtain ⟨v, hv⟩ := exists_slotText ht hb
    exact ⟨v, standsFor_of_slotText hv, objectText_makeEnvelope hv type topic cid⟩

/-- Slot and scan agree on what is no payload. -/
theorem isEmptyJsonObject_agrees_iff (ht : ValueText t) (key : Bytes) :
    (isEmptyJsonObject t = true ↔
      ObjectText [(key, .obj [])] (lbrace :: jsonField key t ++ [rbrace])) ↔
      (Blank t → t = []) := by
  constructor
  · intro h hb
    by_contra hne
    exact not_objectText_of_blank key hb hne (h.mp (isEmptyJsonObject_blank hb))
  · intro hb
    obtain ⟨v, hv⟩ := exists_slotText ht hb
    rw [objectText_only (objectText_jsonField hv key)]
    rcases hv with ⟨rfl, rfl⟩ | hv
    · simp [isEmptyJsonObject]
    · rw [isEmptyJsonObject_text hv]
      constructor
      · rintro rfl
        rfl
      · intro heq
        exact (Prod.mk.inj (List.cons.inj heq).1).2.symm

/-- What the scan calls empty is a payload when it is nothing or an empty object. -/
theorem makeEnvelope_empty_iff (t type topic : Bytes) (cid : Option CmdId) :
    (isEmptyJsonObject t = true → ∃ ms, ObjectText ms (makeEnvelope type topic cid t)) ↔
      (isEmptyJsonObject t = true → t = [] ∨ Text (.obj []) t) := by
  constructor
  · intro h hempty
    by_cases hne : t = []
    · exact Or.inl hne
    · obtain ⟨ms, hms⟩ := h hempty
      obtain ⟨v, hv⟩ := text_of_makeEnvelope hne (comma_notMem_of_isEmptyJsonObject hempty) hms
      rw [(isEmptyJsonObject_text hv).mp hempty] at hv
      exact Or.inr hv
  · intro h hempty
    rcases h hempty with rfl | ht
    · exact ⟨_, objectText_makeEnvelope (Or.inl ⟨rfl, rfl⟩) type topic cid⟩
    · exact ⟨_, objectText_makeEnvelope (Or.inr ht) type topic cid⟩

end

/-- **A blank payload leaves a hole.** A slot, a whole object and the envelope
are well formed exactly where no value is blank but not empty; there too the
slot and the character scan agree on what counts as no payload. -/
theorem blankPayload_iff (t : Bytes) (members : List (Bytes × Bytes)) :
    (ValueText t → ∀ key,
      ((∃ v, StandsFor v t ∧ ∀ ms, ObjectText ms (lbrace :: jsonField key t ++ [rbrace]) ↔
        ms = [(key, v)]) ↔ (Blank t → t = []))) ∧
    ((∀ f ∈ members, ValueText f.2) →
      ((∃ ms : List (Bytes × Json),
        List.Forall₂ (fun m f => m.1 = f.1 ∧ StandsFor m.2 f.2) ms members ∧
        ObjectText ms (jsonObject members)) ↔ ∀ f ∈ members, Blank f.2 → f.2 = [])) ∧
    (ValueText t → ∀ type topic cid,
      ((∃ v, StandsFor v t ∧ ObjectText (envelopeMembers type topic cid v)
        (makeEnvelope type topic cid t)) ↔ (Blank t → t = []))) ∧
    (ValueText t → ∀ key,
      ((isEmptyJsonObject t = true ↔
        ObjectText [(key, .obj [])] (lbrace :: jsonField key t ++ [rbrace])) ↔
        (Blank t → t = []))) ∧
    ∀ type topic cid,
      ((isEmptyJsonObject t = true → ∃ ms, ObjectText ms (makeEnvelope type topic cid t)) ↔
        (isEmptyJsonObject t = true → t = [] ∨ Text (.obj []) t)) :=
  ⟨jsonField_iff, jsonObject_iff, makeEnvelope_iff, isEmptyJsonObject_agrees_iff,
    makeEnvelope_empty_iff t⟩

/-- One space as the payload: the slot is a hole, and so is the envelope's. -/
theorem blankPayload_space :
    ValueText [0x20] ∧ isEmptyJsonObject [0x20] = true ∧
    makeEnvelope (ascii "event") (ascii "t") none [0x20] =
      [lbrace] ++ ascii "\"type\":\"event\",\"topic\":\"t\",\"payload\": " ++ [rbrace] ∧
    (∀ ms, ¬ObjectText ms (lbrace :: jsonField (ascii "payload") [0x20] ++ [rbrace])) ∧
    ¬∃ ms, ObjectText ms (makeEnvelope (ascii "event") (ascii "t") none [0x20]) := by
  have hb : Blank [0x20] := by decide
  refine ⟨Or.inl hb, rfl, by decide +kernel, ?_, ?_⟩
  · intro ms
    exact not_objectText_of_blank (ascii "payload") hb (by decide)
  · rintro ⟨ms, hms⟩
    obtain ⟨v, hv⟩ := text_of_makeEnvelope (by decide) (by decide) hms
    exact not_text_of_blank hb v hv

end PhiTransport
