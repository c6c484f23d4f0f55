import PhiTransport.Api.Envelope
import PhiTransport.Base.Json.Members

/-!
# Writing frames

What the concatenation of a frame gives away and what it keeps apart. Quoted
strings delimit themselves and a numeral ends before the next comma, so an
envelope determines its parts; and the splice of a sync response determines
what a client reads under each key.
-/

namespace PhiTransport

open Octets Rfc8259

/-- A payload of one member, for the small frames below. -/
theorem objectText_reading (n : ℕ) :
    ObjectText [(ascii "temp", .num (.ofNat n))] (jsonObject [(ascii "temp", decimal n)]) :=
  objectText_jsonObject (.cons ⟨rfl, Or.inr (text_nat n)⟩ .nil)

/-! ## The envelope -/

/-- The text that fills a member slot. -/
def slot (valueJson : Bytes) : Bytes :=
  if valueJson.isEmpty then emptyJsonObject else valueJson

theorem slot_inj {valueJson valueJson' : Bytes} (h : slot valueJson = slot valueJson') :
    valueJson = valueJson' ∨ (valueJson = [] ∧ valueJson' = emptyJsonObject) ∨
      (valueJson = emptyJsonObject ∧ valueJson' = []) := by
  unfold slot at h
  cases valueJson with
  | nil =>
      cases valueJson' with
      | nil => exact Or.inl rfl
      | cons b t => exact Or.inr (Or.inl ⟨rfl, h.symm⟩)
  | cons b t =>
      cases valueJson' with
      | nil => exact Or.inr (Or.inr ⟨h, rfl⟩)
      | cons b' t' => exact Or.inl h

theorem jsonField_eq (key valueJson : Bytes) :
    jsonField key valueJson = jsonQuoted key ++ colon :: slot valueJson := by
  rw [jsonField, slot, List.append_assoc, List.singleton_append]

/-- A member shows its key, whatever follows. -/
theorem jsonField_append_key {key key' valueJson valueJson' t t' : Bytes}
    (h : jsonField key valueJson ++ t = jsonField key' valueJson' ++ t') : key = key' := by
  rw [jsonField_eq, jsonField_eq, List.append_assoc, List.append_assoc] at h
  exact (jsonQuoted_append_cancel h).1

theorem slot_jsonQuoted (s : Bytes) : slot (jsonQuoted s) = jsonQuoted s := by
  simp [slot, jsonQuoted]

theorem slot_decimal (n : ℕ) : slot (decimal n) = decimal n := by
  simp [slot, decimal_ne_nil]

/-- An envelope from its `cid` on. -/
def envelopeTail (cid : Option CmdId) (payloadJson : Bytes) : Bytes :=
  (match cid with
    | some n => comma :: jsonField (ascii "cid") (decimal n.toNat)
    | none => []) ++
    (comma :: jsonField (ascii "payload") payloadJson ++ [rbrace])

theorem makeEnvelope_eq (type topic : Bytes) (cid : Option CmdId) (payloadJson : Bytes) :
    makeEnvelope type topic cid payloadJson =
      (lbrace :: jsonQuoted (ascii "type") ++ [colon]) ++ (jsonQuoted type ++
        ((comma :: jsonQuoted (ascii "topic") ++ [colon]) ++ (jsonQuoted topic ++
          envelopeTail cid payloadJson))) := by
  unfold makeEnvelope envelopeTail
  cases cid with
  | none => simp [jsonField_eq, slot_jsonQuoted]
  | some n => simp [jsonField_eq, slot_jsonQuoted]

/-- The payload member, once its key has been reached. -/
theorem payloadMember_inj {payloadJson payloadJson' : Bytes}
    (h : jsonField (ascii "payload") payloadJson ++ [rbrace] =
      jsonField (ascii "payload") payloadJson' ++ [rbrace]) : slot payloadJson = slot payloadJson' := by
  rw [jsonField_eq, jsonField_eq] at h
  exact (List.cons.inj (List.append_cancel_left (List.append_cancel_right h))).2

theorem envelopeTail_inj {cid cid' : Option CmdId} {payloadJson payloadJson' : Bytes}
    (h : envelopeTail cid payloadJson = envelopeTail cid' payloadJson') :
    cid = cid' ∧ slot payloadJson = slot payloadJson' := by
  have hkeys : ascii "cid" ≠ ascii "payload" := by decide
  unfold envelopeTail at h
  cases cid with
  | none =>
      cases cid' with
      | none => exact ⟨rfl, payloadMember_inj (List.cons.inj h).2⟩
      | some n' =>
          exact absurd (jsonField_append_key (List.cons.inj h).2).symm hkeys
  | some n =>
      cases cid' with
      | none =>
          exact absurd (jsonField_append_key (List.cons.inj h).2) hkeys
      | some n' =>
          -- the numeral ends at the comma that opens the payload member
          have hnum : decimal n.toNat ++
                comma :: (jsonField (ascii "payload") payloadJson ++ [rbrace]) =
              decimal n'.toNat ++
                comma :: (jsonField (ascii "payload") payloadJson' ++ [rbrace]) := by
            simpa [jsonField_eq (ascii "cid"), slot_decimal] using h
          obtain ⟨hn, hrest⟩ := decimal_append_inj (by decide) (by decide) hnum
          exact ⟨congrArg some (UInt64.toNat_inj.mp hn),
            payloadMember_inj (List.cons.inj hrest).2⟩

/-- **The envelope is transparent and unambiguous.** It spells exactly its
members, keeps the payload text byte for byte, and determines every part it was
made from, but for an absent payload and `{}`. -/
theorem makeEnvelope_transparent {payload : Json} {payloadJson : Bytes}
    (h : SlotText payload payloadJson) (type topic : Bytes) (cid : Option CmdId) :
    (∀ ms, ObjectText ms (makeEnvelope type topic cid payloadJson) ↔
      ms = envelopeMembers type topic cid payload) ∧
    keys (envelopeMembers type topic cid payload) =
      [ascii "type", ascii "topic"] ++ (if cid.isSome then [ascii "cid"] else []) ++
        [ascii "payload"] ∧
    (∃ before, makeEnvelope type topic cid payloadJson =
      before ++ (jsonQuoted (ascii "payload") ++ colon ::
        (if payloadJson = [] then emptyJsonObject else payloadJson)) ++ [rbrace]) ∧
    ∀ type' topic' cid' payloadJson',
      makeEnvelope type topic cid payloadJson = makeEnvelope type' topic' cid' payloadJson' →
      type = type' ∧ topic = topic' ∧ cid = cid' ∧
        (payloadJson = payloadJson' ∨ (payloadJson = [] ∧ payloadJson' = emptyJsonObject) ∨
          (payloadJson = emptyJsonObject ∧ payloadJson' = [])) := by
  have hobj := objectText_makeEnvelope h type topic cid
  refine ⟨objectText_only hobj, ?_, ?_, ?_⟩
  · cases cid <;> rfl
  · have hslot : slot payloadJson =
        if payloadJson = [] then emptyJsonObject else payloadJson := by
      cases payloadJson <;> rfl
    rw [← hslot, ← jsonField_eq]
    exact ⟨_, rfl⟩
  · intro type' topic' cid' payloadJson' heq
    rw [makeEnvelope_eq, makeEnvelope_eq] at heq
    obtain ⟨htype, heq⟩ := jsonQuoted_append_cancel (List.append_cancel_left heq)
    obtain ⟨htopic, heq⟩ := jsonQuoted_append_cancel (List.append_cancel_left heq)
    obtain ⟨hcid, hpayload⟩ := envelopeTail_inj heq
    exact ⟨htype, htopic, hcid, slot_inj hpayload⟩

theorem makeEnvelope_transparent_event :
    SlotText (.obj [(ascii "temp", .num (.ofNat 21))]) (jsonObject [(ascii "temp", decimal 21)]) ∧
    ∀ ms, ObjectText ms (makeEnvelope (ascii "event") (ascii "a\",\"cid\":\"1") none
        (jsonObject [(ascii "temp", decimal 21)])) ↔
      ms = [(ascii "type", .str (ascii "event")),
        (ascii "topic", .str (ascii "a\",\"cid\":\"1")),
        (ascii "payload", .obj [(ascii "temp", .num (.ofNat 21))])] :=
  ⟨Or.inr (objectText_reading 21),
    (makeEnvelope_transparent (Or.inr (objectText_reading 21)) (ascii "event")
      (ascii "a\",\"cid\":\"1") none).1⟩

/-! ## The sync response -/

/-- **A sync response names its topic** exactly when core's payload has no
`sync` of its own: the splice never looks, and a client keeps the later one. -/
theorem syncResponse_names_topic_iff {ms : List (Bytes × Json)} {payloadJson : Bytes}
    (h : ObjectText ms payloadJson) (hd : (keys ms).Nodup) (syncTopic : Bytes) :
    ((∃ rs, ObjectText rs (makeSyncResponsePayload payloadJson syncTopic) ∧ (keys rs).Nodup) ∧
      valueAt (ascii "sync") (makeSyncResponsePayload payloadJson syncTopic) =
        some (.str syncTopic) ∧
      ∀ key, key ≠ ascii "sync" →
        valueAt key (makeSyncResponsePayload payloadJson syncTopic) = valueAt key payloadJson) ↔
    ascii "sync" ∉ keys ms := by
  have hobj := objectText_makeSyncResponsePayload (Or.inl h) syncTopic
  constructor
  · rintro ⟨⟨rs, hrs, hnodup⟩, -, -⟩
    rw [(objectText_only hobj rs).mp hrs] at hnodup
    exact (List.nodup_cons.mp hnodup).1
  · intro hsync
    refine ⟨⟨_, hobj, List.nodup_cons.mpr ⟨hsync, hd⟩⟩, ?_, fun key hkey => ?_⟩
    · rw [valueAt_of_objectText hobj, lastValue_cons_self hsync]
    · rw [valueAt_of_objectText hobj, valueAt_of_objectText h,
        lastValue_cons_of_ne (Ne.symm hkey)]

theorem syncResponse_names_topic_reading :
    ((∃ rs, ObjectText rs (makeSyncResponsePayload (jsonObject [(ascii "temp", decimal 21)])
        (ascii "sync.temp.get")) ∧ (keys rs).Nodup) ∧
      valueAt (ascii "sync") (makeSyncResponsePayload (jsonObject [(ascii "temp", decimal 21)])
        (ascii "sync.temp.get")) = some (.str (ascii "sync.temp.get")) ∧
      ∀ key, key ≠ ascii "sync" →
        valueAt key (makeSyncResponsePayload (jsonObject [(ascii "temp", decimal 21)])
          (ascii "sync.temp.get")) = valueAt key (jsonObject [(ascii "temp", decimal 21)])) ↔
    ascii "sync" ∉ [ascii "temp"] :=
  syncResponse_names_topic_iff (objectText_reading 21) (by simp [keys]) (ascii "sync.temp.get")

/-- A payload with a `sync` of its own answers for another topic. -/
theorem syncResponse_of_own_sync :
    ObjectText [(ascii "sync", .num (.ofNat 1))] (jsonObject [(ascii "sync", decimal 1)]) ∧
    valueAt (ascii "sync") (makeSyncResponsePayload (jsonObject [(ascii "sync", decimal 1)])
        (ascii "sync.time.get")) = some (.num (.ofNat 1)) ∧
    ∀ rs, ObjectText rs (makeSyncResponsePayload (jsonObject [(ascii "sync", decimal 1)])
        (ascii "sync.time.get")) → ¬(keys rs).Nodup := by
  have h : ObjectText [(ascii "sync", .num (.ofNat 1))] (jsonObject [(ascii "sync", decimal 1)]) :=
    objectText_jsonObject (.cons ⟨rfl, Or.inr (text_nat 1)⟩ .nil)
  have hobj := objectText_makeSyncResponsePayload (Or.inl h) (ascii "sync.time.get")
  refine ⟨h, ?_, ?_⟩
  · rw [valueAt_of_objectText hobj]
    rfl
  · intro rs hrs
    rw [(objectText_only hobj rs).mp hrs]
    simp [keys]

end PhiTransport
