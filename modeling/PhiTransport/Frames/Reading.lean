import PhiTransport.Frames.Cids

/-!
# Reading frames

Which answer `parseCommandFrame` gives to which text, and what becomes of a
frame that `makeEnvelope` wrote.

- `parseCommandFrame_first_fault` — the answer to any text, check by check.
- `parseCommandFrame_makeEnvelope` — the round trip: everything but the `cid`
  comes back as it was, and the `cid` comes back rounded to a double.
-/

namespace PhiTransport

open Octets Rfc8259 Nlohmann

/-! ## What the library makes of a written frame -/

section

variable {float : Number → Option Binary64} {parse : Bytes → Value} {trimmed : Bytes → Bytes}

/-- The members the library reads from a command frame, in the order written. -/
def commandMembers (topic : Bytes) (n : CmdId) (payload : Value) : Members :=
  [(ascii "type", .string kEnvelopeTypeCmd), (ascii "topic", .string topic),
    (ascii "cid", .numberUnsigned n), (ascii "payload", payload)]

theorem ofMembers_envelope {topic : Bytes} (hutf : validUtf8 topic = true) (n : CmdId)
    {payload : Json} {o : Value} (ho : ofJson float payload = some o) :
    ofMembers float (envelopeMembers kEnvelopeTypeCmd topic (some n) payload) =
      some (commandMembers topic n o) := by
  have hcmd : validUtf8 kEnvelopeTypeCmd = true := validUtf8_of_ascii (by decide)
  have htype : validUtf8 (ascii "type") = true := validUtf8_of_ascii (by decide)
  have htopic : validUtf8 (ascii "topic") = true := validUtf8_of_ascii (by decide)
  have hcid : validUtf8 (ascii "cid") = true := validUtf8_of_ascii (by decide)
  have hpayload : validUtf8 (ascii "payload") = true := validUtf8_of_ascii (by decide)
  have hn : ofNumber float (.ofNat n.toNat) = some (.numberUnsigned n) := by
    rw [ofNumber_ofNat float n.toNat_lt, UInt64.ofNat_toNat]
  simp [envelopeMembers, ofMembers, ofJson, hcmd, htype, htopic, hcid, hpayload, hutf, ho, hn,
    commandMembers]

theorem parse_makeEnvelope (hparse : ReadsJson float parse) {topic : Bytes}
    (hutf : validUtf8 topic = true) (n : CmdId) {ms : List (Bytes × Json)} {payloadJson : Bytes}
    {o : Value} (hpayload : ObjectText ms payloadJson) (ho : ofJson float (.obj ms) = some o) :
    parse (makeEnvelope kEnvelopeTypeCmd topic (some n) payloadJson) =
      .object (build (commandMembers topic n o)) := by
  apply hparse _ _ _ (objectText_makeEnvelope (Or.inr hpayload) _ _ _)
  rw [ofJson, ofMembers_envelope hutf n ho]
  rfl

theorem lookup_build_commandMembers (topic : Bytes) (n : CmdId) (payload : Value) :
    let ms := build (commandMembers topic n payload)
    ms.lookup (ascii "type") = some (.string kEnvelopeTypeCmd) ∧
      ms.lookup (ascii "topic") = some (.string topic) ∧
      ms.lookup (ascii "cid") = some (.numberUnsigned n) ∧
      ms.lookup (ascii "payload") = some payload := by
  dsimp only
  rw [lookup_build, lookup_build, lookup_build, lookup_build]
  exact ⟨rfl, rfl, rfl, rfl⟩

end

/-- `phi::str::trimmed` on the whitespace of JSON. -/
def trimmedJson (t : Bytes) : Bytes := (t.dropWhile isSpace).rdropWhile isSpace

/-- The library without a conversion for fractions, which no text below has. -/
def parseIntegers : Bytes → Value := referenceParse fun _ => none

def sampleFrame (n : CmdId) : Bytes :=
  makeEnvelope kEnvelopeTypeCmd (ascii "cmd.x") (some n) emptyJsonObject

theorem parse_sampleFrame (n : CmdId) :
    parseIntegers (sampleFrame n) =
      .object (build (commandMembers (ascii "cmd.x") n (.object []))) :=
  parse_makeEnvelope (readsJson_referenceParse _) (validUtf8_of_ascii (by decide)) n
    text_emptyJsonObject (by simp [ofJson, ofMembers, build])

/-! ## Refusals and acceptance -/

/-- The document has a `cid` member that reads as `cid`. -/
def HasCid (ms : Members) (cid : CmdId) : Prop :=
  ∃ it, ms.lookup (ascii "cid") = some it ∧ readCid it = .ok (some cid)

/-- `type` is the string `cmd`. -/
def IsCommand (ms : Members) : Prop :=
  ms.lookup (ascii "type") = some (.string (ascii "cmd"))

/-- `topic` is a string that trims to `topic`, and not to nothing. -/
def HasTopic (trimmed : Bytes → Bytes) (ms : Members) (topic : Bytes) : Prop :=
  ∃ s, ms.lookup (ascii "topic") = some (.string s) ∧ trimmed s = topic ∧ topic ≠ []

theorem HasTopic.unique {trimmed : Bytes → Bytes} {ms : Members} {topic topic' : Bytes}
    (h : HasTopic trimmed ms topic) (h' : HasTopic trimmed ms topic') : topic = topic' := by
  obtain ⟨s, hs, rfl, -⟩ := h
  obtain ⟨s', hs', rfl, -⟩ := h'
  rw [hs, Option.some.injEq, Value.string.injEq] at hs'
  rw [hs']

theorem memberCid_ne_thrown (ms : Members) : memberCid ms ≠ .error .thrown := by
  unfold memberCid
  cases ms.lookup (ascii "cid") with
  | none => nofun
  | some it => exact readCid_ne_thrown it

theorem memberCid_eq_some_iff {ms : Members} {cid : CmdId} :
    memberCid ms = .ok (some cid) ↔ HasCid ms cid := by
  unfold memberCid HasCid
  cases ms.lookup (ascii "cid") with
  | none => simp
  | some it => simp

theorem memberCid_eq_none_iff {ms : Members} :
    memberCid ms = .ok none ↔ ∀ it, ms.lookup (ascii "cid") = some it → readCid it = .ok none := by
  unfold memberCid
  cases ms.lookup (ascii "cid") with
  | none => simp
  | some it => simp

theorem memberCid_eq_error_iff {ms : Members} {fault : Fault} :
    memberCid ms = .error fault ↔
      ∃ it, ms.lookup (ascii "cid") = some it ∧ readCid it = .error fault := by
  unfold memberCid
  cases ms.lookup (ascii "cid") with
  | none => simp
  | some it => simp

/-- A non-empty string is read only from a string member. -/
theorem stringOf_eq_iff {ms : Members} {key s : Bytes} (hs : s ≠ []) :
    stringOf ms key = s ↔ ms.lookup key = some (.string s) := by
  unfold stringOf
  cases ms.lookup key with
  | none => simp [Ne.symm hs]
  | some it => cases it <;> simp [Ne.symm hs]

theorem trimmed_stringOf_iff {trimmed : Bytes → Bytes} (htrim : trimmed [] = []) {ms : Members}
    {topic : Bytes} (hne : topic ≠ []) :
    trimmed (stringOf ms (ascii "topic")) = topic ↔ HasTopic trimmed ms topic := by
  unfold HasTopic stringOf
  cases ms.lookup (ascii "topic") with
  | none => simp [htrim, Ne.symm hne]
  | some it => cases it <;> simp [htrim, hne, Ne.symm hne]

theorem trimmed_stringOf_eq_nil_iff {trimmed : Bytes → Bytes} (htrim : trimmed [] = [])
    {ms : Members} :
    trimmed (stringOf ms (ascii "topic")) = [] ↔ ¬∃ topic, HasTopic trimmed ms topic := by
  constructor
  · rintro hnil ⟨topic, htopic⟩
    have hne : topic ≠ [] := htopic.choose_spec.2.2
    exact hne (((trimmed_stringOf_iff htrim hne).mpr htopic).symm.trans hnil)
  · intro hnone
    by_contra hne
    exact hnone ⟨_, (trimmed_stringOf_iff htrim hne).mp rfl⟩

/-- The refusals a frame can meet once its `cid` is known, and its acceptance. -/
theorem checkFrame_some {trimmed : Bytes → Bytes} (htrim : trimmed [] = []) (ms : Members)
    (cid : CmdId) :
    (¬IsCommand ms ∧ checkFrame trimmed ms (some cid) =
        .error ⟨some cid, kErrorCodeInvalidType, kMessageInvalidType⟩) ∨
    (IsCommand ms ∧ (¬∃ topic, HasTopic trimmed ms topic) ∧ checkFrame trimmed ms (some cid) =
        .error ⟨some cid, kErrorCodeMissingTopic, kMessageMissingTopic⟩) ∨
    (IsCommand ms ∧ ∃ topic, HasTopic trimmed ms topic ∧
      checkFrame trimmed ms (some cid) = .ok ⟨cid, topic, payloadOf ms⟩) := by
  have htype : stringOf ms (ascii "type") = kEnvelopeTypeCmd ↔ IsCommand ms :=
    stringOf_eq_iff (by decide)
  by_cases hcmd : IsCommand ms
  · have hpast : ¬stringOf ms (ascii "type") ≠ kEnvelopeTypeCmd := not_not.mpr (htype.mpr hcmd)
    by_cases htopic : ∃ topic, HasTopic trimmed ms topic
    · obtain ⟨topic, htopic⟩ := htopic
      have hne : topic ≠ [] := htopic.choose_spec.2.2
      have heq := (trimmed_stringOf_iff htrim hne).mpr htopic
      refine Or.inr (Or.inr ⟨hcmd, topic, htopic, (if_neg hpast).trans ?_⟩)
      rw [heq, if_neg hne]
    · refine Or.inr (Or.inl ⟨hcmd, htopic, (if_neg hpast).trans (if_pos ?_)⟩)
      exact (trimmed_stringOf_eq_nil_iff htrim).mpr htopic
  · exact Or.inl ⟨hcmd, if_pos (mt htype.mp hcmd)⟩

/-- What `result` must be for an object with the members `ms`: each answer is
given exactly under its condition, and each condition begins where the one
before it fails. Reading the `cid` decides the first two. -/
structure FirstFault (trimmed : Bytes → Bytes) (ms : Members)
    (result : Except Fault (Except FrameError CommandFrame)) : Prop where
  missingCid : result = .ok (.error ⟨none, kErrorCodeMissingCid, kMessageMissingCid⟩) ↔
    ∀ it, ms.lookup (ascii "cid") = some it → readCid it = .ok none
  undefinedCid : result = .error .undefined ↔
    ∃ it, ms.lookup (ascii "cid") = some it ∧ readCid it = .error .undefined
  invalidType : ∀ cid,
    result = .ok (.error ⟨some cid, kErrorCodeInvalidType, kMessageInvalidType⟩) ↔
      HasCid ms cid ∧ ¬IsCommand ms
  missingTopic : ∀ cid,
    result = .ok (.error ⟨some cid, kErrorCodeMissingTopic, kMessageMissingTopic⟩) ↔
      HasCid ms cid ∧ IsCommand ms ∧ ¬∃ topic, HasTopic trimmed ms topic
  accepted : ∀ cid topic payload, result = .ok (.ok ⟨cid, topic, payload⟩) ↔
    HasCid ms cid ∧ IsCommand ms ∧ HasTopic trimmed ms topic ∧ payload = payloadOf ms

/-- The rows from what `readCid` made of the `cid`. -/
theorem FirstFault.of_memberCid {trimmed : Bytes → Bytes} {ms : Members}
    {result : Except Fault (Except FrameError CommandFrame)}
    (missingCid : result = .ok (.error ⟨none, kErrorCodeMissingCid, kMessageMissingCid⟩) ↔
      memberCid ms = .ok none)
    (undefinedCid : result = .error .undefined ↔ memberCid ms = .error .undefined)
    (invalidType : ∀ cid,
      result = .ok (.error ⟨some cid, kErrorCodeInvalidType, kMessageInvalidType⟩) ↔
        memberCid ms = .ok (some cid) ∧ ¬IsCommand ms)
    (missingTopic : ∀ cid,
      result = .ok (.error ⟨some cid, kErrorCodeMissingTopic, kMessageMissingTopic⟩) ↔
        memberCid ms = .ok (some cid) ∧ IsCommand ms ∧ ¬∃ topic, HasTopic trimmed ms topic)
    (accepted : ∀ cid topic payload, result = .ok (.ok ⟨cid, topic, payload⟩) ↔
      memberCid ms = .ok (some cid) ∧ IsCommand ms ∧ HasTopic trimmed ms topic ∧
        payload = payloadOf ms) :
    FirstFault trimmed ms result where
  missingCid := missingCid.trans memberCid_eq_none_iff
  undefinedCid := undefinedCid.trans memberCid_eq_error_iff
  invalidType cid := (invalidType cid).trans (and_congr_left' memberCid_eq_some_iff)
  missingTopic cid := (missingTopic cid).trans (and_congr_left' memberCid_eq_some_iff)
  accepted cid topic payload :=
    (accepted cid topic payload).trans (and_congr_left' memberCid_eq_some_iff)

theorem firstFault_of_members {trimmed : Bytes → Bytes} (htrim : trimmed [] = []) (ms : Members) :
    FirstFault trimmed ms ((memberCid ms).map (checkFrame trimmed ms)) := by
  have htype : kErrorCodeInvalidType ≠ kErrorCodeMissingTopic := by decide
  apply FirstFault.of_memberCid <;> cases hm : memberCid ms with
  | error fault => simp [Except.map]
  | ok read =>
      cases read with
      | none => simp [Except.map, checkFrame]
      | some cid =>
          -- the three ways on from a `cid`
          rcases checkFrame_some htrim ms cid with
            ⟨hcmd, h⟩ | ⟨hcmd, htopic, h⟩ | ⟨hcmd, topic, htopic, h⟩
          · simp [Except.map, h, hcmd, htype]
          · simp [Except.map, h, hcmd, Ne.symm htype, not_exists.mp htopic]
          · have hiff : ∀ topic', HasTopic trimmed ms topic' ↔ topic = topic' := fun _ =>
              ⟨htopic.unique, fun heq => heq ▸ htopic⟩
            simp [Except.map, h, hcmd, hiff, @eq_comm _ (payloadOf ms)]

/-- An object is never refused as invalid JSON, and reading it throws nothing. -/
theorem members_ne_invalidJson {trimmed : Bytes → Bytes} (htrim : trimmed [] = [])
    (ms : Members) :
    (memberCid ms).map (checkFrame trimmed ms) ≠ .error .thrown ∧
      (memberCid ms).map (checkFrame trimmed ms) ≠
        .ok (.error ⟨none, kErrorCodeInvalidJson, kMessageInvalidJson⟩) := by
  have hjson : kErrorCodeMissingCid ≠ kErrorCodeInvalidJson := by decide
  have hthrown := memberCid_ne_thrown ms
  cases hm : memberCid ms with
  | error fault =>
      rw [hm] at hthrown
      simpa [Except.map] using hthrown
  | ok read =>
      cases read with
      | none => simp [Except.map, checkFrame, hjson]
      | some cid =>
          rcases checkFrame_some htrim ms cid with ⟨-, h⟩ | ⟨-, -, h⟩ | ⟨-, topic, -, h⟩ <;>
            simp [Except.map, h]

/-- **The first fault decides.** `parseCommandFrame` throws on no text. A text
that is no object is `invalid_json`, and no other is; an object gets the answer
of the first check it fails, or is accepted. It has no defined answer exactly
where reading the `cid` has none. -/
theorem parseCommandFrame_first_fault (parse : Bytes → Value) {trimmed : Bytes → Bytes}
    (htrim : trimmed [] = []) (text : Bytes) :
    let result := parseCommandFrame parse trimmed text
    result ≠ .error .thrown ∧
    (result = .ok (.error ⟨none, kErrorCodeInvalidJson, kMessageInvalidJson⟩) ↔
      (parse text).isObject = false) ∧
    ∀ ms, parse text = .object ms → FirstFault trimmed ms result := by
  dsimp only
  rcases (parse text).isObject_cases with hobj | ⟨ms, hms⟩
  · rw [parseCommandFrame_of_not_object hobj]
    refine ⟨nofun, iff_of_true rfl hobj, ?_⟩
    intro ms hms
    rw [hms] at hobj
    exact absurd hobj.symm Bool.false_ne_true
  · rw [parseCommandFrame_object hms, hms]
    obtain ⟨hthrown, hjson⟩ := members_ne_invalidJson htrim ms
    refine ⟨hthrown, iff_of_false hjson Bool.noConfusion, ?_⟩
    intro ms' hms'
    rw [← Value.object.inj hms']
    exact firstFault_of_members htrim ms

theorem parseCommandFrame_first_fault_sampleFrame :
    trimmedJson [] = [] ∧
      parseCommandFrame parseIntegers trimmedJson (sampleFrame 7) =
        .ok (.ok ⟨7, ascii "cmd.x", .object []⟩) := by
  obtain ⟨htype, htopic, hcid, hpay⟩ := lookup_build_commandMembers (ascii "cmd.x") 7 (.object [])
  have hread : readCid (.numberUnsigned 7) = .ok (some 7) := by
    have hround : Binary64.roundNat (7 : CmdId).toNat = 7 := by decide
    rw [readCid_number rfl, cidFromNumber_ofUInt64, hround]
    rfl
  have htrim : trimmedJson [] = [] := rfl
  refine ⟨htrim, ?_⟩
  have hrows := (parseCommandFrame_first_fault parseIntegers htrim (sampleFrame 7)).2.2 _
    (parse_sampleFrame 7)
  refine (hrows.accepted 7 (ascii "cmd.x") (.object [])).mpr
    ⟨⟨_, hcid, hread⟩, htype, ⟨_, htopic, by decide, by decide⟩, ?_⟩
  rw [payloadOf, hpay]

/-! ## Reading undoes writing -/

/-- What a client may count on of `phi::str::trimmed`: it takes whitespace off
both ends and nothing else. -/
def Trims (space : UInt8 → Bool) (trimmed : Bytes → Bytes) : Prop :=
  ∀ t, trimmed t = (t.dropWhile space).rdropWhile space

/-- No whitespace at either end. -/
def Bare (space : UInt8 → Bool) (t : Bytes) : Prop :=
  (∀ b ∈ t.head?, space b = false) ∧ ∀ b ∈ t.getLast?, space b = false

theorem Trims.of_bare {space : UInt8 → Bool} {trimmed : Bytes → Bytes} (h : Trims space trimmed)
    {t : Bytes} (ht : Bare space t) : trimmed t = t := by
  have hfirst : t.dropWhile space = t := by
    cases t with
    | nil => rfl
    | cons b t => exact List.dropWhile_cons_of_neg (by rw [ht.1 b rfl]; exact Bool.false_ne_true)
  rw [h t, hfirst, List.rdropWhile_eq_self_iff]
  intro hne
  rw [ht.2 (t.getLast hne) (by simp [List.getLast?_eq_some_getLast hne])]
  exact Bool.false_ne_true

theorem trims_trimmedJson : Trims isSpace trimmedJson := fun _ => rfl

theorem bare_sampleTopic : Bare isSpace (ascii "cmd.x") := by
  constructor
  · simp [ascii, isSpace]
  · simp [ascii, isSpace]

section

variable {float : Number → Option Binary64} {parse : Bytes → Value} {trimmed : Bytes → Bytes}

/-- A written frame is read back with its topic and payload; its `cid` has been
through a double on the way. -/
theorem parseCommandFrame_makeEnvelope (hparse : ReadsJson float parse)
    {space : UInt8 → Bool} (htrim : Trims space trimmed) {topic : Bytes} (hne : topic ≠ [])
    (hutf : validUtf8 topic = true) (hbare : Bare space topic)
    {ms : List (Bytes × Json)} {payloadJson : Bytes} {o : Value}
    (hpayload : ObjectText ms payloadJson) (ho : ofJson float (.obj ms) = some o) (n : CmdId) :
    parseCommandFrame parse trimmed (makeEnvelope kEnvelopeTypeCmd topic (some n) payloadJson) =
      (cidFromNumber (.ofUInt64 n)).map fun
        | some cid => .ok ⟨cid, topic, o⟩
        | none => .error ⟨none, kErrorCodeMissingCid, kMessageMissingCid⟩ := by
  obtain ⟨htype, htopic, hcid, hpay⟩ := lookup_build_commandMembers topic n o
  rw [parseCommandFrame_object (parse_makeEnvelope hparse hutf n hpayload ho), memberCid, hcid]
  dsimp only
  rw [readCid_number rfl]
  have hobj : ∃ vs, o = .object vs := by
    rw [ofJson, Option.map_eq_some_iff] at ho
    obtain ⟨vs, -, rfl⟩ := ho
    exact ⟨_, rfl⟩
  obtain ⟨vs, rfl⟩ := hobj
  congr 1
  funext read
  cases read with
  | none => rfl
  | some cid =>
      rw [checkFrame, stringOf, stringOf, payloadOf, htype, htopic, hpay]
      dsimp only
      rw [htrim.of_bare hbare, if_neg (not_not.mpr rfl), if_neg hne]

end

theorem parseCommandFrame_sampleFrame (n : CmdId) :
    parseCommandFrame parseIntegers trimmedJson (sampleFrame n) =
      (cidFromNumber (.ofUInt64 n)).map fun
        | some cid => .ok ⟨cid, ascii "cmd.x", .object []⟩
        | none => .error ⟨none, kErrorCodeMissingCid, kMessageMissingCid⟩ :=
  parseCommandFrame_makeEnvelope (readsJson_referenceParse _) trims_trimmedJson (by decide)
    (validUtf8_of_ascii (by decide)) bare_sampleTopic text_emptyJsonObject
    (by simp [ofJson, ofMembers, build]) n

section

variable {float : Number → Option Binary64} {parse : Bytes → Value} {trimmed : Bytes → Bytes}

/-- **Reading undoes writing** for a `cid` of at most 53 significant bits and
for no other: the number is read through a double. -/
theorem parseCommandFrame_makeEnvelope_iff (hparse : ReadsJson float parse)
    {space : UInt8 → Bool} (htrim : Trims space trimmed) {topic : Bytes} (hne : topic ≠ [])
    (hutf : validUtf8 topic = true) (hbare : Bare space topic)
    {ms : List (Bytes × Json)} {payloadJson : Bytes} {o : Value}
    (hpayload : ObjectText ms payloadJson) (ho : ofJson float (.obj ms) = some o) (n : CmdId) :
    parseCommandFrame parse trimmed (makeEnvelope kEnvelopeTypeCmd topic (some n) payloadJson) =
        .ok (.ok ⟨n, topic, o⟩) ↔
      ∃ m k, m < 2 ^ 53 ∧ n.toNat = m * 2 ^ k := by
  rw [parseCommandFrame_makeEnvelope hparse htrim hne hutf hbare hpayload ho,
    cidFromNumber_ofUInt64, ← Binary64.roundNat_eq_self_iff]
  by_cases hlt : Binary64.roundNat n.toNat < 2 ^ 64
  · rw [if_pos hlt]
    have hn : UInt64.ofNat (Binary64.roundNat n.toNat) = n ↔ Binary64.roundNat n.toNat = n.toNat := by
      rw [← UInt64.toNat_inj, UInt64.toNat_ofNat_of_lt' hlt]
    simp [Except.map, hn]
  · -- the cast has no value here, and no such `cid` survives the rounding
    rw [if_neg hlt]
    apply iff_of_false
    · simp [Except.map]
    · intro heq
      apply hlt
      rw [heq]
      exact n.toNat_lt

end

theorem parseCommandFrame_makeEnvelope_seven :
    parseCommandFrame parseIntegers trimmedJson (sampleFrame 7) =
        .ok (.ok ⟨7, ascii "cmd.x", .object []⟩) ↔
      ∃ m k, m < 2 ^ 53 ∧ (7 : CmdId).toNat = m * 2 ^ k :=
  parseCommandFrame_makeEnvelope_iff (readsJson_referenceParse _) trims_trimmedJson (by decide)
    (validUtf8_of_ascii (by decide)) bare_sampleTopic text_emptyJsonObject
    (by simp [ofJson, ofMembers, build]) 7

/-- Two command ids that come back as one, and one that does not come back. -/
theorem parseCommandFrame_collision :
    let read := fun n : CmdId => parseCommandFrame parseIntegers trimmedJson (sampleFrame n)
    read 9007199254740993 = .ok (.ok ⟨9007199254740992, ascii "cmd.x", .object []⟩) ∧
      read 9007199254740992 = .ok (.ok ⟨9007199254740992, ascii "cmd.x", .object []⟩) ∧
      read 18446744073709551615 = .error .undefined := by
  have hodd : Binary64.roundNat (9007199254740993 : CmdId).toNat = 9007199254740992 := by decide
  have heven : Binary64.roundNat (9007199254740992 : CmdId).toNat = 9007199254740992 := by decide
  have hlast : Binary64.roundNat (18446744073709551615 : CmdId).toNat = 2 ^ 64 := by decide
  dsimp only
  rw [parseCommandFrame_sampleFrame, parseCommandFrame_sampleFrame, parseCommandFrame_sampleFrame,
    cidFromNumber_ofUInt64, cidFromNumber_ofUInt64, cidFromNumber_ofUInt64, hodd, heven, hlast]
  exact ⟨rfl, rfl, rfl⟩

end PhiTransport
