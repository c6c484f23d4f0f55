import PhiTransport.Api.TransportTypes
import PhiTransport.Records.LogEntries

/-!
# What an error says on the wire

`errorRecord` is the record an error with a message stands for. An error
without one is the empty object, whatever else it carries. The names beside the
numbers see neither the incident bit nor a flag without a name.
-/

namespace PhiTransport

open Octets Rfc8259

/-! ## The category byte and the names -/

theorem makeCategory_unpacked : ∀ n < 128, ∀ incident : Bool,
    categoryEnum (makeCategory ⟨UInt8.ofNat n⟩ incident) = ⟨UInt8.ofNat n⟩ ∧
      isIncident (makeCategory ⟨UInt8.ofNat n⟩ incident) = incident := by decide +kernel

/-- Category and marker share one byte and are both got back from it. -/
theorem unpack_makeCategory {category : LogCategory} (h : category.value < 0x80)
    (incident : Bool) : categoryEnum (makeCategory category incident) = category ∧
      isIncident (makeCategory category incident) = incident := by
  have hunpacked := makeCategory_unpacked category.value.toNat (UInt8.lt_iff_toNat_lt.mp h) incident
  rwa [UInt8.ofNat_toNat] at hunpacked

/-- The incident bit is no part of the base category. -/
theorem baseCategory_or_flag (category : UInt8) :
    baseCategory (category ||| kLogIncidentFlag) = baseCategory category := by
  have hdisjoint : 0x80#8 &&& 0x7F#8 = 0#8 := rfl
  apply UInt8.toBitVec_inj.mp
  show (category.toBitVec ||| 0x80#8) &&& 0x7F#8 = category.toBitVec &&& 0x7F#8
  rw [BitVec.and_or_distrib_right, hdisjoint, BitVec.or_zero]

theorem logCategoryName_of_baseCategory {a b : UInt8} (h : baseCategory a = baseCategory b) :
    logCategoryName a = logCategoryName b := by
  unfold baseCategory at h
  unfold logCategoryName categoryEnum
  rw [h]

theorem errorFlagNames_of_hasErrorFlag {a b : UInt16}
    (h : hasErrorFlag a ErrorFlag.incident = hasErrorFlag b ErrorFlag.incident) :
    errorFlagNames a = errorFlagNames b := by
  unfold errorFlagNames
  rw [h]

/-! ## Names by number

The shared vocabulary, apart from the tables of the encoder. A number it has no
name for is named as information, as internal or as unknown.
-/

def nameOfLevel : ℕ → Bytes
  | 1 => ascii "trace"
  | 2 => ascii "debug"
  | 3 => ascii "info"
  | 4 => ascii "warn"
  | 5 => ascii "error"
  | _ => ascii "info"

/-- The name of a base category: up to 63 shared, from 64 on core's own. -/
def nameOfCategory : ℕ → Bytes
  | 0 => ascii "internal"
  | 1 => ascii "lifecycle"
  | 2 => ascii "discovery"
  | 3 => ascii "network"
  | 4 => ascii "protocol"
  | 5 => ascii "device"
  | 6 => ascii "config"
  | 7 => ascii "performance"
  | 8 => ascii "security"
  | 9 => ascii "database"
  | 64 => ascii "transport"
  | 65 => ascii "automation"
  | 66 => ascii "auth"
  | 67 => ascii "storage"
  | 68 => ascii "plugin"
  | 69 => ascii "api"
  | 70 => ascii "system"
  | _ => ascii "internal"

def nameOfSourceType : ℕ → Bytes
  | 0 => ascii "unknown"
  | 1 => ascii "core"
  | 2 => ascii "adapter"
  | 3 => ascii "ws"
  | 4 => ascii "cli"
  | 5 => ascii "transport"
  | 6 => ascii "automation"
  | 7 => ascii "database"
  | _ => ascii "unknown"

/-- The names of the flags that are set; of the sixteen only bit 0 has one. -/
def namesOfFlags (flags : ℕ) : List Bytes :=
  if flags.testBit 0 then [ascii "incident"] else []

/-- The tables of the encoder, gone through byte by byte. -/
theorem name_of_byte : ∀ n < 256,
    logLevelName ⟨UInt8.ofNat n⟩ = nameOfLevel n ∧
      logCategoryName (UInt8.ofNat n) = nameOfCategory (n % 128) ∧
      logSourceTypeName ⟨UInt8.ofNat n⟩ = nameOfSourceType n := by decide +kernel

theorem logLevelName_eq (level : LogLevel) :
    logLevelName level = nameOfLevel level.value.toNat := by
  have h := (name_of_byte level.value.toNat level.value.toNat_lt).1
  rwa [UInt8.ofNat_toNat] at h

theorem logCategoryName_eq (category : UInt8) :
    logCategoryName category = nameOfCategory (category.toNat % 128) := by
  have h := (name_of_byte category.toNat category.toNat_lt).2.1
  rwa [UInt8.ofNat_toNat] at h

theorem logSourceTypeName_eq (sourceType : LogSourceType) :
    logSourceTypeName sourceType = nameOfSourceType sourceType.value.toNat := by
  have h := (name_of_byte sourceType.value.toNat sourceType.value.toNat_lt).2.2
  rwa [UInt8.ofNat_toNat] at h

/-- The flag of an incident is the lowest bit. -/
theorem hasErrorFlag_incident (flags : UInt16) :
    hasErrorFlag flags ErrorFlag.incident = flags.toNat.testBit 0 := by
  have hmask : ErrorFlag.incident.value.toNat = 1 := rfl
  rw [hasErrorFlag, Bool.eq_iff_iff, bne_iff_ne, ne_eq, ← UInt16.toNat_inj, UInt16.toNat_and, hmask,
    Nat.and_one_is_mod, Nat.testBit_zero, decide_eq_true_eq]
  exact Nat.mod_two_ne_zero

theorem errorFlagNames_eq (flags : UInt16) : errorFlagNames flags = namesOfFlags flags.toNat := by
  rw [errorFlagNames, hasErrorFlag_incident]
  rfl

/-! ## The record -/

/-- The members of an error with a message: the placeholders read as `params`,
the extras as `fields`. A name goes by the number beside it, that of a category
without the incident bit. -/
def errorRecord (error : Error) (params : List Json) (fields : List (Bytes × Json)) : Record :=
  [(ascii "message", some (.str error.message)),
    (ascii "params", if !error.params.isEmpty then some (.arr params) else none),
    (ascii "ctx", if !error.ctx.isEmpty then some (.str error.ctx) else none),
    (ascii "level", some (.num (.ofNat error.level.value.toNat))),
    (ascii "levelName", some (.str (nameOfLevel error.level.value.toNat))),
    (ascii "category", some (.num (.ofNat error.category.toNat))),
    (ascii "categoryName", some (.str (nameOfCategory (error.category.toNat % 128)))),
    (ascii "flags", some (.num (.ofNat error.flags.toNat))),
    (ascii "flagNames", if !(namesOfFlags error.flags.toNat).isEmpty then
      some (.arr ((namesOfFlags error.flags.toNat).map .str)) else none),
    (ascii "fields", if !fields.isEmpty then some (.obj fields) else none),
    (ascii "tsMs", if error.tsMs > 0 then some (.num (.ofInt error.tsMs.toInt)) else none),
    (ascii "sourceType", if error.sourceType != 0 then
      some (.num (.ofNat error.sourceType.toNat)) else none),
    (ascii "sourceTypeName", if error.sourceType != 0 then
      some (.str (nameOfSourceType error.sourceType.toNat)) else none),
    (ascii "sourceId", if !error.sourceId.isEmpty then some (.str error.sourceId) else none)]

/-- The members of an error's object. -/
def errorMembers (error : Error) (params : List Json) (fields : List (Bytes × Json)) :
    List (Bytes × Json) :=
  if isRenderableError error then present (errorRecord error params fields) else []

theorem nodup_errorRecord (error : Error) (params : List Json) (fields : List (Bytes × Json)) :
    ((errorRecord error params fields).map Prod.fst).Nodup := by
  show [ascii "message", ascii "params", ascii "ctx", ascii "level", ascii "levelName",
    ascii "category", ascii "categoryName", ascii "flags", ascii "flagNames", ascii "fields",
    ascii "tsMs", ascii "sourceType", ascii "sourceTypeName", ascii "sourceId"].Nodup
  decide +kernel

theorem text_flagNames (names : List Bytes) :
    Text (.arr (names.map .str)) (lbracket :: appendItems jsonQuoted names [] ++ [rbracket]) := by
  apply text_appendItems
  rw [List.forall₂_map_left_iff]
  exact List.forall₂_same.mpr fun name _ => text_jsonQuoted name

theorem objectText_errorToJson {toChars : ToChars} {error : Error} {params : List Json}
    {fields : List (Bytes × Json)} (hm : isRenderableError error = true)
    (hp : Text (.arr params) (scalarListToJson toChars error.params))
    (hf : PayloadText fields error.fields) :
    ObjectText (present (errorRecord error params fields)) (errorToJson toChars error) := by
  have hmessage : MemberText (ascii "message", .str error.message)
      (ascii "\"message\":" ++ jsonQuoted error.message) :=
    memberText_before rfl (text_jsonQuoted _)
  have hrest : List.Forall₂ FieldText (errorRecord error params fields).tail
      [if !error.params.isEmpty then
          ascii ",\"params\":" ++ scalarListToJson toChars error.params else [],
        if !error.ctx.isEmpty then ascii ",\"ctx\":" ++ jsonQuoted error.ctx else [],
        ascii ",\"level\":" ++ decimal error.level.value.toNat,
        ascii ",\"levelName\":" ++ jsonQuoted (nameOfLevel error.level.value.toNat),
        ascii ",\"category\":" ++ decimal error.category.toNat,
        ascii ",\"categoryName\":" ++ jsonQuoted (nameOfCategory (error.category.toNat % 128)),
        ascii ",\"flags\":" ++ decimal error.flags.toNat,
        if !(namesOfFlags error.flags.toNat).isEmpty then
          ascii ",\"flagNames\":" ++
            (lbracket :: appendItems jsonQuoted (namesOfFlags error.flags.toNat) [] ++ [rbracket])
        else [],
        if !fields.isEmpty then ascii ",\"fields\":" ++ error.fields else [],
        if error.tsMs > 0 then ascii ",\"tsMs\":" ++ decimalInt error.tsMs.toInt else [],
        if error.sourceType != 0 then
          ascii ",\"sourceType\":" ++ decimal error.sourceType.toNat else [],
        if error.sourceType != 0 then
          ascii ",\"sourceTypeName\":" ++ jsonQuoted (nameOfSourceType error.sourceType.toNat)
        else [],
        if !error.sourceId.isEmpty then ascii ",\"sourceId\":" ++ jsonQuoted error.sourceId
        else []] := by
    refine .cons (fieldText_before_ite rfl _ fun _ => hp)
      (.cons (fieldText_before_ite rfl _ fun _ => text_jsonQuoted _)
      (.cons (fieldText_before rfl (text_nat _))
      (.cons (fieldText_before rfl (text_jsonQuoted _))
      (.cons (fieldText_before rfl (text_nat _))
      (.cons (fieldText_before rfl (text_jsonQuoted _))
      (.cons (fieldText_before rfl (text_nat _))
      (.cons (fieldText_before_ite rfl _ fun _ => text_flagNames _)
      (.cons (fieldText_before_ite rfl _ (text_of_payload hf))
      (.cons (fieldText_before_ite rfl _ fun _ => text_int _)
      (.cons (fieldText_before_ite rfl _ fun _ => text_nat _)
      (.cons (fieldText_before_ite rfl _ fun _ => text_jsonQuoted _)
      (.cons (fieldText_before_ite rfl _ fun _ => text_jsonQuoted _) .nil))))))))))))
  have hobj := objectText_present hmessage hrest
  rw [← isEmptyJsonObject_payload hf] at hobj
  have hmsg : error.message.isEmpty = false := by simpa [isRenderableError] using hm
  -- the loop over the names starts behind the bracket
  have hnames : appendItems jsonQuoted (namesOfFlags error.flags.toNat)
      (ascii ",\"flagNames\":[") = ascii ",\"flagNames\":" ++
        lbracket :: appendItems jsonQuoted (namesOfFlags error.flags.toNat) [] := by
    have hopen : ascii ",\"flagNames\":[" = ascii ",\"flagNames\":" ++ [lbracket] := by decide
    rw [appendItems_append, hopen, List.append_assoc, List.singleton_append]
  unfold errorToJson
  rw [hmsg, if_neg Bool.false_ne_true]
  dsimp only
  rw [errorFlagNames_eq, hnames, logLevelName_eq, logCategoryName_eq, logSourceTypeName_eq]
  have hunknown : LogSourceType.unknown.value = 0 := rfl
  rw [hunknown]
  -- the two members of the source share one test
  cases hs : error.sourceType != 0
  · simpa [errorRecord, hs] using hobj
  · simpa [errorRecord, hs] using hobj

theorem errorMembers_eq_nil_iff (error : Error) (params : List Json)
    (fields : List (Bytes × Json)) :
    errorMembers error params fields = [] ↔ isRenderableError error = false := by
  unfold errorMembers
  cases isRenderableError error
  · simp
  · rw [if_pos rfl, errorRecord, present_cons_some]
    simp

theorem objectText_errorMembers {toChars : ToChars} {error : Error} {params : List Json}
    {fields : List (Bytes × Json)}
    (hp : Text (.arr params) (scalarListToJson toChars error.params))
    (hf : PayloadText fields error.fields) :
    ObjectText (errorMembers error params fields) (errorToJson toChars error) := by
  unfold errorMembers
  cases hm : isRenderableError error with
  | true => exact objectText_errorToJson hm hp hf
  | false =>
      have hmsg : error.message.isEmpty = true := by
        unfold isRenderableError at hm
        rwa [Bool.not_eq_false'] at hm
      unfold errorToJson
      rw [hmsg, if_pos rfl]
      exact text_emptyJsonObject

/-- **An error is encoded faithfully.** Its text is the object of its record,
with distinct keys and empty exactly when there is nothing to render; every
member reads back as the record has it, a name by the number beside it and
`fields` as the text it was, and no name depends on the incident bit or on a flag
without a name. -/
theorem errorToJson_faithful {toChars : ToChars} (hc : WritesNumbers toChars) (error : Error)
    {fields : List (Bytes × Json)} (hf : PayloadText fields error.fields) :
    ∃ params, List.Forall₂ (ScalarJson toChars) params error.params ∧
      (∀ ms, ObjectText ms (errorToJson toChars error) ↔
        ms = errorMembers error params fields) ∧
      (keys (errorMembers error params fields)).Nodup ∧
      (ObjectText [] (errorToJson toChars error) ↔ isRenderableError error = false) ∧
      (isRenderableError error = true →
        (∀ key, valueAt key (errorToJson toChars error) =
          ((errorRecord error params fields).lookup key).join) ∧
        (fields ≠ [] → ascii ",\"fields\":" ++ error.fields <:+: errorToJson toChars error)) ∧
      logCategoryName (error.category ||| kLogIncidentFlag) = logCategoryName error.category ∧
      ∀ flags, hasErrorFlag flags ErrorFlag.incident =
          hasErrorFlag error.flags ErrorFlag.incident →
        errorFlagNames flags = errorFlagNames error.flags := by
  obtain ⟨params, htext, hparams⟩ := scalarJson_scalarListToJson hc error.params
  have hobj := objectText_errorMembers htext hf
  have hnodup := nodup_errorRecord error params fields
  refine ⟨params, hparams, objectText_only hobj, ?_, ?_, ?_,
    logCategoryName_of_baseCategory (baseCategory_or_flag _), ?_⟩
  · unfold errorMembers
    split_ifs
    · exact nodup_keys_present hnodup
    · exact List.nodup_nil
  · rw [objectText_only hobj, eq_comm, errorMembers_eq_nil_iff]
  · intro hm
    rw [errorMembers, if_pos hm] at hobj
    refine ⟨valueAt_present hobj hnodup, ?_⟩
    intro hne
    have hscan : isEmptyJsonObject error.fields = false := by
      rw [isEmptyJsonObject_payload hf]
      simpa using hne
    have hmsg : error.message.isEmpty = false := by simpa [isRenderableError] using hm
    unfold errorToJson
    rw [hmsg, if_neg Bool.false_ne_true, hscan, Bool.not_false, if_pos rfl]
    -- the members behind `fields`, from the closing brace inwards
    iterate 4 apply List.infix_append_of_infix_left
    exact List.infix_append_right
  · intro flags h
    exact errorFlagNames_of_hasErrorFlag h

/-- An incident with a flag that has no name. -/
def bootError : Error where
  message := ascii "boom %1"
  params := [.int64 7]
  ctx := ascii "transport plugin"
  level := LogLevel.warn
  category := makeCategory LogCategory.auth true
  flags := 0x8001
  fields := jsonObject [(ascii "k", decimal 1)]
  tsMs := 1787212634675
  sourceType := LogSourceType.transport.value
  sourceId := ascii "ws"

theorem errorToJson_faithful_bootError :
    (∀ ms, ObjectText ms (errorToJson smallIntegerChars bootError) →
      keys ms = [ascii "message", ascii "params", ascii "ctx", ascii "level", ascii "levelName",
        ascii "category", ascii "categoryName", ascii "flags", ascii "flagNames", ascii "fields",
        ascii "tsMs", ascii "sourceType", ascii "sourceTypeName", ascii "sourceId"]) ∧
      valueAt (ascii "flags") (errorToJson smallIntegerChars bootError) =
        some (.num (.ofNat 32769)) ∧
      valueAt (ascii "flagNames") (errorToJson smallIntegerChars bootError) =
        some (.arr [.str (ascii "incident")]) ∧
      valueAt (ascii "levelName") (errorToJson smallIntegerChars bootError) =
        some (.str (ascii "warn")) ∧
      valueAt (ascii "categoryName") (errorToJson smallIntegerChars bootError) =
        some (.str (ascii "auth")) ∧
      valueAt (ascii "sourceTypeName") (errorToJson smallIntegerChars bootError) =
        some (.str (ascii "transport")) := by
  have hfields : PayloadText [(ascii "k", .num (.ofNat 1))] bootError.fields :=
    Or.inl (objectText_jsonObject (.cons ⟨rfl, Or.inr (text_nat 1)⟩ .nil))
  obtain ⟨params, -, honly, -, -, hread, -⟩ :=
    errorToJson_faithful writesNumbers_smallIntegerChars bootError hfields
  obtain ⟨hat, -⟩ := hread rfl
  refine ⟨?_, hat _, hat _, hat _, hat _, hat _⟩
  intro ms hms
  rw [(honly ms).mp hms]
  rfl

end PhiTransport
