import PhiTransport.Api.LogEntry
import PhiTransport.Records.Fields

/-!
# What a log record says on the wire

`logEntryRecord` is the record a log entry stands for, member by member with
its condition. The text spells exactly that, so a reader that takes an absent
member as its default gets the entry back (`readLogEntry`).
-/

namespace PhiTransport

open Octets Rfc8259

/-! ## The record -/

/-- The members of a log record: the placeholders read as `params`, the extras
as `fields`. -/
def logEntryRecord (entry : LogEntry) (params : List Json) (fields : List (Bytes × Json)) :
    Record :=
  [(ascii "level", some (.num (.ofNat entry.level.value.toNat))),
    (ascii "category", some (.num (.ofNat entry.category.toNat))),
    (ascii "message", some (.str entry.message)),
    (ascii "params", if !entry.params.isEmpty then some (.arr params) else none),
    (ascii "ctx", if !entry.ctx.isEmpty then some (.str entry.ctx) else none),
    (ascii "fields", if !fields.isEmpty then some (.obj fields) else none),
    (ascii "tsMs", if entry.tsMs > 0 then some (.num (.ofInt entry.tsMs.toInt)) else none),
    (ascii "sourceType", some (.num (.ofNat entry.sourceType.value.toNat))),
    (ascii "sourceId", if !entry.sourceId.isEmpty then some (.str entry.sourceId) else none)]

theorem nodup_logEntryRecord (entry : LogEntry) (params : List Json)
    (fields : List (Bytes × Json)) :
    ((logEntryRecord entry params fields).map Prod.fst).Nodup := by
  show [ascii "level", ascii "category", ascii "message", ascii "params", ascii "ctx",
    ascii "fields", ascii "tsMs", ascii "sourceType", ascii "sourceId"].Nodup
  decide

theorem objectText_logEntryToJson {toChars : ToChars} {entry : LogEntry} {params : List Json}
    {fields : List (Bytes × Json)}
    (hp : Text (.arr params) (scalarListToJson toChars entry.params))
    (hf : PayloadText fields entry.fields) :
    ObjectText (present (logEntryRecord entry params fields)) (logEntryToJson toChars entry) := by
  have hlevel : MemberText (ascii "level", .num (.ofNat entry.level.value.toNat))
      (ascii "\"level\":" ++ decimal entry.level.value.toNat) :=
    memberText_before rfl (text_nat _)
  have hrest : List.Forall₂ FieldText (logEntryRecord entry params fields).tail
      [ascii ",\"category\":" ++ decimal entry.category.toNat,
        ascii ",\"message\":" ++ jsonQuoted entry.message,
        if !entry.params.isEmpty then
          ascii ",\"params\":" ++ scalarListToJson toChars entry.params else [],
        if !entry.ctx.isEmpty then ascii ",\"ctx\":" ++ jsonQuoted entry.ctx else [],
        if !fields.isEmpty then ascii ",\"fields\":" ++ entry.fields else [],
        if entry.tsMs > 0 then ascii ",\"tsMs\":" ++ decimalInt entry.tsMs.toInt else [],
        ascii ",\"sourceType\":" ++ decimal entry.sourceType.value.toNat,
        if !entry.sourceId.isEmpty then ascii ",\"sourceId\":" ++ jsonQuoted entry.sourceId
        else []] := by
    refine .cons (fieldText_before rfl (text_nat _))
      (.cons (fieldText_before rfl (text_jsonQuoted _))
      (.cons (fieldText_before_ite rfl _ fun _ => hp)
      (.cons (fieldText_before_ite rfl _ fun _ => text_jsonQuoted _)
      (.cons (fieldText_before_ite rfl _ (text_of_payload hf))
      (.cons (fieldText_before_ite rfl _ fun _ => text_int _)
      (.cons (fieldText_before rfl (text_nat _))
      (.cons (fieldText_before_ite rfl _ fun _ => text_jsonQuoted _) .nil)))))))
  have hobj := objectText_present hlevel hrest
  rw [← isEmptyJsonObject_payload hf] at hobj
  simpa [logEntryToJson, logEntryRecord] using hobj

/-! ## Reading it back -/

/-- What a reader makes of a log record that takes an absent member as its default. -/
structure LogReading where
  level : ℤ
  category : ℤ
  message : Bytes
  params : List Json
  ctx : Bytes
  fields : List (Bytes × Json)
  tsMs : ℤ
  sourceType : ℤ
  sourceId : Bytes

def readLogEntry (t : Bytes) : LogReading where
  level := integerAt (ascii "level") t
  category := integerAt (ascii "category") t
  message := stringAt (ascii "message") t
  params := elementsAt (ascii "params") t
  ctx := stringAt (ascii "ctx") t
  fields := membersAt (ascii "fields") t
  tsMs := integerAt (ascii "tsMs") t
  sourceType := integerAt (ascii "sourceType") t
  sourceId := stringAt (ascii "sourceId") t

/-- The reading of an entry: a time that is not positive is not written. -/
def LogEntry.reading (entry : LogEntry) (params : List Json) (fields : List (Bytes × Json)) :
    LogReading where
  level := entry.level.value.toNat
  category := entry.category.toNat
  message := entry.message
  params := params
  ctx := entry.ctx
  fields := fields
  tsMs := if entry.tsMs > 0 then entry.tsMs.toInt else 0
  sourceType := entry.sourceType.value.toNat
  sourceId := entry.sourceId

theorem readLogEntry_of_record {entry : LogEntry} {params : List Json}
    {fields : List (Bytes × Json)} {t : Bytes} (hp : params.isEmpty = entry.params.isEmpty)
    (h : ObjectText (present (logEntryRecord entry params fields)) t) :
    readLogEntry t = entry.reading params fields := by
  have hat := valueAt_present h (nodup_logEntryRecord entry params fields)
  have hparams : valueAt (ascii "params") t =
      if !params.isEmpty then some (.arr params) else none := by
    rw [hp]
    exact hat _
  have htsMs : integerAt (ascii "tsMs") t = if entry.tsMs > 0 then entry.tsMs.toInt else 0 := by
    rw [integerAt_ite (hat _), Number.toInt_ofInt]
  rw [readLogEntry, LogEntry.reading, integerAt_nat (hat _), integerAt_nat (hat _),
    stringAt_some (hat _), elementsAt_ite hparams, stringAt_ite (hat _), membersAt_ite (hat _),
    htsMs, integerAt_nat (hat _), stringAt_ite (hat _)]

theorem logEntryToJson_reading {toChars : ToChars} (hc : WritesNumbers toChars)
    (entry : LogEntry) {fields : List (Bytes × Json)} (hf : PayloadText fields entry.fields) :
    ∃ params, List.Forall₂ (ScalarJson toChars) params entry.params ∧
      ObjectText (present (logEntryRecord entry params fields)) (logEntryToJson toChars entry) ∧
      readLogEntry (logEntryToJson toChars entry) = entry.reading params fields := by
  obtain ⟨params, htext, hparams⟩ := scalarJson_scalarListToJson hc entry.params
  have hobj := objectText_logEntryToJson htext hf
  have hempty : params.isEmpty = entry.params.isEmpty := by
    rw [Bool.eq_iff_iff, List.isEmpty_iff_length_eq_zero, List.isEmpty_iff_length_eq_zero,
      hparams.length_eq]
  exact ⟨params, hparams, hobj, readLogEntry_of_record hempty hobj⟩

theorem tsMs_inj {a b : Int64}
    (h : (if a > 0 then a.toInt else 0) = if b > 0 then b.toInt else 0) (hpos : a > 0 ∨ b > 0) :
    a = b := by
  have hiff : ∀ c : Int64, c > 0 ↔ 0 < c.toInt := fun c => Int64.lt_iff_toInt_lt
  simp only [hiff] at h hpos
  apply Int64.toInt_inj.mp
  split_ifs at h
  · exact h
  · omega
  · omega
  · omega

attribute [ext] LogLevel LogSourceType

/-- **A log record loses nothing.** Its text spells the record with distinct
keys, the documented ones; reading it back gives the entry, and two entries with
one text agree on all a reader is told. -/
theorem logEntryToJson_faithful {toChars : ToChars} (hc : WritesNumbers toChars)
    (entry : LogEntry) {fields : List (Bytes × Json)} (hf : PayloadText fields entry.fields) :
    ∃ params, List.Forall₂ (ScalarJson toChars) params entry.params ∧
      (∀ ms, ObjectText ms (logEntryToJson toChars entry) ↔
        ms = present (logEntryRecord entry params fields)) ∧
      (keys (present (logEntryRecord entry params fields))).Nodup ∧
      (∀ key ∈ keys (present (logEntryRecord entry params fields)),
        key ∈ [ascii "level", ascii "category", ascii "message", ascii "params", ascii "ctx",
          ascii "fields", ascii "tsMs", ascii "sourceType", ascii "sourceId"]) ∧
      readLogEntry (logEntryToJson toChars entry) = entry.reading params fields ∧
      (fields ≠ [] → ascii ",\"fields\":" ++ entry.fields <:+: logEntryToJson toChars entry) ∧
      ∀ (other : LogEntry) (fields' : List (Bytes × Json)), PayloadText fields' other.fields →
        logEntryToJson toChars entry = logEntryToJson toChars other →
        entry.message = other.message ∧ entry.ctx = other.ctx ∧
          entry.sourceId = other.sourceId ∧ entry.level = other.level ∧
          entry.category = other.category ∧ entry.sourceType = other.sourceType ∧
          (entry.tsMs > 0 ∨ other.tsMs > 0 → entry.tsMs = other.tsMs) ∧
          entry.params.length = other.params.length := by
  obtain ⟨params, hparams, hobj, hread⟩ := logEntryToJson_reading hc entry hf
  refine ⟨params, hparams, objectText_only hobj,
    nodup_keys_present (nodup_logEntryRecord entry params fields), ?_, hread, ?_, ?_⟩
  · intro key hkey
    exact (keys_present_sublist _).subset hkey
  · intro hne
    have hscan : isEmptyJsonObject entry.fields = false := by
      rw [isEmptyJsonObject_payload hf]
      simpa using hne
    unfold logEntryToJson
    rw [hscan, Bool.not_false, if_pos rfl]
    -- the members behind `fields`, from the closing brace inwards
    iterate 5 apply List.infix_append_of_infix_left
    exact List.infix_append_right
  · intro other fields' hf' heq
    obtain ⟨params', hparams', -, hread'⟩ := logEntryToJson_reading hc other hf'
    rw [heq, hread', LogEntry.reading, LogEntry.reading, LogReading.mk.injEq] at hread
    obtain ⟨hlevel, hcategory, hmessage, hps, hctx, -, hts, hsource, hid⟩ := hread
    refine ⟨hmessage.symm, hctx.symm, hid.symm, ?_, ?_, ?_, ?_, ?_⟩
    · ext
      exact Int.ofNat_inj.mp hlevel.symm
    · ext
      exact Int.ofNat_inj.mp hcategory.symm
    · ext
      exact Int.ofNat_inj.mp hsource.symm
    · exact tsMs_inj hts.symm
    · rw [← hparams.length_eq, ← hparams'.length_eq, hps]

/-- An incident with every member there is. -/
def diskEntry : LogEntry where
  level := LogLevel.warn
  category := makeCategory LogCategory.network true
  message := ascii "disk %1 at %2%"
  params := [.string (ascii "sda"), .int64 93]
  ctx := ascii "core.storage"
  fields := jsonObject [(ascii "path", jsonQuoted (ascii "/var"))]
  tsMs := 1787212634675
  sourceType := LogSourceType.cli
  sourceId := ascii "cli"

theorem payloadText_diskEntry :
    PayloadText [(ascii "path", .str (ascii "/var"))] diskEntry.fields :=
  Or.inl (objectText_jsonObject (.cons ⟨rfl, Or.inr (text_jsonQuoted _)⟩ .nil))

theorem logEntryToJson_faithful_diskEntry :
    ∃ params, List.Forall₂ (ScalarJson smallIntegerChars) params diskEntry.params ∧
      readLogEntry (logEntryToJson smallIntegerChars diskEntry) =
        ⟨4, 131, ascii "disk %1 at %2%", params, ascii "core.storage",
          [(ascii "path", .str (ascii "/var"))], 1787212634675, 4, ascii "cli"⟩ := by
  obtain ⟨params, hparams, -, -, -, hread, -⟩ :=
    logEntryToJson_faithful writesNumbers_smallIntegerChars diskEntry payloadText_diskEntry
  exact ⟨params, hparams, hread⟩

end PhiTransport
