import PhiTransport.Api.Envelope
import PhiTransport.Base.Documents

/-!
# UTF-8 in, UTF-8 out

Nothing the builders write checks its bytes, and nothing has to: quoting leaves
every byte above ASCII where it stands and everything else that is written is
ASCII. So a text is UTF-8 exactly when each part it was built from is, builder
by builder, and no part can complete a character that another one began.
-/

namespace PhiTransport

open Octets Rfc8259 Nlohmann

/-! ## Quoting -/

theorem jsonEscaped_high {c : UInt8} (h : 0x80 ≤ c) : jsonEscaped c = [c] := by
  rcases jsonEscaped_cases c with ⟨e, he, -⟩ | ⟨hctl, -⟩ | ⟨-, htext⟩
  · exact absurd (escapeByte_ascii he).2.2 (UInt8.not_lt.mpr h)
  · exact absurd (UInt8.lt_of_lt_of_le hctl (UInt8.le_trans (by decide) h)) (UInt8.lt_irrefl c)
  · exact htext

theorem jsonEscaped_low {c : UInt8} (h : c < 0x80) :
    jsonEscaped c ≠ [] ∧ (jsonEscaped c).all (· < 0x80) = true := by
  rcases jsonEscaped_cases c with ⟨e, he, htext⟩ | ⟨-, i, j, hquad, htext⟩ | ⟨-, htext⟩
  · rw [htext]
    refine ⟨List.cons_ne_nil _ _, ?_⟩
    simp [backslash, (escapeByte_ascii he).2.1]
  · obtain ⟨hne, hascii, -⟩ := ascii_of_unicode (.unicode hquad)
    rw [htext]
    exact ⟨hne, hascii⟩
  · rw [htext]
    exact ⟨List.cons_ne_nil _ _, by simp [h]⟩

theorem validUtf8_jsonQuoted (s : Bytes) : validUtf8 (jsonQuoted s) = validUtf8 s := by
  rw [jsonQuoted, validUtf8_concat (by decide), List.singleton_append,
    validUtf8_cons_ascii (by decide),
    validUtf8_flatMap (fun c => jsonEscaped_high) (fun c => jsonEscaped_low)]

/-! ## Members and objects -/

theorem validUtf8_emptyJsonObject : validUtf8 emptyJsonObject = true :=
  validUtf8_of_ascii (by decide)

theorem validUtf8_jsonField (key valueJson : Bytes) :
    validUtf8 (jsonField key valueJson) = (validUtf8 key && validUtf8 valueJson) := by
  rw [jsonField, List.append_assoc, List.singleton_append, validUtf8_append_ascii (by decide),
    validUtf8_jsonQuoted]
  by_cases h : valueJson.isEmpty = true
  · rw [if_pos h, List.isEmpty_iff.mp h, validUtf8_emptyJsonObject, validUtf8]
  · rw [if_neg h]

theorem validUtf8_intercalate (ts : List Bytes) :
    validUtf8 ([comma].intercalate ts) = ts.all validUtf8 := by
  induction ts with
  | nil => rfl
  | cons t ts ih =>
      cases ts with
      | nil => simp [List.intercalate_singleton]
      | cons t' ts =>
          rw [List.intercalate_cons_cons, List.append_assoc, List.singleton_append,
            validUtf8_append_ascii (by decide), ih, List.all_cons (a := t)]

/-- A list in brackets of ASCII is UTF-8 exactly when its items are. -/
theorem validUtf8_appendItems {α : Type} (render : α → Bytes) (items : List α) {before after : UInt8}
    (hbefore : before < 0x80) (hafter : after < 0x80) :
    validUtf8 (appendItems render items [before] ++ [after]) =
      items.all fun item => validUtf8 (render item) := by
  rw [validUtf8_concat hafter, appendItems_eq, List.singleton_append, validUtf8_cons_ascii hbefore,
    validUtf8_intercalate, List.all_map]
  rfl

theorem validUtf8_jsonObject (members : List (Bytes × Bytes)) :
    validUtf8 (jsonObject members) = members.all fun m => validUtf8 m.1 && validUtf8 m.2 := by
  rw [jsonObject, validUtf8_appendItems _ _ (by decide) (by decide)]
  simp only [validUtf8_jsonField]

/-- The splice keeps both texts, so it keeps both apart. -/
theorem validUtf8_withJsonField {ms : List (Bytes × Json)} {objectJson : Bytes}
    (h : PayloadText ms objectJson) (key valueJson : Bytes) :
    validUtf8 (withJsonField objectJson key valueJson) =
      (validUtf8 key && validUtf8 valueJson && validUtf8 objectJson) := by
  have halone : isEmptyJsonObject objectJson = true → validUtf8 objectJson = true := by
    intro hempty
    refine validUtf8_of_ascii (List.all_eq_true.mpr fun b hb => ?_)
    have hscan := List.all_eq_true.mp hempty b hb
    simp only [Bool.or_eq_true, beq_iff_eq] at hscan
    rcases hscan with ((((rfl | rfl) | rfl) | rfl) | rfl) | rfl <;> decide
  by_cases hempty : isEmptyJsonObject objectJson = true
  · rw [withJsonField_empty hempty, validUtf8_concat (by decide), validUtf8_cons_ascii (by decide),
      validUtf8_jsonField, halone hempty, Bool.and_true]
  · rcases h with h | ⟨hblank, -⟩
    · obtain ⟨w, b, w', rfl, hw, hw', -⟩ := objectText_iff.mp h
      rw [withJsonField_eq hw hw' key valueJson (by simpa using hempty),
        validUtf8_append_blank hw', validUtf8_ascii_append (blank_ascii hw),
        validUtf8_concat (by decide), validUtf8_concat (by decide), validUtf8_cons_ascii (by decide),
        validUtf8_cons_ascii (by decide), validUtf8_append_ascii (by decide), validUtf8_jsonField]
    · exact absurd (isEmptyJsonObject_blank hblank) hempty

/-! ## Envelopes and payloads -/

/-- A number brings nothing but ASCII. -/
theorem validUtf8_number (n : Number) : validUtf8 n.text = true :=
  validUtf8_of_ascii (number_ascii n)

/-- **A frame is UTF-8** exactly when what it was made from is. -/
theorem validUtf8_makeEnvelope (type topic : Bytes) (cid : Option CmdId) (payloadJson : Bytes) :
    validUtf8 (makeEnvelope type topic cid payloadJson) =
      (validUtf8 type && validUtf8 topic && validUtf8 payloadJson) := by
  have hcomma : comma < 0x80 := by decide
  have hkeys : validUtf8 (ascii "type") = true ∧ validUtf8 (ascii "topic") = true ∧
      validUtf8 (ascii "cid") = true ∧ validUtf8 (ascii "payload") = true :=
    ⟨validUtf8_of_ascii (by decide), validUtf8_of_ascii (by decide), validUtf8_of_ascii (by decide),
      validUtf8_of_ascii (by decide)⟩
  unfold makeEnvelope
  rw [validUtf8_concat (by decide)]
  cases cid with
  | none =>
      simp only [List.append_assoc, List.cons_append, List.nil_append]
      rw [validUtf8_cons_ascii (by decide)]
      simp only [validUtf8_append_ascii hcomma, validUtf8_jsonField, validUtf8_jsonQuoted, hkeys,
        Bool.true_and, Bool.and_assoc]
  | some n =>
      have hn : validUtf8 (decimal n.toNat) = true := by
        rw [← Number.text_ofNat]
        exact validUtf8_number _
      simp only [List.append_assoc, List.cons_append, List.nil_append]
      rw [validUtf8_cons_ascii (by decide)]
      simp only [validUtf8_append_ascii hcomma, validUtf8_jsonField, validUtf8_jsonQuoted, hkeys,
        hn, Bool.true_and, Bool.and_assoc]

theorem validUtf8_makeProtocolErrorPayload (code message : Bytes) :
    validUtf8 (makeProtocolErrorPayload code message) = (validUtf8 code && validUtf8 message) := by
  have hkeys : validUtf8 (ascii "code") = true ∧ validUtf8 (ascii "message") = true :=
    ⟨validUtf8_of_ascii (by decide), validUtf8_of_ascii (by decide)⟩
  rw [makeProtocolErrorPayload, validUtf8_jsonObject]
  simp only [List.all_cons, List.all_nil, validUtf8_jsonQuoted, hkeys, Bool.true_and, Bool.and_true]

theorem validUtf8_makeUnknownTopicPayload (topic : Bytes) :
    validUtf8 (makeUnknownTopicPayload topic) = validUtf8 topic := by
  have hcode : validUtf8 kErrorCodeUnknownTopic = true := validUtf8_of_ascii (by decide)
  rw [makeUnknownTopicPayload, validUtf8_makeProtocolErrorPayload, hcode,
    validUtf8_ascii_append (by decide), Bool.true_and]

theorem validUtf8_makeAckPayload (accepted : Bool) (cmdTopic errorMessage : Bytes) :
    validUtf8 (makeAckPayload accepted cmdTopic errorMessage) =
      (validUtf8 cmdTopic && validUtf8 errorMessage) := by
  have hcomma : comma < 0x80 := by decide
  have hkeys : validUtf8 (ascii "accepted") = true ∧ validUtf8 (ascii "cmd") = true ∧
      validUtf8 (ascii "error") = true ∧ validUtf8 kAckErrorCodeCore = true ∧
      validUtf8 (ascii "null") = true :=
    ⟨validUtf8_of_ascii (by decide), validUtf8_of_ascii (by decide), validUtf8_of_ascii (by decide),
      validUtf8_of_ascii (by decide), validUtf8_of_ascii (by decide)⟩
  have haccepted : validUtf8 (if accepted then ascii "true" else ascii "false") = true := by
    cases accepted with
    | false => exact validUtf8_of_ascii (by decide)
    | true => exact validUtf8_of_ascii (by decide)
  have herror : validUtf8 (if errorMessage.isEmpty then jsonField (ascii "error") (ascii "null")
      else jsonField (ascii "error") (makeProtocolErrorPayload kAckErrorCodeCore errorMessage)) =
      validUtf8 errorMessage := by
    by_cases h : errorMessage.isEmpty = true
    · rw [if_pos h, validUtf8_jsonField, List.isEmpty_iff.mp h, validUtf8, hkeys.2.2.1,
        hkeys.2.2.2.2, Bool.true_and]
    · rw [if_neg h, validUtf8_jsonField, validUtf8_makeProtocolErrorPayload, hkeys.2.2.1,
        hkeys.2.2.2.1, Bool.true_and, Bool.true_and]
  unfold makeAckPayload
  rw [validUtf8_concat (by decide)]
  simp only [List.append_assoc, List.cons_append, List.nil_append]
  rw [validUtf8_cons_ascii (by decide), validUtf8_append_ascii hcomma,
    validUtf8_append_ascii hcomma, validUtf8_jsonField, hkeys.1, haccepted, validUtf8_jsonField,
    hkeys.2.1, validUtf8_jsonQuoted, Bool.true_and, Bool.true_and, Bool.true_and]
  exact congrArg _ herror

/-! ## Errors -/

/-- The bytes a scalar brings along. -/
def Scalar.utf8 : Scalar → Bool
  | .string entry => validUtf8 entry
  | _ => true

theorem validUtf8_scalarToJson {toChars : ToChars} (hc : WritesNumbers toChars) (value : Scalar) :
    validUtf8 (scalarToJson toChars value) = value.utf8 := by
  cases value with
  | monostate => exact validUtf8_of_ascii (show (ascii "null").all (· < 0x80) = true by decide)
  | boolean entry =>
      cases entry with
      | false => exact validUtf8_of_ascii (show (ascii "false").all (· < 0x80) = true by decide)
      | true => exact validUtf8_of_ascii (show (ascii "true").all (· < 0x80) = true by decide)
  | int64 entry =>
      show validUtf8 (decimalInt entry.toInt) = true
      rw [← Number.text_ofInt]
      exact validUtf8_number _
  | double entry =>
      show validUtf8 (if entry.isFinite then doubleToText toChars entry else ascii "null") = true
      by_cases hfin : entry.isFinite = true
      · obtain ⟨n, hn⟩ := number_doubleToText hc hfin
        rw [if_pos hfin, ← hn]
        exact validUtf8_number n
      · rw [if_neg hfin]
        exact validUtf8_of_ascii (by decide)
  | string entry => exact validUtf8_jsonQuoted entry

theorem validUtf8_scalarListToJson {toChars : ToChars} (hc : WritesNumbers toChars)
    (values : ScalarList) :
    validUtf8 (scalarListToJson toChars values) = values.all Scalar.utf8 := by
  rw [scalarListToJson, validUtf8_appendItems _ _ (by decide) (by decide)]
  simp only [validUtf8_scalarToJson hc]

/-- The bytes an error brings along: of the rest nothing is told. -/
def Error.utf8 (error : Error) : Bool :=
  validUtf8 error.message && error.params.all Scalar.utf8 && validUtf8 error.ctx

theorem validUtf8_rejectionMessage {error : Option Error} {fallbackMessage : Bytes}
    (h : ∀ e, error = some e → e.utf8 = true) (hfallback : validUtf8 fallbackMessage = true) :
    validUtf8 (rejectionMessage error fallbackMessage) = true := by
  cases error with
  | none => exact hfallback
  | some e =>
      have he := h e rfl
      simp only [Error.utf8, Bool.and_eq_true] at he
      unfold rejectionMessage
      dsimp only [Option.getD_some]
      split_ifs
      · exact he.1.1
      · exact hfallback

/-- A member behind a test adds nothing that is not UTF-8. -/
theorem validUtf8_append_member {s member : Bytes} {c : Prop} [Decidable c]
    (hs : validUtf8 s = true) (hmember : c → validUtf8 member = true) :
    validUtf8 (s ++ if c then [comma] ++ member else []) = true := by
  by_cases hc : c
  · rw [if_pos hc, List.singleton_append, validUtf8_append_ascii (by decide), hs, hmember hc]
    rfl
  · rw [if_neg hc, List.append_nil]
    exact hs

theorem validUtf8_makeSyncRejectionPayload {toChars : ToChars} (hc : WritesNumbers toChars)
    {error : Option Error} {fallbackMessage : Bytes} (h : ∀ e, error = some e → e.utf8 = true)
    (hfallback : validUtf8 fallbackMessage = true) :
    validUtf8 (makeSyncRejectionPayload toChars error fallbackMessage) = true := by
  have hkeys : validUtf8 (ascii "accepted") = true ∧ validUtf8 (ascii "false") = true ∧
      validUtf8 (ascii "error") = true ∧ validUtf8 (ascii "message") = true ∧
      validUtf8 (ascii "params") = true ∧ validUtf8 (ascii "ctx") = true :=
    ⟨validUtf8_of_ascii (by decide), validUtf8_of_ascii (by decide), validUtf8_of_ascii (by decide),
      validUtf8_of_ascii (by decide), validUtf8_of_ascii (by decide), validUtf8_of_ascii (by decide)⟩
  have hparts : (error.getD {}).params.all Scalar.utf8 = true ∧
      validUtf8 (error.getD {}).ctx = true := by
    cases error with
    | none => exact ⟨rfl, rfl⟩
    | some e =>
        have he := h e rfl
        simp only [Error.utf8, Bool.and_eq_true] at he
        exact ⟨he.1.2, he.2⟩
  unfold makeSyncRejectionPayload
  dsimp only
  rw [validUtf8_jsonObject, List.all_cons, List.all_cons, List.all_nil, hkeys.1, hkeys.2.1,
    hkeys.2.2.1, Bool.true_and, Bool.true_and, Bool.true_and, Bool.and_true,
    validUtf8_concat (by decide)]
  refine validUtf8_append_member (validUtf8_append_member ?_ fun _ => ?_) fun _ => ?_
  · rw [List.singleton_append, validUtf8_cons_ascii (by decide), validUtf8_jsonField, hkeys.2.2.2.1,
      validUtf8_jsonQuoted, Bool.true_and]
    exact validUtf8_rejectionMessage h hfallback
  · rw [validUtf8_jsonField, hkeys.2.2.2.2.1, validUtf8_scalarListToJson hc, hparts.1]
    rfl
  · rw [validUtf8_jsonField, hkeys.2.2.2.2.2, validUtf8_jsonQuoted, hparts.2]
    rfl

end PhiTransport
