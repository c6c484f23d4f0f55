import PhiTransport.Records.Errors
import PhiTransport.Records.LogEntries
import PhiTransport.Dispatch.Answers

/-!
# What a message shows

One error is told in three places: in its own JSON, in the rejection of a sync
call, and in the log record written beside them. A client that puts the elements
it reads in the place of `%1`, `%2` shows in all three what a text sink shows for
the values themselves.
-/

namespace PhiTransport

open Octets Rfc8259

/-- A placeholder value as a client shows it: an absent one leaves a gap. -/
def shown : Json → Bytes
  | .bool b => if b then ascii "true" else ascii "false"
  | .num n => n.text
  | .str s => s
  | _ => []

section

variable {toChars : ToChars}

/-- Reading and showing a value is rendering it. -/
theorem shown_eq_scalarToText {v : Json} {value : Scalar} (h : ScalarJson toChars v value) :
    shown v = scalarToText toChars value := by
  cases value with
  | monostate =>
      rw [show v = .null from h]
      rfl
  | boolean entry =>
      rw [show v = .bool entry from h]
      rfl
  | int64 entry =>
      rw [show v = .num (.ofInt entry.toInt) from h]
      exact Number.text_ofInt entry.toInt
  | double entry =>
      rw [ScalarJson] at h
      show shown v = if entry.isFinite then doubleToText toChars entry else []
      split_ifs at h ⊢
      · obtain ⟨n, rfl, hn⟩ := h
        exact hn
      · rw [h]
        rfl
  | string entry =>
      rw [show v = .str entry from h]
      rfl

theorem map_shown {vs : List Json} {values : ScalarList}
    (h : List.Forall₂ (ScalarJson toChars) vs values) :
    vs.map shown = values.map (scalarToText toChars) := by
  rw [← List.forall₂_eq_eq_eq, List.forall₂_map_left_iff, List.forall₂_map_right_iff]
  exact h.imp fun _ _ => shown_eq_scalarToText

/-- The placeholder list of a scalar list determines what it shows. -/
theorem map_shown_of_text (hc : WritesNumbers toChars) {vs : List Json} {values : ScalarList}
    (h : Text (.arr vs) (scalarListToJson toChars values)) :
    vs.map shown = values.map (scalarToText toChars) := by
  obtain ⟨vs', htext, hvs⟩ := scalarJson_scalarListToJson hc values
  cases text_unique h htext
  exact map_shown hvs

/-! ## The three places -/

/-- What stands behind the placeholders, read as an array. -/
def shownElements (params : Option Json) : List Bytes :=
  match params with
  | some (.arr vs) => vs.map shown
  | _ => []

theorem shownElements_ite (hc : WritesNumbers toChars) {vs : List Json} {values : ScalarList}
    (h : Text (.arr vs) (scalarListToJson toChars values)) {c : Prop} [Decidable c]
    (hempty : ¬c → values = []) :
    shownElements (if c then some (.arr vs) else none) = values.map (scalarToText toChars) := by
  split_ifs with hcond
  · exact map_shown_of_text hc h
  · rw [hempty hcond]
    rfl

/-- **A message shows the same everywhere.** For an error with a message: its own
JSON, the rejection a client reads and a log record with the same message and
values carry that message, and behind the placeholders they show, position by
position, what a text sink renders. -/
theorem message_shows_alike (hc : WritesNumbers toChars) {error : Error}
    (hm : isRenderableError error = true) {fields : List (Bytes × Json)}
    (hf : PayloadText fields error.fields) {result : SyncResult} (hacc : result.accepted = false)
    (herr : result.error = some error) (topic : Bytes) {entry : LogEntry}
    (hmessage : entry.message = error.message) (hparams : entry.params = error.params)
    {extras : List (Bytes × Json)} (hextras : PayloadText extras entry.fields) :
    let texts := error.params.map (scalarToText toChars)
    (stringAt (ascii "message") (errorToJson toChars error) = error.message ∧
      shownElements (valueAt (ascii "params") (errorToJson toChars error)) = texts) ∧
    (errorMember (ascii "message") (syncOutcome toChars topic result).payloadJson =
        some (.str error.message) ∧
      shownElements (errorMember (ascii "params") (syncOutcome toChars topic result).payloadJson) =
        texts) ∧
    (stringAt (ascii "message") (logEntryToJson toChars entry) = error.message ∧
      shownElements (valueAt (ascii "params") (logEntryToJson toChars entry)) = texts) := by
  intro texts
  have hne : error.message ≠ [] := by simpa [isRenderableError] using hm
  obtain ⟨vs, htext, -⟩ := text_scalarListToJson hc error.params
  refine ⟨?_, ?_, ?_⟩
  · have hat := valueAt_present (objectText_errorToJson hm htext hf) (nodup_errorRecord _ _ _)
    have hvalue : valueAt (ascii "params") (errorToJson toChars error) =
        if !error.params.isEmpty then some (.arr vs) else none := hat _
    refine ⟨stringAt_some (hat _), ?_⟩
    rw [hvalue]
    exact shownElements_ite hc htext (by simp)
  · obtain ⟨params, hptext, hmsg, hpar⟩ := errorMember_syncOutcome hc hacc herr topic
    cases text_unique hptext htext
    rw [rejectionMessage_some hne] at hmsg
    refine ⟨hmsg, ?_⟩
    rw [hpar]
    exact shownElements_ite hc htext fun hnot => by
      by_contra hparams
      exact hnot ⟨hne, hparams⟩
  · rw [← hparams] at htext
    have hat := valueAt_present (objectText_logEntryToJson htext hextras)
      (nodup_logEntryRecord _ _ _)
    have hvalue : valueAt (ascii "params") (logEntryToJson toChars entry) =
        if !entry.params.isEmpty then some (.arr vs) else none := hat _
    refine ⟨(stringAt_some (hat _)).trans hmessage, ?_⟩
    rw [hvalue, shownElements_ite hc htext (by simp), hparams]

end

/-- The boot error is shown with its one placeholder, wherever it is rendered. -/
theorem message_shows_alike_bootError :
    shownElements (valueAt (ascii "params") (errorToJson smallIntegerChars bootError)) =
        [ascii "7"] ∧
      shownElements (errorMember (ascii "params") (syncOutcome smallIntegerChars (ascii "sync.a")
        { error := some bootError }).payloadJson) = [ascii "7"] := by
  have hfields : PayloadText [(ascii "k", .num (.ofNat 1))] bootError.fields :=
    Or.inl (objectText_jsonObject (.cons ⟨rfl, Or.inr (text_nat 1)⟩ .nil))
  obtain ⟨⟨-, herror⟩, ⟨-, hrejection⟩, -⟩ := message_shows_alike writesNumbers_smallIntegerChars
    rfl hfields (rfl : ({ error := some bootError } : SyncResult).accepted = false) rfl
    (ascii "sync.a") (rfl : ({ message := bootError.message, params := bootError.params } :
      LogEntry).message = _) rfl (Or.inr ⟨blank_nil, rfl⟩)
  exact ⟨herror, hrejection⟩

end PhiTransport
