import PhiTransport.Api.TransportTypes
import Mathlib.Data.List.DropRight

/-!
# The client-facing envelope

What a transport puts on its wire: the envelope, the ack, protocol-error and
sync-response payloads, and the two readers of a client's `cid`. Every builder
is followed by the member list its text spells.
-/

namespace PhiTransport

open Octets Rfc8259

def kEnvelopeTypeCmd : Bytes := ascii "cmd"
def kEnvelopeTypeEvent : Bytes := ascii "event"
def kEnvelopeTypeResponse : Bytes := ascii "response"
def kEnvelopeTypeError : Bytes := ascii "error"

def kTopicCmdAck : Bytes := ascii "cmd.ack"
def kTopicCmdResponse : Bytes := ascii "cmd.response"
def kTopicSyncResponse : Bytes := ascii "sync.response"
def kTopicProtocolError : Bytes := ascii "protocol.error"

/-- Error code used for an ack that carries a failure from core. -/
def kAckErrorCodeCore : Bytes := ascii "core_error"

def kErrorCodeInvalidJson : Bytes := ascii "invalid_json"
def kErrorCodeMissingCid : Bytes := ascii "missing_cid"
def kErrorCodeInvalidType : Bytes := ascii "invalid_type"
def kErrorCodeMissingTopic : Bytes := ascii "missing_topic"
def kErrorCodeUnknownTopic : Bytes := ascii "unknown_topic"

def kMessageInvalidJson : Bytes := ascii "Payload must be a valid JSON object."
def kMessageMissingCid : Bytes := ascii "Commands must include numeric 'cid'."
def kMessageInvalidType : Bytes := ascii "Only messages with type='cmd' are supported."
def kMessageMissingTopic : Bytes := ascii "Missing command topic."

/-! ## Building -/

/-- `type`, `topic`, the `cid` where there is one, and the payload as text. -/
def makeEnvelope (type topic : Bytes) (cid : Option CmdId) (payloadJson : Bytes) : Bytes :=
  [lbrace] ++ jsonField (ascii "type") (jsonQuoted type) ++ [comma] ++
    jsonField (ascii "topic") (jsonQuoted topic) ++
    (match cid with
      | some n => [comma] ++ jsonField (ascii "cid") (decimal n.toNat)
      | none => []) ++
    [comma] ++ jsonField (ascii "payload") payloadJson ++ [rbrace]

/-- The `cmd.ack` payload; `error` is `null` on acceptance rather than absent. -/
def makeAckPayload (accepted : Bool) (cmdTopic : Bytes) (errorMessage : Bytes := [])
    (errorCode : Bytes := kAckErrorCodeCore) : Bytes :=
  [lbrace] ++ jsonField (ascii "accepted") (if accepted then ascii "true" else ascii "false") ++
    [comma] ++ jsonField (ascii "cmd") (jsonQuoted cmdTopic) ++ [comma] ++
    (if errorMessage.isEmpty then jsonField (ascii "error") (ascii "null")
    else jsonField (ascii "error")
      (jsonObject [(ascii "code", jsonQuoted errorCode),
        (ascii "message", jsonQuoted errorMessage)])) ++ [rbrace]

/-- The `protocol.error` payload. -/
def makeProtocolErrorPayload (code message : Bytes) : Bytes :=
  jsonObject [(ascii "code", jsonQuoted code), (ascii "message", jsonQuoted message)]

def makeUnknownTopicPayload (topic : Bytes) : Bytes :=
  makeProtocolErrorPayload kErrorCodeUnknownTopic (ascii "Unknown command topic: " ++ topic)

/-- The `sync.response` payload for a call core rejected: the message with its
`params`, and `ctx`. -/
def makeSyncRejectionPayload (toChars : ToChars) (error : Option Error)
    (fallbackMessage : Bytes := ascii "Sync call rejected") : Bytes :=
  let e := error.getD {}
  let hasMessage := error.isSome && !e.message.isEmpty
  let message := if hasMessage then e.message else fallbackMessage
  let errorObject := [lbrace] ++ jsonField (ascii "message") (jsonQuoted message) ++
    (if hasMessage && !e.params.isEmpty then
      [comma] ++ jsonField (ascii "params") (scalarListToJson toChars e.params) else []) ++
    (if error.isSome && !e.ctx.isEmpty then
      [comma] ++ jsonField (ascii "ctx") (jsonQuoted e.ctx) else []) ++ [rbrace]
  jsonObject [(ascii "accepted", ascii "false"), (ascii "error", errorObject)]

/-- The `sync.response` payload for an accepted call: core's payload with the
topic it answers spliced in. -/
def makeSyncResponsePayload (payloadJson syncTopic : Bytes) : Bytes :=
  withJsonField payloadJson (ascii "sync") (jsonQuoted syncTopic)

/-! ## Reading a `cid` -/

def maxCmdId : CmdId := UInt64.ofNat (2 ^ 64 - 1)

def zeroDouble : Binary64 := .finite 0 ⟨0, 0, by simp⟩

/-- Read a `cid` that arrived as a JSON number. The cast at the end is the
language's, so it is undefined where the integer part does not fit. -/
def cidFromNumber (value : Binary64) : Except Fault (Option CmdId) :=
  -- NaN is refused here: no comparison with it holds
  if !(zeroDouble.le value) then .ok none
  -- the bound is itself a double, `2 ^ 64`, and not the largest `CmdId`
  else if (Binary64.ofUInt64 maxCmdId).lt value then .ok none
  else value.toUInt64.map some

def isSpace (c : UInt8) : Bool := c == 0x20 || c == 0x09 || c == 0x0A || c == 0x0D

theorem isSpace_iff {c : UInt8} : isSpace c = true ↔ c ∈ [0x20, 0x09, 0x0A, 0x0D] := by
  simp [isSpace, or_assoc]

/-- The accumulating loop of `cidFromString` over the trimmed text. -/
def cidDigits (value : CmdId) : Bytes → Option CmdId
  | [] => some value
  | c :: t =>
      if c < 0x30 ∨ c > 0x39 then none
      else
        let digit : CmdId := (c - 0x30).toUInt64
        -- one more digit would not fit
        if value > (maxCmdId - digit) / 10 then none
        else cidDigits (value * 10 + digit) t

/-- Read a `cid` that arrived as a JSON string: digits only, surrounding
whitespace tolerated. -/
def cidFromString (text : Bytes) : Option CmdId :=
  let trimmed := (text.dropWhile isSpace).rdropWhile isSpace
  if trimmed.isEmpty then none else cidDigits 0 trimmed

/-! ## Outcomes -/

inductive CommandOutcome.Kind where
  | syncResponse
  | ack
  | protocolError
deriving DecidableEq

/-- What a transport should answer one client command with. -/
structure CommandOutcome where
  kind : CommandOutcome.Kind := .protocolError
  payloadJson : Bytes := []
  /-- Non-zero only for an accepted async command. -/
  cmdId : CmdId := 0

/-- The `type` and `topic` of the envelope an outcome travels in. -/
def envelopeFor : CommandOutcome.Kind → Bytes × Bytes
  | .syncResponse => (kEnvelopeTypeResponse, kTopicSyncResponse)
  | .ack => (kEnvelopeTypeResponse, kTopicCmdAck)
  | .protocolError => (kEnvelopeTypeError, kTopicProtocolError)

/-! ## What the builders spell -/

/-- The members of an envelope around the payload value `payload`. -/
def envelopeMembers (type topic : Bytes) (cid : Option CmdId) (payload : Json) :
    List (Bytes × Json) :=
  [(ascii "type", .str type), (ascii "topic", .str topic)] ++
    (match cid with
      | some n => [(ascii "cid", .num (.ofNat n.toNat))]
      | none => []) ++
    [(ascii "payload", payload)]

theorem objectText_makeEnvelope {payload : Json} {payloadJson : Bytes}
    (h : SlotText payload payloadJson) (type topic : Bytes) (cid : Option CmdId) :
    ObjectText (envelopeMembers type topic cid payload)
      (makeEnvelope type topic cid payloadJson) := by
  have hty := memberText_jsonField_text (ascii "type") (text_jsonQuoted type)
  have hto := memberText_jsonField_text (ascii "topic") (text_jsonQuoted topic)
  have hpay := memberText_jsonField (ascii "payload") h
  cases cid with
  | none =>
      have := objectText_of_list (listText_cons hty (by simp)
        (listText_cons hto (by simp) (listText_singleton hpay)))
      simpa [makeEnvelope, envelopeMembers] using this
  | some n =>
      have hcid := memberText_jsonField_text (ascii "cid") (text_nat n.toNat)
      have := objectText_of_list (listText_cons hty (by simp)
        (listText_cons hto (by simp) (listText_cons hcid (by simp) (listText_singleton hpay))))
      simpa [makeEnvelope, envelopeMembers] using this

/-- The members of a `code` and `message` object. -/
def codeMessage (code message : Bytes) : List (Bytes × Json) :=
  [(ascii "code", .str code), (ascii "message", .str message)]

theorem objectText_makeProtocolErrorPayload (code message : Bytes) :
    ObjectText (codeMessage code message) (makeProtocolErrorPayload code message) :=
  objectText_jsonObject
    (.cons ⟨rfl, Or.inr (text_jsonQuoted code)⟩
      (.cons ⟨rfl, Or.inr (text_jsonQuoted message)⟩ .nil))

/-- The `error` member of an ack. -/
def ackError (errorMessage errorCode : Bytes) : Json :=
  if errorMessage.isEmpty then .null else .obj (codeMessage errorCode errorMessage)

def ackMembers (accepted : Bool) (cmdTopic errorMessage errorCode : Bytes) :
    List (Bytes × Json) :=
  [(ascii "accepted", .bool accepted), (ascii "cmd", .str cmdTopic),
    (ascii "error", ackError errorMessage errorCode)]

theorem objectText_makeAckPayload (accepted : Bool) (cmdTopic errorMessage errorCode : Bytes) :
    ObjectText (ackMembers accepted cmdTopic errorMessage errorCode)
      (makeAckPayload accepted cmdTopic errorMessage errorCode) := by
  have hacc := memberText_jsonField_text (ascii "accepted") (text_bool accepted)
  have hcmd := memberText_jsonField_text (ascii "cmd") (text_jsonQuoted cmdTopic)
  have herr : MemberText (ascii "error", ackError errorMessage errorCode)
      (if errorMessage.isEmpty then jsonField (ascii "error") (ascii "null")
      else jsonField (ascii "error") (makeProtocolErrorPayload errorCode errorMessage)) := by
    unfold ackError
    by_cases h : errorMessage.isEmpty = true
    · rw [if_pos h, if_pos h]
      exact memberText_jsonField_text _ text_null
    · rw [if_neg h, if_neg h]
      exact memberText_jsonField_text _ (objectText_makeProtocolErrorPayload _ _)
  have := objectText_of_list (listText_cons hacc (by simp)
    (listText_cons hcmd (by simp) (listText_singleton herr)))
  simpa [makeAckPayload, makeProtocolErrorPayload, ackMembers, boolText] using this

theorem objectText_makeSyncResponsePayload {ms : List (Bytes × Json)} {payloadJson : Bytes}
    (h : PayloadText ms payloadJson) (syncTopic : Bytes) :
    ObjectText ((ascii "sync", .str syncTopic) :: ms)
      (makeSyncResponsePayload payloadJson syncTopic) :=
  objectText_withJsonField h _ (Or.inr (text_jsonQuoted syncTopic))

/-- The message a rejection surfaces: the error's own, or the fallback. -/
def rejectionMessage (error : Option Error) (fallbackMessage : Bytes) : Bytes :=
  let e := error.getD {}
  if error.isSome && !e.message.isEmpty then e.message else fallbackMessage

/-- The members of the `error` object of a sync rejection, given the value the
encoded placeholder list spells. -/
def rejectionError (error : Option Error) (fallbackMessage : Bytes) (params : Json) :
    List (Bytes × Json) :=
  let e := error.getD {}
  [(ascii "message", .str (rejectionMessage error fallbackMessage))] ++
    (if error.isSome && !e.message.isEmpty && !e.params.isEmpty then
      [(ascii "params", params)] else []) ++
    (if error.isSome && !e.ctx.isEmpty then [(ascii "ctx", .str e.ctx)] else [])

theorem objectText_makeSyncRejectionPayload {toChars : ToChars} {error : Option Error}
    {params : Json} (hp : Text params (scalarListToJson toChars (error.getD {}).params))
    (fallbackMessage : Bytes) :
    ObjectText [(ascii "accepted", .bool false),
        (ascii "error", .obj (rejectionError error fallbackMessage params))]
      (makeSyncRejectionPayload toChars error fallbackMessage) := by
  have hm := memberText_jsonField_text (ascii "message")
    (text_jsonQuoted (rejectionMessage error fallbackMessage))
  have hpar := memberText_jsonField_text (ascii "params") hp
  have hctx := memberText_jsonField_text (ascii "ctx") (text_jsonQuoted (error.getD {}).ctx)
  have herr := objectText_of_list (listText_of_tail hm (tailText_append
    (tailText_ite hpar (error.isSome && !(error.getD {}).message.isEmpty &&
      !(error.getD {}).params.isEmpty))
    (tailText_ite hctx (error.isSome && !(error.getD {}).ctx.isEmpty))))
  refine objectText_jsonObject (.cons ⟨rfl, Or.inr (text_bool false)⟩ (.cons ⟨rfl, Or.inr ?_⟩ .nil))
  show ObjectText (rejectionError error fallbackMessage params) _
  simpa [rejectionMessage, rejectionError] using herr

end PhiTransport
