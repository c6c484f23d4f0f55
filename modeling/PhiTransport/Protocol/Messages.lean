import PhiTransport.Frames.Responses
import PhiTransport.Base.Documents
import PhiTransport.Dispatch.Answers

/-!
# What a client reads off the wire

The protocol's messages without their text, and the reader a client needs for
them: parse the frame, take the last member of each name, and tell the messages
apart by `type` and `topic`. A frame that `makeEnvelope` assembled is read by
what went into it (`readMessage_makeEnvelope`), so from here on a frame is known
by its message and its text no longer matters.
-/

namespace PhiTransport

open Octets Rfc8259 Nlohmann

inductive Message where
  | syncResponse (cid : CmdId)
  | ack (cid : CmdId) (accepted : Bool) (cmd : Bytes)
  | response (cid : CmdId) (cmd : Bytes)
  | protocolError (cid : Option CmdId) (code : Bytes)
  | event (topic : Bytes)
deriving DecidableEq

/-! ## Reading members -/

/-- A `cid` is an integer literal without sign that a command id can hold. -/
def cidOfJson : Json → Option CmdId
  | .num n =>
      let value := natOfDigits n.int
      if n = .ofNat value ∧ value < 2 ^ 64 then some (UInt64.ofNat value) else none
  | _ => none

def stringOfJson : Json → Bytes
  | .str s => s
  | _ => []

def membersOfJson : Json → List (Bytes × Json)
  | .obj ms => ms
  | _ => []

theorem cidOfJson_ofNat (n : CmdId) : cidOfJson (.num (.ofNat n.toNat)) = some n := by
  have hvalue : natOfDigits (Number.ofNat n.toNat).int = n.toNat := natOfDigits_decimal _
  have hlt : natOfDigits (Number.ofNat n.toNat).int < 2 ^ 64 := by
    rw [hvalue]
    exact n.toNat_lt
  rw [cidOfJson, if_pos ⟨by rw [hvalue], hlt⟩, hvalue, UInt64.ofNat_toNat]

/-- The string under `key`, empty where there is none. -/
def stringIn (key : Bytes) (ms : List (Bytes × Json)) : Bytes :=
  ((lastValue key ms).map stringOfJson).getD []

/-! ## Reading frames -/

/-- The message of an envelope, by its type and topic. -/
def messageOf (type topic : Bytes) (cid : Option CmdId) (payload : List (Bytes × Json)) :
    Option Message :=
  if type = kEnvelopeTypeEvent then some (.event topic)
  else if type = kEnvelopeTypeError ∧ topic = kTopicProtocolError then
    some (.protocolError cid (stringIn (ascii "code") payload))
  else if type = kEnvelopeTypeResponse then
    if topic = kTopicSyncResponse then cid.map .syncResponse
    else if topic = kTopicCmdAck then
      cid.map fun n => .ack n (decide (lastValue (ascii "accepted") payload matches
        some (.bool true))) (stringIn (ascii "cmd") payload)
    else if topic = kTopicCmdResponse then
      cid.map fun n => .response n (stringIn (ascii "cmd") payload)
    else none
  else none

/-- What a client makes of the members of a frame. -/
def readMembers (ms : List (Bytes × Json)) : Option Message :=
  match lastValue (ascii "type") ms, lastValue (ascii "topic") ms with
  | some (.str type), some (.str topic) =>
      messageOf type topic ((lastValue (ascii "cid") ms).bind cidOfJson)
        (((lastValue (ascii "payload") ms).map membersOfJson).getD [])
  | _, _ => none

def readMessage (t : Bytes) : Option Message :=
  match readText t with
  | some (.obj ms) => readMembers ms
  | _ => none

/-- Only an object is read as a message, whoever wrote the frame. -/
theorem objectText_of_readMessage {t : Bytes} {message : Message}
    (h : readMessage t = some message) : ∃ ms, ObjectText ms t := by
  unfold readMessage at h
  split at h
  · next ms hread => exact ⟨ms, text_iff_readText.mpr hread⟩
  · cases h

theorem lastValue_envelopeMembers (type topic : Bytes) (cid : Option CmdId) (payload : Json) :
    lastValue (ascii "type") (envelopeMembers type topic cid payload) = some (.str type) ∧
    lastValue (ascii "topic") (envelopeMembers type topic cid payload) = some (.str topic) ∧
    (lastValue (ascii "cid") (envelopeMembers type topic cid payload)).bind cidOfJson = cid ∧
    lastValue (ascii "payload") (envelopeMembers type topic cid payload) = some payload := by
  have h1 : ascii "type" ≠ ascii "topic" := by decide
  have h2 : ascii "type" ≠ ascii "cid" := by decide
  have h3 : ascii "type" ≠ ascii "payload" := by decide
  have h4 : ascii "topic" ≠ ascii "cid" := by decide
  have h5 : ascii "topic" ≠ ascii "payload" := by decide
  have h6 : ascii "cid" ≠ ascii "payload" := by decide
  cases cid with
  | none => simp [envelopeMembers, lastValue, h1, h1.symm, h2, h3, h3.symm, h4, h5, h5.symm, h6.symm]
  | some n =>
      simp [envelopeMembers, lastValue, cidOfJson_ofNat, h1, h1.symm, h2, h2.symm, h3, h3.symm,
        h4, h4.symm, h5, h5.symm, h6, h6.symm]

/-- **A frame is read by what went into it.** -/
theorem readMessage_makeEnvelope {payload : Json} {payloadJson : Bytes}
    (h : SlotText payload payloadJson) (type topic : Bytes) (cid : Option CmdId) :
    readMessage (makeEnvelope type topic cid payloadJson) =
      messageOf type topic cid (membersOfJson payload) := by
  obtain ⟨htype, htopic, hcid, hpayload⟩ := lastValue_envelopeMembers type topic cid payload
  rw [readMessage, readText_of_text (objectText_makeEnvelope h type topic cid)]
  dsimp only
  rw [readMembers, htype, htopic, hcid, hpayload]
  rfl

/-! ## The frames of the protocol -/

theorem stringIn_of_lastValue {key s : Bytes} {ms : List (Bytes × Json)}
    (h : lastValue key ms = some (.str s)) : stringIn key ms = s := by
  rw [stringIn, h]
  rfl

theorem lastValue_code_codeMessage (code message : Bytes) :
    lastValue (ascii "code") (codeMessage code message) = some (.str code) :=
  lastValue_cons_self (by simp only [keys, List.map_cons, List.map_nil]; decide) _

theorem lastValue_accepted_ackMembers (accepted : Bool) (topic message code : Bytes) :
    lastValue (ascii "accepted") (ackMembers accepted topic message code) =
      some (.bool accepted) :=
  lastValue_cons_self (by simp only [keys, List.map_cons, List.map_nil]; decide) _

theorem lastValue_cmd_ackMembers (accepted : Bool) (topic message code : Bytes) :
    lastValue (ascii "cmd") (ackMembers accepted topic message code) = some (.str topic) := by
  have haccepted : ascii "accepted" ≠ ascii "cmd" := by decide
  rw [ackMembers, lastValue_cons_of_ne haccepted]
  exact lastValue_cons_self (by simp only [keys, List.map_cons, List.map_nil]; decide) _

section

variable {ms : List (Bytes × Json)} {payloadJson : Bytes}

theorem readMessage_protocolError {cid : Option CmdId} {code message : Bytes}
    (h : ObjectText (codeMessage code message) payloadJson) :
    readMessage (makeEnvelope kEnvelopeTypeError kTopicProtocolError cid payloadJson) =
      some (.protocolError cid code) := by
  have hevent : kEnvelopeTypeError ≠ kEnvelopeTypeEvent := by decide
  rw [readMessage_makeEnvelope (Or.inr h), messageOf, if_neg hevent, if_pos ⟨rfl, rfl⟩]
  show some (Message.protocolError cid (stringIn (ascii "code") (codeMessage code message))) = _
  rw [stringIn_of_lastValue (lastValue_code_codeMessage code message)]

theorem messageOf_response (topic : Bytes) (cid : Option CmdId)
    (payload : List (Bytes × Json)) : messageOf kEnvelopeTypeResponse topic cid payload =
      if topic = kTopicSyncResponse then cid.map .syncResponse
      else if topic = kTopicCmdAck then
        cid.map fun n => .ack n (decide (lastValue (ascii "accepted") payload matches
          some (.bool true))) (stringIn (ascii "cmd") payload)
      else if topic = kTopicCmdResponse then
        cid.map fun n => .response n (stringIn (ascii "cmd") payload)
      else none := by
  have hevent : kEnvelopeTypeResponse ≠ kEnvelopeTypeEvent := by decide
  have herror : ¬(kEnvelopeTypeResponse = kEnvelopeTypeError ∧ topic = kTopicProtocolError) :=
    fun h => absurd h.1 (by decide)
  rw [messageOf, if_neg hevent, if_neg herror, if_pos rfl]

theorem readMessage_syncResponse (h : ObjectText ms payloadJson) (cid : CmdId) :
    readMessage (makeEnvelope kEnvelopeTypeResponse kTopicSyncResponse (some cid) payloadJson) =
      some (.syncResponse cid) := by
  rw [readMessage_makeEnvelope (Or.inr h), messageOf_response, if_pos rfl]
  rfl

theorem readMessage_ack {accepted : Bool} {topic message code : Bytes}
    (h : ObjectText (ackMembers accepted topic message code) payloadJson) (cid : CmdId) :
    readMessage (makeEnvelope kEnvelopeTypeResponse kTopicCmdAck (some cid) payloadJson) =
      some (.ack cid accepted topic) := by
  have hsync : kTopicCmdAck ≠ kTopicSyncResponse := by decide
  rw [readMessage_makeEnvelope (Or.inr h), messageOf_response, if_neg hsync, if_pos rfl]
  show some (Message.ack cid _ (stringIn (ascii "cmd") (ackMembers accepted topic message code))) = _
  rw [stringIn_of_lastValue (lastValue_cmd_ackMembers accepted topic message code), membersOfJson,
    lastValue_accepted_ackMembers]
  cases accepted
  · rfl
  · rfl

theorem readMessage_response (h : ObjectText ms payloadJson) {cmd : Bytes}
    (hcmd : lastValue (ascii "cmd") ms = some (.str cmd)) (cid : CmdId) :
    readMessage (makeEnvelope kEnvelopeTypeResponse kTopicCmdResponse (some cid) payloadJson) =
      some (.response cid cmd) := by
  have hsync : kTopicCmdResponse ≠ kTopicSyncResponse := by decide
  have hack : kTopicCmdResponse ≠ kTopicCmdAck := by decide
  rw [readMessage_makeEnvelope (Or.inr h), messageOf_response, if_neg hsync, if_neg hack,
    if_pos rfl]
  show some (Message.response cid (stringIn (ascii "cmd") ms)) = _
  rw [stringIn_of_lastValue hcmd]

theorem readMessage_event {payload : Json} (h : SlotText payload payloadJson) (topic : Bytes) :
    readMessage (makeEnvelope kEnvelopeTypeEvent topic none payloadJson) =
      some (.event topic) := by
  rw [readMessage_makeEnvelope h, messageOf, if_pos rfl]

end

end PhiTransport
