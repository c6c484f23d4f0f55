import PhiTransport.Protocol.Messages
import PhiTransport.Dispatch.Runs
import Mathlib.Data.List.AList

/-!
# A transport at work

The API's functions put together the way its comments lay out for a transport:
a client's text is read and checked, the payload of an accepted frame is handed
on as text, the outcome goes out in its envelope under the client's `cid`, and
the client is remembered under the id core gave until the result arrives. The
sockets, and with them who is connected, are not part of the API; a connection
is an element of an arbitrary type.

Each function is followed by what it does on every input (`answerText_of_accepted`,
`readMessage_answerResult`), and the rest of the development reads only that.
-/

namespace PhiTransport

open Octets Rfc8259 Nlohmann

/-- The libraries a transport is linked with. -/
structure Toolkit where
  parse : Bytes → Value
  dump : Value → Except Fault Bytes
  trimmed : Bytes → Bytes
  toChars : ToChars

/-- What is relied on of them: the JSON library reads and writes JSON, trimming
takes ASCII whitespace off both ends, and a number is written as JSON. -/
structure Toolkit.Lawful (kit : Toolkit) (float : Number → Option Binary64)
    (space : UInt8 → Bool) : Prop where
  reads : ReadsJson float kit.parse
  parses : ParsesDocuments float kit.parse
  writes : WritesJson float kit.dump
  trims : Trims space kit.trimmed
  space_ascii : ∀ b, space b = true → b < 0x80
  writesNumbers : WritesNumbers kit.toChars

/-- The libraries without a conversion for fractions, and short numbers. -/
def sampleKit : Toolkit := ⟨parseIntegers, dumpIntegers, trimmedJson, smallIntegerChars⟩

theorem isSpace_ascii {b : UInt8} (h : isSpace b = true) : b < 0x80 := isWs_ascii h

theorem lawful_sampleKit : sampleKit.Lawful (fun _ => none) isSpace where
  reads := readsJson_referenceParse _
  parses := parsesDocuments_referenceParse
  writes := writesJson_referenceDump stringText_jsonQuoted (by rintro n d ⟨⟩)
  trims := trims_trimmedJson
  space_ascii _ := isSpace_ascii
  writesNumbers := writesNumbers_smallIntegerChars

theorem parseCommandFrame_sampleKit :
    parseCommandFrame sampleKit.parse sampleKit.trimmed (sampleFrame 7) =
      .ok (.ok ⟨7, ascii "cmd.x", .object []⟩) := by
  have hround : Binary64.roundNat (7 : CmdId).toNat = 7 := by decide
  have hparse : sampleKit.parse = parseIntegers := rfl
  have htrimmed : sampleKit.trimmed = trimmedJson := rfl
  rw [hparse, htrimmed, parseCommandFrame_sampleFrame, cidFromNumber_ofUInt64, hround]
  rfl

/-- Whom a result is for: the connection, and the `cid` and topic of its command. -/
structure Pending (C : Type) where
  connection : C
  cid : CmdId
  cmdTopic : Bytes
deriving DecidableEq

/-- What a text is answered with, and the id core gave the command if it took one. -/
structure Answer where
  frame : Bytes
  cid : CmdId := 0
  cmdTopic : Bytes := []
  cmdId : CmdId := 0

section

variable {F : Type} (kit : Toolkit) (core : Core F) (plugin : TransportPluginBase F)

/-- The frame that refuses a text. -/
def refusalFrame (error : FrameError) : Bytes :=
  makeEnvelope kEnvelopeTypeError kTopicProtocolError error.cid
    (makeProtocolErrorPayload error.code error.message)

/-- The frame an outcome goes out in. -/
def outcomeFrame (cid : CmdId) (outcome : CommandOutcome) : Bytes :=
  let envelope := envelopeFor outcome.kind
  makeEnvelope envelope.1 envelope.2 (some cid) outcome.payloadJson

/-- Dispatch a frame that passed the checks, its payload as text. -/
def answerFrame (log : List (CoreCall F)) (frame : CommandFrame) (payloadJson : Bytes)
    (caller : CallerIdentity) : Answer × List (CoreCall F) :=
  let run := (plugin.dispatchCommand core kit.toChars frame.topic payloadJson caller).run log
  ({ frame := outcomeFrame frame.cid run.1, cid := frame.cid, cmdTopic := frame.topic,
     cmdId := run.1.cmdId }, run.2)

/-- Answer one text of a client. -/
def answerText (log : List (CoreCall F)) (text : Bytes) (caller : CallerIdentity) :
    Except Fault (Answer × List (CoreCall F)) := do
  match ← parseCommandFrame kit.parse kit.trimmed text with
  | .error error => return ({ frame := refusalFrame error }, log)
  | .ok frame =>
      -- the payload was parsed with the envelope and goes on as text
      let payloadJson ← kit.dump frame.payload
      return answerFrame kit core plugin log frame payloadJson caller

/-- The `cmd.response` for a command that was remembered. -/
def answerResult {C : Type} (pending : Pending C) (payloadJson : Bytes) : Except Fault Bytes := do
  let payload ← makeCmdResponsePayload kit.parse kit.dump pending.cmdTopic payloadJson
  return makeEnvelope kEnvelopeTypeResponse kTopicCmdResponse (some pending.cid) payload

/-- An event as every client gets it. -/
def eventFrame (topic payloadJson : Bytes) : Bytes :=
  makeEnvelope kEnvelopeTypeEvent topic none payloadJson

end

/-! ## Texts that reach core -/

section

variable {float : Number → Option Binary64} {space : UInt8 → Bool} {kit : Toolkit}

theorem Toolkit.Lawful.trimmed_nil (h : kit.Lawful float space) : kit.trimmed [] = [] := by
  rw [h.trims]
  rfl

theorem Toolkit.Lawful.validUtf8_trimmed (h : kit.Lawful float space) (t : Bytes) :
    validUtf8 (kit.trimmed t) = validUtf8 t := by
  rw [h.trims, validUtf8_rdropWhile h.space_ascii, validUtf8_dropWhile h.space_ascii]

/-- What is known of a frame that was accepted, whoever wrote the text. -/
structure Accepted (float : Number → Option Binary64) (frame : CommandFrame) : Prop where
  topic_ne : frame.topic ≠ []
  topic_utf8 : validUtf8 frame.topic = true
  payload : ∃ ms, frame.payload = .object ms ∧ Document float (.object ms)

theorem document_payloadOf {ms : Members} (h : Document float (.object ms)) :
    ∃ ps, payloadOf ms = .object ps ∧ Document float (.object ps) := by
  unfold payloadOf
  cases hpayload : ms.lookup (ascii "payload") with
  | none => exact ⟨[], rfl, document_empty⟩
  | some v =>
      cases v with
      | object ps => exact ⟨ps, rfl, h.of_lookup hpayload⟩
      | _ => exact ⟨[], rfl, document_empty⟩

/-- The members an accepted frame was read from. -/
theorem members_of_accepted (hkit : kit.Lawful float space) {text : Bytes} {frame : CommandFrame}
    (h : parseCommandFrame kit.parse kit.trimmed text = .ok (.ok frame)) :
    ∃ ms, kit.parse text = .object ms ∧ HasCid ms frame.cid ∧
      HasTopic kit.trimmed ms frame.topic ∧ frame.payload = payloadOf ms := by
  rcases (kit.parse text).isObject_cases with hobj | ⟨ms, hms⟩
  · rw [parseCommandFrame_of_not_object hobj] at h
    cases h
  · rw [parseCommandFrame_object hms] at h
    refine ⟨ms, hms, ?_⟩
    cases hread : memberCid ms with
    | error fault =>
        rw [hread] at h
        cases h
    | ok read =>
        rw [hread] at h
        have hcheck : checkFrame kit.trimmed ms read = .ok frame := Except.ok.inj h
        cases read with
        | none => cases hcheck
        | some cid =>
            rcases checkFrame_some hkit.trimmed_nil ms cid with
              ⟨-, hno⟩ | ⟨-, -, hno⟩ | ⟨-, topic, htopic, hyes⟩
            · rw [hno] at hcheck
              cases hcheck
            · rw [hno] at hcheck
              cases hcheck
            · rw [hyes] at hcheck
              cases hcheck
              exact ⟨memberCid_eq_some_iff.mp hread, htopic, rfl⟩

/-- Every frame that passes the checks is one, by which library and of which text ever. -/
theorem accepted_of_parse (hkit : kit.Lawful float space) {text : Bytes} {frame : CommandFrame}
    (h : parseCommandFrame kit.parse kit.trimmed text = .ok (.ok frame)) :
    Accepted float frame := by
  obtain ⟨ms, hms, -, ⟨s, hs, htrim, hne⟩, hpayload⟩ := members_of_accepted hkit h
  have hdoc := hkit.parses text ms hms
  refine ⟨hne, ?_, ?_⟩
  · rw [← htrim, hkit.validUtf8_trimmed]
    exact (hdoc.of_lookup hs).validUtf8
  · rw [hpayload]
    exact document_payloadOf hdoc

/-- The payload of an accepted frame is written out as object text. -/
theorem Accepted.dump_payload (hkit : kit.Lawful float space) {frame : CommandFrame}
    (h : Accepted float frame) : ∃ payloadJson js vs ms, kit.dump frame.payload = .ok payloadJson ∧
      ObjectText js payloadJson ∧ ofMembers float js = some vs ∧
      frame.payload = .object ms ∧ (Value.object (build vs)).Same frame.payload := by
  obtain ⟨ms, hms, hdoc⟩ := h.payload
  obtain ⟨u, js, vs, hdump, htext, hvs, hsame⟩ := hkit.writes.objectText hdoc
  rw [hms]
  exact ⟨u, js, vs, ms, hdump, htext, hvs, rfl, Value.same_object.mpr hsame⟩

end

/-! ## The frames that go out -/

section

variable {F : Type} (core : Core F) (plugin : TransportPluginBase F) (log : List (CoreCall F))

/-- The message an accepted frame is answered with, by its door. -/
def replyTo (frame : CommandFrame) (payloadJson : Bytes) (caller : CallerIdentity) : Message :=
  match doorOf frame.topic with
  | .sync => .syncResponse frame.cid
  | .cmd =>
      .ack frame.cid (decide (plugin.asyncAnswer core log frame.topic payloadJson caller).Taken)
        frame.topic
  | .unknown => .protocolError (some frame.cid) kErrorCodeUnknownTopic

variable {core}

theorem outcomeFrame_eq {outcome : CommandOutcome} {kind : CommandOutcome.Kind}
    {type topic : Bytes} (h : outcome.kind = kind) (henvelope : envelopeFor kind = (type, topic))
    (cid : CmdId) :
    outcomeFrame cid outcome = makeEnvelope type topic (some cid) outcome.payloadJson := by
  rw [outcomeFrame, h, henvelope]

theorem readMessage_outcomeFrame {toChars : ToChars} (hc : WritesNumbers toChars)
    (hcore : SendsPayloads core) (frame : CommandFrame) (payloadJson : Bytes)
    (caller : CallerIdentity) :
    readMessage (outcomeFrame frame.cid
        (plugin.answer core log frame.topic payloadJson caller toChars)) =
      some (replyTo core plugin log frame payloadJson caller) := by
  obtain ⟨ms, hms, -⟩ := objectText_answer hc hcore plugin log frame.topic payloadJson caller
  unfold replyTo
  unfold TransportPluginBase.answer at hms ⊢
  cases hdoor : doorOf frame.topic with
  | sync =>
      rw [hdoor] at hms
      dsimp only
      rw [outcomeFrame_eq (show _ = CommandOutcome.Kind.syncResponse from rfl) rfl]
      exact readMessage_syncResponse hms frame.cid
  | cmd =>
      dsimp only
      have hkind : (ackOutcome frame.topic
          (plugin.asyncAnswer core log frame.topic payloadJson caller)).kind = .ack := by
        unfold ackOutcome
        split <;> rfl
      rw [outcomeFrame_eq hkind rfl]
      exact readMessage_ack (objectText_ackOutcome frame.topic _) frame.cid
  | unknown =>
      dsimp only
      rw [outcomeFrame_eq (show _ = CommandOutcome.Kind.protocolError from rfl) rfl]
      exact readMessage_protocolError (objectText_unknownOutcome frame.topic)

theorem readMessage_refusalFrame (error : FrameError) :
    readMessage (refusalFrame error) = some (.protocolError error.cid error.code) :=
  readMessage_protocolError (objectText_makeProtocolErrorPayload error.code error.message)

theorem readMessage_eventFrame {payload : Json} {payloadJson : Bytes}
    (h : SlotText payload payloadJson) (topic : Bytes) :
    readMessage (eventFrame topic payloadJson) = some (.event topic) :=
  readMessage_event h topic

end

section

variable {float : Number → Option Binary64} {space : UInt8 → Bool} {kit : Toolkit}

/-- The payload of a response is an object that names the command. -/
theorem makeCmdResponsePayload_reads (hkit : kit.Lawful float space) {cmdTopic : Bytes}
    (hutf : validUtf8 cmdTopic = true) (payloadJson : Bytes) :
    ∃ payload js vs, makeCmdResponsePayload kit.parse kit.dump cmdTopic payloadJson = .ok payload ∧
      ObjectText js payload ∧ ofMembers float js = some vs ∧
      lastValue (ascii "cmd") js = some (.str cmdTopic) := by
  have hms := document_membersOf hkit.parses payloadJson
  obtain ⟨u, js, vs, hdump, htext, hvs, hsame⟩ :=
    hkit.writes.objectText (document_responseMembers hms hutf)
  refine ⟨u, js, vs, ?_, htext, hvs, ?_⟩
  · rw [makeCmdResponsePayload_eq, hdump]
  · exact lastValue_of_lookup_string hvs hsame (lookup_responseMembers_cmd cmdTopic _)

/-- Whatever core sent as a result, the client it is for reads a response to its command. -/
theorem readMessage_answerResult {C : Type} (hkit : kit.Lawful float space) {pending : Pending C}
    (hutf : validUtf8 pending.cmdTopic = true) (payloadJson : Bytes) :
    ∃ frame, answerResult kit pending payloadJson = .ok frame ∧
      readMessage frame = some (.response pending.cid pending.cmdTopic) := by
  obtain ⟨payload, js, vs, hmake, htext, -, hcmd⟩ :=
    makeCmdResponsePayload_reads hkit hutf payloadJson
  refine ⟨_, ?_, readMessage_response htext hcmd pending.cid⟩
  rw [answerResult, hmake]
  rfl

/-! ## Answering a text -/

variable {F : Type} (core : Core F) (plugin : TransportPluginBase F) (log : List (CoreCall F))
  {text : Bytes} (caller : CallerIdentity)

theorem answerText_of_fault {fault : Fault}
    (h : parseCommandFrame kit.parse kit.trimmed text = .error fault) :
    answerText kit core plugin log text caller = .error fault := by
  rw [answerText, h]
  rfl

theorem answerText_of_refused {error : FrameError}
    (h : parseCommandFrame kit.parse kit.trimmed text = .ok (.error error)) :
    answerText kit core plugin log text caller = .ok ({ frame := refusalFrame error }, log) := by
  rw [answerText, h]
  rfl

theorem answerText_of_dump_fault {frame : CommandFrame} {fault : Fault}
    (h : parseCommandFrame kit.parse kit.trimmed text = .ok (.ok frame))
    (hdump : kit.dump frame.payload = .error fault) :
    answerText kit core plugin log text caller = .error fault := by
  rw [answerText, h]
  show (kit.dump frame.payload).bind _ = _
  rw [hdump]
  rfl

theorem answerText_of_accepted {frame : CommandFrame} {payloadJson : Bytes}
    (h : parseCommandFrame kit.parse kit.trimmed text = .ok (.ok frame))
    (hdump : kit.dump frame.payload = .ok payloadJson) :
    answerText kit core plugin log text caller =
      .ok (answerFrame kit core plugin log frame payloadJson caller) := by
  rw [answerText, h]
  show (kit.dump frame.payload).bind _ = _
  rw [hdump]
  rfl

/-- A frame makes the calls of its topic's door. -/
theorem answerFrame_calls (frame : CommandFrame) (payloadJson : Bytes) :
    (answerFrame kit core plugin log frame payloadJson caller).2 =
      log ++ callsFor plugin.coreFacade plugin.pluginType frame.topic payloadJson caller := by
  rw [answerFrame, TransportPluginBase.dispatchCommand_run]

variable {core}

theorem readMessage_answerFrame (hkit : kit.Lawful float space) (hcore : SendsPayloads core)
    (frame : CommandFrame) (payloadJson : Bytes) :
    readMessage (answerFrame kit core plugin log frame payloadJson caller).1.frame =
      some (replyTo core plugin log frame payloadJson caller) := by
  rw [answerFrame, TransportPluginBase.dispatchCommand_run]
  exact readMessage_outcomeFrame plugin log hkit.writesNumbers hcore frame payloadJson caller

/-- Core took the command: it came through the `cmd.*` door and core said so. -/
def TakenFor (core : Core F) (plugin : TransportPluginBase F) (log : List (CoreCall F))
    (frame : CommandFrame) (payloadJson : Bytes) (caller : CallerIdentity) : Prop :=
  doorOf frame.topic = .cmd ∧ (plugin.asyncAnswer core log frame.topic payloadJson caller).Taken

instance (core : Core F) (frame : CommandFrame) (payloadJson : Bytes) :
    Decidable (TakenFor core plugin log frame payloadJson caller) := by
  unfold TakenFor
  infer_instance

variable (kit core)

/-- A client is remembered exactly when core took its command, under core's id. -/
theorem answerFrame_cmdId (frame : CommandFrame) (payloadJson : Bytes) :
    (answerFrame kit core plugin log frame payloadJson caller).1.cmdId =
      if TakenFor core plugin log frame payloadJson caller then
        (plugin.asyncAnswer core log frame.topic payloadJson caller).cmdId
      else 0 := by
  rw [answerFrame, TransportPluginBase.dispatchCommand_run]
  dsimp only
  by_cases hdoor : doorOf frame.topic = .cmd
  · rw [TransportPluginBase.answer_of_cmd log hdoor, ackOutcome_cmdId]
    have hiff : TakenFor core plugin log frame payloadJson caller ↔
        (plugin.asyncAnswer core log frame.topic payloadJson caller).Taken :=
      and_iff_right hdoor
    simp only [hiff]
  · rw [TransportPluginBase.answer_cmdId_of_ne_cmd log hdoor, if_neg]
    exact fun htaken => hdoor htaken.1

end

end PhiTransport
