import PhiTransport.Protocol.Runs
import PhiTransport.Frames.Encoding

/-!
# What goes out on the wire

A text frame that is not UTF-8 ends a connection, and clients may send any
bytes they like. None of them come back: what is echoed has been through the
JSON library, and everything else is core's or the protocol's own. So as long as
core sends UTF-8, a transport sends nothing but UTF-8, and every frame is one of
the protocol's messages.
-/

namespace PhiTransport

open Octets Rfc8259 Nlohmann

section

variable {F C : Type}

/-- Core's own texts are UTF-8, in all that is told of its answers. -/
def SendsUtf8 (core : Core F) : Prop :=
  ∀ log,
    ((core.syncResult log).accepted = true → validUtf8 (core.syncResult log).payloadJson = true) ∧
    (∀ e, (core.syncResult log).error = some e → e.utf8 = true) ∧
    (∀ e, (core.asyncResult log).error = some e → e.utf8 = true)

/-- Core's events are UTF-8; its results may be any bytes. -/
def Input.Utf8 : Input F C → Prop
  | .onCoreEvent topic payloadJson _ => validUtf8 topic = true ∧ validUtf8 payloadJson = true
  | _ => True

/-- A frame that a client can take and read. -/
def WireOk (frame : Bytes) : Prop := validUtf8 frame = true ∧ (readMessage frame).isSome = true

/-! ## Answers -/

theorem utf8_rejectedSync {e : Error} (h : (rejectedSync fun _ error => error) = some e) :
    e.utf8 = true := by
  cases h
  have hmessage : validUtf8 (ascii "Core facade is not available") = true :=
    validUtf8_of_ascii (by decide)
  have hctx : validUtf8 (ascii "transport plugin") = true := validUtf8_of_ascii (by decide)
  rw [Error.utf8, hmessage, hctx]
  rfl

variable {core : Core F} {plugin : TransportPluginBase F} {log : List (CoreCall F)}
  {topic payloadJson : Bytes} {caller : CallerIdentity} {toChars : ToChars}

theorem utf8_syncAnswer (hutf : SendsUtf8 core) {e : Error}
    (h : (plugin.syncAnswer core log topic payloadJson caller).error = some e) : e.utf8 = true := by
  unfold TransportPluginBase.syncAnswer at h
  cases hfacade : plugin.coreFacade with
  | none =>
      rw [hfacade] at h
      exact utf8_rejectedSync h
  | some facade =>
      rw [hfacade] at h
      exact (hutf _).2.1 e h

theorem utf8_asyncAnswer (hutf : SendsUtf8 core) {e : Error}
    (h : (plugin.asyncAnswer core log topic payloadJson caller).error = some e) :
    e.utf8 = true := by
  unfold TransportPluginBase.asyncAnswer at h
  cases hfacade : plugin.coreFacade with
  | none =>
      rw [hfacade] at h
      exact utf8_rejectedSync h
  | some facade =>
      rw [hfacade] at h
      exact (hutf _).2.2 e h

theorem utf8_syncAnswer_payload (hutf : SendsUtf8 core)
    (h : (plugin.syncAnswer core log topic payloadJson caller).accepted = true) :
    validUtf8 (plugin.syncAnswer core log topic payloadJson caller).payloadJson = true := by
  unfold TransportPluginBase.syncAnswer at h ⊢
  cases hfacade : plugin.coreFacade with
  | none =>
      rw [hfacade] at h
      cases h
  | some facade =>
      rw [hfacade] at h
      exact (hutf _).1 h

/-- Every answer is UTF-8 when the topic and core's own texts are. -/
theorem validUtf8_answer (hc : WritesNumbers toChars) (hcore : SendsPayloads core)
    (hutf : SendsUtf8 core) (htopic : validUtf8 topic = true) :
    validUtf8 (plugin.answer core log topic payloadJson caller toChars).payloadJson = true := by
  have hsync : validUtf8 (ascii "sync") = true := validUtf8_of_ascii (by decide)
  unfold TransportPluginBase.answer
  cases doorOf topic with
  | sync =>
      show validUtf8 (makeSyncResponsePayload _ topic) = true
      unfold makeSyncResponsePayload
      cases hacc : (plugin.syncAnswer core log topic payloadJson caller).accepted with
      | true =>
          obtain ⟨own, hown⟩ := hcore.syncAnswer hacc
          rw [if_pos rfl, validUtf8_withJsonField hown, hsync, validUtf8_jsonQuoted, htopic,
            utf8_syncAnswer_payload hutf hacc]
          rfl
      | false =>
          obtain ⟨params, hparams, -⟩ := text_scalarListToJson hc
            ((plugin.syncAnswer core log topic payloadJson caller).error.getD {}).params
          have hpayload := objectText_makeSyncRejectionPayload hparams (ascii "Sync call rejected")
          rw [if_neg Bool.false_ne_true, validUtf8_withJsonField (Or.inl hpayload), hsync,
            validUtf8_jsonQuoted, htopic, validUtf8_makeSyncRejectionPayload hc
              (fun e => utf8_syncAnswer hutf) (validUtf8_of_ascii (by decide))]
          rfl
  | cmd =>
      show validUtf8 (ackOutcome topic _).payloadJson = true
      unfold ackOutcome
      split_ifs with htaken
      · rw [validUtf8_makeAckPayload, htopic]
        rfl
      · rw [validUtf8_makeAckPayload, htopic, validUtf8_rejectionMessage
          (fun e => utf8_asyncAnswer hutf) (validUtf8_of_ascii (by decide))]
        rfl
  | unknown =>
      show validUtf8 (makeUnknownTopicPayload topic) = true
      rw [validUtf8_makeUnknownTopicPayload]
      exact htopic

/-! ## Frames -/

variable {float : Number → Option Binary64} {space : UInt8 → Bool} {kit : Toolkit}

/-- A frame is refused in words of the protocol's own. -/
theorem utf8_of_refused {text : Bytes} {error : FrameError}
    (h : parseCommandFrame kit.parse kit.trimmed text = .ok (.error error)) :
    validUtf8 error.code = true ∧ validUtf8 error.message = true := by
  rcases (kit.parse text).isObject_cases with hobj | ⟨ms, hms⟩
  · rw [parseCommandFrame_of_not_object hobj] at h
    cases h
    exact ⟨validUtf8_of_ascii (by decide), validUtf8_of_ascii (by decide)⟩
  · rw [parseCommandFrame_object hms] at h
    cases hread : memberCid ms with
    | error fault =>
        rw [hread] at h
        cases h
    | ok read =>
        rw [hread] at h
        have hcheck : checkFrame kit.trimmed ms read = .error error := Except.ok.inj h
        unfold checkFrame at hcheck
        cases read with
        | none =>
            cases hcheck
            exact ⟨validUtf8_of_ascii (by decide), validUtf8_of_ascii (by decide)⟩
        | some cid =>
            dsimp only at hcheck
            split_ifs at hcheck
            · cases hcheck
              exact ⟨validUtf8_of_ascii (show kErrorCodeInvalidType.all (· < 0x80) = true by decide),
                validUtf8_of_ascii (show kMessageInvalidType.all (· < 0x80) = true by decide)⟩
            · cases hcheck
              exact ⟨validUtf8_of_ascii (show kErrorCodeMissingTopic.all (· < 0x80) = true by decide),
                validUtf8_of_ascii (show kMessageMissingTopic.all (· < 0x80) = true by decide)⟩

theorem wireOk_refusalFrame {text : Bytes} {error : FrameError}
    (h : parseCommandFrame kit.parse kit.trimmed text = .ok (.error error)) :
    WireOk (refusalFrame error) := by
  obtain ⟨hcode, hmessage⟩ := utf8_of_refused h
  have htype : validUtf8 kEnvelopeTypeError = true := validUtf8_of_ascii (by decide)
  have htopic : validUtf8 kTopicProtocolError = true := validUtf8_of_ascii (by decide)
  refine ⟨?_, ?_⟩
  · rw [refusalFrame, validUtf8_makeEnvelope, validUtf8_makeProtocolErrorPayload, htype, htopic,
      hcode, hmessage]
    rfl
  · rw [readMessage_refusalFrame]
    rfl

theorem utf8_envelopeFor (kind : CommandOutcome.Kind) :
    validUtf8 (envelopeFor kind).1 = true ∧ validUtf8 (envelopeFor kind).2 = true := by
  cases kind with
  | syncResponse => exact ⟨validUtf8_of_ascii (by decide), validUtf8_of_ascii (by decide)⟩
  | ack => exact ⟨validUtf8_of_ascii (by decide), validUtf8_of_ascii (by decide)⟩
  | protocolError => exact ⟨validUtf8_of_ascii (by decide), validUtf8_of_ascii (by decide)⟩

theorem wireOk_answerFrame (hkit : kit.Lawful float space) (hcore : SendsPayloads core)
    (hutf : SendsUtf8 core) {frame : CommandFrame} (h : Accepted float frame) :
    WireOk (answerFrame kit core plugin log frame payloadJson caller).1.frame := by
  refine ⟨?_, ?_⟩
  · rw [answerFrame, TransportPluginBase.dispatchCommand_run]
    show validUtf8 (outcomeFrame frame.cid _) = true
    unfold outcomeFrame
    rw [validUtf8_makeEnvelope, (utf8_envelopeFor _).1, (utf8_envelopeFor _).2,
      validUtf8_answer hkit.writesNumbers hcore hutf h.topic_utf8]
    rfl
  · rw [readMessage_answerFrame plugin log caller hkit hcore]
    rfl

/-- Whatever bytes core sent as a result, the response is made of what the
library could read of them. -/
theorem wireOk_answerResult (hkit : kit.Lawful float space) {pending : Pending C}
    (hpending : validUtf8 pending.cmdTopic = true) {frame : Bytes}
    (h : answerResult kit pending payloadJson = .ok frame) : WireOk frame := by
  obtain ⟨payload, js, vs, hmake, htext, hvs, hcmd⟩ :=
    makeCmdResponsePayload_reads hkit hpending payloadJson
  have hjson : ofJson float (.obj js) = some (.object (build vs)) := by
    rw [ofJson, hvs]
    rfl
  have htype : validUtf8 kEnvelopeTypeResponse = true := validUtf8_of_ascii (by decide)
  have htopic : validUtf8 kTopicCmdResponse = true := validUtf8_of_ascii (by decide)
  rw [answerResult, hmake] at h
  cases h
  refine ⟨?_, ?_⟩
  · rw [validUtf8_makeEnvelope, htype, htopic, validUtf8_of_text hjson htext]
    rfl
  · rw [readMessage_response htext hcmd]
    rfl

theorem wireOk_eventFrame {payload : Json} (h : SlotText payload payloadJson)
    (htopic : validUtf8 topic = true) (hpayload : validUtf8 payloadJson = true) :
    WireOk (eventFrame topic payloadJson) := by
  have htype : validUtf8 kEnvelopeTypeEvent = true := validUtf8_of_ascii (by decide)
  refine ⟨?_, ?_⟩
  · rw [eventFrame, validUtf8_makeEnvelope, htype, htopic, hpayload]
    rfl
  · rw [readMessage_eventFrame h]
    rfl

/-! ## Runs -/

variable {s s' : TransportState F C} {input : Input F C}

theorem Effect.wireOk (hkit : kit.Lawful float space) (hcore : SendsPayloads core)
    (hutf : SendsUtf8 core) (hinput : input.WellFormed ∧ input.Utf8)
    (h : Effect kit core s input s') (htopics : TopicsUtf8 s) (hs : ∀ m ∈ s.sent, WireOk m.2) :
    ∀ m ∈ s'.sent, WireOk m.2 := by
  have hone : ∀ {connection : C} {frame : Bytes}, WireOk frame →
      ∀ m ∈ s.sent ++ [(connection, frame)], WireOk m.2 := by
    intro connection frame hframe m hm
    rcases List.mem_append.mp hm with hm | hm
    · exact hs m hm
    · rw [List.mem_singleton.mp hm]
      exact hframe
  cases h with
  | attached coreFacade => exact hs
  | refused hparse => exact hone (wireOk_refusalFrame hparse)
  | answered hparse hdump =>
      exact hone (wireOk_answerFrame hkit hcore hutf (accepted_of_parse hkit hparse))
  | settled hlookup hframe => exact hone (wireOk_answerResult hkit (htopics _ _ hlookup) hframe)
  | dropped hid => exact hs
  | announced topic payloadJson connections =>
      obtain ⟨⟨payload, hpayload⟩, htopic, hutf8⟩ := hinput
      intro m hm
      rcases List.mem_append.mp hm with hm | hm
      · exact hs m hm
      · obtain ⟨connection, -, rfl⟩ := List.mem_map.mp hm
        exact wireOk_eventFrame hpayload htopic hutf8

/-- **The wire stays clean.** Clients may send any bytes and core may answer a
command with any bytes: every frame that goes out is UTF-8 JSON object text and
one of the protocol's messages, as long as core's payloads, errors and events are
text. -/
theorem wire_stays_clean (hkit : kit.Lawful float space) (hcore : SendsPayloads core)
    (hutf : SendsUtf8 core) {pluginType : Bytes} {inputs : List (Input F C)}
    (hinputs : ∀ input ∈ inputs, input.WellFormed ∧ input.Utf8)
    (h : TransportState.run kit core pluginType inputs = .ok s) :
    ∀ m ∈ s.sent, validUtf8 m.2 = true ∧ (readMessage m.2).isSome = true ∧
      ∃ ms, ObjectText ms m.2 := by
  have hall : ∀ m ∈ s.sent, WireOk m.2 := by
    refine run_induction_of hkit (motive := fun _ s => ∀ m ∈ s.sent, WireOk m.2) (by simp) ?_
      hinputs h
    intro inputs s input s' hinput htopics hs heffect
    exact heffect.wireOk hkit hcore hutf hinput htopics hs
  intro m hm
  obtain ⟨hutf8, hmessage⟩ := hall m hm
  obtain ⟨message, hread⟩ := Option.isSome_iff_exists.mp hmessage
  exact ⟨hutf8, hmessage, objectText_of_readMessage hread⟩

end

theorem sendsUtf8_sampleCore : SendsUtf8 sampleCore := by
  intro log
  refine ⟨fun _ => ?_, nofun, nofun⟩
  have hascii : (jsonObject [(ascii "value", decimal 21)]).all (· < 0x80) = true := by decide
  exact validUtf8_of_ascii hascii

theorem wire_stays_clean_sampleInputs :
    ∃ s, TransportState.run sampleKit sampleCore (ascii "ws") (sampleInputs 7) = .ok s ∧
      ∀ m ∈ s.sent, validUtf8 m.2 = true ∧ (readMessage m.2).isSome = true ∧
        ∃ ms, ObjectText ms m.2 := by
  have hinputs : ∀ input ∈ sampleInputs 7, input.WellFormed ∧ input.Utf8 := by
    intro input hmem
    refine ⟨wellFormed_sampleInputs 7 input hmem, ?_⟩
    simp only [sampleInputs, List.mem_cons, List.not_mem_nil, or_false] at hmem
    rcases hmem with rfl | rfl | rfl | rfl | rfl
    · trivial
    · trivial
    · exact ⟨validUtf8_of_ascii (by decide), validUtf8_of_ascii (by decide)⟩
    · trivial
    · trivial
  obtain ⟨s, hrun⟩ := exists_run_sampleInputs sampleCore
  exact ⟨s, hrun, wire_stays_clean lawful_sampleKit sendsPayloads_sampleCore sendsUtf8_sampleCore
    hinputs hrun⟩

end PhiTransport
