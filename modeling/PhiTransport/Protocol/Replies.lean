import PhiTransport.Protocol.Settlement

/-!
# Every text is answered, in order

What a text is answered with at once, up to whether core takes the command, is
known from the text alone: its first fault, or the door of its topic. On every
connection the immediate answers are those of the texts that came in on it, one
each and in the order of the texts, whatever results, events and other
connections come in between.
-/

namespace PhiTransport

open Octets Rfc8259 Nlohmann Correlation

/-! ## The answer a text calls for -/

/-- A message as an immediate answer; whether an ack accepts is left open. -/
def Message.answer : Message → Option Message
  | .syncResponse cid => some (.syncResponse cid)
  | .ack cid _ cmd => some (.ack cid false cmd)
  | .protocolError cid code => some (.protocolError cid code)
  | .response _ _ => none
  | .event _ => none

/-- The answer a frame calls for, by its door. -/
def answerOfFrame (frame : CommandFrame) : Message :=
  match doorOf frame.topic with
  | .sync => .syncResponse frame.cid
  | .cmd => .ack frame.cid false frame.topic
  | .unknown => .protocolError (some frame.cid) kErrorCodeUnknownTopic

/-- The answer a text calls for; none where reading it is undefined. -/
def expectedAnswer (kit : Toolkit) (text : Bytes) : Option Message :=
  match parseCommandFrame kit.parse kit.trimmed text with
  | .error _ => none
  | .ok (.error error) => some (.protocolError error.cid error.code)
  | .ok (.ok frame) => some (answerOfFrame frame)

section

variable {F C : Type} [DecidableEq C] {kit : Toolkit} {core : Core F}

theorem answer_replyTo (plugin : TransportPluginBase F) (log : List (CoreCall F))
    (frame : CommandFrame) (payloadJson : Bytes) (caller : CallerIdentity) :
    (replyTo core plugin log frame payloadJson caller).answer = some (answerOfFrame frame) := by
  unfold replyTo answerOfFrame
  cases doorOf frame.topic with
  | sync => rfl
  | cmd => rfl
  | unknown => rfl

/-- The immediate answers that went out on a connection, in order. -/
def answersTo (connection : C) (messages : List (C × Message)) : List Message :=
  messages.filterMap fun m => if m.1 = connection then m.2.answer else none

/-- The texts that came in on a connection, in order. -/
def textsOf (connection : C) (inputs : List (Input F C)) : List Bytes :=
  inputs.filterMap fun
    | .receive connection' text _ => if connection' = connection then some text else none
    | _ => none

theorem answersTo_append (connection : C) (messages messages' : List (C × Message)) :
    answersTo connection (messages ++ messages') =
      answersTo connection messages ++ answersTo connection messages' :=
  List.filterMap_append

theorem textsOf_append (connection : C) (inputs inputs' : List (Input F C)) :
    textsOf connection (inputs ++ inputs') =
      textsOf connection inputs ++ textsOf connection inputs' :=
  List.filterMap_append

theorem answersTo_events (connection : C) (connections : List C) (topic : Bytes) :
    answersTo connection (connections.map fun c => (c, Message.event topic)) = [] := by
  simp [answersTo, Message.answer]

variable {s s' : TransportState F C} {input : Input F C}

/-- One step answers the text it is about and no other. -/
theorem Effect.answers (h : Effect kit core s input s') (connection : C) :
    (answersTo connection (told kit core s input)).map some =
      (textsOf connection [input]).map (expectedAnswer kit) := by
  cases h with
  | attached coreFacade => rfl
  | @refused connection' text caller error hparse =>
      rw [told, hparse]
      by_cases hc : connection' = connection
      · simp [answersTo, textsOf, expectedAnswer, Message.answer, hparse, hc]
      · simp [answersTo, textsOf, hc]
  | @answered connection' text caller frame payloadJson hparse hdump =>
      rw [told, hparse]
      dsimp only
      rw [hdump]
      by_cases hc : connection' = connection
      · simp [answersTo, textsOf, expectedAnswer, answer_replyTo, hparse, hc]
      · simp [answersTo, textsOf, hc]
  | @settled cmdId payloadJson frame pending hlookup hframe =>
      rw [told, hlookup]
      simp [answersTo, textsOf, Message.answer]
  | dropped hid =>
      rw [told, AList.lookup_eq_none.mpr hid]
      rfl
  | announced topic payloadJson connections =>
      rw [told, answersTo_events]
      rfl

variable {float : Number → Option Binary64} {space : UInt8 → Bool} {pluginType : Bytes}
  {inputs : List (Input F C)}

/-- **Every text is answered, in order.** On each connection the immediate
answers a client reads are those its texts call for, one each, in the order of
the texts, whatever is interleaved. -/
theorem answered_in_order (hkit : kit.Lawful float space) (hcore : SendsPayloads core)
    (hinputs : ∀ input ∈ inputs, input.WellFormed)
    (h : TransportState.run kit core pluginType inputs = .ok s) (connection : C) :
    (answersTo connection (messagesOf s.sent)).map some =
      (textsOf connection inputs).map (expectedAnswer kit) := by
  refine run_induction_of hkit (motive := fun inputs s =>
    (answersTo connection (messagesOf s.sent)).map some =
      (textsOf connection inputs).map (expectedAnswer kit)) rfl ?_ hinputs h
  intro inputs s input s' hinput hs hanswers heffect
  rw [heffect.messages hkit hcore hinput hs, answersTo_append, List.map_append, hanswers,
    heffect.answers, textsOf_append, List.map_append]

end

/-- Two clients use one `cid`; each is acked once, on its own connection. -/
theorem answered_in_order_sampleInputs :
    ∃ s, TransportState.run sampleKit countingCore (ascii "ws") (sampleInputs 7) = .ok s ∧
      (answersTo 1 (messagesOf s.sent)).map some = [some (.ack 7 false (ascii "cmd.x"))] := by
  obtain ⟨s, hrun⟩ := exists_run_sampleInputs countingCore
  refine ⟨s, hrun, (answered_in_order lawful_sampleKit sendsPayloads_countingCore
    (wellFormed_sampleInputs 7) hrun 1).trans ?_⟩
  have htexts : textsOf 1 (sampleInputs 7) = [sampleFrame 7] := rfl
  have hdoor : doorOf (ascii "cmd.x") = .cmd := by decide
  rw [htexts, List.map_singleton, expectedAnswer, parseCommandFrame_sampleKit]
  dsimp only
  rw [answerOfFrame, hdoor]

end PhiTransport
