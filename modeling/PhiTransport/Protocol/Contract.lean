import PhiTransport.Protocol.Runs

/-!
# The contract of the core facade

What core may count on when it is called. Clients send any bytes they like; what
reaches a facade is a UTF-8 topic behind the door it names, object text that
says what the client's payload said, a positive timeout and the plugin's own
type. The calls are those the router of the dispatch makes for the frames that
passed the checks, so nothing else reaches core and nothing is left out.
-/

namespace PhiTransport

open Octets Rfc8259 Nlohmann

section

variable {F C : Type}

/-- `payloadJson` is UTF-8 object text. -/
def PayloadOk (payloadJson : Bytes) : Prop :=
  validUtf8 payloadJson = true ∧ ∃ ms, ObjectText ms payloadJson

/-- A call that keeps the contract of `CoreFacade`. -/
def WithinContract (pluginType : Bytes) : CoreCall F → Prop
  | .invokeSync _ topic payloadJson timeoutMs _ =>
      doorOf topic = .sync ∧ validUtf8 topic = true ∧ PayloadOk payloadJson ∧ 0 < timeoutMs
  | .invokeAsync _ topic payloadJson pluginType' _ =>
      doorOf topic = .cmd ∧ validUtf8 topic = true ∧ PayloadOk payloadJson ∧
        pluginType' = pluginType

theorem withinContract_callsFor {attached : Option F} {pluginType topic payloadJson : Bytes}
    {caller : CallerIdentity} (htopic : validUtf8 topic = true) (hpayload : PayloadOk payloadJson) :
    ∀ call ∈ callsFor attached pluginType topic payloadJson caller,
      WithinContract pluginType call := by
  intro call hcall
  unfold callsFor at hcall
  cases attached with
  | none => cases hcall
  | some facade =>
      cases hdoor : doorOf topic with
      | sync =>
          rw [hdoor] at hcall
          rw [List.mem_singleton.mp hcall]
          exact ⟨hdoor, htopic, hpayload, by decide⟩
      | cmd =>
          rw [hdoor] at hcall
          rw [List.mem_singleton.mp hcall]
          exact ⟨hdoor, htopic, hpayload, rfl⟩
      | unknown =>
          rw [hdoor] at hcall
          cases hcall

/-- What an input asks of the plugin: to attach, or to dispatch a frame that
passed the checks. -/
def stepOf (kit : Toolkit) : Input F C → Option (Step F)
  | .attachCoreFacade coreFacade => some (.attachCoreFacade coreFacade)
  | .receive _ text caller =>
      match parseCommandFrame kit.parse kit.trimmed text with
      | .ok (.ok frame) =>
          match kit.dump frame.payload with
          | .ok payloadJson => some (.dispatchCommand frame.topic payloadJson caller)
          | .error _ => none
      | _ => none
  | .onCoreAsyncResult _ _ => none
  | .onCoreEvent _ _ _ => none

/-- The router of the dispatch, seen on a transport. -/
def TransportState.toRouter (s : TransportState F C) : Router F := ⟨s.plugin.coreFacade, s.calls⟩

variable {kit : Toolkit} {core : Core F} {s s' : TransportState F C} {input : Input F C}

theorem Router.run_filterMap_concat {α : Type} (pluginType : Bytes) (f : α → Option (Step F))
    (inputs : List α) (input : α) :
    Router.run pluginType ((inputs ++ [input]).filterMap f) =
      (match f input with
        | none => Router.run pluginType (inputs.filterMap f)
        | some e => (Router.run pluginType (inputs.filterMap f)).step pluginType e) := by
  unfold Router.run
  rw [List.filterMap_append, List.foldl_append, List.filterMap_cons, List.filterMap_nil]
  cases f input with
  | none => rfl
  | some e => rfl

theorem Effect.pluginType (h : Effect kit core s input s') :
    s'.plugin.pluginType = s.plugin.pluginType := by
  cases h with
  | attached coreFacade => rfl
  | refused hparse => rfl
  | answered hparse hdump => rfl
  | settled hlookup hframe => rfl
  | dropped hid => rfl
  | announced topic payloadJson connections => rfl

/-- A step of the transport is the step of the router it asks for, or none. -/
theorem Effect.toRouter (h : Effect kit core s input s') :
    s'.toRouter = (match stepOf kit input with
      | none => s.toRouter
      | some e => s.toRouter.step s.plugin.pluginType e) := by
  cases h with
  | attached coreFacade => rfl
  | refused hparse =>
      rw [stepOf, hparse]
      rfl
  | answered hparse hdump =>
      rw [stepOf, hparse]
      dsimp only
      rw [hdump]
      rfl
  | settled hlookup hframe => rfl
  | dropped hid => rfl
  | announced topic payloadJson connections => rfl

variable {float : Number → Option Binary64} {space : UInt8 → Bool}

theorem Accepted.payloadOk (hkit : kit.Lawful float space) {frame : CommandFrame}
    (h : Accepted float frame) {payloadJson : Bytes}
    (hdump : kit.dump frame.payload = .ok payloadJson) : PayloadOk payloadJson := by
  obtain ⟨payloadJson', js, vs, ms, hdump', htext, hvs, -, -⟩ := h.dump_payload hkit
  rw [hdump] at hdump'
  cases hdump'
  have hjson : ofJson float (.obj js) = some (.object (build vs)) := by
    rw [ofJson, hvs]
    rfl
  exact ⟨validUtf8_of_text hjson htext, js, htext⟩

theorem Effect.withinContract (hkit : kit.Lawful float space) (h : Effect kit core s input s')
    (hs : ∀ call ∈ s.calls, WithinContract s.plugin.pluginType call) :
    ∀ call ∈ s'.calls, WithinContract s.plugin.pluginType call := by
  cases h with
  | attached coreFacade => exact hs
  | refused hparse => exact hs
  | @answered connection text caller frame payloadJson hparse hdump =>
      have haccepted := accepted_of_parse hkit hparse
      intro call hcall
      rcases List.mem_append.mp hcall with hcall | hcall
      · exact hs call hcall
      · exact withinContract_callsFor haccepted.topic_utf8 (haccepted.payloadOk hkit hdump)
          call hcall
  | settled hlookup hframe => exact hs
  | dropped hid => exact hs
  | announced topic payloadJson connections => exact hs

variable {pluginType : Bytes} {inputs : List (Input F C)}

/-- The text that is handed on reads as the payload the client sent. -/
theorem stepOf_receive (hkit : kit.Lawful float space) {connection : C} {text topic payloadJson :
    Bytes} {caller caller' : CallerIdentity}
    (h : stepOf (F := F) kit (.receive connection text caller) =
      some (.dispatchCommand topic payloadJson caller')) :
    caller' = caller ∧ ∃ cid payload,
      parseCommandFrame kit.parse kit.trimmed text = .ok (.ok ⟨cid, topic, payload⟩) ∧
      (kit.parse payloadJson).Same payload := by
  rw [stepOf] at h
  cases hparse : parseCommandFrame kit.parse kit.trimmed text with
  | error fault =>
      rw [hparse] at h
      cases h
  | ok read =>
      rw [hparse] at h
      cases read with
      | error error => cases h
      | ok frame =>
          dsimp only at h
          obtain ⟨written, js, vs, ms, hdump, htext, hvs, -, hsame⟩ :=
            (accepted_of_parse hkit hparse).dump_payload hkit
          rw [hdump] at h
          cases h
          refine ⟨rfl, frame.cid, frame.payload, rfl, ?_⟩
          have hjson : ofJson float (.obj js) = some (.object (build vs)) := by
            rw [ofJson, hvs]
            rfl
          rw [hkit.reads payloadJson _ _ htext hjson]
          exact hsame

/-- **Core is called within its contract**, whatever bytes the clients send: for
exactly the frames that passed the checks, in their order, each on behalf of the
caller it came from and with text that reads as its payload. -/
theorem core_called_within_contract (hkit : kit.Lawful float space)
    (h : TransportState.run kit core pluginType inputs = .ok s) :
    s.toRouter = Router.run pluginType (inputs.filterMap (stepOf kit)) ∧
      (∀ call ∈ s.calls, WithinContract pluginType call) ∧
      ∀ connection text caller topic payloadJson caller',
        stepOf (F := F) kit (.receive (C := C) connection text caller) =
          some (.dispatchCommand topic payloadJson caller') →
        caller' = caller ∧ ∃ cid payload,
          parseCommandFrame kit.parse kit.trimmed text = .ok (.ok ⟨cid, topic, payload⟩) ∧
          (kit.parse payloadJson).Same payload := by
  have hrun := run_induction (motive := fun inputs s => s.plugin.pluginType = pluginType ∧
    s.toRouter = Router.run pluginType (inputs.filterMap (stepOf kit)) ∧
      ∀ call ∈ s.calls, WithinContract pluginType call) ⟨rfl, rfl, by simp⟩ ?_ h
  · exact ⟨hrun.2.1, hrun.2.2, fun _ _ _ _ _ _ => stepOf_receive hkit⟩
  · intro inputs s input s' ⟨htype, hrouter, hcalls⟩ heffect
    refine ⟨heffect.pluginType.trans htype, ?_, ?_⟩
    · rw [Router.run_filterMap_concat, heffect.toRouter, hrouter, htype]
    · subst htype
      exact heffect.withinContract hkit hcalls

end

/-- Both commands of the sample run reach core, and nothing else does. -/
theorem core_called_sampleInputs :
    ∃ s, TransportState.run sampleKit sampleCore (ascii "ws") (sampleInputs 7) = .ok s ∧
      s.toRouter = Router.run (ascii "ws") ((sampleInputs 7).filterMap (stepOf sampleKit)) ∧
      ∀ call ∈ s.calls, WithinContract (ascii "ws") call := by
  obtain ⟨s, hrun⟩ := exists_run_sampleInputs sampleCore
  obtain ⟨hrouter, hcalls, -⟩ := core_called_within_contract lawful_sampleKit hrun
  exact ⟨s, hrun, hrouter, hcalls⟩

end PhiTransport
