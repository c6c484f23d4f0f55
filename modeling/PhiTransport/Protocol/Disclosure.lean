import PhiTransport.Protocol.Runs
import PhiTransport.Dispatch.Rejections

/-!
# What the wire discloses

Two runs side by side. Of a rejection a client learns the reason it is told, of
an acceptance the payload or the ack, and of who called nothing at all: what a
transport sends is a function of these, over whole runs. Core's diagnostics and
the sessions' tokens are in none of them.
-/

namespace PhiTransport

open Octets Nlohmann

/-! ## Two runs in step -/

section

variable {α β : Type}

/-- Two computations that fail alike or return related values. -/
inductive Alike (R : α → α → Prop) : Except Fault α → Except Fault α → Prop where
  | error (fault : Fault) : Alike R (.error fault) (.error fault)
  | ok {a a' : α} (h : R a a') : Alike R (.ok a) (.ok a')

theorem Alike.bind {R : α → α → Prop} {S : β → β → Prop} {x x' : Except Fault α}
    {f f' : α → Except Fault β} (hx : Alike R x x') (hf : ∀ a a', R a a' → Alike S (f a) (f' a')) :
    Alike S (x.bind f) (x'.bind f') := by
  cases hx with
  | error fault => exact .error fault
  | ok h => exact hf _ _ h

/-- **Two runs stay in step** when every pair of steps keeps them there. -/
theorem Alike.foldlM {R : β → β → Prop} {S : α → α → Prop} {f f' : β → α → Except Fault β}
    (hstep : ∀ b b' a a', R b b' → S a a' → Alike R (f b a) (f' b' a'))
    {as as' : List α} (has : List.Forall₂ S as as') {b b' : β} (hb : R b b') :
    Alike R (as.foldlM f b) (as'.foldlM f' b') := by
  induction has generalizing b b' with
  | nil => exact .ok hb
  | cons ha _ ih =>
      rw [List.foldlM_cons, List.foldlM_cons]
      exact (hstep _ _ _ _ hb ha).bind fun _ _ h => ih h

end

/-! ## What is told -/

/-- Two results of which a client is told the same. -/
def SyncResult.Alike (result result' : SyncResult) : Prop :=
  result.accepted = result'.accepted ∧
    (result.accepted = true → result.payloadJson = result'.payloadJson) ∧
    (result.accepted = false → toldOf result.error = toldOf result'.error)

def AsyncResult.Alike (submitted submitted' : AsyncResult) : Prop :=
  (submitted.Taken ↔ submitted'.Taken) ∧
    (submitted.Taken → submitted.cmdId = submitted'.cmdId) ∧
    (¬submitted.Taken → (submitted.error.getD {}).message = (submitted'.error.getD {}).message)

theorem syncOutcome_congr (toChars : ToChars) (topic : Bytes) {result result' : SyncResult}
    (h : result.Alike result') :
    syncOutcome toChars topic result = syncOutcome toChars topic result' := by
  obtain ⟨haccepted, hpayload, htold⟩ := h
  unfold syncOutcome
  cases hacc : result.accepted with
  | true => rw [← haccepted, hacc, if_pos rfl, if_pos rfl, hpayload hacc]
  | false =>
      rw [← haccepted, hacc, if_neg Bool.false_ne_true, if_neg Bool.false_ne_true,
        makeSyncRejectionPayload_congr toChars (htold hacc)]

theorem ackOutcome_congr (topic : Bytes) {submitted submitted' : AsyncResult}
    (h : submitted.Alike submitted') : ackOutcome topic submitted = ackOutcome topic submitted' := by
  obtain ⟨htaken, hcmdId, hmessage⟩ := h
  unfold ackOutcome
  by_cases ht : submitted.Taken
  · rw [if_pos ht, if_pos (htaken.mp ht), hcmdId ht]
  · rw [if_neg ht, if_neg (mt htaken.mpr ht), rejectionMessage_eq, rejectionMessage_eq, hmessage ht]

/-! ## Callers that look the same -/

section

variable {F C : Type} (view : CallerIdentity → CallerIdentity)

/-- A call as it looks to who sees only `view` of the caller. -/
def CoreCall.viewed : CoreCall F → CoreCall F
  | .invokeSync facade topic payloadJson timeoutMs caller =>
      .invokeSync facade topic payloadJson timeoutMs (view caller)
  | .invokeAsync facade topic payloadJson pluginType caller =>
      .invokeAsync facade topic payloadJson pluginType (view caller)

def Input.viewed : Input F C → Input F C
  | .receive connection text caller => .receive connection text (view caller)
  | input => input

/-- Two cores that tell clients the same, as long as their callers look the same. -/
def Core.Alike (core core' : Core F) : Prop :=
  ∀ log log', log.map (CoreCall.viewed view) = log'.map (CoreCall.viewed view) →
    (core.syncResult log).Alike (core'.syncResult log') ∧
      (core.asyncResult log).Alike (core'.asyncResult log')

/-- Two transports that have sent the same and owe the same. -/
structure Indistinguishable (s s' : TransportState F C) : Prop where
  plugin : s.plugin = s'.plugin
  calls : s.calls.map (CoreCall.viewed view) = s'.calls.map (CoreCall.viewed view)
  pending : s.pending = s'.pending
  sent : s.sent = s'.sent

variable {view} {kit : Toolkit} {core core' : Core F} {plugin : TransportPluginBase F}
  {log log' : List (CoreCall F)} {topic payloadJson : Bytes} {caller caller' : CallerIdentity}

theorem SyncResult.alike_refl (result : SyncResult) : result.Alike result :=
  ⟨rfl, fun _ => rfl, fun _ => rfl⟩

theorem AsyncResult.alike_refl (submitted : AsyncResult) : submitted.Alike submitted :=
  ⟨Iff.rfl, fun _ => rfl, fun _ => rfl⟩

theorem map_viewed_concat {call call' : CoreCall F}
    (hlog : log.map (CoreCall.viewed view) = log'.map (CoreCall.viewed view))
    (hcall : call.viewed view = call'.viewed view) :
    (log ++ [call]).map (CoreCall.viewed view) = (log' ++ [call']).map (CoreCall.viewed view) := by
  rw [List.map_append, List.map_append, hlog, List.map_singleton, List.map_singleton, hcall]

/-- A command is answered by what its callers look like. -/
theorem answer_congr (hcore : Core.Alike view core core')
    (hlog : log.map (CoreCall.viewed view) = log'.map (CoreCall.viewed view))
    (hcaller : view caller = view caller') (toChars : ToChars) :
    plugin.answer core log topic payloadJson caller toChars =
      plugin.answer core' log' topic payloadJson caller' toChars := by
  unfold TransportPluginBase.answer TransportPluginBase.syncAnswer TransportPluginBase.asyncAnswer
  cases doorOf topic with
  | sync =>
      refine syncOutcome_congr toChars topic ?_
      cases plugin.coreFacade with
      | none => exact SyncResult.alike_refl _
      | some facade =>
          refine (hcore _ _ (map_viewed_concat hlog ?_)).1
          rw [CoreCall.viewed, CoreCall.viewed, hcaller]
  | cmd =>
      refine ackOutcome_congr topic ?_
      cases plugin.coreFacade with
      | none => exact AsyncResult.alike_refl _
      | some facade =>
          refine (hcore _ _ (map_viewed_concat hlog ?_)).2
          rw [CoreCall.viewed, CoreCall.viewed, hcaller]
  | unknown => rfl

theorem callsFor_viewed (hcaller : view caller = view caller') (attached : Option F)
    (pluginType : Bytes) :
    (callsFor attached pluginType topic payloadJson caller).map (CoreCall.viewed view) =
      (callsFor attached pluginType topic payloadJson caller').map (CoreCall.viewed view) := by
  unfold callsFor
  cases attached with
  | none => rfl
  | some facade =>
      cases doorOf topic with
      | sync => simp only [List.map_singleton, CoreCall.viewed, hcaller]
      | cmd => simp only [List.map_singleton, CoreCall.viewed, hcaller]
      | unknown => rfl

/-- One text is answered alike, and asks the same of core. -/
theorem answerText_alike (hcore : Core.Alike view core core')
    (hlog : log.map (CoreCall.viewed view) = log'.map (CoreCall.viewed view))
    (hcaller : view caller = view caller') (text : Bytes) :
    Alike (fun r r' => r.1 = r'.1 ∧
        r.2.map (CoreCall.viewed view) = r'.2.map (CoreCall.viewed view))
      (answerText kit core plugin log text caller)
      (answerText kit core' plugin log' text caller') := by
  cases hparse : parseCommandFrame kit.parse kit.trimmed text with
  | error fault =>
      rw [answerText_of_fault core plugin log caller hparse,
        answerText_of_fault core' plugin log' caller' hparse]
      exact .error fault
  | ok read =>
      cases read with
      | error error =>
          rw [answerText_of_refused core plugin log caller hparse,
            answerText_of_refused core' plugin log' caller' hparse]
          exact .ok ⟨rfl, hlog⟩
      | ok frame =>
          cases hdump : kit.dump frame.payload with
          | error fault =>
              rw [answerText_of_dump_fault core plugin log caller hparse hdump,
                answerText_of_dump_fault core' plugin log' caller' hparse hdump]
              exact .error fault
          | ok payloadJson =>
              rw [answerText_of_accepted core plugin log caller hparse hdump,
                answerText_of_accepted core' plugin log' caller' hparse hdump]
              refine .ok ⟨?_, ?_⟩
              · rw [answerFrame, answerFrame, TransportPluginBase.dispatchCommand_run,
                  TransportPluginBase.dispatchCommand_run, answer_congr hcore hlog hcaller]
              · rw [answerFrame_calls, answerFrame_calls, List.map_append, List.map_append, hlog,
                  callsFor_viewed hcaller]

/-- One step keeps two transports indistinguishable. -/
theorem Indistinguishable.step (hcore : Core.Alike view core core') {s s' : TransportState F C}
    (h : Indistinguishable view s s') {input input' : Input F C}
    (hinput : input.viewed view = input'.viewed view) :
    Alike (Indistinguishable view) (s.step kit core input) (s'.step kit core' input') := by
  obtain ⟨plugin, calls, pending, sent⟩ := s
  obtain ⟨plugin', calls', pending', sent'⟩ := s'
  obtain ⟨rfl, hcalls, rfl, rfl⟩ := h
  cases input with
  | attachCoreFacade coreFacade =>
      cases input' with
      | attachCoreFacade coreFacade' =>
          cases hinput
          exact .ok ⟨rfl, hcalls, rfl, rfl⟩
      | _ => cases hinput
  | receive connection text caller =>
      cases input' with
      | receive connection' text' caller' =>
          simp only [Input.viewed, Input.receive.injEq] at hinput
          obtain ⟨rfl, rfl, hcaller⟩ := hinput
          refine (answerText_alike hcore hcalls hcaller text).bind ?_
          rintro ⟨answer, log⟩ ⟨answer', log'⟩ ⟨hanswer, hlog⟩
          dsimp only at hanswer hlog
          subst hanswer
          exact .ok ⟨rfl, hlog, rfl, rfl⟩
      | _ => cases hinput
  | onCoreAsyncResult cmdId payloadJson =>
      cases input' with
      | onCoreAsyncResult cmdId' payloadJson' =>
          cases hinput
          rw [TransportState.step, TransportState.step]
          cases pending.lookup cmdId with
          | none => exact .ok ⟨rfl, hcalls, rfl, rfl⟩
          | some waiting =>
              dsimp only
              cases answerResult kit waiting payloadJson with
              | error fault => exact .error fault
              | ok frame => exact .ok ⟨rfl, hcalls, rfl, rfl⟩
      | _ => cases hinput
  | onCoreEvent topic payloadJson connections =>
      cases input' with
      | onCoreEvent topic' payloadJson' connections' =>
          cases hinput
          exact .ok ⟨rfl, hcalls, rfl, rfl⟩
      | _ => cases hinput

/-- **The wire discloses only what is told.** When two cores tell clients the same
as long as their callers look the same, and two runs take the same inputs from
callers that look the same, both end, or fail, alike: every frame on every
connection is the same, and so is whom a result is owed. -/
theorem wire_discloses_only_told (hcore : Core.Alike view core core') (kit : Toolkit)
    (pluginType : Bytes) {inputs inputs' : List (Input F C)}
    (hinputs : inputs.map (Input.viewed view) = inputs'.map (Input.viewed view)) :
    Alike (Indistinguishable view) (TransportState.run kit core pluginType inputs)
      (TransportState.run kit core' pluginType inputs') := by
  have hpairs : List.Forall₂ (fun input input' : Input F C =>
      input.viewed view = input'.viewed view) inputs inputs' := by
    rw [← List.forall₂_eq_eq_eq, List.forall₂_map_left_iff, List.forall₂_map_right_iff] at hinputs
    exact hinputs
  refine Alike.foldlM ?_ hpairs ⟨rfl, rfl, rfl, rfl⟩
  intro s s' input input' hs hinput
  exact hs.step hcore hinput

end

/-- A core that rejects everything for the reason `error` gives. -/
theorem rejectingCore_alike :
    Core.Alike (fun caller => { caller with sessionToken := [] }) (rejectingCore busyError)
      (rejectingCore leakyError) := by
  intro log log' _
  refine ⟨⟨rfl, fun _ => rfl, fun _ => rfl⟩, Iff.rfl, fun _ => rfl, fun _ => rfl⟩

/-- Neither core's diagnostics nor the session's token make a difference. -/
theorem wire_discloses_only_told_leakyError :
    Alike (Indistinguishable fun caller => { caller with sessionToken := [] })
      (TransportState.run sampleKit (rejectingCore busyError) (ascii "ws")
        [.attachCoreFacade (some ()),
          .receive 0 (sampleFrame 7) { kind := .session, sessionToken := ascii "secret" }])
      (TransportState.run sampleKit (rejectingCore leakyError) (ascii "ws")
        [.attachCoreFacade (some ()), .receive 0 (sampleFrame 7) { kind := .session }]) :=
  wire_discloses_only_told rejectingCore_alike sampleKit (ascii "ws") rfl

end PhiTransport
