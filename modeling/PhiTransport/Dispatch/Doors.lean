import PhiTransport.Api.TransportInterface
import PhiTransport.Base.Json.Members

/-!
# The doors of the protocol

What dispatching is for, stated without the code: the topic's first word
decides the door, the door decides the calls, and the answer is a function of
what came back. `dispatchCommand_run` is the one place where the code of
`dispatchCommand` is unfolded; the rest of the development reads the doors.
-/

namespace PhiTransport

open Octets Rfc8259

inductive Door where
  | sync
  | cmd
  | unknown
deriving DecidableEq

/-- The prefix of the topic names the door. -/
def doorOf (topic : Bytes) : Door :=
  if ascii "sync." <+: topic then .sync
  else if ascii "cmd." <+: topic then .cmd
  else .unknown

section

variable {F : Type}

/-- The calls a command makes on the facade that is attached. -/
def callsFor (attached : Option F) (pluginType topic payloadJson : Bytes)
    (caller : CallerIdentity) : List (CoreCall F) :=
  match attached, doorOf topic with
  | some facade, .sync => [.invokeSync facade topic payloadJson 1500 caller]
  | some facade, .cmd => [.invokeAsync facade topic payloadJson pluginType caller]
  -- nothing attached, or a topic with neither prefix
  | _, _ => []

theorem callsFor_unknown {topic : Bytes} (h : doorOf topic = .unknown) (attached : Option F)
    (pluginType payloadJson : Bytes) (caller : CallerIdentity) :
    callsFor attached pluginType topic payloadJson caller = [] := by
  unfold callsFor
  rw [h]
  cases attached <;> rfl

end

/-! ## Answers -/

def kSyncCallRejected : Bytes := ascii "Sync call rejected"
def kCommandRejected : Bytes := ascii "Command rejected"

/-- The answer to a `sync.*` command, from what the call returned. -/
def syncOutcome (toChars : ToChars) (topic : Bytes) (result : SyncResult) : CommandOutcome where
  kind := .syncResponse
  payloadJson := makeSyncResponsePayload
    (if result.accepted then result.payloadJson else makeSyncRejectionPayload toChars result.error)
    topic

/-- Core took the command: it says so and names the command. -/
def AsyncResult.Taken (submitted : AsyncResult) : Prop :=
  submitted.accepted = true ∧ 0 < submitted.cmdId

instance (submitted : AsyncResult) : Decidable submitted.Taken := by
  unfold AsyncResult.Taken
  infer_instance

/-- The answer to a `cmd.*` command. -/
def ackOutcome (topic : Bytes) (submitted : AsyncResult) : CommandOutcome :=
  if submitted.Taken then
    { kind := .ack, cmdId := submitted.cmdId, payloadJson := makeAckPayload true topic }
  else
    { kind := .ack,
      payloadJson := makeAckPayload false topic
        (rejectionMessage submitted.error kCommandRejected) }

def unknownOutcome (topic : Bytes) : CommandOutcome where
  kind := .protocolError
  payloadJson := makeUnknownTopicPayload topic

namespace TransportPluginBase

variable {F : Type} (core : Core F) (plugin : TransportPluginBase F) (log : List (CoreCall F))
  (topic payloadJson : Bytes) (caller : CallerIdentity)

/-- What a `sync.*` command gets back: core's answer, or the rejection of a
plugin that has no facade. -/
def syncAnswer : SyncResult :=
  match plugin.coreFacade with
  | none => rejectedSync fun accepted error => { accepted, error }
  | some facade =>
      core.syncResult (log ++ [.invokeSync facade topic payloadJson 1500 caller])

def asyncAnswer : AsyncResult :=
  match plugin.coreFacade with
  | none => rejectedSync fun accepted error => { accepted, error }
  | some facade =>
      core.asyncResult (log ++ [.invokeAsync facade topic payloadJson plugin.pluginType caller])

/-- The answer to a command, by its door. -/
def answer (toChars : ToChars) : CommandOutcome :=
  match doorOf topic with
  | .sync => syncOutcome toChars topic (plugin.syncAnswer core log topic payloadJson caller)
  | .cmd => ackOutcome topic (plugin.asyncAnswer core log topic payloadJson caller)
  | .unknown => unknownOutcome topic

variable {core plugin topic payloadJson caller}

theorem callCoreSync_run (h : doorOf topic = .sync) :
    (plugin.callCoreSync core topic payloadJson 1500 caller).run log =
      (plugin.syncAnswer core log topic payloadJson caller,
        log ++ callsFor plugin.coreFacade plugin.pluginType topic payloadJson caller) := by
  unfold callCoreSync syncAnswer callsFor
  rw [h]
  cases plugin.coreFacade with
  | none =>
      rw [List.append_nil]
      rfl
  | some facade => rfl

theorem callCoreAsync_run (h : doorOf topic = .cmd) :
    (plugin.callCoreAsync core topic payloadJson caller).run log =
      (plugin.asyncAnswer core log topic payloadJson caller,
        log ++ callsFor plugin.coreFacade plugin.pluginType topic payloadJson caller) := by
  unfold callCoreAsync asyncAnswer callsFor
  rw [h]
  cases plugin.coreFacade with
  | none =>
      rw [List.append_nil]
      rfl
  | some facade => rfl

/-- The message of a rejecting ack is chosen as that of a sync rejection is. -/
theorem ackMessage_eq (submitted : AsyncResult) :
    (match submitted.error with
      | some error => if !error.message.isEmpty then error.message else ascii "Command rejected"
      | none => ascii "Command rejected") = rejectionMessage submitted.error kCommandRejected := by
  cases submitted.error with
  | none => rfl
  | some error => rfl

variable (core plugin topic payloadJson caller)

/-- **Dispatching by the door.** One command answers what its door answers and
adds the door's calls to the log. -/
theorem dispatchCommand_run (toChars : ToChars) :
    (plugin.dispatchCommand core toChars topic payloadJson caller).run log =
      (plugin.answer core log topic payloadJson caller toChars,
        log ++ callsFor plugin.coreFacade plugin.pluginType topic payloadJson caller) := by
  unfold dispatchCommand answer
  by_cases hs : ascii "sync." <+: topic
  · have hdoor : doorOf topic = .sync := by rw [doorOf, if_pos hs]
    rw [if_pos (startsWith_iff.mpr hs), StateT.run_bind, callCoreSync_run log hdoor, hdoor]
    rfl
  · have hs' := mt startsWith_iff.mp hs
    by_cases hc : ascii "cmd." <+: topic
    · have hdoor : doorOf topic = .cmd := by rw [doorOf, if_neg hs, if_pos hc]
      rw [if_neg hs', if_pos (startsWith_iff.mpr hc), StateT.run_bind,
        callCoreAsync_run log hdoor, hdoor]
      -- from here on only what came back matters
      generalize plugin.asyncAnswer core log topic payloadJson caller = submitted
      generalize log ++ callsFor plugin.coreFacade plugin.pluginType topic payloadJson caller = log'
      dsimp only [bind]
      have htaken : (submitted.accepted && decide (submitted.cmdId > 0)) = true ↔
          submitted.Taken := by
        simp [AsyncResult.Taken]
      by_cases h : submitted.Taken
      · simp only [ackOutcome, if_pos h, if_pos (htaken.mpr h)]
        rfl
      · simp only [ackOutcome, if_neg h, if_neg (mt htaken.mp h), ← ackMessage_eq]
        rfl
    · have hdoor : doorOf topic = .unknown := by rw [doorOf, if_neg hs, if_neg hc]
      rw [if_neg hs', if_neg (mt startsWith_iff.mp hc), hdoor, callsFor_unknown hdoor,
        List.append_nil]
      rfl

variable {core plugin topic payloadJson caller}

theorem answer_of_cmd (h : doorOf topic = .cmd) (toChars : ToChars) :
    plugin.answer core log topic payloadJson caller toChars =
      ackOutcome topic (plugin.asyncAnswer core log topic payloadJson caller) := by
  rw [answer, h]

/-- Only the `cmd.*` door hands an id back. -/
theorem answer_cmdId_of_ne_cmd (h : doorOf topic ≠ .cmd) (toChars : ToChars) :
    (plugin.answer core log topic payloadJson caller toChars).cmdId = 0 := by
  unfold answer
  cases hdoor : doorOf topic with
  | sync => rfl
  | cmd => exact absurd hdoor h
  | unknown => rfl

end TransportPluginBase

end PhiTransport
