import PhiTransport.Api.CoreFacade
import PhiTransport.Api.Envelope

/-!
# Dispatching commands

The part of the plugin base that talks to core: the attached facade, the calls
into it and the routing of a client command. The log of calls is the state the
functions run in, so which calls a command makes is part of what a run returns.
-/

namespace PhiTransport

open Octets

/-- `topic.rfind(door, 0) == 0`: the topic starts with `door`. -/
def startsWith (topic door : Bytes) : Bool := door.isPrefixOf topic

theorem startsWith_iff {topic door : Bytes} : startsWith topic door = true ↔ door <+: topic :=
  List.isPrefixOf_iff_prefix

structure TransportPluginBase (F : Type) where
  pluginType : Bytes
  coreFacade : Option F := none

/-- The arguments of `writeLog` that a record is made of. -/
structure LogLine where
  level : LogLevel
  category : UInt8
  message : Bytes
  params : ScalarList := []
  ctx : Bytes := []
  fields : Bytes := []
  sourceId : Bytes := []
  tsMs : Int64 := 0

/-- The record of a line, for a plugin of the given type at the given time. -/
def LogLine.entry (pluginType : Bytes) (nowMs : Int64) (line : LogLine) : LogEntry where
  level := line.level
  category := line.category
  message := line.message
  params := line.params
  ctx := line.ctx
  fields := line.fields
  tsMs := if line.tsMs > 0 then line.tsMs else nowMs
  sourceType := LogSourceType.transport
  sourceId := if line.sourceId.isEmpty then pluginType else line.sourceId

/-- The result of a call that finds no facade attached, whichever record it is. -/
def rejectedSync {Result : Type} (result : Bool → Option Error → Result) : Result :=
  result false (some { message := ascii "Core facade is not available",
                       ctx := ascii "transport plugin" })

namespace TransportPluginBase

variable {F : Type}

/-- Attach a facade, or detach with none; answers whether there is one now. -/
def attachCoreFacade (plugin : TransportPluginBase F) (coreFacade : Option F) :
    Bool × TransportPluginBase F :=
  (coreFacade.isSome, { plugin with coreFacade })

section

variable (core : Core F) (plugin : TransportPluginBase F)

def callCoreSync (topic payloadJson : Bytes) (timeoutMs : Int32) (caller : CallerIdentity) :
    StateM (List (CoreCall F)) SyncResult :=
  match plugin.coreFacade with
  | none => return rejectedSync fun accepted error => { accepted, error }
  | some facade => core.invokeSync facade topic payloadJson timeoutMs caller

def callCoreAsync (topic payloadJson : Bytes) (caller : CallerIdentity) :
    StateM (List (CoreCall F)) AsyncResult :=
  match plugin.coreFacade with
  | none => return rejectedSync fun accepted error => { accepted, error }
  | some facade => core.invokeAsync facade topic payloadJson plugin.pluginType caller

/-- Route one client command and say what to answer with. -/
def dispatchCommand (toChars : ToChars) (topic payloadJson : Bytes) (caller : CallerIdentity) :
    StateM (List (CoreCall F)) CommandOutcome := do
  if startsWith topic (ascii "sync.") then
    let result ← plugin.callCoreSync core topic payloadJson 1500 caller
    -- accepted or not, the answer carries the topic; only the body differs
    let body := if result.accepted then result.payloadJson
      else makeSyncRejectionPayload toChars result.error
    return { kind := .syncResponse, payloadJson := makeSyncResponsePayload body topic }
  if startsWith topic (ascii "cmd.") then
    let submitted ← plugin.callCoreAsync core topic payloadJson caller
    if submitted.accepted && submitted.cmdId > 0 then
      return { kind := .ack, cmdId := submitted.cmdId, payloadJson := makeAckPayload true topic }
    let message := match submitted.error with
      | some error => if !error.message.isEmpty then error.message else ascii "Command rejected"
      | none => ascii "Command rejected"
    return { kind := .ack, payloadJson := makeAckPayload false topic message }
  return { kind := .protocolError, payloadJson := makeUnknownTopicPayload topic }

end

/-! The calls that return nothing; without a facade they are not made. -/

section

variable (plugin : TransportPluginBase F)

def writeLog (entry : LogEntry) : StateM (List (FacadeCall F)) Unit :=
  match plugin.coreFacade with
  | none => return
  | some facade => modify (· ++ [.log facade entry])

/-- `writeLog` from the parts of a record; `nowMs` is what the clock reads. -/
def writeLogLine (nowMs : Int64) (line : LogLine) : StateM (List (FacadeCall F)) Unit :=
  match plugin.coreFacade with
  | none => return
  | some facade => modify (· ++ [.log facade (line.entry plugin.pluginType nowMs)])

def completeAction (cmdId : CmdId) (resultJson : Bytes) : StateM (List (FacadeCall F)) Unit :=
  match plugin.coreFacade with
  | none => return
  | some facade => modify (· ++ [.completeAction facade cmdId resultJson])

end

end TransportPluginBase

end PhiTransport
