import PhiTransport.Api.TransportTypes

/-!
# The core facade

What a transport sees of core. A facade is only ever called through its
pointer, so it is an element of an arbitrary type here, and core is what
answers the calls: from the log of every call so far, the one to answer last.
Nothing is assumed of the answers. The log grows with every call, so the same
call may be answered differently each time.
-/

namespace PhiTransport

open Octets

inductive CallerIdentity.Kind where
  | anonymous
  | session
  | trustedLocal
deriving DecidableEq

/-- Who a call is on behalf of. -/
structure CallerIdentity where
  kind : CallerIdentity.Kind := .anonymous
  sessionToken : Bytes := []
  clientId : Bytes := []
deriving DecidableEq

/-- A call that reached a facade, with everything it carried. -/
inductive CoreCall (F : Type) where
  | invokeSync (facade : F) (topic payloadJson : Bytes) (timeoutMs : Int32)
      (caller : CallerIdentity)
  | invokeAsync (facade : F) (topic payloadJson pluginType : Bytes) (caller : CallerIdentity)

/-- The answers of core, each from the call log that ends in the call it answers. -/
structure Core (F : Type) where
  syncResult : List (CoreCall F) → SyncResult
  asyncResult : List (CoreCall F) → AsyncResult

/-- A call into core: it is logged and answered. -/
def Core.invokeSync {F : Type} (core : Core F) (facade : F) (topic payloadJson : Bytes)
    (timeoutMs : Int32) (caller : CallerIdentity) : StateM (List (CoreCall F)) SyncResult := do
  modify (· ++ [.invokeSync facade topic payloadJson timeoutMs caller])
  return core.syncResult (← get)

def Core.invokeAsync {F : Type} (core : Core F) (facade : F) (topic payloadJson pluginType : Bytes)
    (caller : CallerIdentity) : StateM (List (CoreCall F)) AsyncResult := do
  modify (· ++ [.invokeAsync facade topic payloadJson pluginType caller])
  return core.asyncResult (← get)

/-- Anything that reaches a facade: a command, a log record or the answer to an
action a person invoked. The last two return nothing. -/
inductive FacadeCall (F : Type) where
  | command (call : CoreCall F)
  | log (facade : F) (entry : LogEntry)
  | completeAction (facade : F) (cmdId : CmdId) (resultJson : Bytes)

end PhiTransport
