import PhiTransport.Dispatch.Answers
import PhiTransport.Base.Json.Record

/-!
# What a rejected caller is told

Of an error a sync rejection passes on the message, its placeholders and `ctx`
(`toldOf`), and nothing of core's diagnostics. The builder's text is a function
of these three, and so is the answer to a rejected `sync.*` command, whatever
the rest of the two runs compared is.
-/

namespace PhiTransport

open Octets Rfc8259

/-! ## The reason -/

/-- The part of an error that is passed on; of no error, what is passed on of an
error without a message. -/
def toldOf (error : Option Error) : Bytes × ScalarList × Bytes :=
  let e := error.getD {}
  (e.message, e.params, e.ctx)

/-- No error is told as the error that says nothing. -/
theorem makeSyncRejectionPayload_getD (toChars : ToChars) (error : Option Error)
    (fallbackMessage : Bytes) : makeSyncRejectionPayload toChars error fallbackMessage =
      makeSyncRejectionPayload toChars (some (error.getD {})) fallbackMessage := by
  cases error with
  | none => rfl
  | some e => rfl

theorem makeSyncRejectionPayload_congr (toChars : ToChars) {error error' : Option Error}
    (h : toldOf error = toldOf error') (fallbackMessage : Bytes) :
    makeSyncRejectionPayload toChars error fallbackMessage =
      makeSyncRejectionPayload toChars error' fallbackMessage := by
  simp only [toldOf, Prod.mk.injEq] at h
  obtain ⟨hmessage, hparams, hctx⟩ := h
  rw [makeSyncRejectionPayload_getD, makeSyncRejectionPayload_getD toChars error']
  generalize error.getD {} = e at hmessage hparams hctx ⊢
  generalize error'.getD {} = e' at hmessage hparams hctx ⊢
  unfold makeSyncRejectionPayload
  simp only [Option.getD_some, Option.isSome_some, hmessage, hparams, hctx]

/-- The `error` object of a rejection as a record: the message is always there. -/
def rejectionRecord (error : Option Error) (fallbackMessage : Bytes) (params : Json) : Record :=
  let e := error.getD {}
  [(ascii "message", some (.str (rejectionMessage error fallbackMessage))),
    (ascii "params", if !e.message.isEmpty && !e.params.isEmpty then some params else none),
    (ascii "ctx", if !e.ctx.isEmpty then some (.str e.ctx) else none)]

theorem rejectionError_eq_present (error : Option Error) (fallbackMessage : Bytes)
    (params : Json) : rejectionError error fallbackMessage params =
      present (rejectionRecord error fallbackMessage params) := by
  unfold rejectionError rejectionRecord
  cases error with
  | none => rfl
  | some e =>
      simp only [Option.getD_some, Option.isSome_some, Bool.true_and]
      split_ifs <;> rfl

theorem rejectionMessage_eq (error : Option Error) (fallbackMessage : Bytes) :
    rejectionMessage error fallbackMessage =
      if (error.getD {}).message = [] then fallbackMessage else (error.getD {}).message := by
  cases error with
  | none => rfl
  | some e =>
      by_cases h : e.message = []
      · rw [rejectionMessage_of_empty h, Option.getD_some, if_pos h]
      · rw [rejectionMessage_some h, Option.getD_some, if_neg h]

/-! ## The answer -/

section

variable {F : Type} {plugin : TransportPluginBase F} {core : Core F} {log : List (CoreCall F)}
  {topic payloadJson : Bytes} {caller : CallerIdentity}

/-- The answer to a rejected `sync.*` command, from the error alone. -/
theorem dispatchCommand_rejected (toChars : ToChars) (h : doorOf topic = .sync)
    (hrej : (plugin.syncAnswer core log topic payloadJson caller).accepted = false) :
    ((plugin.dispatchCommand core toChars topic payloadJson caller).run log).1 =
      { kind := .syncResponse,
        payloadJson := makeSyncResponsePayload (makeSyncRejectionPayload toChars
          (plugin.syncAnswer core log topic payloadJson caller).error) topic } := by
  rw [TransportPluginBase.dispatchCommand_run, TransportPluginBase.answer, h]
  show syncOutcome toChars topic (plugin.syncAnswer core log topic payloadJson caller) = _
  unfold syncOutcome
  rw [hrej, if_neg Bool.false_ne_true]

end

/-- **A rejection tells the reason and nothing else.** Its payload has exactly
`accepted` and `error`, and the error exactly the members of its record; behind
the dispatch it also names the topic. Two rejections with the same message,
placeholders and `ctx` are answered alike, whatever else differs: core, its
diagnostics, what was called before, the caller and what the caller sent. -/
theorem syncRejection_tells_reason {toChars : ToChars} (hc : WritesNumbers toChars)
    (error : Option Error) (fallbackMessage : Bytes) :
    ∃ params, Text params (scalarListToJson toChars (error.getD {}).params) ∧
      (∀ ms, ObjectText ms (makeSyncRejectionPayload toChars error fallbackMessage) ↔
        ms = [(ascii "accepted", .bool false),
          (ascii "error", .obj (present (rejectionRecord error fallbackMessage params)))]) ∧
      rejectionMessage error fallbackMessage =
        (if (error.getD {}).message = [] then fallbackMessage else (error.getD {}).message) ∧
      ∀ {F F' : Type} (plugin : TransportPluginBase F) (plugin' : TransportPluginBase F')
        (core : Core F) (core' : Core F') (log : List (CoreCall F)) (log' : List (CoreCall F'))
        (topic payloadJson payloadJson' : Bytes) (caller caller' : CallerIdentity),
        doorOf topic = .sync →
        (plugin.syncAnswer core log topic payloadJson caller).accepted = false →
        (plugin'.syncAnswer core' log' topic payloadJson' caller').accepted = false →
        toldOf (plugin.syncAnswer core log topic payloadJson caller).error = toldOf error →
        toldOf (plugin'.syncAnswer core' log' topic payloadJson' caller').error = toldOf error →
        ((plugin.dispatchCommand core toChars topic payloadJson caller).run log).1 =
          ((plugin'.dispatchCommand core' toChars topic payloadJson' caller').run log').1 ∧
        ∀ ms, ObjectText ms
            ((plugin.dispatchCommand core toChars topic payloadJson caller).run log).1.payloadJson ↔
          ms = rejectionMembers topic (present (rejectionRecord error kSyncCallRejected params)) := by
  obtain ⟨vs, hvs, -⟩ := text_scalarListToJson hc (error.getD {}).params
  have hpayload := fun message => objectText_makeSyncRejectionPayload hvs message
  simp only [rejectionError_eq_present] at hpayload
  refine ⟨.arr vs, hvs, objectText_only (hpayload fallbackMessage), rejectionMessage_eq _ _, ?_⟩
  intro F F' plugin plugin' core core' log log' topic payloadJson payloadJson' caller caller'
    hdoor hrej hrej' htold htold'
  rw [dispatchCommand_rejected toChars hdoor hrej, dispatchCommand_rejected toChars hdoor hrej',
    makeSyncRejectionPayload_congr toChars htold, makeSyncRejectionPayload_congr toChars htold']
  refine ⟨rfl, objectText_only ?_⟩
  exact objectText_makeSyncResponsePayload (Or.inl (hpayload kSyncCallRejected)) topic

/-- `busyError` with diagnostics that are no JSON and carry a brace of their own. -/
def leakyError : Error :=
  { busyError with
    level := LogLevel.warn
    flags := 1
    fields := [rbrace] ++ ascii "secret"
    tsMs := 1
    sourceId := ascii "core" }

/-- Two cores that reject for one reason answer two callers alike. -/
theorem syncRejection_tells_reason_leakyError :
    let plugin : TransportPluginBase Unit := ⟨ascii "ws", some ()⟩
    let other : TransportPluginBase Unit := ⟨ascii "cli", some ()⟩
    ((plugin.dispatchCommand (rejectingCore busyError) smallIntegerChars (ascii "sync.a") []
        {}).run []).1 =
      ((other.dispatchCommand (rejectingCore leakyError) smallIntegerChars (ascii "sync.a")
        (ascii "x") { kind := .session }).run []).1 := by
  intro plugin other
  obtain ⟨params, -, -, -, hanswers⟩ :=
    syncRejection_tells_reason writesNumbers_smallIntegerChars (some busyError) []
  exact (hanswers plugin other (rejectingCore busyError) (rejectingCore leakyError) [] []
    (ascii "sync.a") [] (ascii "x") {} { kind := .session } (by decide) rfl rfl rfl rfl).1

end PhiTransport
