import PhiTransport.Dispatch.Doors

/-!
# What an answer spells

The frame a command is answered with, member by member, for every door and
every answer core may give; and the error a client reads from it. The texts
come from the builders, so this module only composes what each of them spells
(`objectText_makeSyncResponsePayload`, `objectText_makeSyncRejectionPayload`,
`objectText_makeAckPayload`) along the branches of `answer`.
-/

namespace PhiTransport

open Octets Rfc8259

/-! ## Rejections -/

theorem rejectionMessage_ne_nil {fallbackMessage : Bytes} (h : fallbackMessage ≠ [])
    (error : Option Error) : rejectionMessage error fallbackMessage ≠ [] := by
  unfold rejectionMessage
  dsimp only
  by_cases hmessage : (error.isSome && !(error.getD {}).message.isEmpty) = true
  · rw [if_pos hmessage]
    rw [Bool.and_eq_true] at hmessage
    simpa using hmessage.2
  · rw [if_neg hmessage]
    exact h

theorem rejectionMessage_some {error : Error} (h : error.message ≠ []) (fallbackMessage : Bytes) :
    rejectionMessage (some error) fallbackMessage = error.message := by
  simp [rejectionMessage, h]

theorem rejectionMessage_of_empty {error : Error} (h : error.message = [])
    (fallbackMessage : Bytes) : rejectionMessage (some error) fallbackMessage = fallbackMessage := by
  simp [rejectionMessage, h]

section

variable (error : Option Error) (fallbackMessage : Bytes) (params : Json)

theorem lastValue_message_rejectionError :
    lastValue (ascii "message") (rejectionError error fallbackMessage params) =
      some (.str (rejectionMessage error fallbackMessage)) := by
  unfold rejectionError
  apply lastValue_cons_self
  have hparams : ascii "message" ≠ ascii "params" := by decide
  have hctx : ascii "message" ≠ ascii "ctx" := by decide
  split_ifs <;> simp [keys, hparams, hctx]

theorem lastValue_params_rejectionError :
    lastValue (ascii "params") (rejectionError error fallbackMessage params) =
      if error.isSome && !(error.getD {}).message.isEmpty && !(error.getD {}).params.isEmpty then
        some params else none := by
  have hmessage : ascii "message" ≠ ascii "params" := by decide
  have hctx : ascii "ctx" ≠ ascii "params" := by decide
  unfold rejectionError
  dsimp only
  rw [List.append_assoc, List.singleton_append, lastValue_cons_of_ne hmessage]
  split_ifs <;> simp [lastValue, hctx]

end

/-! ## The members of an answer -/

section

variable {toChars : ToChars}

theorem objectText_syncOutcome {result : SyncResult} {own : List (Bytes × Json)}
    (hacc : result.accepted = true) (h : PayloadText own result.payloadJson) (topic : Bytes) :
    ObjectText ((ascii "sync", .str topic) :: own)
      (syncOutcome toChars topic result).payloadJson := by
  unfold syncOutcome
  rw [hacc, if_pos rfl]
  exact objectText_makeSyncResponsePayload h topic

/-- The members of a `sync.response` that carries a rejection. -/
def rejectionMembers (topic : Bytes) (err : List (Bytes × Json)) : List (Bytes × Json) :=
  [(ascii "sync", .str topic), (ascii "accepted", .bool false), (ascii "error", .obj err)]

theorem objectText_syncOutcome_rejected {result : SyncResult} {params : Json}
    (hacc : result.accepted = false)
    (hp : Text params (scalarListToJson toChars (result.error.getD {}).params)) (topic : Bytes) :
    ObjectText (rejectionMembers topic (rejectionError result.error kSyncCallRejected params))
      (syncOutcome toChars topic result).payloadJson := by
  unfold syncOutcome
  rw [hacc, if_neg Bool.false_ne_true]
  exact objectText_makeSyncResponsePayload
    (Or.inl (objectText_makeSyncRejectionPayload hp _)) topic

/-- The message of an ack: none when core took the command. -/
def ackMessage (submitted : AsyncResult) : Bytes :=
  if submitted.Taken then [] else rejectionMessage submitted.error kCommandRejected

theorem objectText_ackOutcome (topic : Bytes) (submitted : AsyncResult) :
    ObjectText (ackMembers (decide submitted.Taken) topic (ackMessage submitted) kAckErrorCodeCore)
      (ackOutcome topic submitted).payloadJson := by
  unfold ackOutcome ackMessage
  by_cases h : submitted.Taken
  · rw [if_pos h, if_pos h, decide_eq_true h]
    exact objectText_makeAckPayload true topic [] kAckErrorCodeCore
  · rw [if_neg h, if_neg h, decide_eq_false h]
    exact objectText_makeAckPayload false topic _ kAckErrorCodeCore

theorem ackMessage_eq_nil_iff (submitted : AsyncResult) :
    ackMessage submitted = [] ↔ submitted.Taken := by
  unfold ackMessage
  by_cases h : submitted.Taken
  · simp [h]
  · rw [if_neg h]
    exact ⟨fun hnil => absurd hnil (rejectionMessage_ne_nil (by decide) _), fun ht => absurd ht h⟩

theorem objectText_unknownOutcome (topic : Bytes) :
    ObjectText (codeMessage kErrorCodeUnknownTopic (ascii "Unknown command topic: " ++ topic))
      (unknownOutcome topic).payloadJson :=
  objectText_makeProtocolErrorPayload _ _

end

/-! ## The frame of an answer -/

section

variable {F : Type}

/-- What core promises of the calls it accepts: a payload the splice can take. -/
def SendsPayloads (core : Core F) : Prop :=
  ∀ log, (core.syncResult log).accepted = true →
    ∃ own, PayloadText own (core.syncResult log).payloadJson

/-- A core that accepts every sync call with a payload of one member. -/
def sampleCore : Core Unit where
  syncResult _ := { accepted := true, payloadJson := jsonObject [(ascii "value", decimal 21)] }
  asyncResult _ := { accepted := true, cmdId := 1 }

theorem sendsPayloads_sampleCore : SendsPayloads sampleCore := by
  have h : ObjectText [(ascii "value", .num (.ofNat 21))]
      (jsonObject [(ascii "value", decimal 21)]) :=
    objectText_jsonObject (.cons ⟨rfl, Or.inr (text_nat 21)⟩ .nil)
  exact fun _ _ => ⟨_, Or.inl h⟩

/-- The members `ms` the payload of an answer has, by the door of the topic. -/
def AnswerMembers (core : Core F) (plugin : TransportPluginBase F) (log : List (CoreCall F))
    (topic payloadJson : Bytes) (caller : CallerIdentity) (ms : List (Bytes × Json)) : Prop :=
  match doorOf topic with
  | .sync =>
      let result := plugin.syncAnswer core log topic payloadJson caller
      if result.accepted then
        ∃ own, PayloadText own result.payloadJson ∧ ms = (ascii "sync", .str topic) :: own
      else
        ∃ err message, ms = rejectionMembers topic err ∧
          lastValue (ascii "message") err = some (.str message) ∧ message ≠ []
  | .cmd => ∃ accepted message, ms = ackMembers accepted topic message kAckErrorCodeCore
  | .unknown =>
      ms = codeMessage kErrorCodeUnknownTopic (ascii "Unknown command topic: " ++ topic)

theorem SendsPayloads.syncAnswer {core : Core F} (hcore : SendsPayloads core)
    {plugin : TransportPluginBase F} {log : List (CoreCall F)} {topic payloadJson : Bytes}
    {caller : CallerIdentity}
    (hacc : (plugin.syncAnswer core log topic payloadJson caller).accepted = true) :
    ∃ own, PayloadText own (plugin.syncAnswer core log topic payloadJson caller).payloadJson := by
  unfold TransportPluginBase.syncAnswer at hacc ⊢
  cases hfacade : plugin.coreFacade with
  | none =>
      rw [hfacade] at hacc
      exact absurd hacc Bool.false_ne_true
  | some facade =>
      rw [hfacade] at hacc
      exact hcore _ hacc

/-- The payload of every answer is object text with the members of its door. -/
theorem objectText_answer {toChars : ToChars} (hc : WritesNumbers toChars) {core : Core F}
    (hcore : SendsPayloads core) (plugin : TransportPluginBase F) (log : List (CoreCall F))
    (topic payloadJson : Bytes) (caller : CallerIdentity) :
    ∃ ms, ObjectText ms (plugin.answer core log topic payloadJson caller toChars).payloadJson ∧
      AnswerMembers core plugin log topic payloadJson caller ms := by
  unfold TransportPluginBase.answer AnswerMembers
  cases doorOf topic with
  | sync =>
      dsimp only
      cases hacc : (plugin.syncAnswer core log topic payloadJson caller).accepted with
      | true =>
          obtain ⟨own, hown⟩ := hcore.syncAnswer hacc
          exact ⟨_, objectText_syncOutcome hacc hown topic, own, hown, rfl⟩
      | false =>
          obtain ⟨vs, hvs, -⟩ := text_scalarListToJson hc
            ((plugin.syncAnswer core log topic payloadJson caller).error.getD {}).params
          refine ⟨_, objectText_syncOutcome_rejected hacc hvs topic, _, _, rfl,
            lastValue_message_rejectionError _ _ _, ?_⟩
          exact rejectionMessage_ne_nil (by decide) _
  | cmd => exact ⟨_, objectText_ackOutcome topic _, _, _, rfl⟩
  | unknown => exact ⟨_, objectText_unknownOutcome topic, rfl⟩

/-- **Every answer is one well-formed frame.** Whatever the topic, the caller
and core's answer, the frame a command is answered with has exactly the members
`type`, `topic`, `cid` and `payload`, and the payload exactly those of its door. -/
theorem objectText_frame_of_dispatchCommand {toChars : ToChars} (hc : WritesNumbers toChars)
    {core : Core F} (hcore : SendsPayloads core) (plugin : TransportPluginBase F)
    (log : List (CoreCall F)) (topic payloadJson : Bytes) (caller : CallerIdentity)
    (cid : CmdId) :
    let outcome :=
      ((plugin.dispatchCommand core toChars topic payloadJson caller).run log).1
    let envelope := envelopeFor outcome.kind
    outcome.kind = (match doorOf topic with
      | .sync => .syncResponse
      | .cmd => .ack
      | .unknown => .protocolError) ∧
    ∃ ms,
      ObjectText (envelopeMembers envelope.1 envelope.2 (some cid) (.obj ms))
        (makeEnvelope envelope.1 envelope.2 (some cid) outcome.payloadJson) ∧
      AnswerMembers core plugin log topic payloadJson caller ms := by
  dsimp only
  rw [TransportPluginBase.dispatchCommand_run]
  constructor
  · unfold TransportPluginBase.answer
    cases doorOf topic with
    | sync => rfl
    | cmd =>
        dsimp only
        unfold ackOutcome
        split
        · rfl
        · rfl
    | unknown => rfl
  · obtain ⟨ms, hms, hanswer⟩ :=
      objectText_answer hc hcore plugin log topic payloadJson caller
    exact ⟨ms, objectText_makeEnvelope (Or.inr hms) _ _ _, hanswer⟩

end

theorem objectText_frame_of_sampleCore :
    WritesNumbers smallIntegerChars ∧ SendsPayloads sampleCore ∧
    ∃ ms,
      ObjectText (envelopeMembers kEnvelopeTypeResponse kTopicSyncResponse (some 7) (.obj ms))
        (makeEnvelope kEnvelopeTypeResponse kTopicSyncResponse (some 7)
          ((TransportPluginBase.dispatchCommand sampleCore ⟨ascii "ws", some ()⟩ smallIntegerChars
            (ascii "sync.a\"b") [] {}).run []).1.payloadJson) ∧
      AnswerMembers sampleCore ⟨ascii "ws", some ()⟩ [] (ascii "sync.a\"b") [] {} ms := by
  have h := objectText_frame_of_dispatchCommand writesNumbers_smallIntegerChars
    sendsPayloads_sampleCore ⟨ascii "ws", some ()⟩ [] (ascii "sync.a\"b") [] {} 7
  have hdoor : doorOf (ascii "sync.a\"b") = .sync := by decide
  dsimp only at h
  rw [hdoor] at h
  obtain ⟨hkind, ms, hms, hanswer⟩ := h
  rw [hkind] at hms
  exact ⟨writesNumbers_smallIntegerChars, sendsPayloads_sampleCore, ms, hms, hanswer⟩

/-! ## What a client reads of a rejection -/

/-- The member `key` of the `error` object of a payload, as a client reads it. -/
def errorMember (key payloadJson : Bytes) : Option Json :=
  match valueAt (ascii "error") payloadJson with
  | some (.obj err) => lastValue key err
  | _ => none

theorem errorMember_of_objectText {ms err : List (Bytes × Json)} {t : Bytes}
    (h : ObjectText ms t) (herr : lastValue (ascii "error") ms = some (.obj err)) (key : Bytes) :
    errorMember key t = lastValue key err := by
  rw [errorMember, valueAt_of_objectText h, herr]

theorem lastValue_error_rejectionMembers (topic : Bytes) (err : List (Bytes × Json)) :
    lastValue (ascii "error") (rejectionMembers topic err) = some (.obj err) := by
  have hsync : ascii "sync" ≠ ascii "error" := by decide
  have haccepted : ascii "accepted" ≠ ascii "error" := by decide
  rw [rejectionMembers, lastValue_cons_of_ne hsync, lastValue_cons_of_ne haccepted]
  exact lastValue_cons_self (by simp [keys]) _

theorem lastValue_error_ackMembers (accepted : Bool) (topic message code : Bytes) :
    lastValue (ascii "error") (ackMembers accepted topic message code) =
      some (ackError message code) := by
  have haccepted : ascii "accepted" ≠ ascii "error" := by decide
  have hcmd : ascii "cmd" ≠ ascii "error" := by decide
  rw [ackMembers, lastValue_cons_of_ne haccepted, lastValue_cons_of_ne hcmd]
  exact lastValue_cons_self (by simp [keys]) _

section

variable {toChars : ToChars}

/-- The error a client reads from a rejected `sync.*` command. -/
theorem errorMember_syncOutcome (hc : WritesNumbers toChars) {result : SyncResult} {error : Error}
    (hacc : result.accepted = false) (herr : result.error = some error) (topic : Bytes) :
    ∃ params, Text params (scalarListToJson toChars error.params) ∧
      errorMember (ascii "message") (syncOutcome toChars topic result).payloadJson =
        some (.str (rejectionMessage (some error) kSyncCallRejected)) ∧
      errorMember (ascii "params") (syncOutcome toChars topic result).payloadJson =
        if error.message ≠ [] ∧ error.params ≠ [] then some params else none := by
  obtain ⟨vs, hvs, -⟩ := text_scalarListToJson hc error.params
  have hparams : Text (.arr vs) (scalarListToJson toChars (result.error.getD {}).params) := by
    rw [herr]
    exact hvs
  have hobj := objectText_syncOutcome_rejected hacc hparams topic
  rw [herr] at hobj
  have hread := errorMember_of_objectText hobj (lastValue_error_rejectionMembers topic _)
  refine ⟨.arr vs, hvs, ?_, ?_⟩
  · rw [hread, lastValue_message_rejectionError]
  · rw [hread, lastValue_params_rejectionError]
    simp

/-- The error a client reads from the ack of a rejected `cmd.*` command: a
message, and never any placeholders. -/
theorem errorMember_ackOutcome {submitted : AsyncResult} {error : Error}
    (hacc : submitted.accepted = false) (herr : submitted.error = some error) (topic : Bytes) :
    errorMember (ascii "message") (ackOutcome topic submitted).payloadJson =
        some (.str (rejectionMessage (some error) kCommandRejected)) ∧
      errorMember (ascii "params") (ackOutcome topic submitted).payloadJson = none := by
  have htaken : ¬submitted.Taken := fun h => Bool.false_ne_true (hacc.symm.trans h.1)
  have hmessage : ackMessage submitted = rejectionMessage (some error) kCommandRejected := by
    rw [ackMessage, if_neg htaken, herr]
  have hne : rejectionMessage (some error) kCommandRejected ≠ [] :=
    rejectionMessage_ne_nil (by decide) _
  have hack : ackError (rejectionMessage (some error) kCommandRejected) kAckErrorCodeCore =
      .obj (codeMessage kAckErrorCodeCore (rejectionMessage (some error) kCommandRejected)) := by
    rw [ackError, if_neg (by simpa using hne)]
  have hobj := objectText_ackOutcome topic submitted
  rw [hmessage] at hobj
  have hread := errorMember_of_objectText hobj ((lastValue_error_ackMembers _ _ _ _).trans
    (congrArg some hack))
  have hcode : ascii "code" ≠ ascii "message" := by decide
  constructor
  · rw [hread, codeMessage, lastValue_cons_of_ne hcode]
    exact lastValue_cons_self (by simp [keys]) _
  · rw [hread, lastValue_eq_none_iff]
    simp only [keys, codeMessage, List.map_cons, List.map_nil]
    decide

/-- A core that rejects everything with `error`. -/
def rejectingCore (error : Error) : Core Unit where
  syncResult _ := { error := some error }
  asyncResult _ := { error := some error }

def busyError : Error where
  message := ascii "Channel %1 is busy"
  params := [.int64 42]

/-- The payload lets a client render the error: its message, and its
placeholders where it has any. -/
def Renders (toChars : ToChars) (error : Error) (payloadJson : Bytes) : Prop :=
  errorMember (ascii "message") payloadJson = some (.str error.message) ∧
    (error.params ≠ [] → ∃ params, errorMember (ascii "params") payloadJson = some params ∧
      Text params (scalarListToJson toChars error.params))

/-- A client reads the same message and placeholders from both payloads. -/
def SameReason (payloadJson payloadJson' : Bytes) : Prop :=
  errorMember (ascii "message") payloadJson = errorMember (ascii "message") payloadJson' ∧
    errorMember (ascii "params") payloadJson = errorMember (ascii "params") payloadJson'

variable {F : Type}

/-- **Rendering a rejection.** The two doors show a client one and the same
reason for an error exactly when the error has a message and no placeholders:
an ack has no room for them. -/
theorem renders_both_doors_iff (hc : WritesNumbers toChars) (core : Core F)
    (plugin : TransportPluginBase F) (error : Error)
    (log log' : List (CoreCall F)) (topic topic' payloadJson payloadJson' : Bytes)
    (caller caller' : CallerIdentity) (hsync : doorOf topic = .sync) (hcmd : doorOf topic' = .cmd)
    (hs : (plugin.syncAnswer core log topic payloadJson caller).accepted = false)
    (hs' : (plugin.syncAnswer core log topic payloadJson caller).error = some error)
    (ha : (plugin.asyncAnswer core log' topic' payloadJson' caller').accepted = false)
    (ha' : (plugin.asyncAnswer core log' topic' payloadJson' caller').error = some error) :
    let response :=
      ((plugin.dispatchCommand core toChars topic payloadJson caller).run log).1.payloadJson
    let ack :=
      ((plugin.dispatchCommand core toChars topic' payloadJson' caller').run log').1.payloadJson
    ((error.message ≠ [] → Renders toChars error response ∧ Renders toChars error ack) ∧
      SameReason response ack) ↔ error.message ≠ [] ∧ error.params = [] := by
  dsimp only
  rw [TransportPluginBase.dispatchCommand_run, TransportPluginBase.dispatchCommand_run]
  unfold TransportPluginBase.answer
  rw [hsync, hcmd]
  dsimp only
  obtain ⟨params, hparams, hmessage, hlist⟩ := errorMember_syncOutcome hc hs hs' topic
  obtain ⟨hmessage', hlist'⟩ := errorMember_ackOutcome ha ha' topic'
  unfold Renders SameReason
  rw [hmessage, hmessage', hlist, hlist']
  by_cases hm : error.message = []
  · -- without a message the two doors fall back to texts of their own
    have hfallback : kSyncCallRejected ≠ kCommandRejected := by decide
    simp [hm, rejectionMessage_of_empty hm, hfallback]
  · rw [rejectionMessage_some hm, rejectionMessage_some hm]
    by_cases hp : error.params = []
    · simp [hm, hp]
    · simp [hm, hp]

end

theorem renders_both_doors_busyError :
    let plugin : TransportPluginBase Unit := ⟨ascii "ws", some ()⟩
    let core := rejectingCore busyError
    let response := ((plugin.dispatchCommand core smallIntegerChars (ascii "sync.a") [] {}).run
      []).1.payloadJson
    let ack := ((plugin.dispatchCommand core smallIntegerChars (ascii "cmd.a") [] {}).run
      []).1.payloadJson
    ((busyError.message ≠ [] → Renders smallIntegerChars busyError response ∧
        Renders smallIntegerChars busyError ack) ∧ SameReason response ack) ↔
      busyError.message ≠ [] ∧ busyError.params = [] :=
  renders_both_doors_iff writesNumbers_smallIntegerChars (rejectingCore busyError)
    ⟨ascii "ws", some ()⟩ busyError [] [] (ascii "sync.a") (ascii "cmd.a") [] [] {} {}
    (by decide) (by decide) rfl rfl rfl rfl

/-- A placeholder that core sent with its rejection never reaches the client of
a `cmd.*` command. -/
theorem ack_of_busyError_not_renders :
    let plugin : TransportPluginBase Unit := ⟨ascii "ws", some ()⟩
    let ack := ((plugin.dispatchCommand (rejectingCore busyError) smallIntegerChars
      (ascii "cmd.a") [] {}).run []).1.payloadJson
    busyError.message ≠ [] ∧ ¬Renders smallIntegerChars busyError ack := by
  dsimp only
  rw [TransportPluginBase.dispatchCommand_run]
  have hdoor : doorOf (ascii "cmd.a") = .cmd := by decide
  unfold TransportPluginBase.answer
  rw [hdoor]
  refine ⟨by decide, ?_⟩
  rintro ⟨-, hparams⟩
  obtain ⟨params, hread, -⟩ := hparams (by simp [busyError])
  rw [(errorMember_ackOutcome rfl rfl _).2] at hread
  cases hread

end PhiTransport
