import PhiTransport.Api.Envelope
import PhiTransport.Base.Nlohmann

/-!
# Reading a client's command frame

The parse and the checks every transport makes before a command reaches core.
The JSON parser and `phi::str::trimmed` are parameters. The accessors of the
JSON value are the throwing ones, so that nothing throws is a theorem
(`stringMember_object`, `readCid_ne_thrown`) and not a property of how the model
is written. `parseCommandFrame_object` puts the checks in closed form.
-/

namespace PhiTransport

open Octets Nlohmann

/-- A `cid` as a client may send it: a JSON number or a string of digits. -/
def readCid (value : Value) : Except Fault (Option CmdId) :=
  if value.isNumber then value.getDouble.bind cidFromNumber
  else if value.isString then value.getString.map cidFromString
  else .ok none

/-- The string member `key`; empty when it is missing or not a string. -/
def stringMember (object : Value) (key : Bytes) : Except Fault Bytes :=
  if !object.isObject then .ok []
  else
    match object.find key with
    | some it => if it.isString then it.getString else .ok []
    | none => .ok []

/-- The payload of a `cmd.response`: core's result with `cmd` set to the
command's topic and a null `error` added when core sent none. -/
def makeCmdResponsePayload (parse : Bytes → Value) (dump : Value → Except Fault Bytes)
    (cmdTopic payloadJson : Bytes) : Except Fault Bytes := do
  let parsed := parse payloadJson
  let object := if !parsed.isObject then .object [] else parsed
  let named ← object.set (ascii "cmd") (.string cmdTopic)
  let out ← if !named.contains (ascii "error") then named.set (ascii "error") .null else .ok named
  dump out

/-- A command frame that passed the checks. -/
structure CommandFrame where
  cid : CmdId := 0
  topic : Bytes
  payload : Value := .object []

/-- Why a frame was refused, as the protocol error a client gets back. -/
structure FrameError where
  cid : Option CmdId
  code : Bytes
  message : Bytes

section

variable (parse : Bytes → Value) (trimmed : Bytes → Bytes)

/-- Parse and check one frame: an object, a readable `cid`, `type` "cmd" and a
non-empty `topic`, in that order. -/
def parseCommandFrame (text : Bytes) : Except Fault (Except FrameError CommandFrame) := do
  let doc := parse text
  if !doc.isObject then
    return .error ⟨none, kErrorCodeInvalidJson, kMessageInvalidJson⟩
  let read ← match doc.find (ascii "cid") with
    | some it => readCid it
    | none => .ok none
  match read with
  | none => return .error ⟨none, kErrorCodeMissingCid, kMessageMissingCid⟩
  | some cid =>
      let type ← stringMember doc (ascii "type")
      if type ≠ kEnvelopeTypeCmd then
        return .error ⟨some cid, kErrorCodeInvalidType, kMessageInvalidType⟩
      let topicMember ← stringMember doc (ascii "topic")
      let topic := trimmed topicMember
      if topic.isEmpty then
        return .error ⟨some cid, kErrorCodeMissingTopic, kMessageMissingTopic⟩
      let payload := match doc.find (ascii "payload") with
        | some it => if it.isObject then it else .object []
        | none => .object []
      return .ok ⟨cid, topic, payload⟩

end

/-! ## No accessor throws -/

/-- The string a member holds, empty when it is missing or of another type. -/
def stringOf (ms : Members) (key : Bytes) : Bytes :=
  match ms.lookup key with
  | some (.string s) => s
  | _ => []

/-- The type test before the accessor rules its exception out. -/
theorem stringMember_object (ms : Members) (key : Bytes) :
    stringMember (.object ms) key = .ok (stringOf ms key) := by
  have hobj : (!(Value.object ms).isObject) = false := rfl
  rw [stringMember, hobj, if_neg Bool.false_ne_true, Value.find, stringOf]
  cases ms.lookup key with
  | none => rfl
  | some it => cases it <;> rfl

theorem cidFromNumber_ne_thrown (value : Binary64) : cidFromNumber value ≠ .error .thrown := by
  unfold cidFromNumber
  split
  · nofun
  split
  · nofun
  · -- the cast can be undefined, but it never throws
    cases value with
    | nan => simp [Binary64.toUInt64, Except.map]
    | inf negative => simp [Binary64.toUInt64, Except.map]
    | finite q hq =>
        unfold Binary64.toUInt64
        dsimp only
        split
        · nofun
        · simp [Except.map]

/-- A number reaches the numeric conversion; the type test rules the exception out. -/
theorem readCid_number {value : Value} {d : Binary64} (h : value.getDouble = .ok d) :
    readCid value = cidFromNumber d := by
  have hnum : value.isNumber = true := by
    cases value <;> first | rfl | exact absurd h (by simp [Value.getDouble])
  rw [readCid, if_pos hnum, h]
  rfl

theorem readCid_ne_thrown (value : Value) : readCid value ≠ .error .thrown := by
  cases hd : value.getDouble with
  | ok d =>
      rw [readCid_number hd]
      exact cidFromNumber_ne_thrown d
  | error fault =>
      cases value with
      | numberUnsigned n => exact absurd hd (by simp [Value.getDouble])
      | numberInteger i => exact absurd hd (by simp [Value.getDouble])
      | numberFloat d => exact absurd hd (by simp [Value.getDouble])
      | _ => nofun

/-! ## The checks in closed form -/

/-- What `readCid` makes of the `cid` member, if there is one. -/
def memberCid (ms : Members) : Except Fault (Option CmdId) :=
  match ms.lookup (ascii "cid") with
  | some it => readCid it
  | none => .ok none

/-- The `payload` member when it is an object, else the empty object. -/
def payloadOf (ms : Members) : Value :=
  match ms.lookup (ascii "payload") with
  | some (.object o) => .object o
  | _ => .object []

/-- The checks after the `cid` has been read. -/
def checkFrame (trimmed : Bytes → Bytes) (ms : Members) :
    Option CmdId → Except FrameError CommandFrame
  | none => .error ⟨none, kErrorCodeMissingCid, kMessageMissingCid⟩
  | some cid =>
      if stringOf ms (ascii "type") ≠ kEnvelopeTypeCmd then
        .error ⟨some cid, kErrorCodeInvalidType, kMessageInvalidType⟩
      else if trimmed (stringOf ms (ascii "topic")) = [] then
        .error ⟨some cid, kErrorCodeMissingTopic, kMessageMissingTopic⟩
      else .ok ⟨cid, trimmed (stringOf ms (ascii "topic")), payloadOf ms⟩

theorem parseCommandFrame_object {parse : Bytes → Value} {text : Bytes} {ms : Members}
    (h : parse text = .object ms) (trimmed : Bytes → Bytes) :
    parseCommandFrame parse trimmed text = (memberCid ms).map (checkFrame trimmed ms) := by
  have hfind : ∀ key, (Value.object ms).find key = ms.lookup key := fun _ => rfl
  have hpay : (match ms.lookup (ascii "payload") with
      | some it => if it.isObject then it else .object []
      | none => Value.object []) = payloadOf ms := by
    unfold payloadOf
    cases ms.lookup (ascii "payload") with
    | none => rfl
    | some it => cases it <;> rfl
  unfold parseCommandFrame
  rw [h]
  simp only [hfind, stringMember_object, hpay, memberCid]
  cases ms.lookup (ascii "cid") with
  | none => rfl
  | some it =>
      dsimp only
      cases readCid it with
      | error fault => rfl
      | ok read =>
          cases read with
          | none => rfl
          | some cid =>
              simp only [Except.map, checkFrame]
              by_cases hty : stringOf ms (ascii "type") ≠ kEnvelopeTypeCmd
              · rw [if_pos hty]
                exact if_pos hty
              · rw [if_neg hty]
                refine (if_neg hty).trans ?_
                by_cases hto : trimmed (stringOf ms (ascii "topic")) = []
                · rw [if_pos hto]
                  exact if_pos (by rw [hto]; rfl)
                · rw [if_neg hto]
                  exact if_neg (by simpa using hto)

theorem parseCommandFrame_of_not_object {parse : Bytes → Value} {text : Bytes}
    (h : (parse text).isObject = false) (trimmed : Bytes → Bytes) :
    parseCommandFrame parse trimmed text =
      .ok (.error ⟨none, kErrorCodeInvalidJson, kMessageInvalidJson⟩) := by
  unfold parseCommandFrame
  simp only [h]
  rfl

/-! ## The response payload in closed form -/

/-- The members of an object, none of any other value. -/
def membersOf : Value → Members
  | .object ms => ms
  | _ => []

/-- What the payload of a response holds, from the members core sent. -/
def responseMembers (cmdTopic : Bytes) (ms : Members) : Members :=
  let named := assign (ascii "cmd") (.string cmdTopic) ms
  if (named.lookup (ascii "error")).isSome then named else assign (ascii "error") .null named

/-- Neither assignment throws: what is assigned to is an object by then. -/
theorem makeCmdResponsePayload_eq (parse : Bytes → Value) (dump : Value → Except Fault Bytes)
    (cmdTopic payloadJson : Bytes) :
    makeCmdResponsePayload parse dump cmdTopic payloadJson =
      dump (.object (responseMembers cmdTopic (membersOf (parse payloadJson)))) := by
  have hobj : (if !(parse payloadJson).isObject then .object [] else parse payloadJson) =
      Value.object (membersOf (parse payloadJson)) := by
    cases parse payloadJson <;> rfl
  have hset : ∀ ms key w, (Value.object ms).set key w = .ok (.object (assign key w ms)) :=
    fun _ _ _ => rfl
  have hcontains : ∀ ms key, (Value.object ms).contains key = (ms.lookup key).isSome :=
    fun _ _ => rfl
  unfold makeCmdResponsePayload responseMembers
  dsimp only
  rw [hobj, hset]
  show (if !(Value.object _).contains (ascii "error") then _ else _) = _
  rw [hcontains, hset]
  cases (List.lookup (ascii "error") _).isSome
  · rfl
  · rfl

end PhiTransport
