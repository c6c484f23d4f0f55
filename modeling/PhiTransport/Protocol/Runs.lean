import PhiTransport.Protocol.Exchange
import PhiTransport.Base.Correlation

/-!
# Runs of a transport

A transport over its life: texts arrive on any connection, core answers the
commands it took in any order, announces events and is attached or detached, all
interleaved at will. `effect_of_step` says once what a step can do; every
invariant is derived from it.

The abstract side is the ledger of requests in flight. A run refines it
(`Refines.step`), where what was opened and what was settled is read off the
wire by a client, so what holds of the ledger holds of the bytes that were sent.
-/

namespace PhiTransport

open Octets Rfc8259 Nlohmann Correlation

/-- A transport: the calls it has made, whom it owes a result, and every frame
it has sent, in order and with the connection it went to. -/
structure TransportState (F C : Type) where
  plugin : TransportPluginBase F
  calls : List (CoreCall F) := []
  pending : AList fun _ : CmdId => Pending C := ∅
  sent : List (C × Bytes) := []

/-- What reaches a transport: core attaching, a client's text, core's calls back. -/
inductive Input (F C : Type) where
  | attachCoreFacade (coreFacade : Option F)
  | receive (connection : C) (text : Bytes) (caller : CallerIdentity)
  | onCoreAsyncResult (cmdId : CmdId) (payloadJson : Bytes)
  | onCoreEvent (topic payloadJson : Bytes) (connections : List C)

section

variable {F C : Type} (kit : Toolkit) (core : Core F)

namespace TransportState

/-- Remember whom the result of a command is for; an id of zero names no command. -/
def remember (pending : AList fun _ : CmdId => Pending C) (connection : C) (answer : Answer) :
    AList fun _ : CmdId => Pending C :=
  if answer.cmdId > 0 then
    pending.insert answer.cmdId ⟨connection, answer.cid, answer.cmdTopic⟩
  else pending

def step (s : TransportState F C) : Input F C → Except Fault (TransportState F C)
  | .attachCoreFacade coreFacade =>
      return { s with plugin := (s.plugin.attachCoreFacade coreFacade).2 }
  | .receive connection text caller => do
      let (answer, calls) ← answerText kit core s.plugin s.calls text caller
      return { s with calls, pending := remember s.pending connection answer,
                      sent := s.sent ++ [(connection, answer.frame)] }
  | .onCoreAsyncResult cmdId payloadJson =>
      match s.pending.lookup cmdId with
      -- nobody waits for this result
      | none => return s
      | some pending => do
          let frame ← answerResult kit pending payloadJson
          return { s with pending := s.pending.erase cmdId,
                          sent := s.sent ++ [(pending.connection, frame)] }
  | .onCoreEvent topic payloadJson connections =>
      return { s with sent := s.sent ++ connections.map fun connection =>
                        (connection, eventFrame topic payloadJson) }

/-- Where a transport of the given type ends after `inputs`. -/
def run (pluginType : Bytes) (inputs : List (Input F C)) : Except Fault (TransportState F C) :=
  inputs.foldlM (step kit core) { plugin := { pluginType } }

end TransportState

/-! ## One step -/

/-- What a step can do, by the input. -/
inductive Effect (s : TransportState F C) : Input F C → TransportState F C → Prop where
  | attached (coreFacade : Option F) : Effect s (.attachCoreFacade coreFacade)
      { s with plugin := (s.plugin.attachCoreFacade coreFacade).2 }
  | refused {connection : C} {text : Bytes} {caller : CallerIdentity} {error : FrameError}
      (hparse : parseCommandFrame kit.parse kit.trimmed text = .ok (.error error)) :
      Effect s (.receive connection text caller)
        { s with sent := s.sent ++ [(connection, refusalFrame error)] }
  | answered {connection : C} {text : Bytes} {caller : CallerIdentity} {frame : CommandFrame}
      {payloadJson : Bytes}
      (hparse : parseCommandFrame kit.parse kit.trimmed text = .ok (.ok frame))
      (hdump : kit.dump frame.payload = .ok payloadJson) :
      Effect s (.receive connection text caller)
        { s with
          calls := s.calls ++ callsFor s.plugin.coreFacade s.plugin.pluginType frame.topic
            payloadJson caller
          pending := TransportState.remember s.pending connection
            (answerFrame kit core s.plugin s.calls frame payloadJson caller).1
          sent := s.sent ++
            [(connection, (answerFrame kit core s.plugin s.calls frame payloadJson caller).1.frame)] }
  | settled {cmdId : CmdId} {payloadJson frame : Bytes} {pending : Pending C}
      (hlookup : s.pending.lookup cmdId = some pending)
      (hframe : answerResult kit pending payloadJson = .ok frame) :
      Effect s (.onCoreAsyncResult cmdId payloadJson)
        { s with pending := s.pending.erase cmdId, sent := s.sent ++ [(pending.connection, frame)] }
  | dropped {cmdId : CmdId} {payloadJson : Bytes} (h : cmdId ∉ s.pending) :
      Effect s (.onCoreAsyncResult cmdId payloadJson) s
  | announced (topic payloadJson : Bytes) (connections : List C) :
      Effect s (.onCoreEvent topic payloadJson connections)
        { s with sent := s.sent ++ connections.map fun connection =>
                   (connection, eventFrame topic payloadJson) }

variable {kit core}

/-- **What one step can do.** -/
theorem effect_of_step {s s' : TransportState F C} {input : Input F C}
    (h : s.step kit core input = .ok s') : Effect kit core s input s' := by
  cases input with
  | attachCoreFacade coreFacade =>
      cases h
      exact .attached coreFacade
  | receive connection text caller =>
      rw [TransportState.step] at h
      cases hparse : parseCommandFrame kit.parse kit.trimmed text with
      | error fault =>
          rw [answerText_of_fault core s.plugin s.calls caller hparse] at h
          cases h
      | ok read =>
          cases read with
          | error error =>
              rw [answerText_of_refused core s.plugin s.calls caller hparse] at h
              cases h
              exact .refused hparse
          | ok frame =>
              cases hdump : kit.dump frame.payload with
              | error fault =>
                  rw [answerText_of_dump_fault core s.plugin s.calls caller hparse hdump] at h
                  cases h
              | ok payloadJson =>
                  rw [answerText_of_accepted core s.plugin s.calls caller hparse hdump] at h
                  cases h
                  have heffect :=
                    @Effect.answered F C kit core s connection text caller frame _ hparse hdump
                  rw [← answerFrame_calls core s.plugin s.calls caller frame payloadJson] at heffect
                  exact heffect
  | onCoreAsyncResult cmdId payloadJson =>
      rw [TransportState.step] at h
      cases hlookup : s.pending.lookup cmdId with
      | none =>
          rw [hlookup] at h
          cases h
          exact .dropped (AList.lookup_eq_none.mp hlookup)
      | some pending =>
          rw [hlookup] at h
          dsimp only at h
          cases hframe : answerResult kit pending payloadJson with
          | error fault =>
              rw [hframe] at h
              cases h
          | ok frame =>
              rw [hframe] at h
              cases h
              exact .settled hlookup hframe
  | onCoreEvent topic payloadJson connections =>
      cases h
      exact .announced topic payloadJson connections

/-! ## What the clients are told -/

variable (kit core)

/-- The messages of a step, by whom they go to. -/
def told (s : TransportState F C) : Input F C → List (C × Message)
  | .attachCoreFacade _ => []
  | .receive connection text caller =>
      match parseCommandFrame kit.parse kit.trimmed text with
      | .error _ => []
      | .ok (.error error) => [(connection, .protocolError error.cid error.code)]
      | .ok (.ok frame) =>
          match kit.dump frame.payload with
          | .error _ => []
          | .ok payloadJson =>
              [(connection, replyTo core s.plugin s.calls frame payloadJson caller)]
  | .onCoreAsyncResult cmdId _ =>
      match s.pending.lookup cmdId with
      | none => []
      | some pending => [(pending.connection, .response pending.cid pending.cmdTopic)]
  | .onCoreEvent topic _ connections => connections.map fun connection => (connection, .event topic)

variable {kit core}

/-- What the clients read off the wire. -/
def messagesOf (sent : List (C × Bytes)) : List (C × Message) :=
  sent.filterMap fun frame => (readMessage frame.2).map fun message => (frame.1, message)

theorem messagesOf_append (sent sent' : List (C × Bytes)) :
    messagesOf (sent ++ sent') = messagesOf sent ++ messagesOf sent' :=
  List.filterMap_append

theorem messagesOf_singleton {connection : C} {frame : Bytes} {message : Message}
    (h : readMessage frame = some message) :
    messagesOf [(connection, frame)] = [(connection, message)] := by
  simp [messagesOf, h]

/-- One text for all of them is one message for each. -/
theorem messagesOf_map {connections : List C} {frame : Bytes} {message : Message}
    (h : readMessage frame = some message) :
    messagesOf (connections.map fun connection => (connection, frame)) =
      connections.map fun connection => (connection, message) := by
  induction connections with
  | nil => rfl
  | cons connection connections ih =>
      rw [List.map_cons, List.map_cons, ← List.singleton_append, messagesOf_append, ih,
        messagesOf_singleton h]
      rfl

/-- Core sends JSON text with an event, or nothing. -/
def Input.WellFormed : Input F C → Prop
  | .onCoreEvent _ payloadJson _ => ∃ payload, SlotText payload payloadJson
  | _ => True

/-- Every remembered topic is UTF-8, so it can be written into a response. -/
def TopicsUtf8 (s : TransportState F C) : Prop :=
  ∀ cmdId pending, s.pending.lookup cmdId = some pending → validUtf8 pending.cmdTopic = true

section

variable {float : Number → Option Binary64} {space : UInt8 → Bool} {s s' : TransportState F C}
  {input : Input F C}

theorem Effect.topicsUtf8 (hkit : kit.Lawful float space) (h : Effect kit core s input s')
    (hs : TopicsUtf8 s) : TopicsUtf8 s' := by
  cases h with
  | attached coreFacade => exact hs
  | refused hparse => exact hs
  | @answered connection text caller frame payloadJson hparse hdump =>
      intro cmdId pending hlookup
      dsimp only at hlookup
      unfold TransportState.remember at hlookup
      split_ifs at hlookup with hpos
      · by_cases hid :
            cmdId = (answerFrame kit core s.plugin s.calls frame payloadJson caller).1.cmdId
        · rw [hid, AList.lookup_insert] at hlookup
          cases hlookup
          exact (accepted_of_parse hkit hparse).topic_utf8
        · rw [AList.lookup_insert_ne hid] at hlookup
          exact hs cmdId pending hlookup
      · exact hs cmdId pending hlookup
  | @settled cmdId payloadJson frame pending hlookup hframe =>
      intro cmdId' pending' hlookup'
      dsimp only at hlookup'
      by_cases hid : cmdId' = cmdId
      · rw [hid, AList.lookup_erase] at hlookup'
        cases hlookup'
      · rw [AList.lookup_erase_ne hid] at hlookup'
        exact hs cmdId' pending' hlookup'
  | dropped hid => exact hs
  | announced topic payloadJson connections => exact hs

/-- **The wire says what was told**, frame by frame. -/
theorem Effect.messages (hkit : kit.Lawful float space) (hcore : SendsPayloads core)
    (hinput : input.WellFormed) (hs : TopicsUtf8 s) (h : Effect kit core s input s') :
    messagesOf s'.sent = messagesOf s.sent ++ told kit core s input := by
  cases h with
  | attached coreFacade => exact (List.append_nil _).symm
  | refused hparse =>
      rw [told, hparse, messagesOf_append, messagesOf_singleton (readMessage_refusalFrame _)]
  | @answered connection text caller frame payloadJson hparse hdump =>
      rw [told, hparse]
      dsimp only
      rw [hdump, messagesOf_append,
        messagesOf_singleton (readMessage_answerFrame s.plugin s.calls caller hkit hcore frame _)]
  | @settled cmdId payloadJson frame pending hlookup hframe =>
      obtain ⟨frame', hframe', hread⟩ :=
        readMessage_answerResult hkit (hs cmdId pending hlookup) payloadJson
      rw [hframe] at hframe'
      cases hframe'
      rw [told, hlookup, messagesOf_append, messagesOf_singleton hread]
  | dropped hid =>
      rw [told, AList.lookup_eq_none.mpr hid, List.append_nil]
  | announced topic payloadJson connections =>
      obtain ⟨payload, hpayload⟩ := hinput
      rw [told, messagesOf_append, messagesOf_map (readMessage_eventFrame hpayload topic)]

end

/-! ## Runs -/

section

variable {pluginType : Bytes} {inputs : List (Input F C)}

theorem run_concat (inputs : List (Input F C)) (input : Input F C) :
    TransportState.run kit core pluginType (inputs ++ [input]) =
      (TransportState.run kit core pluginType inputs).bind fun s => s.step kit core input := by
  unfold TransportState.run
  rw [List.foldlM_append]
  show Except.bind _ _ = Except.bind _ _
  congr 1
  funext s
  rw [List.foldlM_cons]
  show Except.bind _ _ = _
  cases s.step kit core input with
  | error fault => rfl
  | ok s' => rfl

/-- **Induction on a run**: what holds at first and is kept by every step holds
wherever a run ends. -/
theorem run_induction {motive : List (Input F C) → TransportState F C → Prop}
    (init : motive [] { plugin := { pluginType } })
    (step : ∀ inputs s input s', motive inputs s → Effect kit core s input s' →
      motive (inputs ++ [input]) s')
    {s : TransportState F C} (h : TransportState.run kit core pluginType inputs = .ok s) :
    motive inputs s := by
  induction inputs using List.reverseRecOn generalizing s with
  | nil =>
      cases h
      exact init
  | append_singleton inputs input ih =>
      rw [run_concat] at h
      cases hrun : TransportState.run kit core pluginType inputs with
      | error fault =>
          rw [hrun] at h
          cases h
      | ok s₀ =>
          rw [hrun] at h
          exact step inputs s₀ input s (ih hrun) (effect_of_step h)

end

/-! ## What stops a transport -/

/-- The `cid` of the text is the one number whose conversion is undefined. -/
def OverflowingCid (parse : Bytes → Value) (text : Bytes) : Prop :=
  ∃ ms it, parse text = .object ms ∧ ms.lookup (ascii "cid") = some it ∧
    it.getDouble = .ok twoPow64

theorem readCid_eq_error_iff {value : Value} {fault : Fault} :
    readCid value = .error fault ↔ fault = .undefined ∧ value.getDouble = .ok twoPow64 := by
  cases hd : value.getDouble with
  | ok d =>
      rw [readCid_number hd]
      by_cases htop : d = twoPow64
      · rw [htop, cidFromNumber_twoPow64]
        simp [eq_comm]
      · rw [cidFromNumber_of_ne htop]
        simp [htop]
  | error fault' =>
      cases value with
      | numberUnsigned n => exact absurd hd (by simp [Value.getDouble])
      | numberInteger i => exact absurd hd (by simp [Value.getDouble])
      | numberFloat d => exact absurd hd (by simp [Value.getDouble])
      | _ => simp [readCid, Value.isNumber, Value.isString, Value.getString, Except.map]

theorem parseCommandFrame_eq_error_iff {parse : Bytes → Value} {trimmed : Bytes → Bytes}
    {text : Bytes} {fault : Fault} :
    parseCommandFrame parse trimmed text = .error fault ↔
      fault = .undefined ∧ OverflowingCid parse text := by
  rcases (parse text).isObject_cases with hobj | ⟨ms, hms⟩
  · rw [parseCommandFrame_of_not_object hobj]
    refine iff_of_false nofun ?_
    rintro ⟨-, ms, it, hms, -⟩
    rw [hms] at hobj
    cases hobj
  · rw [parseCommandFrame_object hms]
    have hmap : (memberCid ms).map (checkFrame trimmed ms) = .error fault ↔
        memberCid ms = .error fault := by
      cases memberCid ms <;> simp [Except.map]
    rw [hmap, memberCid_eq_error_iff]
    constructor
    · rintro ⟨it, hit, hread⟩
      obtain ⟨hfault, hd⟩ := readCid_eq_error_iff.mp hread
      exact ⟨hfault, ms, it, hms, hit, hd⟩
    · rintro ⟨hfault, ms', it, hms', hit, hd⟩
      rw [hms] at hms'
      cases hms'
      exact ⟨it, hit, readCid_eq_error_iff.mpr ⟨hfault, hd⟩⟩

section

variable {float : Number → Option Binary64} {space : UInt8 → Bool} {s : TransportState F C}

/-- An input the transport has an answer to. -/
def Input.Defined (kit : Toolkit) : Input F C → Prop
  | .receive _ text _ => ¬OverflowingCid kit.parse text
  | _ => True

/-- A step fails on an undefined conversion and on nothing else. -/
theorem step_cases (hkit : kit.Lawful float space) (core : Core F) (hs : TopicsUtf8 s)
    (input : Input F C) :
    (input.Defined kit ∧ ∃ s', s.step kit core input = .ok s') ∨
      (¬input.Defined kit ∧ s.step kit core input = .error .undefined) := by
  cases input with
  | attachCoreFacade coreFacade => exact Or.inl ⟨trivial, _, rfl⟩
  | receive connection text caller =>
      unfold Input.Defined
      rw [TransportState.step]
      cases hparse : parseCommandFrame kit.parse kit.trimmed text with
      | error fault =>
          obtain ⟨rfl, hover⟩ := parseCommandFrame_eq_error_iff.mp hparse
          rw [answerText_of_fault core s.plugin s.calls caller hparse]
          exact Or.inr ⟨not_not.mpr hover, rfl⟩
      | ok read =>
          have hdefined : ¬OverflowingCid kit.parse text := by
            intro hover
            have hfault : parseCommandFrame kit.parse kit.trimmed text = .error .undefined :=
              parseCommandFrame_eq_error_iff.mpr ⟨rfl, hover⟩
            rw [hparse] at hfault
            cases hfault
          refine Or.inl ⟨hdefined, ?_⟩
          cases read with
          | error error =>
              rw [answerText_of_refused core s.plugin s.calls caller hparse]
              exact ⟨_, rfl⟩
          | ok frame =>
              obtain ⟨payloadJson, -, -, -, hdump, -⟩ :=
                (accepted_of_parse hkit hparse).dump_payload hkit
              rw [answerText_of_accepted core s.plugin s.calls caller hparse hdump]
              exact ⟨_, rfl⟩
  | onCoreAsyncResult cmdId payloadJson =>
      refine Or.inl ⟨trivial, ?_⟩
      rw [TransportState.step]
      cases hlookup : s.pending.lookup cmdId with
      | none => exact ⟨_, rfl⟩
      | some pending =>
          obtain ⟨frame, hframe, -⟩ :=
            readMessage_answerResult hkit (hs cmdId pending hlookup) payloadJson
          dsimp only
          rw [hframe]
          exact ⟨_, rfl⟩
  | onCoreEvent topic payloadJson connections => exact Or.inl ⟨trivial, _, rfl⟩

variable {pluginType : Bytes} {inputs : List (Input F C)}

theorem topicsUtf8_run (hkit : kit.Lawful float space)
    (h : TransportState.run kit core pluginType inputs = .ok s) : TopicsUtf8 s := by
  refine run_induction (motive := fun _ s => TopicsUtf8 s) ?_ ?_ h
  · intro cmdId pending hlookup
    cases hlookup
  · intro inputs s input s' hs heffect
    exact heffect.topicsUtf8 hkit hs

/-- Induction on a run of inputs that are each as `P` asks: a step may rely on it,
and on every remembered topic being UTF-8. -/
theorem run_induction_of (hkit : kit.Lawful float space) {P : Input F C → Prop}
    {motive : List (Input F C) → TransportState F C → Prop}
    (init : motive [] { plugin := { pluginType } })
    (step : ∀ inputs s input s', P input → TopicsUtf8 s → motive inputs s →
      Effect kit core s input s' → motive (inputs ++ [input]) s')
    (hinputs : ∀ input ∈ inputs, P input)
    (h : TransportState.run kit core pluginType inputs = .ok s) : motive inputs s := by
  refine (run_induction (motive := fun inputs s =>
    (∀ input ∈ inputs, P input) → TopicsUtf8 s ∧ motive inputs s) ?_ ?_ h hinputs).2
  · intro _
    refine ⟨?_, init⟩
    intro cmdId pending hlookup
    cases hlookup
  · intro inputs s input s' ih heffect hall
    obtain ⟨htopics, hs⟩ := ih fun i hi => hall i (List.mem_append_left _ hi)
    exact ⟨heffect.topicsUtf8 hkit htopics,
      step inputs s input s' (hall input (by simp)) htopics hs heffect⟩

/-- A run ends where every input is defined, and is undefined where one is not. -/
theorem run_cases (hkit : kit.Lawful float space) (core : Core F) (pluginType : Bytes)
    (inputs : List (Input F C)) :
    ((∀ input ∈ inputs, input.Defined kit) ∧
        ∃ s, TransportState.run kit core pluginType inputs = .ok s) ∨
      ((∃ input ∈ inputs, ¬input.Defined kit) ∧
        TransportState.run kit core pluginType inputs = .error .undefined) := by
  induction inputs using List.reverseRecOn with
  | nil => exact Or.inl ⟨by simp, _, rfl⟩
  | append_singleton inputs input ih =>
      rw [run_concat]
      rcases ih with ⟨hall, s, hrun⟩ | ⟨⟨bad, hbad, hnot⟩, hrun⟩
      · rw [hrun]
        rcases step_cases hkit core (topicsUtf8_run hkit hrun) input with
          ⟨hdefined, s', hstep⟩ | ⟨hnot, hstep⟩
        · refine Or.inl ⟨?_, s', hstep⟩
          intro i hi
          rcases List.mem_append.mp hi with hi | hi
          · exact hall i hi
          · rw [List.mem_singleton.mp hi]
            exact hdefined
        · exact Or.inr ⟨⟨input, by simp, hnot⟩, hstep⟩
      · rw [hrun]
        exact Or.inr ⟨⟨bad, List.mem_append_left _ hbad, hnot⟩, rfl⟩

/-- **One number stops a transport.** Whatever arrives, nothing throws; and a run
is defined unless a client sent a `cid` that the cast has no value for. -/
theorem run_defined_iff (hkit : kit.Lawful float space) (core : Core F) (pluginType : Bytes)
    (inputs : List (Input F C)) :
    TransportState.run kit core pluginType inputs ≠ .error .thrown ∧
      ((∃ s, TransportState.run kit core pluginType inputs = .ok s) ↔
        ∀ connection text caller, .receive connection text caller ∈ inputs →
          ¬OverflowingCid kit.parse text) := by
  have hdefined : (∀ input ∈ inputs, input.Defined kit) ↔
      ∀ connection text caller, .receive connection text caller ∈ inputs →
        ¬OverflowingCid kit.parse text := by
    constructor
    · intro h connection text caller hmem
      exact h _ hmem
    · rintro h (coreFacade | ⟨connection, text, caller⟩ | ⟨cmdId, payloadJson⟩ |
        ⟨topic, payloadJson, connections⟩) hmem
      · trivial
      · exact h connection text caller hmem
      · trivial
      · trivial
  rw [← hdefined]
  rcases run_cases hkit core pluginType inputs with
    ⟨hall, s, hrun⟩ | ⟨⟨input, hmem, hnot⟩, hrun⟩
  · rw [hrun]
    exact ⟨nofun, iff_of_true ⟨s, rfl⟩ hall⟩
  · rw [hrun]
    exact ⟨by simp, iff_of_false (by simp) fun hall => hnot (hall input hmem)⟩

end

end

/-! ## A sample run -/

theorem overflowingCid_sampleFrame_iff (n : CmdId) :
    OverflowingCid sampleKit.parse (sampleFrame n) ↔ ¬n.toNat < 2 ^ 64 - 1024 := by
  have hlookup := (lookup_build_commandMembers (ascii "cmd.x") n (.object [])).2.2.1
  have hparse : sampleKit.parse = parseIntegers := rfl
  rw [← ofUInt64_eq_twoPow64_iff, hparse]
  constructor
  · rintro ⟨ms, it, hms, hit, hd⟩
    rw [parse_sampleFrame n] at hms
    rw [← Value.object.inj hms, hlookup] at hit
    rw [← Option.some.inj hit] at hd
    exact Except.ok.inj hd
  · intro h
    refine ⟨_, .numberUnsigned n, parse_sampleFrame n, hlookup, ?_⟩
    rw [Value.getDouble, h]

/-- Two clients under one `cid`, and the result of the first command. -/
def sampleInputs (n : CmdId) : List (Input Unit ℕ) :=
  [.attachCoreFacade (some ()), .receive 0 (sampleFrame n) {}, .onCoreEvent (ascii "event.x") [] [1],
    .receive 1 (sampleFrame n) {}, .onCoreAsyncResult 1 []]

theorem run_defined_sampleInputs :
    (∃ s, TransportState.run sampleKit sampleCore (ascii "ws") (sampleInputs 7) = .ok s) ∧
      ¬∃ s, TransportState.run sampleKit sampleCore (ascii "ws")
        (sampleInputs 18446744073709551615) = .ok s := by
  have hframes : ∀ n : CmdId, (∀ connection text caller,
      .receive connection text caller ∈ sampleInputs n → ¬OverflowingCid sampleKit.parse text) ↔
        ¬OverflowingCid sampleKit.parse (sampleFrame n) := by
    intro n
    constructor
    · intro h
      exact h 0 (sampleFrame n) {} (by simp [sampleInputs])
    · rintro h connection text caller hmem
      have htext : text = sampleFrame n := by
        simp only [sampleInputs, List.mem_cons, Input.receive.injEq, reduceCtorEq, false_or,
          or_false, List.not_mem_nil] at hmem
        rcases hmem with hmem | hmem
        · exact hmem.2.1
        · exact hmem.2.1
      rw [htext]
      exact h
  constructor
  · rw [(run_defined_iff lawful_sampleKit sampleCore (ascii "ws") (sampleInputs 7)).2, hframes,
      overflowingCid_sampleFrame_iff]
    decide
  · rw [(run_defined_iff lawful_sampleKit sampleCore (ascii "ws")
      (sampleInputs 18446744073709551615)).2, hframes, overflowingCid_sampleFrame_iff]
    decide

theorem wellFormed_sampleInputs (n : CmdId) : ∀ input ∈ sampleInputs n, input.WellFormed := by
  intro input hmem
  simp only [sampleInputs, List.mem_cons, List.not_mem_nil, or_false] at hmem
  rcases hmem with rfl | rfl | rfl | rfl | rfl
  · trivial
  · trivial
  · exact ⟨.obj [], Or.inl ⟨rfl, rfl⟩⟩
  · trivial
  · trivial

/-- The sample run comes to its end, whatever core answers. -/
theorem exists_run_sampleInputs (core : Core Unit) :
    ∃ s, TransportState.run sampleKit core (ascii "ws") (sampleInputs 7) = .ok s := by
  have hframe : ¬OverflowingCid sampleKit.parse (sampleFrame 7) := by
    rw [overflowingCid_sampleFrame_iff]
    decide
  rcases run_cases lawful_sampleKit core (ascii "ws") (sampleInputs 7) with
    ⟨-, s, hrun⟩ | ⟨⟨input, hmem, hnot⟩, -⟩
  · exact ⟨s, hrun⟩
  · simp only [sampleInputs, List.mem_cons, List.not_mem_nil, or_false] at hmem
    rcases hmem with rfl | rfl | rfl | rfl | rfl
    · exact absurd trivial hnot
    · exact absurd hframe hnot
    · exact absurd trivial hnot
    · exact absurd hframe hnot
    · exact absurd trivial hnot

end PhiTransport
