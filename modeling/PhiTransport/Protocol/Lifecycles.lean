import PhiTransport.Protocol.Settlement

/-!
# The life of a command, as its client sees it

A client has nothing but the `cid` it chose to tell what an answer is about, and
it needs core to keep no promise for that. On a connection whose commands were
read with different `cid`s there is one ack for each, and a response only where
the ack accepts, once, with the topic of that command: also where core gives ids
out again, answers one twice or answers what it never took.
-/

namespace PhiTransport

open Octets Rfc8259 Nlohmann Correlation

section

variable {F C : Type}

/-- The commands that came in for the `cmd.*` door, in order. -/
def commandsOf (kit : Toolkit) (inputs : List (Input F C)) : List (Pending C) :=
  inputs.filterMap fun
    | .receive connection text _ =>
        match parseCommandFrame kit.parse kit.trimmed text with
        | .ok (.ok frame) =>
            if doorOf frame.topic = .cmd then some ⟨connection, frame.cid, frame.topic⟩ else none
        | _ => none
    | _ => none

/-- The commands clients were told of at once, and whether core took them. -/
def ackedOf (messages : List (C × Message)) : List (Pending C × Bool) :=
  messages.filterMap fun m =>
    match m.2 with
    | .ack cid accepted cmd => some (⟨m.1, cid, cmd⟩, accepted)
    | _ => none

theorem commandsOf_append (kit : Toolkit) (inputs inputs' : List (Input F C)) :
    commandsOf kit (inputs ++ inputs') = commandsOf kit inputs ++ commandsOf kit inputs' :=
  List.filterMap_append

theorem ackedOf_append (messages messages' : List (C × Message)) :
    ackedOf (messages ++ messages') = ackedOf messages ++ ackedOf messages' :=
  List.filterMap_append

/-- The accepted commands are those whose ack says so. -/
theorem acceptedOf_eq (messages : List (C × Message)) :
    acceptedOf messages = ((ackedOf messages).filter (·.2)).map Prod.fst := by
  induction messages with
  | nil => rfl
  | cons m messages ih =>
      rw [← List.singleton_append, acceptedOf_append, ackedOf_append, List.filter_append,
        List.map_append, ih]
      congr 1
      obtain ⟨connection, message⟩ := m
      cases message with
      | ack cid accepted cmd => cases accepted <;> rfl
      | _ => rfl

theorem ackedOf_reply (core : Core F) (plugin : TransportPluginBase F) (log : List (CoreCall F))
    (frame : CommandFrame) (payloadJson : Bytes) (caller : CallerIdentity) (connection : C) :
    (ackedOf [(connection, replyTo core plugin log frame payloadJson caller)]).map Prod.fst =
      if doorOf frame.topic = .cmd then [⟨connection, frame.cid, frame.topic⟩] else [] := by
  unfold replyTo
  cases doorOf frame.topic with
  | sync => rfl
  | cmd => rfl
  | unknown => rfl

theorem ackedOf_events (connections : List C) (topic : Bytes) :
    ackedOf (connections.map fun connection => (connection, Message.event topic)) = [] := by
  simp [ackedOf]

variable {kit : Toolkit} {core : Core F} {s s' : TransportState F C} {input : Input F C}

/-- A step acks the command it is about, if it is about one. -/
theorem Effect.acked (h : Effect kit core s input s') :
    (ackedOf (told kit core s input)).map Prod.fst = commandsOf kit [input] := by
  cases h with
  | attached coreFacade => rfl
  | @refused connection text caller error hparse =>
      simp [told, commandsOf, ackedOf, hparse]
  | @answered connection text caller frame payloadJson hparse hdump =>
      rw [told, hparse]
      dsimp only
      rw [hdump]
      dsimp only
      rw [ackedOf_reply]
      by_cases hdoor : doorOf frame.topic = .cmd
      · simp [commandsOf, hparse, hdoor]
      · simp [commandsOf, hparse, hdoor]
  | @settled cmdId payloadJson frame pending hlookup hframe =>
      rw [told, hlookup]
      rfl
  | dropped hid =>
      rw [told, AList.lookup_eq_none.mpr hid]
      rfl
  | announced topic payloadJson connections =>
      rw [told, ackedOf_events]
      rfl

variable {float : Number → Option Binary64} {space : UInt8 → Bool} {pluginType : Bytes}
  {inputs : List (Input F C)}

/-- Every command is acked, once and in order. -/
theorem acked_run (hkit : kit.Lawful float space) (hcore : SendsPayloads core)
    (hinputs : ∀ input ∈ inputs, input.WellFormed)
    (h : TransportState.run kit core pluginType inputs = .ok s) :
    (ackedOf (messagesOf s.sent)).map Prod.fst = commandsOf kit inputs := by
  refine run_induction_of hkit (motive := fun inputs s =>
    (ackedOf (messagesOf s.sent)).map Prod.fst = commandsOf kit inputs) rfl ?_ hinputs h
  intro inputs s input s' hinput hs hacked heffect
  rw [heffect.messages hkit hcore hinput hs, ackedOf_append, List.map_append, hacked,
    heffect.acked, commandsOf_append]

variable [DecidableEq C]

/-- **A `cid` is enough.** Whatever core does, on a connection whose commands were
read with different `cid`s no two responses carry one `cid`, and a response comes
only where the ack with its `cid`, the only one there is, accepts the command and
names the topic of the response. -/
theorem cid_correlates (hkit : kit.Lawful float space) (hcore : SendsPayloads core)
    (hinputs : ∀ input ∈ inputs, input.WellFormed)
    (h : TransportState.run kit core pluginType inputs = .ok s) {connection : C}
    (hdistinct : (((commandsOf kit inputs).filter (·.connection = connection)).map
      Pending.cid).Nodup) :
    let messages := messagesOf s.sent
    let responses := (respondedOf messages).filter (·.connection = connection)
    (ackedOf messages).map Prod.fst = commandsOf kit inputs ∧
    (responses.map Pending.cid).Nodup ∧
    ∀ response ∈ responses, (response, true) ∈ ackedOf messages ∧
      ∀ acked ∈ ackedOf messages, acked.1.connection = connection →
        acked.1.cid = response.cid → acked = (response, true) := by
  intro messages responses
  have hacked : (ackedOf messages).map Prod.fst = commandsOf kit inputs :=
    acked_run hkit hcore hinputs h
  obtain ⟨moves, hmoves⟩ := (runInvariant_run hkit hcore hinputs h).ledger
  have hsettled : (respondedOf messages : Multiset (Pending C)) ≤ acceptedOf messages :=
    (Multiset.le_add_right _ _).trans hmoves.settled_le
  -- the acks of the connection, by their `cid`s
  let acks := (ackedOf messages).filter (·.1.connection = connection)
  have hacks : (acks.map (·.1.cid)).Nodup := by
    rw [← hacked, List.filter_map, List.map_map] at hdistinct
    exact hdistinct
  have haccepted : (acceptedOf messages).Sublist ((ackedOf messages).map Prod.fst) := by
    rw [acceptedOf_eq]
    exact List.filter_sublist.map _
  refine ⟨hacked, ?_, ?_⟩
  · have hle : (responses : Multiset (Pending C)) ≤
        ((commandsOf kit inputs).filter (·.connection = connection) : List (Pending C)) := by
      rw [hacked] at haccepted
      have hle := Multiset.filter_le_filter (·.connection = connection)
        (hsettled.trans (Multiset.coe_le.mpr haccepted.subperm))
      rwa [Multiset.filter_coe, Multiset.filter_coe] at hle
    exact Multiset.nodup_of_le (Multiset.map_le_map hle) hdistinct
  · intro response hresponse
    obtain ⟨hmem, hconnection⟩ := List.mem_filter.mp hresponse
    have htaken : response ∈ acceptedOf messages := Multiset.mem_of_le hsettled hmem
    rw [acceptedOf_eq] at htaken
    obtain ⟨⟨_, accepted⟩, hfiltered, rfl⟩ := List.mem_map.mp htaken
    obtain ⟨hack, htrue⟩ := List.mem_filter.mp hfiltered
    have heq : accepted = true := htrue
    subst heq
    refine ⟨hack, fun acked hmem' hconnection' hcid => ?_⟩
    exact List.inj_on_of_nodup_map hacks (List.mem_filter.mpr ⟨hmem', decide_eq_true hconnection'⟩)
      (List.mem_filter.mpr ⟨hack, hconnection⟩) hcid

end

/-- A core that gives every command the same id. -/
def forgetfulCore : Core Unit where
  syncResult _ := {}
  asyncResult _ := { accepted := true, cmdId := 1 }

theorem commandsOf_sampleInputs :
    commandsOf sampleKit (sampleInputs 7) = [⟨0, 7, ascii "cmd.x"⟩, ⟨1, 7, ascii "cmd.x"⟩] := by
  have hreceive : ∀ connection : ℕ, commandsOf (F := Unit) sampleKit
      [.receive connection (sampleFrame 7) {}] = [⟨connection, 7, ascii "cmd.x"⟩] := by
    intro connection
    unfold commandsOf
    rw [List.filterMap_cons]
    dsimp only
    rw [parseCommandFrame_sampleKit]
    dsimp only
    rw [if_pos (by decide)]
    rfl
  have hparts : sampleInputs 7 = [.attachCoreFacade (some ())] ++
      ([.receive 0 (sampleFrame 7) {}] ++ ([.onCoreEvent (ascii "event.x") [] [1]] ++
        ([.receive 1 (sampleFrame 7) {}] ++ [.onCoreAsyncResult 1 []]))) := rfl
  rw [hparts, commandsOf_append, commandsOf_append, commandsOf_append, commandsOf_append,
    hreceive, hreceive]
  rfl

theorem cid_correlates_forgetfulCore :
    ∃ s, TransportState.run sampleKit forgetfulCore (ascii "ws") (sampleInputs 7) = .ok s ∧
      (((respondedOf (messagesOf s.sent)).filter (·.connection = 1)).map Pending.cid).Nodup := by
  obtain ⟨s, hrun⟩ := exists_run_sampleInputs forgetfulCore
  have hdistinct : (((commandsOf sampleKit (sampleInputs 7)).filter (·.connection = 1)).map
      Pending.cid).Nodup := by
    rw [commandsOf_sampleInputs]
    decide
  exact ⟨s, hrun, (cid_correlates lawful_sampleKit (fun _ h => absurd h Bool.false_ne_true)
    (wellFormed_sampleInputs 7) hrun hdistinct).2.1⟩

end PhiTransport
