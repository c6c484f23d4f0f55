import PhiTransport.Protocol.Runs

/-!
# Commands are settled once

What a client was told on acceptance and what it is told with the result, both
read off the wire, are the two sides of the ledger of requests in flight. A run
refines it (`Refines.step`), so no response comes without an accepted command
behind it, none comes twice, and what is neither answered nor waited for was
lost to an id that core handed out again.
-/

namespace PhiTransport

open Octets Rfc8259 Nlohmann Correlation

section

variable {F C : Type}

/-! ## Both ends of a command -/

/-- The commands clients were told core took. -/
def acceptedOf (messages : List (C × Message)) : List (Pending C) :=
  messages.filterMap fun m =>
    match m.2 with
    | .ack cid true cmd => some ⟨m.1, cid, cmd⟩
    | _ => none

/-- The commands clients were told the result of. -/
def respondedOf (messages : List (C × Message)) : List (Pending C) :=
  messages.filterMap fun m =>
    match m.2 with
    | .response cid cmd => some ⟨m.1, cid, cmd⟩
    | _ => none

theorem acceptedOf_append (messages messages' : List (C × Message)) :
    acceptedOf (messages ++ messages') = acceptedOf messages ++ acceptedOf messages' :=
  List.filterMap_append

theorem respondedOf_append (messages messages' : List (C × Message)) :
    respondedOf (messages ++ messages') = respondedOf messages ++ respondedOf messages' :=
  List.filterMap_append

theorem acceptedOf_events (connections : List C) (topic : Bytes) :
    acceptedOf (connections.map fun connection => (connection, Message.event topic)) = [] := by
  simp [acceptedOf]

theorem respondedOf_events (connections : List C) (topic : Bytes) :
    respondedOf (connections.map fun connection => (connection, Message.event topic)) = [] := by
  simp [respondedOf]

variable {core : Core F} {plugin : TransportPluginBase F} {log : List (CoreCall F)}
  {frame : CommandFrame} {payloadJson : Bytes} {caller : CallerIdentity}

theorem acceptedOf_reply (connection : C) :
    acceptedOf [(connection, replyTo core plugin log frame payloadJson caller)] =
      if TakenFor core plugin log frame payloadJson caller then
        [⟨connection, frame.cid, frame.topic⟩] else [] := by
  by_cases htaken : TakenFor core plugin log frame payloadJson caller
  · rw [if_pos htaken, replyTo, htaken.1]
    simp [acceptedOf, htaken.2]
  · rw [if_neg htaken, replyTo]
    cases hdoor : doorOf frame.topic with
    | sync => rfl
    | cmd =>
        have hnot : ¬(plugin.asyncAnswer core log frame.topic payloadJson caller).Taken :=
          fun h => htaken ⟨hdoor, h⟩
        simp [acceptedOf, hnot]
    | unknown => rfl

/-- An immediate answer is never a response. -/
theorem respondedOf_reply (connection : C) :
    respondedOf [(connection, replyTo core plugin log frame payloadJson caller)] = [] := by
  unfold replyTo
  cases doorOf frame.topic with
  | sync => rfl
  | cmd => rfl
  | unknown => rfl

end

/-! ## The transport refines the ledger -/

section

variable {F C : Type} {kit : Toolkit} (core : Core F)

/-- Core gave out `cmdId` for one of the calls. -/
def HandedOut (calls : List (CoreCall F)) (cmdId : CmdId) : Prop :=
  ∃ log call more, calls = log ++ call :: more ∧ (core.asyncResult (log ++ [call])).Taken ∧
    (core.asyncResult (log ++ [call])).cmdId = cmdId

/-- No id is given to two commands that core took. -/
def UniqueIds : Prop :=
  ∀ log call more call',
    let first := core.asyncResult (log ++ [call])
    let second := core.asyncResult (log ++ call :: more ++ [call'])
    first.Taken → second.Taken → first.cmdId ≠ second.cmdId

theorem HandedOut.append {core : Core F} {calls : List (CoreCall F)} {cmdId : CmdId}
    (h : HandedOut core calls cmdId) (calls' : List (CoreCall F)) :
    HandedOut core (calls ++ calls') cmdId := by
  obtain ⟨log, call, more, rfl, htaken, hid⟩ := h
  exact ⟨log, call, more ++ calls', by simp, htaken, hid⟩

/-- An id that core gives now it has given for no call before. -/
theorem UniqueIds.not_handedOut {core : Core F} (h : UniqueIds core) {calls : List (CoreCall F)}
    {call : CoreCall F} (htaken : (core.asyncResult (calls ++ [call])).Taken) :
    ¬HandedOut core calls (core.asyncResult (calls ++ [call])).cmdId := by
  rintro ⟨log, call', more, rfl, htaken', hid⟩
  exact h log call' more call htaken' htaken hid

/-- A state and the ledger of the moves made so far. -/
structure Refines (s : TransportState F C) (moves : List (Move CmdId (Pending C))) : Prop where
  waiting : (Ledger.run moves).waiting = s.pending
  opened : (Ledger.run moves).opened = acceptedOf (messagesOf s.sent)
  settled : (Ledger.run moves).settled = respondedOf (messagesOf s.sent)
  keys : ∀ cmdId ∈ openedKeys moves, HandedOut core s.calls cmdId
  unique : UniqueIds core → (openedKeys moves).Nodup

theorem refines_init (pluginType : Bytes) :
    Refines (C := C) core { plugin := { pluginType } } [] where
  waiting := rfl
  opened := rfl
  settled := rfl
  keys := by simp [openedKeys]
  unique _ := List.nodup_nil

variable {core} {float : Number → Option Binary64} {space : UInt8 → Bool}
  {s s' : TransportState F C} {input : Input F C} {moves : List (Move CmdId (Pending C))}

theorem openedKeys_append (moves moves' : List (Move CmdId (Pending C))) :
    openedKeys (moves ++ moves') = openedKeys moves ++ openedKeys moves' :=
  List.filterMap_append

/-- A step that makes no move and opens or settles nothing on the wire. -/
theorem Refines.stay (h : Refines core s moves) (hpending : s'.pending = s.pending)
    (hopened : acceptedOf (messagesOf s'.sent) = acceptedOf (messagesOf s.sent))
    (hsettled : respondedOf (messagesOf s'.sent) = respondedOf (messagesOf s.sent))
    {calls : List (CoreCall F)} (hcalls : s'.calls = s.calls ++ calls) :
    Refines core s' moves where
  waiting := h.waiting.trans hpending.symm
  opened := h.opened.trans hopened.symm
  settled := h.settled.trans hsettled.symm
  keys cmdId hid := by
    rw [hcalls]
    exact (h.keys cmdId hid).append calls
  unique := h.unique

/-- A command that core took is one call, and the call is what core answered. -/
theorem TakenFor.call {plugin : TransportPluginBase F} {log : List (CoreCall F)}
    {frame : CommandFrame} {payloadJson : Bytes} {caller : CallerIdentity}
    (h : TakenFor core plugin log frame payloadJson caller) :
    ∃ call, callsFor plugin.coreFacade plugin.pluginType frame.topic payloadJson caller = [call] ∧
      plugin.asyncAnswer core log frame.topic payloadJson caller =
        core.asyncResult (log ++ [call]) := by
  obtain ⟨hdoor, htaken⟩ := h
  obtain ⟨facade, hfacade, -⟩ := (asyncAnswer_taken_iff core).mp htaken
  refine ⟨.invokeAsync facade frame.topic payloadJson plugin.pluginType caller, ?_, ?_⟩
  · unfold callsFor
    rw [hfacade, hdoor]
  · unfold TransportPluginBase.asyncAnswer
    rw [hfacade]

/-- A step that opens a request under the id core gave. -/
theorem Refines.open (h : Refines core s moves) {call : CoreCall F} {cmdId : CmdId}
    {request : Pending C} (htaken : (core.asyncResult (s.calls ++ [call])).Taken)
    (hid : (core.asyncResult (s.calls ++ [call])).cmdId = cmdId)
    (hcalls : s'.calls = s.calls ++ [call])
    (hpending : s'.pending = s.pending.insert cmdId request)
    (hopened : acceptedOf (messagesOf s'.sent) = acceptedOf (messagesOf s.sent) ++ [request])
    (hsettled : respondedOf (messagesOf s'.sent) = respondedOf (messagesOf s.sent)) :
    Refines core s' (moves ++ [.opens cmdId request]) where
  waiting := by
    rw [Ledger.run_concat, hpending, ← h.waiting]
    rfl
  opened := by
    rw [Ledger.run_concat, hopened, ← h.opened]
    rfl
  settled := by
    rw [Ledger.run_concat, hsettled, ← h.settled]
    rfl
  keys := by
    rw [openedKeys_append, hcalls]
    intro key hkey
    rcases List.mem_append.mp hkey with hkey | hkey
    · exact (h.keys key hkey).append [call]
    · rw [List.mem_singleton.mp (show key ∈ [cmdId] from hkey)]
      exact ⟨s.calls, call, [], rfl, htaken, hid⟩
  unique := by
    intro hunique
    rw [openedKeys_append]
    refine List.nodup_append.mpr ⟨h.unique hunique, List.nodup_singleton cmdId, ?_⟩
    rintro key hkey key' hkey' rfl
    rw [List.mem_singleton.mp (show key ∈ [cmdId] from hkey'), ← hid] at hkey
    exact hunique.not_handedOut htaken (h.keys _ hkey)

theorem Refines.settle (h : Refines core s moves) {cmdId : CmdId} {request : Pending C}
    (hlookup : s.pending.lookup cmdId = some request) (hcalls : s'.calls = s.calls)
    (hpending : s'.pending = s.pending.erase cmdId)
    (hopened : acceptedOf (messagesOf s'.sent) = acceptedOf (messagesOf s.sent))
    (hsettled : respondedOf (messagesOf s'.sent) = respondedOf (messagesOf s.sent) ++ [request]) :
    Refines core s' (moves ++ [.settles cmdId]) := by
  have hkeys : openedKeys (moves ++ [.settles cmdId]) = openedKeys moves := by
    rw [openedKeys_append]
    exact List.append_nil _
  have hstep := Ledger.step_settles_of_lookup (h.waiting ▸ hlookup)
  constructor
  · rw [Ledger.run_concat, hstep, hpending, ← h.waiting]
  · rw [Ledger.run_concat, hstep, hopened, ← h.opened]
  · rw [Ledger.run_concat, hstep, hsettled, ← h.settled]
  · rw [hkeys, hcalls]
    exact h.keys
  · rw [hkeys]
    exact h.unique

/-- **One step is at most one move**, and the wire shows it. -/
theorem Refines.step (hkit : kit.Lawful float space) (hcore : SendsPayloads core)
    (hinput : input.WellFormed) (hs : TopicsUtf8 s) (heffect : Effect kit core s input s')
    (h : Refines core s moves) : ∃ moves', Refines core s' (moves ++ moves') := by
  have hmessages := heffect.messages hkit hcore hinput hs
  cases heffect with
  | attached coreFacade =>
      refine ⟨[], ?_⟩
      rw [List.append_nil]
      exact h.stay rfl rfl rfl (List.append_nil _).symm
  | @refused connection text caller error hparse =>
      rw [told, hparse] at hmessages
      refine ⟨[], ?_⟩
      rw [List.append_nil]
      refine h.stay rfl ?_ ?_ (List.append_nil _).symm
      · rw [hmessages, acceptedOf_append]
        exact List.append_nil _
      · rw [hmessages, respondedOf_append]
        exact List.append_nil _
  | @answered connection text caller frame payloadJson hparse hdump =>
      rw [told, hparse] at hmessages
      dsimp only at hmessages
      rw [hdump] at hmessages
      have hsettled := congrArg respondedOf hmessages
      rw [respondedOf_append, respondedOf_reply, List.append_nil] at hsettled
      have hopened := congrArg acceptedOf hmessages
      rw [acceptedOf_append, acceptedOf_reply] at hopened
      have hcmdId := answerFrame_cmdId kit core s.plugin s.calls caller frame payloadJson
      by_cases htaken : TakenFor core s.plugin s.calls frame payloadJson caller
      · obtain ⟨call, hcalls, hanswer⟩ := htaken.call
        rw [if_pos htaken] at hopened hcmdId
        rw [hanswer] at hcmdId
        have htaken' : (core.asyncResult (s.calls ++ [call])).Taken := hanswer ▸ htaken.2
        refine ⟨_, h.open htaken' hcmdId.symm ?_ ?_ hopened hsettled⟩
        · rw [hcalls]
        · unfold TransportState.remember
          rw [if_pos (by rw [hcmdId]; exact htaken'.2)]
          rfl
      · rw [if_neg htaken] at hopened hcmdId
        refine ⟨[], ?_⟩
        rw [List.append_nil]
        refine h.stay ?_ (hopened.trans (List.append_nil _)) hsettled rfl
        unfold TransportState.remember
        rw [if_neg (by rw [hcmdId]; decide)]
  | @settled cmdId payloadJson frame pending hlookup hframe =>
      rw [told, hlookup] at hmessages
      refine ⟨_, h.settle hlookup rfl rfl ?_ ?_⟩
      · rw [hmessages, acceptedOf_append]
        exact List.append_nil _
      · rw [hmessages, respondedOf_append]
        rfl
  | dropped hid =>
      refine ⟨[], ?_⟩
      rw [List.append_nil]
      exact h
  | announced topic payloadJson connections =>
      rw [told] at hmessages
      refine ⟨[], ?_⟩
      rw [List.append_nil]
      refine h.stay rfl ?_ ?_ (List.append_nil _).symm
      · rw [hmessages, acceptedOf_append, acceptedOf_events, List.append_nil]
      · rw [hmessages, respondedOf_append, respondedOf_events, List.append_nil]

/-! ## Over a run -/

variable {pluginType : Bytes} {inputs : List (Input F C)}

/-- No response overtakes the ack of its command, wherever the wire is cut. -/
def AckFirst (messages : List (C × Message)) : Prop :=
  ∀ k, (respondedOf (messages.take k) : Multiset (Pending C)) ≤ acceptedOf (messages.take k)

theorem respondedOf_take {messages : List (C × Message)} (h : respondedOf messages = []) (k : ℕ) :
    respondedOf (messages.take k) = [] := by
  have happend := respondedOf_append (messages.take k) (messages.drop k)
  rw [List.take_append_drop, h] at happend
  exact (List.append_eq_nil_iff.mp happend.symm).1

/-- What a step tells holds no response, or is one message. -/
theorem told_take (kit : Toolkit) (core : Core F) (s : TransportState F C) (input : Input F C)
    (k : ℕ) : respondedOf ((told kit core s input).take k) = [] ∨
      (told kit core s input).take k = told kit core s input := by
  have hshort : ∀ messages : List (C × Message), messages.length ≤ 1 →
      respondedOf (messages.take k) = [] ∨ messages.take k = messages := by
    intro messages hlen
    cases k with
    | zero => exact Or.inl rfl
    | succ k => exact Or.inr (List.take_of_length_le (Nat.le_trans hlen (Nat.le_add_left 1 k)))
  cases input with
  | attachCoreFacade coreFacade => exact hshort _ (Nat.zero_le 1)
  | receive connection text caller =>
      apply hshort
      unfold told
      dsimp only
      split
      · exact Nat.zero_le 1
      · exact Nat.le_refl 1
      · split
        · exact Nat.zero_le 1
        · exact Nat.le_refl 1
  | onCoreAsyncResult cmdId payloadJson =>
      apply hshort
      unfold told
      dsimp only
      split
      · exact Nat.zero_le 1
      · exact Nat.le_refl 1
  | onCoreEvent topic payloadJson connections =>
      exact Or.inl (respondedOf_take (respondedOf_events connections topic) k)

theorem AckFirst.append {messages messages' : List (C × Message)} (h : AckFirst messages)
    (hall : (respondedOf (messages ++ messages') : Multiset (Pending C)) ≤
      acceptedOf (messages ++ messages'))
    (htake : ∀ k, respondedOf (messages'.take k) = [] ∨ messages'.take k = messages') :
    AckFirst (messages ++ messages') := by
  intro k
  rw [List.take_append]
  by_cases hk : k ≤ messages.length
  · rw [Nat.sub_eq_zero_of_le hk, List.take_zero, List.append_nil]
    exact h k
  · rw [List.take_of_length_le (Nat.le_of_not_le hk)]
    rcases htake (k - messages.length) with hnone | hsame
    · have hmessages := h messages.length
      rw [List.take_length] at hmessages
      rw [respondedOf_append, hnone, List.append_nil, acceptedOf_append, ← Multiset.coe_add]
      exact hmessages.trans (Multiset.le_add_right _ _)
    · rw [hsame]
      exact hall

theorem Refines.settled_le (h : Refines core s moves) :
    (respondedOf (messagesOf s.sent) : Multiset (Pending C)) + requestsOf s.pending ≤
      acceptedOf (messagesOf s.sent) := by
  rw [← h.opened, ← h.settled, ← h.waiting]
  exact Ledger.settled_le_opened moves

/-- While no id names two commands, what was accepted has been responded to or
is still waited for. -/
theorem Refines.balanced (h : Refines core s moves) (hunique : UniqueIds core) :
    (acceptedOf (messagesOf s.sent) : Multiset (Pending C)) =
      respondedOf (messagesOf s.sent) + requestsOf s.pending := by
  have hbalanced := Ledger.balanced_run moves
  unfold Ledger.Balanced at hbalanced
  rw [Ledger.displaced_run (h.unique hunique), h.opened, h.settled, h.waiting] at hbalanced
  exact hbalanced.trans (add_zero _)

/-- What every step keeps. -/
structure RunInvariant (core : Core F) (s : TransportState F C) : Prop where
  topics : TopicsUtf8 s
  ackFirst : AckFirst (messagesOf s.sent)
  ledger : ∃ moves, Refines core s moves

theorem runInvariant_init (core : Core F) (pluginType : Bytes) :
    RunInvariant (C := C) core { plugin := { pluginType } } where
  topics cmdId pending hlookup := by cases hlookup
  ackFirst k := by simp [messagesOf, respondedOf, acceptedOf]
  ledger := ⟨[], refines_init core pluginType⟩

theorem RunInvariant.step (hkit : kit.Lawful float space) (hcore : SendsPayloads core)
    (hinput : input.WellFormed) (h : RunInvariant core s) (heffect : Effect kit core s input s') :
    RunInvariant core s' := by
  obtain ⟨moves, hmoves⟩ := h.ledger
  obtain ⟨moves', hmoves'⟩ := hmoves.step hkit hcore hinput h.topics heffect
  have hle := hmoves'.settled_le
  refine ⟨heffect.topicsUtf8 hkit h.topics, ?_, _, hmoves'⟩
  rw [heffect.messages hkit hcore hinput h.topics] at hle ⊢
  exact h.ackFirst.append ((Multiset.le_add_right _ _).trans hle) (told_take kit core s input)

theorem runInvariant_run (hkit : kit.Lawful float space) (hcore : SendsPayloads core)
    (hinputs : ∀ input ∈ inputs, input.WellFormed)
    (h : TransportState.run kit core pluginType inputs = .ok s) : RunInvariant core s := by
  refine run_induction_of hkit (motive := fun _ s => RunInvariant core s)
    (runInvariant_init core pluginType) ?_ hinputs h
  intro inputs s input s' hinput _ hs heffect
  exact hs.step hkit hcore hinput heffect

/-- **Commands are settled once.** In any interleaving, the responses a client
reads and the commands still waited for are commands it was told core took, each
counted once, and no response comes before its ack. None of them is lost while
core does not give one id to two commands. -/
theorem commands_settle_once (hkit : kit.Lawful float space) (hcore : SendsPayloads core)
    (hinputs : ∀ input ∈ inputs, input.WellFormed)
    (h : TransportState.run kit core pluginType inputs = .ok s) :
    let messages := messagesOf s.sent
    (respondedOf messages : Multiset (Pending C)) + requestsOf s.pending ≤ acceptedOf messages ∧
      AckFirst messages ∧
      (UniqueIds core → (acceptedOf messages : Multiset (Pending C)) =
        respondedOf messages + requestsOf s.pending) := by
  intro messages
  have hinvariant := runInvariant_run hkit hcore hinputs h
  obtain ⟨moves, hmoves⟩ := hinvariant.ledger
  exact ⟨hmoves.settled_le, hinvariant.ackFirst, hmoves.balanced⟩

end

/-- A core that takes every command and numbers them, as long as it has numbers. -/
def countingCore : Core Unit where
  syncResult _ := {}
  asyncResult log := { accepted := decide (log.length < 2 ^ 64), cmdId := UInt64.ofNat log.length }

theorem sendsPayloads_countingCore : SendsPayloads countingCore :=
  fun _ h => absurd h Bool.false_ne_true

theorem uniqueIds_countingCore : UniqueIds countingCore := by
  intro log call more call' first second hfirst hsecond heq
  have hlt : (log ++ [call]).length < 2 ^ 64 := of_decide_eq_true hfirst.1
  have hlt' : (log ++ call :: more ++ [call']).length < 2 ^ 64 := of_decide_eq_true hsecond.1
  have hnat : (UInt64.ofNat (log ++ [call]).length).toNat =
      (UInt64.ofNat (log ++ call :: more ++ [call']).length).toNat := congrArg UInt64.toNat heq
  rw [UInt64.toNat_ofNat_of_lt' hlt, UInt64.toNat_ofNat_of_lt' hlt'] at hnat
  simp only [List.length_append, List.length_cons, List.length_nil] at hnat
  omega

theorem commands_settle_once_sampleInputs :
    ∃ s, TransportState.run sampleKit countingCore (ascii "ws") (sampleInputs 7) = .ok s ∧
      (acceptedOf (messagesOf s.sent) : Multiset (Pending ℕ)) =
        respondedOf (messagesOf s.sent) + requestsOf s.pending := by
  obtain ⟨s, hrun⟩ := exists_run_sampleInputs countingCore
  exact ⟨s, hrun, (commands_settle_once lawful_sampleKit sendsPayloads_countingCore
    (wellFormed_sampleInputs 7) hrun).2.2 uniqueIds_countingCore⟩

end PhiTransport
