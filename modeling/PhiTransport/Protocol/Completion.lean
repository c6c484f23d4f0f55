import PhiTransport.Protocol.Settlement

/-!
# Every command is settled

Settling at most once is what a transport owes; that it happens at all is up to
core. A command that is still waited for was opened at some step and no result
for it has come since (`waiting_since`), so once core has answered every id it
gave, as many responses have gone out as commands were accepted, and they are
the same ones.
-/

namespace PhiTransport

open Octets Rfc8259 Nlohmann Correlation

section

variable {F C : Type} {kit : Toolkit} {core : Core F} {pluginType : Bytes}
  {s s' : TransportState F C} {input : Input F C} {inputs : List (Input F C)}

/-- The result of `cmdId` is among `inputs`. -/
def Arrives (cmdId : CmdId) (inputs : List (Input F C)) : Prop :=
  ∃ payloadJson, .onCoreAsyncResult cmdId payloadJson ∈ inputs

/-- Core gives out `cmdId` in the step from `s` to `s'`. -/
def GivenOut (core : Core F) (s s' : TransportState F C) (cmdId : CmdId) : Prop :=
  ¬HandedOut core s.calls cmdId ∧ HandedOut core s'.calls cmdId

/-- Core keeps its word in a run: what it gives an id, it answers later. -/
def ResultsArrive (kit : Toolkit) (core : Core F) (pluginType : Bytes)
    (inputs : List (Input F C)) : Prop :=
  ∀ before input after s s' cmdId, inputs = before ++ input :: after →
    TransportState.run kit core pluginType before = .ok s → s.step kit core input = .ok s' →
    GivenOut core s s' cmdId → Arrives cmdId after

/-- Where a command that is still waited for was opened. -/
def WaitingSince (kit : Toolkit) (core : Core F) (pluginType : Bytes)
    (inputs : List (Input F C)) (cmdId : CmdId) : Prop :=
  ∃ before input after s s', inputs = before ++ input :: after ∧
    TransportState.run kit core pluginType before = .ok s ∧ s.step kit core input = .ok s' ∧
    GivenOut core s s' cmdId ∧ ¬Arrives cmdId after

theorem WaitingSince.concat {cmdId : CmdId} (h : WaitingSince kit core pluginType inputs cmdId)
    (hinput : ¬Arrives cmdId [input]) :
    WaitingSince kit core pluginType (inputs ++ [input]) cmdId := by
  obtain ⟨before, input', after, s, s', rfl, hrun, hstep, hgiven, hafter⟩ := h
  refine ⟨before, input', after ++ [input], s, s', by simp, hrun, hstep, hgiven, ?_⟩
  rintro ⟨payloadJson, hmem⟩
  rcases List.mem_append.mp hmem with hmem | hmem
  · exact hafter ⟨payloadJson, hmem⟩
  · exact hinput ⟨payloadJson, hmem⟩

/-- A command that is waited for after a step was given its id in it, or was
waited for before and the step brought no result for it. -/
theorem Effect.waiting (hunique : UniqueIds core) (h : Effect kit core s input s') {cmdId : CmdId}
    (hwait : cmdId ∈ s'.pending) :
    GivenOut core s s' cmdId ∨ (cmdId ∈ s.pending ∧ ¬Arrives cmdId [input]) := by
  cases h with
  | attached coreFacade => exact Or.inr ⟨hwait, by simp [Arrives]⟩
  | refused hparse => exact Or.inr ⟨hwait, by simp [Arrives]⟩
  | @answered connection text caller frame payloadJson hparse hdump =>
      have hcmdId := answerFrame_cmdId kit core s.plugin s.calls caller frame payloadJson
      dsimp only at hwait
      unfold TransportState.remember at hwait
      split_ifs at hwait with hpos
      · rcases (AList.mem_insert _).mp hwait with rfl | hwait
        · left
          by_cases htaken : TakenFor core s.plugin s.calls frame payloadJson caller
          · obtain ⟨call, hcalls, hanswer⟩ := htaken.call
            have htaken' : (core.asyncResult (s.calls ++ [call])).Taken := hanswer ▸ htaken.2
            rw [if_pos htaken, hanswer] at hcmdId
            rw [hcmdId]
            refine ⟨hunique.not_handedOut htaken', s.calls, call, [], ?_, htaken', rfl⟩
            dsimp only
            rw [hcalls]
          · rw [if_neg htaken] at hcmdId
            rw [hcmdId] at hpos
            exact absurd hpos (by decide)
        · exact Or.inr ⟨hwait, by simp [Arrives]⟩
      · exact Or.inr ⟨hwait, by simp [Arrives]⟩
  | @settled cmdId' payloadJson frame pending hlookup hframe =>
      obtain ⟨hne, hwait⟩ := AList.mem_erase.mp hwait
      exact Or.inr ⟨hwait, by simp [Arrives, hne]⟩
  | @dropped cmdId' payloadJson hid =>
      refine Or.inr ⟨hwait, ?_⟩
      have hne : cmdId ≠ cmdId' := fun heq => hid (heq ▸ hwait)
      simp [Arrives, hne]
  | announced topic payloadJson connections => exact Or.inr ⟨hwait, by simp [Arrives]⟩

/-- **What is still waited for** was opened at some step, and no result for it
has come since. -/
theorem waiting_since (hunique : UniqueIds core)
    (h : TransportState.run kit core pluginType inputs = .ok s) {cmdId : CmdId}
    (hwait : cmdId ∈ s.pending) : WaitingSince kit core pluginType inputs cmdId := by
  induction inputs using List.reverseRecOn generalizing s with
  | nil =>
      cases h
      exact absurd hwait (AList.notMem_empty cmdId)
  | append_singleton inputs input ih =>
      rw [run_concat] at h
      cases hrun : TransportState.run kit core pluginType inputs with
      | error fault =>
          rw [hrun] at h
          cases h
      | ok s₀ =>
          rw [hrun] at h
          rcases (effect_of_step h).waiting hunique hwait with hgiven | ⟨hwait, hinput⟩
          · refine ⟨inputs, input, [], s₀, s, rfl, hrun, h, hgiven, ?_⟩
            simp [Arrives]
          · exact (ih hrun hwait).concat hinput

theorem pending_eq_empty (hunique : UniqueIds core)
    (harrive : ResultsArrive kit core pluginType inputs)
    (h : TransportState.run kit core pluginType inputs = .ok s) : s.pending = ∅ := by
  have hnone : ∀ cmdId, cmdId ∉ s.pending := by
    intro cmdId hwait
    obtain ⟨before, input, after, s₀, s₁, hinputs, hrun, hstep, hgiven, hafter⟩ :=
      waiting_since hunique h hwait
    exact hafter (harrive before input after s₀ s₁ cmdId hinputs hrun hstep hgiven)
  have hentries : s.pending.entries = [] := by
    rw [List.eq_nil_iff_forall_not_mem]
    rintro ⟨cmdId, pending⟩ hmem
    exact hnone cmdId (List.mem_keys_of_mem hmem)
  exact AList.ext hentries

/-- **Every command is settled.** Core gives no id twice and answers every id it
gave: then the responses clients read are for the commands they were told core
took, one each and after its ack, however the answers and everything else are
interleaved. -/
theorem every_command_settled {float : Number → Option Binary64} {space : UInt8 → Bool}
    (hkit : kit.Lawful float space) (hcore : SendsPayloads core) (hunique : UniqueIds core)
    (hinputs : ∀ input ∈ inputs, input.WellFormed)
    (harrive : ResultsArrive kit core pluginType inputs)
    (h : TransportState.run kit core pluginType inputs = .ok s) :
    (respondedOf (messagesOf s.sent)).Perm (acceptedOf (messagesOf s.sent)) ∧
      AckFirst (messagesOf s.sent) ∧ s.pending = ∅ := by
  have hinvariant := runInvariant_run hkit hcore hinputs h
  obtain ⟨moves, hmoves⟩ := hinvariant.ledger
  have hnone := pending_eq_empty hunique harrive h
  refine ⟨?_, hinvariant.ackFirst, hnone⟩
  have hbalanced := hmoves.balanced hunique
  rw [hnone] at hbalanced
  exact Multiset.coe_eq_coe.mp (hbalanced.trans (add_zero _)).symm

/-! ## A sample run -/

theorem handedOut_countingCore {calls : List (CoreCall Unit)} {cmdId : CmdId}
    (h : HandedOut countingCore calls cmdId) :
    1 ≤ cmdId.toNat ∧ cmdId.toNat ≤ calls.length := by
  obtain ⟨log, call, more, rfl, htaken, rfl⟩ := h
  have hlt : (log ++ [call]).length < 2 ^ 64 := of_decide_eq_true htaken.1
  have hid : (countingCore.asyncResult (log ++ [call])).cmdId.toNat = (log ++ [call]).length :=
    UInt64.toNat_ofNat_of_lt' hlt
  rw [hid]
  simp

/-- Only a client's text makes core give out an id. -/
theorem GivenOut.exists_receive {cmdId : CmdId} (hgiven : GivenOut core s s' cmdId)
    (heffect : Effect kit core s input s') :
    ∃ connection text caller, input = .receive connection text caller := by
  cases heffect with
  | answered hparse hdump => exact ⟨_, _, _, rfl⟩
  | _ => exact absurd hgiven.2 hgiven.1

theorem length_calls_le (h : TransportState.run kit core pluginType inputs = .ok s) :
    s.calls.length ≤ inputs.length := by
  refine run_induction (motive := fun inputs s => s.calls.length ≤ inputs.length) (Nat.zero_le 0)
    ?_ h
  intro inputs s input s' ih heffect
  rw [List.length_append, List.length_singleton]
  cases heffect with
  | answered hparse hdump =>
      rw [List.length_append]
      refine Nat.add_le_add ih ?_
      unfold callsFor
      split
      · exact Nat.le_refl 1
      · exact Nat.le_refl 1
      · exact Nat.zero_le 1
  | _ => exact Nat.le_succ_of_le ih

end

/-- Two commands under one `cid`, and core's results for them in the other order. -/
def settledInputs : List (Input Unit ℕ) :=
  [.attachCoreFacade (some ()), .receive 0 (sampleFrame 7) {}, .receive 1 (sampleFrame 7) {},
    .onCoreAsyncResult 3 [], .onCoreAsyncResult 2 [], .onCoreAsyncResult 1 []]

theorem resultsArrive_settledInputs :
    ResultsArrive sampleKit countingCore (ascii "ws") settledInputs := by
  intro before input after s s' cmdId hinputs hrun hstep hgiven
  obtain ⟨connection, text, caller, rfl⟩ := hgiven.exists_receive (effect_of_step hstep)
  have hrun' : TransportState.run sampleKit countingCore (ascii "ws")
      (before ++ [.receive connection text caller]) = .ok s' := by
    rw [run_concat, hrun]
    exact hstep
  obtain ⟨hpos, hle⟩ := handedOut_countingCore hgiven.2
  have hcalls := length_calls_le hrun'
  have harrives : before.length ≤ 2 → Arrives cmdId (settledInputs.drop 3) := by
    intro hlen
    rw [List.length_append, List.length_singleton] at hcalls
    have hid : cmdId = UInt64.ofNat cmdId.toNat := UInt64.ofNat_toNat.symm
    rcases (by omega : cmdId.toNat = 1 ∨ cmdId.toNat = 2 ∨ cmdId.toNat = 3) with h | h | h
    all_goals
      rw [h] at hid
      exact ⟨[], by simp [settledInputs, hid]⟩
  rcases before with _ | ⟨a, _ | ⟨b, _ | ⟨c, rest⟩⟩⟩
  · cases hinputs
  · cases hinputs
    obtain ⟨payloadJson, hmem⟩ := harrives (by simp)
    exact ⟨payloadJson, List.mem_cons_of_mem _ hmem⟩
  · cases hinputs
    exact harrives (by simp)
  · -- from here on only results come
    simp only [settledInputs, List.cons_append, List.cons.injEq] at hinputs
    have hmem : Input.receive connection text caller ∈
        settledInputs.drop 3 := by
      show _ ∈ ([.onCoreAsyncResult 3 [], .onCoreAsyncResult 2 [], .onCoreAsyncResult 1 []] :
        List (Input Unit ℕ))
      rw [hinputs.2.2.2]
      simp
    simp [settledInputs] at hmem

theorem every_command_settled_settledInputs :
    ∃ s, TransportState.run sampleKit countingCore (ascii "ws") settledInputs = .ok s ∧
      (respondedOf (messagesOf s.sent)).Perm (acceptedOf (messagesOf s.sent)) ∧ s.pending = ∅ := by
  have hframe : ¬OverflowingCid sampleKit.parse (sampleFrame 7) := by
    rw [overflowingCid_sampleFrame_iff]
    decide
  have hdefined : ∀ input ∈ settledInputs, input.Defined sampleKit ∧ input.WellFormed := by
    intro input hmem
    simp only [settledInputs, List.mem_cons, List.not_mem_nil, or_false] at hmem
    rcases hmem with rfl | rfl | rfl | rfl | rfl | rfl
    · exact ⟨trivial, trivial⟩
    · exact ⟨hframe, trivial⟩
    · exact ⟨hframe, trivial⟩
    · exact ⟨trivial, trivial⟩
    · exact ⟨trivial, trivial⟩
    · exact ⟨trivial, trivial⟩
  rcases run_cases lawful_sampleKit countingCore (ascii "ws") settledInputs with
    ⟨-, s, hrun⟩ | ⟨⟨input, hmem, hnot⟩, -⟩
  · obtain ⟨hperm, -, hpending⟩ := every_command_settled lawful_sampleKit
      sendsPayloads_countingCore uniqueIds_countingCore (fun i hi => (hdefined i hi).2)
      resultsArrive_settledInputs hrun
    exact ⟨s, hrun, hperm, hpending⟩
  · exact absurd (hdefined input hmem).1 hnot

end PhiTransport
