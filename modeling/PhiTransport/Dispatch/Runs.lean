import PhiTransport.Dispatch.Answers
import Mathlib.Tactic.TFAE

/-!
# Runs of a plugin

A plugin over its life: facades are attached and detached, commands are
dispatched, in any order. The abstract side is a router that only remembers
the facade and the calls made; the plugin refines it step by step
(`toRouter_step`), so what a run of the plugin calls is what a run of the
router calls (`toRouter_run`).
-/

namespace PhiTransport

open Octets Rfc8259

/-- What is done to a plugin, one step at a time. -/
inductive Step (F : Type) where
  | attachCoreFacade (coreFacade : Option F)
  | dispatchCommand (topic payloadJson : Bytes) (caller : CallerIdentity)

section

variable {F : Type}

/-- A plugin and every call it has made. -/
structure PluginState (F : Type) where
  plugin : TransportPluginBase F
  calls : List (CoreCall F) := []

def PluginState.step (core : Core F) (toChars : ToChars) (s : PluginState F) :
    Step F → PluginState F
  | .attachCoreFacade coreFacade => { s with plugin := (s.plugin.attachCoreFacade coreFacade).2 }
  | .dispatchCommand topic payloadJson caller =>
      { s with calls :=
          ((s.plugin.dispatchCommand core toChars topic payloadJson caller).run s.calls).2 }

/-- Where a plugin of the given type ends after `steps`. -/
def PluginState.run (core : Core F) (toChars : ToChars) (pluginType : Bytes)
    (steps : List (Step F)) : PluginState F :=
  steps.foldl (PluginState.step core toChars) { plugin := { pluginType } }

/-! ## The router -/

/-- The facade in charge and the calls made on behalf of clients. -/
structure Router (F : Type) where
  attached : Option F := none
  calls : List (CoreCall F) := []

def Router.step (pluginType : Bytes) (r : Router F) : Step F → Router F
  | .attachCoreFacade coreFacade => { r with attached := coreFacade }
  | .dispatchCommand topic payloadJson caller =>
      { r with calls := r.calls ++ callsFor r.attached pluginType topic payloadJson caller }

def Router.run (pluginType : Bytes) (steps : List (Step F)) : Router F :=
  steps.foldl (Router.step pluginType) {}

/-- The facade of the last attach step, none before the first. -/
def lastAttached (steps : List (Step F)) : Option F :=
  (steps.filterMap fun
    | .attachCoreFacade coreFacade => some coreFacade
    | .dispatchCommand _ _ _ => none).getLast?.join

theorem Router.run_attached (pluginType : Bytes) (steps : List (Step F)) :
    (Router.run pluginType steps).attached = lastAttached steps := by
  induction steps using List.reverseRecOn with
  | nil => rfl
  | append_singleton steps e ih =>
      unfold Router.run lastAttached at *
      rw [List.foldl_append, List.filterMap_append]
      cases e with
      | attachCoreFacade coreFacade => simp [Router.step]
      | dispatchCommand topic payloadJson caller => simpa [Router.step] using ih

/-! ## The plugin refines the router -/

def PluginState.toRouter (s : PluginState F) : Router F := ⟨s.plugin.coreFacade, s.calls⟩

variable (core : Core F) (toChars : ToChars)

theorem PluginState.step_pluginType (s : PluginState F) (e : Step F) :
    (s.step core toChars e).plugin.pluginType = s.plugin.pluginType := by
  cases e with
  | attachCoreFacade coreFacade => rfl
  | dispatchCommand topic payloadJson caller => rfl

theorem PluginState.toRouter_step (s : PluginState F) (e : Step F) :
    (s.step core toChars e).toRouter = s.toRouter.step s.plugin.pluginType e := by
  cases e with
  | attachCoreFacade coreFacade => rfl
  | dispatchCommand topic payloadJson caller =>
      rw [PluginState.step, TransportPluginBase.dispatchCommand_run]
      rfl

/-- **Refinement over runs.** The plugin and the router take the same steps. -/
theorem PluginState.toRouter_run (pluginType : Bytes) (steps : List (Step F)) :
    (PluginState.run core toChars pluginType steps).plugin.pluginType = pluginType ∧
      (PluginState.run core toChars pluginType steps).toRouter = Router.run pluginType steps := by
  induction steps using List.reverseRecOn with
  | nil => exact ⟨rfl, rfl⟩
  | append_singleton steps e ih =>
      obtain ⟨htype, hrouter⟩ := ih
      unfold PluginState.run Router.run at *
      rw [List.foldl_append, List.foldl_append, List.foldl_cons, List.foldl_nil, List.foldl_cons,
        List.foldl_nil]
      constructor
      · rw [PluginState.step_pluginType]
        exact htype
      · rw [PluginState.toRouter_step, htype, hrouter]

theorem PluginState.run_coreFacade (pluginType : Bytes) (steps : List (Step F)) :
    (PluginState.run core toChars pluginType steps).plugin.coreFacade = lastAttached steps := by
  have h := (PluginState.toRouter_run core toChars pluginType steps).2
  rw [← Router.run_attached pluginType steps, ← h]
  rfl

/-! ## Acceptance -/

theorem ackOutcome_cmdId (topic : Bytes) (submitted : AsyncResult) :
    (ackOutcome topic submitted).cmdId = if submitted.Taken then submitted.cmdId else 0 := by
  unfold ackOutcome
  split
  · rfl
  · rfl

theorem ackOutcome_cmdId_pos_iff (topic : Bytes) (submitted : AsyncResult) :
    0 < (ackOutcome topic submitted).cmdId ↔ submitted.Taken := by
  rw [ackOutcome_cmdId]
  by_cases h : submitted.Taken
  · rw [if_pos h]
    exact ⟨fun _ => h, fun _ => h.2⟩
  · rw [if_neg h]
    exact ⟨fun hpos => absurd hpos (by decide), fun ht => absurd ht h⟩

theorem valueAt_accepted_ackOutcome (topic : Bytes) (submitted : AsyncResult) :
    valueAt (ascii "accepted") (ackOutcome topic submitted).payloadJson =
      some (.bool (decide submitted.Taken)) := by
  rw [valueAt_of_objectText (objectText_ackOutcome topic submitted), ackMembers]
  apply lastValue_cons_self
  simp only [keys, List.map_cons, List.map_nil]
  decide

theorem valueAt_error_ackOutcome_iff (topic : Bytes) (submitted : AsyncResult) :
    valueAt (ascii "error") (ackOutcome topic submitted).payloadJson = some .null ↔
      submitted.Taken := by
  rw [valueAt_of_objectText (objectText_ackOutcome topic submitted), lastValue_error_ackMembers,
    ← ackMessage_eq_nil_iff]
  unfold ackError
  by_cases h : ackMessage submitted = []
  · simp [h]
  · simp [h]

/-- The id, the flag and the error of an ack all say whether core took the command. -/
theorem ackOutcome_acceptance (topic : Bytes) (submitted : AsyncResult) :
    List.TFAE [
      0 < (ackOutcome topic submitted).cmdId,
      valueAt (ascii "accepted") (ackOutcome topic submitted).payloadJson = some (.bool true),
      valueAt (ascii "error") (ackOutcome topic submitted).payloadJson = some .null,
      submitted.Taken] := by
  tfae_have 1 ↔ 4 := ackOutcome_cmdId_pos_iff topic submitted
  tfae_have 2 ↔ 4 := by
    rw [valueAt_accepted_ackOutcome, Option.some.injEq, Json.bool.injEq, decide_eq_true_eq]
  tfae_have 3 ↔ 4 := valueAt_error_ackOutcome_iff topic submitted
  tfae_finish

/-- Only an attached facade can take a command. -/
theorem asyncAnswer_taken_iff {plugin : TransportPluginBase F} {log : List (CoreCall F)}
    {topic payloadJson : Bytes} {caller : CallerIdentity} :
    (plugin.asyncAnswer core log topic payloadJson caller).Taken ↔
      ∃ facade, plugin.coreFacade = some facade ∧ (core.asyncResult
        (log ++ [.invokeAsync facade topic payloadJson plugin.pluginType caller])).Taken := by
  unfold TransportPluginBase.asyncAnswer
  cases plugin.coreFacade with
  | none =>
      constructor
      · intro h
        exact absurd h.1 Bool.false_ne_true
      · rintro ⟨facade, hfacade, -⟩
        cases hfacade
  | some facade => simp

/-- **The prefix decides the door.** At any point of any run, a command calls
the facade attached last, through the door of its topic and no other; and for
a `cmd.*` command the id handed back, the two members of the ack and core's
answer agree on whether it was accepted. -/
theorem prefix_decides_door (pluginType : Bytes) (steps : List (Step F))
    (topic payloadJson : Bytes) (caller : CallerIdentity) :
    let s := PluginState.run core toChars pluginType steps
    let run := (s.plugin.dispatchCommand core toChars topic payloadJson caller).run s.calls
    let outcome := run.1
    let TakenBy : F → AsyncResult → Prop := fun facade submitted =>
      lastAttached steps = some facade ∧
        submitted = core.asyncResult
          (s.calls ++ [.invokeAsync facade topic payloadJson pluginType caller]) ∧
        submitted.accepted = true ∧ 0 < submitted.cmdId
    run.2 = s.calls ++ callsFor (lastAttached steps) pluginType topic payloadJson caller ∧
    (doorOf topic = .cmd → List.TFAE [
      0 < outcome.cmdId,
      valueAt (ascii "accepted") outcome.payloadJson = some (.bool true),
      valueAt (ascii "error") outcome.payloadJson = some .null,
      ∃ facade submitted, TakenBy facade submitted]) ∧
    (doorOf topic = .cmd → ∀ facade submitted, TakenBy facade submitted →
      outcome.cmdId = submitted.cmdId) ∧
    (¬(doorOf topic = .cmd ∧ ∃ facade submitted, TakenBy facade submitted) →
      outcome.cmdId = 0) := by
  intro s run outcome TakenBy
  have hfacade : s.plugin.coreFacade = lastAttached steps :=
    PluginState.run_coreFacade core toChars pluginType steps
  have htype : s.plugin.pluginType = pluginType :=
    (PluginState.toRouter_run core toChars pluginType steps).1
  have hrun : run = (s.plugin.answer core s.calls topic payloadJson caller toChars,
      s.calls ++ callsFor (lastAttached steps) pluginType topic payloadJson caller) := by
    rw [← hfacade, ← htype]
    exact TransportPluginBase.dispatchCommand_run core s.plugin s.calls topic payloadJson caller
      toChars
  have hanswer : outcome = s.plugin.answer core s.calls topic payloadJson caller toChars :=
    congrArg Prod.fst hrun
  -- what came back through the `cmd.*` door, and when the attached facade took the command
  let submitted := s.plugin.asyncAnswer core s.calls topic payloadJson caller
  have houtcome : doorOf topic = .cmd → outcome = ackOutcome topic submitted := by
    intro hdoor
    rw [hanswer, TransportPluginBase.answer_of_cmd s.calls hdoor]
  have htaken : submitted.Taken ↔ ∃ facade submitted, TakenBy facade submitted := by
    rw [asyncAnswer_taken_iff core, hfacade, htype]
    constructor
    · rintro ⟨facade, hattached, hacc, hpos⟩
      exact ⟨facade, _, hattached, rfl, hacc, hpos⟩
    · rintro ⟨facade, submitted', hattached, rfl, hacc, hpos⟩
      exact ⟨facade, hattached, hacc, hpos⟩
  refine ⟨congrArg Prod.snd hrun, ?_, ?_, ?_⟩
  · intro hdoor
    rw [houtcome hdoor, ← htaken]
    exact ackOutcome_acceptance topic submitted
  · intro hdoor facade submitted' h
    have hsub : submitted = submitted' := by
      obtain ⟨hattached, rfl, -⟩ := h
      show TransportPluginBase.asyncAnswer _ _ _ _ _ _ = _
      unfold TransportPluginBase.asyncAnswer
      rw [hfacade, hattached, htype]
    rw [houtcome hdoor, ackOutcome_cmdId, if_pos (htaken.mpr ⟨facade, submitted', h⟩), hsub]
  · intro hnot
    by_cases hdoor : doorOf topic = .cmd
    · rw [houtcome hdoor, ackOutcome_cmdId, if_neg]
      intro ht
      exact hnot ⟨hdoor, htaken.mp ht⟩
    · rw [hanswer, TransportPluginBase.answer_cmdId_of_ne_cmd s.calls hdoor]

end

end PhiTransport
