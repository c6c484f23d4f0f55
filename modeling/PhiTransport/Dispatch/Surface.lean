import PhiTransport.Dispatch.Runs
import PhiTransport.Records.LogEntries

/-!
# Everything a plugin asks of core

Beside a client's commands a plugin writes log records and answers actions, all
through one facade. Core may let any call change what it answers later. What it
is asked is still a function of what the plugin does (`callsAlong`): commands
are routed as if the plugin did nothing else, and a record shows whose it is.
-/

namespace PhiTransport

open Octets Rfc8259

section

variable {F : Type}

/-- What a plugin does, one act at a time. -/
inductive Act (F : Type) where
  | command (step : Step F)
  | writeLog (entry : LogEntry)
  | writeLogLine (nowMs : Int64) (line : LogLine)
  | completeAction (cmdId : CmdId) (resultJson : Bytes)

def Act.toStep : Act F → Option (Step F)
  | .command step => some step
  | _ => none

def FacadeCall.toCore : FacadeCall F → Option (CoreCall F)
  | .command call => some call
  | _ => none

/-- A plugin and everything it has asked of core. -/
structure SurfaceState (F : Type) where
  plugin : TransportPluginBase F
  calls : List (FacadeCall F) := []

/-- Core answers a command from everything it was asked before. -/
def SurfaceState.step (coreAfter : List (FacadeCall F) → Core F) (toChars : ToChars)
    (s : SurfaceState F) : Act F → SurfaceState F
  | .command (.attachCoreFacade coreFacade) =>
      { s with plugin := (s.plugin.attachCoreFacade coreFacade).2 }
  | .command (.dispatchCommand topic payloadJson caller) =>
      let made := ((s.plugin.dispatchCommand (coreAfter s.calls) toChars topic payloadJson
        caller).run []).2
      { s with calls := s.calls ++ made.map .command }
  | .writeLog entry => { s with calls := ((s.plugin.writeLog entry).run s.calls).2 }
  | .writeLogLine nowMs line =>
      { s with calls := ((s.plugin.writeLogLine nowMs line).run s.calls).2 }
  | .completeAction cmdId resultJson =>
      { s with calls := ((s.plugin.completeAction cmdId resultJson).run s.calls).2 }

def SurfaceState.run (coreAfter : List (FacadeCall F) → Core F) (toChars : ToChars)
    (pluginType : Bytes) (acts : List (Act F)) : SurfaceState F :=
  acts.foldl (SurfaceState.step coreAfter toChars) { plugin := { pluginType } }

/-! ## What core is asked -/

/-- What one act asks, on the facade in charge. -/
def Act.calls (pluginType : Bytes) (attached : Option F) : Act F → List (FacadeCall F)
  | .command (.attachCoreFacade _) => []
  | .command (.dispatchCommand topic payloadJson caller) =>
      (callsFor attached pluginType topic payloadJson caller).map .command
  | .writeLog entry => attached.toList.map fun facade => .log facade entry
  | .writeLogLine nowMs line =>
      attached.toList.map fun facade => .log facade (line.entry pluginType nowMs)
  | .completeAction cmdId resultJson =>
      attached.toList.map fun facade => .completeAction facade cmdId resultJson

/-- The facade in charge after an act. -/
def Act.attachedAfter (attached : Option F) : Act F → Option F
  | .command (.attachCoreFacade coreFacade) => coreFacade
  | _ => attached

/-- What the acts ask one after the other, the facade of each attached before it. -/
def callsAlong (pluginType : Bytes) : Option F → List (Act F) → List (FacadeCall F)
  | _, [] => []
  | attached, act :: acts =>
      act.calls pluginType attached ++ callsAlong pluginType (act.attachedAfter attached) acts

variable {coreAfter : List (FacadeCall F) → Core F} {toChars : ToChars}

theorem SurfaceState.step_plugin (s : SurfaceState F) (act : Act F) :
    (s.step coreAfter toChars act).plugin =
      { s.plugin with coreFacade := act.attachedAfter s.plugin.coreFacade } := by
  cases act with
  | command step => cases step <;> rfl
  | writeLog entry => rfl
  | writeLogLine nowMs line => rfl
  | completeAction cmdId resultJson => rfl

theorem SurfaceState.step_calls (s : SurfaceState F) (act : Act F) :
    (s.step coreAfter toChars act).calls =
      s.calls ++ act.calls s.plugin.pluginType s.plugin.coreFacade := by
  obtain ⟨⟨pluginType, attached⟩, calls⟩ := s
  cases act with
  | command step =>
      cases step with
      | attachCoreFacade coreFacade => exact (List.append_nil _).symm
      | dispatchCommand topic payloadJson caller =>
          rw [SurfaceState.step, TransportPluginBase.dispatchCommand_run]
          rfl
  | writeLog entry =>
      cases attached with
      | none => exact (List.append_nil _).symm
      | some facade => rfl
  | writeLogLine nowMs line =>
      cases attached with
      | none => exact (List.append_nil _).symm
      | some facade => rfl
  | completeAction cmdId resultJson =>
      cases attached with
      | none => exact (List.append_nil _).symm
      | some facade => rfl

theorem SurfaceState.foldl_calls (acts : List (Act F)) (s : SurfaceState F) :
    (acts.foldl (SurfaceState.step coreAfter toChars) s).calls =
      s.calls ++ callsAlong s.plugin.pluginType s.plugin.coreFacade acts := by
  induction acts generalizing s with
  | nil => exact (List.append_nil _).symm
  | cons act acts ih =>
      rw [List.foldl_cons, ih, SurfaceState.step_calls, SurfaceState.step_plugin, callsAlong,
        List.append_assoc]

/-- Core is asked nothing but what the acts ask. -/
theorem SurfaceState.run_calls (pluginType : Bytes) (acts : List (Act F)) :
    (SurfaceState.run coreAfter toChars pluginType acts).calls =
      callsAlong pluginType none acts := by
  rw [SurfaceState.run, SurfaceState.foldl_calls, List.nil_append]

/-! ## Commands -/

theorem Act.toCore_calls (pluginType : Bytes) (attached : Option F) (act : Act F) :
    (act.calls pluginType attached).filterMap FacadeCall.toCore = match act with
      | .command (.dispatchCommand topic payloadJson caller) =>
          callsFor attached pluginType topic payloadJson caller
      | _ => [] := by
  cases act with
  | command step =>
      cases step with
      | attachCoreFacade coreFacade => rfl
      | dispatchCommand topic payloadJson caller =>
          show ((callsFor attached pluginType topic payloadJson caller).map _).filterMap _ = _
          rw [List.filterMap_map]
          exact List.filterMap_some
  | writeLog entry => cases attached <;> rfl
  | writeLogLine nowMs line => cases attached <;> rfl
  | completeAction cmdId resultJson => cases attached <;> rfl

/-- The commands among the calls are the router's, from any point on. -/
theorem toCore_callsAlong (pluginType : Bytes) (acts : List (Act F)) (r : Router F) :
    r.calls ++ (callsAlong pluginType r.attached acts).filterMap FacadeCall.toCore =
      ((acts.filterMap Act.toStep).foldl (Router.step pluginType) r).calls := by
  induction acts generalizing r with
  | nil => exact List.append_nil _
  | cons act acts ih =>
      rw [callsAlong, List.filterMap_append, Act.toCore_calls]
      cases act with
      | command step =>
          have hsteps : (Act.command step :: acts).filterMap Act.toStep =
              step :: acts.filterMap Act.toStep := rfl
          rw [hsteps, List.foldl_cons, ← ih]
          cases step with
          | attachCoreFacade coreFacade => rfl
          | dispatchCommand topic payloadJson caller => exact (List.append_assoc _ _ _).symm
      | writeLog entry => exact ih r
      | writeLogLine nowMs line => exact ih r
      | completeAction cmdId resultJson => exact ih r

/-! ## Records -/

theorem log_mem_calls {pluginType : Bytes} {attached : Option F} {act : Act F} {facade : F}
    {entry : LogEntry} (h : .log facade entry ∈ act.calls pluginType attached) :
    act = .writeLog entry ∨
      ∃ nowMs line, act = .writeLogLine nowMs line ∧ entry = line.entry pluginType nowMs := by
  cases act with
  | command step =>
      cases step with
      | attachCoreFacade coreFacade => cases h
      | dispatchCommand topic payloadJson caller =>
          obtain ⟨call, -, hcall⟩ := List.mem_map.mp h
          cases hcall
  | writeLog written =>
      obtain ⟨facade', -, hlog⟩ := List.mem_map.mp h
      cases hlog
      exact Or.inl rfl
  | writeLogLine nowMs line =>
      obtain ⟨facade', -, hlog⟩ := List.mem_map.mp h
      cases hlog
      exact Or.inr ⟨nowMs, line, rfl, rfl⟩
  | completeAction cmdId resultJson =>
      obtain ⟨facade', -, hcall⟩ := List.mem_map.mp h
      cases hcall

theorem log_mem_callsAlong {pluginType : Bytes} {acts : List (Act F)} {attached : Option F}
    {facade : F} {entry : LogEntry} (h : .log facade entry ∈ callsAlong pluginType attached acts) :
    .writeLog entry ∈ acts ∨
      ∃ nowMs line, .writeLogLine nowMs line ∈ acts ∧ entry = line.entry pluginType nowMs := by
  induction acts generalizing attached with
  | nil => cases h
  | cons act acts ih =>
      rcases List.mem_append.mp h with h | h
      · rcases log_mem_calls h with rfl | ⟨nowMs, line, rfl, hentry⟩
        · exact Or.inl List.mem_cons_self
        · exact Or.inr ⟨nowMs, line, List.mem_cons_self, hentry⟩
      · rcases ih h with hmem | ⟨nowMs, line, hmem, hentry⟩
        · exact Or.inl (List.mem_cons_of_mem _ hmem)
        · exact Or.inr ⟨nowMs, line, List.mem_cons_of_mem _ hmem, hentry⟩

theorem LogLine.entry_tsMs_pos {nowMs : Int64} (h : 0 < nowMs) (pluginType : Bytes)
    (line : LogLine) : 0 < (line.entry pluginType nowMs).tsMs := by
  show 0 < if line.tsMs > 0 then line.tsMs else nowMs
  by_cases hts : line.tsMs > 0
  · rw [if_pos hts]
    exact hts
  · rw [if_neg hts]
    exact h

theorem LogLine.entry_sourceId_ne {pluginType : Bytes} (h : pluginType ≠ []) (nowMs : Int64)
    (line : LogLine) : (line.entry pluginType nowMs).sourceId ≠ [] := by
  show (if line.sourceId.isEmpty then pluginType else line.sourceId) ≠ []
  by_cases hid : line.sourceId = []
  · rw [hid]
    exact h
  · rw [if_neg (mt List.isEmpty_iff.mp hid)]
    exact hid

/-- **Core is asked what the plugin does.** Whatever the other calls make core
answer, the calls are those of the acts, each on the facade attached last; the
commands among them are the ones a plugin makes that neither logs nor answers
actions; and a record written from its parts is read as the transport's, at a
positive time and under a name, whatever bytes the parts are. -/
theorem records_attributed (hc : WritesNumbers toChars) (pluginType : Bytes)
    (acts : List (Act F)) :
    let calls := (SurfaceState.run coreAfter toChars pluginType acts).calls
    calls = callsAlong pluginType none acts ∧
    calls.filterMap FacadeCall.toCore =
      (Router.run pluginType (acts.filterMap Act.toStep)).calls ∧
    ∀ facade entry, .log facade entry ∈ calls → .writeLog entry ∈ acts ∨
      ∃ nowMs line, .writeLogLine nowMs line ∈ acts ∧
        ∀ fields, PayloadText fields line.fields →
          ∃ params, List.Forall₂ (ScalarJson toChars) params line.params ∧
          let reading := readLogEntry (logEntryToJson toChars entry)
          reading.sourceType = LogSourceType.transport.value.toNat ∧
          (0 < nowMs → reading.tsMs = (if line.tsMs > 0 then line.tsMs else nowMs).toInt ∧
            0 < reading.tsMs) ∧
          (pluginType ≠ [] → reading.sourceId ≠ []) ∧
          reading.sourceId = (if line.sourceId.isEmpty then pluginType else line.sourceId) ∧
          reading.level = line.level.value.toNat ∧ reading.category = line.category.toNat ∧
          reading.message = line.message ∧ reading.params = params ∧
          reading.ctx = line.ctx ∧ reading.fields = fields := by
  intro calls
  have hcalls : calls = callsAlong pluginType none acts := SurfaceState.run_calls pluginType acts
  refine ⟨hcalls, ?_, ?_⟩
  · rw [hcalls]
    exact toCore_callsAlong pluginType acts {}
  · intro facade entry hlog
    rw [hcalls] at hlog
    rcases log_mem_callsAlong hlog with hmem | ⟨nowMs, line, hmem, rfl⟩
    · exact Or.inl hmem
    · refine Or.inr ⟨nowMs, line, hmem, fun fields hfields => ?_⟩
      obtain ⟨params, hparams, -, hread⟩ :=
        logEntryToJson_reading hc (line.entry pluginType nowMs) hfields
      refine ⟨params, hparams, ?_⟩
      intro reading
      have hreading : reading = (line.entry pluginType nowMs).reading params fields := hread
      rw [hreading]
      refine ⟨rfl, ?_, fun h => LogLine.entry_sourceId_ne h nowMs line,
        rfl, rfl, rfl, rfl, rfl, rfl, rfl⟩
      intro hnow
      have hpos := LogLine.entry_tsMs_pos hnow pluginType line
      have hts : ((line.entry pluginType nowMs).reading params fields).tsMs =
          (line.entry pluginType nowMs).tsMs.toInt := if_pos hpos
      rw [hts]
      exact ⟨rfl, Int64.lt_iff_toInt_lt.mp hpos⟩

end

/-- A command between two lines: one before there is a facade, one whose text
tries to name another source. -/
def sampleActs : List (Act Unit) :=
  [.writeLogLine 1 { level := LogLevel.info, category := 0, message := ascii "early" },
    .command (.attachCoreFacade (some ())),
    .command (.dispatchCommand (ascii "cmd.x") (ascii "[]") {}),
    .writeLogLine 7 { level := LogLevel.warn, category := 3,
                      message := ascii "\",\"sourceType\":1" },
    .completeAction 5 (ascii "[]")]

theorem records_attributed_sampleActs :
    let calls := (SurfaceState.run (fun _ => sampleCore) smallIntegerChars (ascii "ws")
      sampleActs).calls
    calls.length = 3 ∧
      calls.filterMap FacadeCall.toCore =
        [.invokeAsync () (ascii "cmd.x") (ascii "[]") (ascii "ws") {}] ∧
      ∀ facade entry, .log facade entry ∈ calls →
        (readLogEntry (logEntryToJson smallIntegerChars entry)).sourceType = 5 := by
  intro calls
  obtain ⟨hcalls, hcommands, hlogs⟩ := @records_attributed Unit (fun _ => sampleCore)
    smallIntegerChars writesNumbers_smallIntegerChars (ascii "ws") sampleActs
  refine ⟨congrArg List.length hcalls, hcommands, fun facade entry hlog => ?_⟩
  rcases hlogs facade entry hlog with hmem | ⟨nowMs, line, hmem, hreading⟩
  · simp [sampleActs] at hmem
  · have hfields : line.fields = [] := by
      simp only [sampleActs, List.mem_cons, List.not_mem_nil, reduceCtorEq, Act.writeLogLine.injEq,
        or_false, false_or] at hmem
      rcases hmem with ⟨-, rfl⟩ | ⟨-, rfl⟩
      · rfl
      · rfl
    obtain ⟨params, -, hsource, -⟩ := hreading [] (Or.inr ⟨by rw [hfields]; exact blank_nil, rfl⟩)
    exact hsource

end PhiTransport
