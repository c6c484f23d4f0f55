import PhiTransport.Api.Management
import PhiTransport.Records.Fields

/-!
# What the management texts say

A description has its summary and its actions exactly where they were given,
and an action is an object with the members it was made from, the extra fields
behind them. A result is a success or a failure by its status, and a failure
has a message.
-/

namespace PhiTransport

open Octets Rfc8259

/-! ## Actions -/

/-- The arguments an action is made from. -/
structure Action where
  id : Bytes
  label : Bytes
  description : Bytes := []
  extraFieldsJson : Bytes := []

def Action.descriptor (action : Action) : Bytes :=
  makeActionDescriptor action.id action.label action.description action.extraFieldsJson

/-- The strings an action was given, under the keys a client looks for them. -/
def Action.given (action : Action) : List (Bytes × Bytes) :=
  [(ascii "id", action.id), (ascii "label", action.label),
    (ascii "description", action.description)]

/-- What may be appended to an action: nothing, or a comma-separated member list. -/
def ExtraText (extra : List (Bytes × Json)) (t : Bytes) : Prop :=
  (t = [] ∧ extra = []) ∨ (extra ≠ [] ∧ ListText MemberText extra t)

/-- A client finds the string `given` under `key`, an absent member read as the
empty string. -/
def ReadsAs (key given : Bytes) (ms : List (Bytes × Json)) : Prop :=
  (lastValue key ms).getD (.str []) = .str given

/-- The members an action has of its own. -/
def actionRecord (action : Action) : Record :=
  [(ascii "id", some (.str action.id)),
    (ascii "label", if !action.label.isEmpty then some (.str action.label) else none),
    (ascii "description",
      if !action.description.isEmpty then some (.str action.description) else none)]

theorem nodup_actionRecord (action : Action) : ((actionRecord action).map Prod.fst).Nodup := by
  show [ascii "id", ascii "label", ascii "description"].Nodup
  decide

theorem tailText_of_extraText {extra : List (Bytes × Json)} {t : Bytes} (h : ExtraText extra t) :
    TailText MemberText extra (if !t.isEmpty then comma :: t else []) := by
  rcases h with ⟨rfl, rfl⟩ | ⟨hne, h⟩
  · rfl
  · have ht : t.isEmpty = false := by
      cases extra with
      | nil => exact absurd rfl hne
      | cons m extra =>
          obtain ⟨a, b, rfl, ha, -⟩ := h
          have hquote := memberText_quote_mem ha
          rw [List.isEmpty_eq_false_iff]
          exact List.ne_nil_of_mem (List.mem_append_left b hquote)
    rw [ht]
    exact tailText_of_listText hne h

theorem objectText_descriptor {action : Action} {extra : List (Bytes × Json)}
    (h : ExtraText extra action.extraFieldsJson) :
    ObjectText (present (actionRecord action) ++ extra) action.descriptor := by
  have hid : MemberText (ascii "id", .str action.id) (ascii "\"id\":" ++ jsonQuoted action.id) :=
    memberText_before rfl (text_jsonQuoted _)
  have hrest : List.Forall₂ FieldText (actionRecord action).tail
      [if !action.label.isEmpty then ascii ",\"label\":" ++ jsonQuoted action.label else [],
        if !action.description.isEmpty then
          ascii ",\"description\":" ++ jsonQuoted action.description else []] :=
    .cons (fieldText_before_ite rfl _ fun _ => text_jsonQuoted _)
      (.cons (fieldText_before_ite rfl _ fun _ => text_jsonQuoted _) .nil)
  have hobj := objectText_present_append hid hrest (tailText_of_extraText h)
  simpa [Action.descriptor, makeActionDescriptor, actionRecord] using hobj

/-- A string given is found where the extra fields have no member of that name. -/
theorem readsAs_given {action : Action} {extra : List (Bytes × Json)} {p : Bytes × Bytes}
    (hp : p ∈ action.given) (hextra : p.1 ∉ keys extra) :
    ReadsAs p.1 p.2 (present (actionRecord action) ++ extra) := by
  rw [ReadsAs, lastValue_append_of_notMem hextra, lastValue_present (nodup_actionRecord action)]
  have hoption : ∀ s : Bytes,
      (if !s.isEmpty then some (Json.str s) else none).getD (.str []) = .str s := by
    intro s
    cases s <;> rfl
  simp only [Action.given, List.mem_cons, List.not_mem_nil, or_false] at hp
  rcases hp with rfl | rfl | rfl
  · rfl
  · exact hoption action.label
  · exact hoption action.description

/-! ## The description -/

def descriptionRecord (summary : Bytes) (elements : List Json) : Record :=
  [(ascii "summary", if !summary.isEmpty then some (.str summary) else none),
    (ascii "actions", if !elements.isEmpty then some (.arr elements) else none)]

/-- The description of any list of actions that are JSON text. -/
theorem objectText_makeManagementDescription (summary : Bytes) {elements : List Json}
    {actionsJson : List Bytes} (h : List.Forall₂ Text elements actionsJson) :
    ObjectText (present (descriptionRecord summary elements))
      (makeManagementDescription summary actionsJson) := by
  have hsummary : MemberText (ascii "summary", .str summary)
      (ascii "\"summary\":" ++ jsonQuoted summary) := memberText_before rfl (text_jsonQuoted _)
  have hactions : MemberText (ascii "actions", .arr elements) (ascii "\"actions\":" ++
      (lbracket :: appendItems (fun action => action) actionsJson [] ++ [rbracket])) :=
    memberText_before rfl (text_appendItems h)
  -- the loop over the actions starts behind the bracket
  have hopen : ascii "\"actions\":[" = ascii "\"actions\":" ++ [lbracket] := rfl
  unfold makeManagementDescription
  dsimp only
  rw [appendItems_append, hopen]
  cases h with
  | nil =>
      cases summary with
      | nil => exact text_emptyJsonObject
      | cons b summary => exact objectText_of_list (listText_singleton hsummary)
  | cons ha has =>
      cases summary with
      | nil =>
          have hobj := objectText_of_list (listText_singleton hactions)
          simpa [descriptionRecord, present] using hobj
      | cons b summary =>
          have hobj := objectText_of_list
            (listText_cons hsummary (List.cons_ne_nil _ _) (listText_singleton hactions))
          simpa [descriptionRecord, present] using hobj

/-! ## The results -/

def resultRecord (value : Json) (reloadLayout : Bool) : Record :=
  [(ascii "status", some (.num (.ofNat 0))), (ascii "resultValue", some value),
    (ascii "reloadLayout", if reloadLayout then some (.bool true) else none)]

theorem nodup_resultRecord (value : Json) (reloadLayout : Bool) :
    ((resultRecord value reloadLayout).map Prod.fst).Nodup := by
  show [ascii "status", ascii "resultValue", ascii "reloadLayout"].Nodup
  decide

/-- The text of a success: exactly the record, so status 0 and no error. -/
def Succeeds (value : Json) (reloadLayout : Bool) (t : Bytes) : Prop :=
  (∀ ms, ObjectText ms t ↔ ms = present (resultRecord value reloadLayout)) ∧
    valueAt (ascii "status") t = some (.num (.ofNat 0)) ∧ valueAt (ascii "error") t = none

/-- The text of a failure: a status, never 0, and an error with the message. -/
def Fails (code : ℤ) (message t : Bytes) : Prop :=
  code ≠ 0 ∧ ∀ ms, ObjectText ms t ↔ ms = [(ascii "status", .num (.ofInt code)),
    (ascii "error", .obj [(ascii "message", .str message)])]

theorem succeeds_of_text {value : Json} {t : Bytes} (h : Text value t) (reloadLayout : Bool) :
    Succeeds value reloadLayout ([lbrace] ++ ascii "\"status\":0,\"resultValue\":" ++ t ++
      (if reloadLayout then ascii ",\"reloadLayout\":true" else []) ++ [rbrace]) := by
  have hstatus : MemberText (ascii "status", .num (.ofNat 0))
      (ascii "\"status\":" ++ decimal 0) := memberText_before rfl (text_nat 0)
  have hrest : List.Forall₂ FieldText (resultRecord value reloadLayout).tail
      [ascii ",\"resultValue\":" ++ t,
        if reloadLayout then ascii ",\"reloadLayout\":" ++ ascii "true" else []] :=
    .cons (fieldText_before rfl h) (.cons (fieldText_before_ite rfl _ fun _ => text_bool true) .nil)
  have hobj := objectText_present hstatus hrest
  have hhead : ascii "\"status\":0,\"resultValue\":" =
      ascii "\"status\":" ++ decimal 0 ++ ascii ",\"resultValue\":" := rfl
  have hreload : ascii ",\"reloadLayout\":true" =
      ascii ",\"reloadLayout\":" ++ ascii "true" := rfl
  have htext : lbrace :: (ascii "\"status\":" ++ decimal 0 ++ [ascii ",\"resultValue\":" ++ t,
        if reloadLayout then ascii ",\"reloadLayout\":" ++ ascii "true" else []].flatten) ++
        [rbrace] =
      [lbrace] ++ ascii "\"status\":0,\"resultValue\":" ++ t ++
        (if reloadLayout then ascii ",\"reloadLayout\":true" else []) ++ [rbrace] := by
    rw [hhead, hreload]
    simp
  rw [htext] at hobj
  have hat := valueAt_present hobj (nodup_resultRecord value reloadLayout)
  exact ⟨objectText_only hobj, hat _, hat _⟩

/-- The status a failure is reported with. -/
def failureCode (statusCode : Int32) : ℤ := if statusCode = 0 then 1 else statusCode.toInt

theorem failureCode_ne_zero (statusCode : Int32) : failureCode statusCode ≠ 0 := by
  unfold failureCode
  split_ifs with h
  · exact one_ne_zero
  · intro hzero
    exact h (Int32.toInt_inj.mp hzero)

theorem fails_makeActionResultError (message : Bytes) (statusCode : Int32) :
    Fails (failureCode statusCode) message (makeActionResultError message statusCode) := by
  have hcode : (if statusCode = status.kSuccess then status.kFailure else statusCode).toInt =
      failureCode statusCode := apply_ite Int32.toInt _ _ _
  have hstatus : MemberText (ascii "status", .num (.ofInt (failureCode statusCode)))
      (ascii "\"status\":" ++ decimalInt (failureCode statusCode)) :=
    memberText_before rfl (text_int _)
  have hmessage : ObjectText [(ascii "message", .str message)]
      (lbrace :: (ascii "\"message\":" ++ jsonQuoted message) ++ [rbrace]) :=
    objectText_of_list (listText_singleton (memberText_before rfl (text_jsonQuoted _)))
  have herror : MemberText (ascii "error", .obj [(ascii "message", .str message)])
      (ascii "\"error\":" ++ (lbrace :: (ascii "\"message\":" ++ jsonQuoted message) ++ [rbrace])) :=
    memberText_before rfl hmessage
  have hobj := objectText_of_list
    (listText_cons hstatus (List.cons_ne_nil _ _) (listText_singleton herror))
  refine ⟨failureCode_ne_zero statusCode, objectText_only ?_⟩
  have hcomma : ascii ",\"error\":" = comma :: ascii "\"error\":" := rfl
  unfold makeActionResultError
  rw [hcode, hcomma]
  simpa using hobj

/-! ## All of the texts -/

theorem exists_elements {actions : List Action}
    (h : ∀ action ∈ actions, ∃ extra, ExtraText extra action.extraFieldsJson) :
    ∃ elements : List (List (Bytes × Json)),
      List.Forall₂ (fun ms action => ∃ extra, ExtraText extra action.extraFieldsJson ∧
        ms = present (actionRecord action) ++ extra) elements actions := by
  induction actions with
  | nil => exact ⟨[], .nil⟩
  | cons action actions ih =>
      obtain ⟨extra, hextra⟩ := h action List.mem_cons_self
      obtain ⟨elements, helements⟩ := ih fun a ha => h a (List.mem_cons_of_mem _ ha)
      exact ⟨_ :: elements, .cons ⟨extra, hextra, rfl⟩ helements⟩

/-- **The management texts say what was put in.** A description lists the
actions in order, each with its own members in front of the extra ones; what an
action was given is read back under every key the extra fields leave alone. The
two success builders have status 0 and no error, the third never does. -/
theorem managementTexts_say :
    (∀ (summary : Bytes) (actions : List Action),
      (∀ action ∈ actions, ∃ extra, ExtraText extra action.extraFieldsJson) →
      ∃ elements : List (List (Bytes × Json)),
        List.Forall₂ (fun ms action => ∃ extra, ExtraText extra action.extraFieldsJson ∧
          ms = present (actionRecord action) ++ extra ∧
          ∀ p ∈ action.given, p.1 ∉ keys extra → ReadsAs p.1 p.2 ms) elements actions ∧
        ∀ ms, ObjectText ms (makeManagementDescription summary (actions.map Action.descriptor)) ↔
          ms = present (descriptionRecord summary (elements.map .obj))) ∧
    (∀ text reloadLayout,
      Succeeds (.str text) reloadLayout (makeActionResultText text reloadLayout)) ∧
    (∀ resultValueJson value reloadLayout,
      (resultValueJson = [] ∧ value = .null) ∨ Text value resultValueJson →
      Succeeds value reloadLayout (makeActionResultValue resultValueJson reloadLayout)) ∧
    ∀ message statusCode,
      Fails (failureCode statusCode) message (makeActionResultError message statusCode) := by
  refine ⟨?_, ?_, ?_, fails_makeActionResultError⟩
  · intro summary actions h
    obtain ⟨elements, helements⟩ := exists_elements h
    refine ⟨elements, helements.imp ?_, objectText_only ?_⟩
    · rintro ms action ⟨extra, hextra, rfl⟩
      exact ⟨extra, hextra, rfl, fun p hp hkey => readsAs_given hp hkey⟩
    · apply objectText_makeManagementDescription
      rw [List.forall₂_map_left_iff, List.forall₂_map_right_iff]
      refine helements.imp ?_
      rintro ms action ⟨extra, hextra, rfl⟩
      exact objectText_descriptor hextra
  · intro text reloadLayout
    exact succeeds_of_text (text_jsonQuoted text) reloadLayout
  · intro resultValueJson value reloadLayout h
    unfold makeActionResultValue
    rcases h with ⟨rfl, rfl⟩ | h
    · exact succeeds_of_text text_null reloadLayout
    · have hne : resultValueJson.isEmpty = false := by simpa using text_ne_nil h
      rw [hne]
      exact succeeds_of_text h reloadLayout

/-- A red button without a label. -/
def kickAction : Action where
  id := ascii "kick"
  label := []
  description := ascii "Closes \"every\" client."
  extraFieldsJson := ascii "\"danger\":true"

theorem extraText_kickAction :
    ExtraText [(ascii "danger", .bool true)] kickAction.extraFieldsJson :=
  Or.inr ⟨List.cons_ne_nil _ _, listText_singleton
    (memberText_of (stringText_jsonQuoted (ascii "danger")) (text_bool true))⟩

theorem managementTexts_say_kickAction :
    ∃ elements : List (List (Bytes × Json)), elements.length = 1 ∧
      ∀ ms, ObjectText ms (makeManagementDescription (ascii "2 clients") [kickAction.descriptor]) ↔
        ms = [(ascii "summary", .str (ascii "2 clients")),
          (ascii "actions", .arr (elements.map .obj))] := by
  obtain ⟨elements, hall, htext⟩ := managementTexts_say.1 (ascii "2 clients") [kickAction] (by
    intro action haction
    rw [List.mem_singleton.mp haction]
    exact ⟨_, extraText_kickAction⟩)
  have hlen : elements.length = 1 := hall.length_eq
  refine ⟨elements, hlen, ?_⟩
  obtain ⟨ms, rfl⟩ := List.length_eq_one_iff.mp hlen
  exact htext

/-- Extra fields that bring a label and an id of their own. -/
def relabelledAction : Action where
  id := ascii "kick"
  label := []
  extraFieldsJson := ascii "\"label\":\"Kick\",\"id\":\"ban\""

/-- The label was left empty and the client reads one; it reads the later id. -/
theorem makeManagementDescription_relabelled :
    ExtraText [(ascii "label", .str (ascii "Kick")), (ascii "id", .str (ascii "ban"))]
      relabelledAction.extraFieldsJson ∧
    ∃ element,
      (∀ ms, ObjectText ms (makeManagementDescription [] [relabelledAction.descriptor]) ↔
        ms = [(ascii "actions", .arr [.obj element])]) ∧
      ¬ReadsAs (ascii "label") relabelledAction.label element ∧
      ¬ReadsAs (ascii "id") relabelledAction.id element := by
  have hextra : ExtraText [(ascii "label", .str (ascii "Kick")), (ascii "id", .str (ascii "ban"))]
      relabelledAction.extraFieldsJson := by
    refine Or.inr ⟨List.cons_ne_nil _ _, ?_⟩
    exact listText_cons (memberText_of (stringText_jsonQuoted (ascii "label")) (text_jsonQuoted _))
      (List.cons_ne_nil _ _) (listText_singleton
        (memberText_of (stringText_jsonQuoted (ascii "id")) (text_jsonQuoted _)))
  have hobj := objectText_makeManagementDescription [] (.cons (objectText_descriptor hextra) .nil)
  refine ⟨hextra, _, objectText_only hobj, ?_, ?_⟩
  · intro h
    have hread := Json.str.inj h
    exact absurd hread (by decide)
  · intro h
    have hread := Json.str.inj h
    exact absurd hread (by decide)

end PhiTransport
