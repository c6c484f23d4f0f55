import PhiTransport.Frames.Reading
import PhiTransport.Base.Dump

/-!
# The payload of a command's response

The one outbound path that parses. Whatever core sent, the text is an object
with the topic under `cmd` and an `error`, and nothing else of core's object is
touched; a response that is built again stays as it is.
-/

namespace PhiTransport

open Octets Nlohmann Rfc8259

/-! ## The two members it owns -/

theorem lookup_responseMembers_cmd (cmdTopic : Bytes) (ms : Members) :
    (responseMembers cmdTopic ms).lookup (ascii "cmd") = some (.string cmdTopic) := by
  unfold responseMembers
  dsimp only
  split_ifs
  · exact lookup_assign_self ..
  · rw [lookup_assign_of_ne (by decide)]
    exact lookup_assign_self ..

theorem lookup_responseMembers_error (cmdTopic : Bytes) (ms : Members) :
    (responseMembers cmdTopic ms).lookup (ascii "error") =
      some ((ms.lookup (ascii "error")).getD .null) := by
  have hnamed : (assign (ascii "cmd") (.string cmdTopic) ms).lookup (ascii "error") =
      ms.lookup (ascii "error") := lookup_assign_of_ne (by decide) _ _
  unfold responseMembers
  dsimp only
  rw [hnamed]
  cases h : ms.lookup (ascii "error") with
  | none => exact lookup_assign_self ..
  | some w =>
      rw [Option.isSome_some, if_pos rfl, hnamed, h]
      rfl

/-- **Frame.** No other member is added, lost or changed. -/
theorem lookup_responseMembers_of_ne {key : Bytes} (hc : key ≠ ascii "cmd")
    (he : key ≠ ascii "error") (cmdTopic : Bytes) (ms : Members) :
    (responseMembers cmdTopic ms).lookup key = ms.lookup key := by
  unfold responseMembers
  dsimp only
  split_ifs
  · exact lookup_assign_of_ne (Ne.symm hc) _ _
  · rw [lookup_assign_of_ne (Ne.symm he), lookup_assign_of_ne (Ne.symm hc)]

theorem ordered_responseMembers {ms : Members} (h : Ordered ms) (cmdTopic : Bytes) :
    Ordered (responseMembers cmdTopic ms) := by
  unfold responseMembers
  dsimp only
  split_ifs
  · exact ordered_assign h _ _
  · exact ordered_assign (ordered_assign h _ _) _ _

/-- On members that hold both already nothing is left to do. -/
theorem responseMembers_idem {ms : Members} (h : Ordered ms) (cmdTopic : Bytes) :
    responseMembers cmdTopic (responseMembers cmdTopic ms) = responseMembers cmdTopic ms := by
  have hcmd := assign_of_lookup (ordered_responseMembers h cmdTopic)
    (lookup_responseMembers_cmd cmdTopic ms)
  have herror : ((responseMembers cmdTopic ms).lookup (ascii "error")).isSome = true := by
    rw [lookup_responseMembers_error, Option.isSome_some]
  generalize responseMembers cmdTopic ms = rs at hcmd herror ⊢
  unfold responseMembers
  rw [hcmd, if_pos herror]

theorem normalMembers_responseMembers (cmdTopic : Bytes) (ms : Members) :
    normalMembers (responseMembers cmdTopic ms) = responseMembers cmdTopic (normalMembers ms) := by
  have hstring : (Value.string cmdTopic).normal = .string cmdTopic := rfl
  have hnull : Value.null.normal = .null := rfl
  have hnamed : assign (ascii "cmd") (.string cmdTopic) (normalMembers ms) =
      normalMembers (assign (ascii "cmd") (.string cmdTopic) ms) := by
    rw [normalMembers_assign, hstring]
  unfold responseMembers
  dsimp only
  rw [hnamed, lookup_normalMembers, Option.isSome_map]
  split_ifs
  · rfl
  · rw [normalMembers_assign, hnull]

section

variable {float : Number → Option Binary64}

theorem document_membersOf {parse : Bytes → Value} (h : ParsesDocuments float parse) (t : Bytes) :
    Document float (.object (membersOf (parse t))) := by
  rcases (parse t).isObject_cases with hno | ⟨ms, hms⟩
  · have hnone : membersOf (parse t) = [] := by
      cases hp : parse t with
      | object ms =>
          rw [hp] at hno
          cases hno
      | _ => rfl
    rw [hnone]
    exact document_empty
  · rw [hms]
    exact h t ms hms

theorem document_responseMembers {ms : Members} (h : Document float (.object ms))
    {cmdTopic : Bytes} (hutf : validUtf8 cmdTopic = true) :
    Document float (.object (responseMembers cmdTopic ms)) := by
  have hnamed := h.assign (k := ascii "cmd") (by decide) (document_string hutf)
  unfold responseMembers
  dsimp only
  split_ifs
  · exact hnamed
  · exact hnamed.assign (by decide) ⟨.null, rfl⟩

/-- **The response owns two members.** The object that is written holds the
topic under `cmd`, core's own `error` or a null one, and core's other members;
its text reads back as that object, and building it again changes nothing. -/
theorem makeCmdResponsePayload_frame {parse : Bytes → Value} {dump : Value → Except Fault Bytes}
    (hread : ReadsJson float parse) (hdoc : ParsesDocuments float parse)
    (hwrite : WritesJson float dump) {cmdTopic : Bytes} (hutf : validUtf8 cmdTopic = true)
    (payloadJson : Bytes) :
    ∃ text ms stored out,
      makeCmdResponsePayload parse dump cmdTopic payloadJson = .ok text ∧
      ObjectText ms text ∧
      parse text = .object out ∧ (Value.object out).Same (.object stored) ∧
      (out.map Prod.fst).Nodup ∧
      stored.lookup (ascii "cmd") = some (.string cmdTopic) ∧
      stored.lookup (ascii "error") =
        some (((membersOf (parse payloadJson)).lookup (ascii "error")).getD .null) ∧
      (∀ key, key ≠ ascii "cmd" → key ≠ ascii "error" →
        stored.lookup key = (membersOf (parse payloadJson)).lookup key) ∧
      makeCmdResponsePayload parse dump cmdTopic text = .ok text := by
  have hms := document_membersOf hdoc payloadJson
  have hstored := document_responseMembers hms hutf
  obtain ⟨text, j, w, hdump, htext, hj, hsame⟩ := hwrite.text _ hstored
  -- what was written is an object, so its text is object text
  obtain ⟨out, rfl⟩ : ∃ out, w = .object out := by
    rw [Value.Same, Value.normal] at hsame
    cases w with
    | object out => exact ⟨out, rfl⟩
    | numberInteger i =>
        rw [Value.normal] at hsame
        split_ifs at hsame
    | _ => cases hsame
  obtain ⟨ms, vs, rfl, -, -⟩ := ofJson_eq_object hj
  have hparse : parse text = .object out := hread text _ _ htext hj
  have hnormal := Value.same_object.mp hsame
  refine ⟨text, ms, _, out, ?_, htext, hparse, hsame, ?_, lookup_responseMembers_cmd _ _,
    lookup_responseMembers_error _ _, ?_, ?_⟩
  · rw [makeCmdResponsePayload_eq, hdump]
  · exact (Document.ordered ⟨_, hj⟩).nodup
  · intro key hc he
    exact lookup_responseMembers_of_ne hc he _ _
  · rw [makeCmdResponsePayload_eq, hparse, ← hdump]
    apply hwrite.same
    rw [Value.same_object]
    show normalMembers (responseMembers cmdTopic out) = _
    rw [normalMembers_responseMembers, hnormal, ← normalMembers_responseMembers,
      responseMembers_idem hms.ordered]

end

/-- The library's compact writer; no float is a value of `parseIntegers`. -/
def dumpIntegers : Value → Except Fault Bytes := referenceDump jsonQuoted fun _ => ascii "0.0"

/-- A payload with a `cmd` and an `error` of core's own. -/
def ownersPayload : Bytes :=
  jsonObject [(ascii "ok", ascii "true"), (ascii "error", ascii "false"), (ascii "cmd", decimal 1)]

theorem parse_ownersPayload :
    parseIntegers ownersPayload = .object [(ascii "cmd", .numberUnsigned 1),
      (ascii "error", .boolean false), (ascii "ok", .boolean true)] := by
  have hobj : ObjectText [(ascii "ok", .bool true), (ascii "error", .bool false),
      (ascii "cmd", .num (.ofNat 1))] ownersPayload :=
    objectText_jsonObject (.cons ⟨rfl, Or.inr (text_bool true)⟩
      (.cons ⟨rfl, Or.inr (text_bool false)⟩ (.cons ⟨rfl, Or.inr (text_nat 1)⟩ .nil)))
  have hone : ofJson (fun _ => none) (.num (.ofNat 1)) = some (.numberUnsigned 1) := by
    rw [ofJson]
    exact ofNumber_ofNat _ (by decide)
  have hmembers : ofMembers (fun _ => none) [(ascii "ok", .bool true),
      (ascii "error", .bool false), (ascii "cmd", .num (.ofNat 1))] =
      some [(ascii "ok", .boolean true), (ascii "error", .boolean false),
        (ascii "cmd", .numberUnsigned 1)] :=
    ofMembers_cons (by decide) rfl (ofMembers_cons (by decide) rfl
      (ofMembers_cons (by decide) hone rfl))
  apply readsJson_referenceParse _ _ _ _ hobj
  rw [ofJson, hmembers]
  rfl

theorem makeCmdResponsePayload_frame_owners :
    ∃ (text : Bytes) (stored : Members),
      makeCmdResponsePayload parseIntegers dumpIntegers (ascii "cmd.x") ownersPayload = .ok text ∧
      stored.lookup (ascii "cmd") = some (.string (ascii "cmd.x")) ∧
      stored.lookup (ascii "error") = some (.boolean false) ∧
      stored.lookup (ascii "ok") = some (.boolean true) ∧
      makeCmdResponsePayload parseIntegers dumpIntegers (ascii "cmd.x") text = .ok text := by
  have hwrite : WritesJson (fun _ => none) dumpIntegers :=
    writesJson_referenceDump stringText_jsonQuoted (by
      rintro n d ⟨⟩)
  have hutf : validUtf8 (ascii "cmd.x") = true := validUtf8_of_ascii (by decide)
  have hread : ReadsJson (fun _ => none) parseIntegers := readsJson_referenceParse _
  obtain ⟨text, ms, stored, out, htext, -, -, -, -, hcmd, herror, hrest, hidem⟩ :=
    makeCmdResponsePayload_frame hread parsesDocuments_referenceParse hwrite hutf ownersPayload
  rw [parse_ownersPayload] at herror hrest
  refine ⟨text, stored, htext, hcmd, herror, ?_, hidem⟩
  rw [hrest _ (by decide) (by decide)]
  rfl

end PhiTransport
