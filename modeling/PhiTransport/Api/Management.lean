import PhiTransport.Api.JsonText

/-!
# The management surface

What a transport describes itself with and what an action answers, as texts
assembled by concatenation: an action with optional members and fields appended
verbatim, the description that lists the actions, and the three results.
-/

namespace PhiTransport

open Octets Rfc8259

def status.kSuccess : Int32 := 0
def status.kFailure : Int32 := 1

/-! ## The description -/

/-- One action of the description. `extraFieldsJson` is appended verbatim
inside the object; empty for none. -/
def makeActionDescriptor (id label : Bytes) (description extraFieldsJson : Bytes := []) : Bytes :=
  [lbrace] ++ ascii "\"id\":" ++ jsonQuoted id ++
    (if !label.isEmpty then ascii ",\"label\":" ++ jsonQuoted label else []) ++
    (if !description.isEmpty then ascii ",\"description\":" ++ jsonQuoted description else []) ++
    (if !extraFieldsJson.isEmpty then [comma] ++ extraFieldsJson else []) ++ [rbrace]

/-- A summary line and the actions. -/
def makeManagementDescription (summary : Bytes) (actionsJson : List Bytes) : Bytes :=
  let out := [lbrace] ++
    (if !summary.isEmpty then ascii "\"summary\":" ++ jsonQuoted summary else [])
  let first := summary.isEmpty
  (if actionsJson.length > 0 then
    appendItems (fun action => action) actionsJson
      (out ++ (if !first then [comma] else []) ++ ascii "\"actions\":[") ++ [rbracket]
  else out) ++ [rbrace]

/-! ## The results -/

/-- A successful result carrying a sentence. -/
def makeActionResultText (text : Bytes) (reloadLayout : Bool := false) : Bytes :=
  [lbrace] ++ ascii "\"status\":0,\"resultValue\":" ++ jsonQuoted text ++
    (if reloadLayout then ascii ",\"reloadLayout\":true" else []) ++ [rbrace]

/-- A successful result carrying any JSON value; `null` where the text is empty. -/
def makeActionResultValue (resultValueJson : Bytes) (reloadLayout : Bool := false) : Bytes :=
  [lbrace] ++ ascii "\"status\":0,\"resultValue\":" ++
    (if resultValueJson.isEmpty then ascii "null" else resultValueJson) ++
    (if reloadLayout then ascii ",\"reloadLayout\":true" else []) ++ [rbrace]

/-- A failed result; the status of success is reported as a failure. -/
def makeActionResultError (message : Bytes) (statusCode : Int32 := status.kFailure) : Bytes :=
  [lbrace] ++ ascii "\"status\":" ++
    decimalInt (if statusCode = status.kSuccess then status.kFailure else statusCode).toInt ++
    ascii ",\"error\":" ++ [lbrace] ++ ascii "\"message\":" ++ jsonQuoted message ++
    [rbrace, rbrace]

end PhiTransport
