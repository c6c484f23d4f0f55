import PhiTransport.Api.LogEntry

/-!
# Results and errors

The records that cross between core and a transport, and the JSON text of an
error.
-/

namespace PhiTransport

open Octets Rfc8259

abbrev CmdId : Type := UInt64

structure ErrorFlag where
  value : UInt16
deriving DecidableEq

def ErrorFlag.none : ErrorFlag := ⟨0⟩
def ErrorFlag.incident : ErrorFlag := ⟨(1 : UInt16) <<< 0⟩

def hasErrorFlag (flags : UInt16) (flag : ErrorFlag) : Bool := flags &&& flag.value != 0

/-- Names for the flags that have one. -/
def errorFlagNames (flags : UInt16) : List Bytes :=
  if hasErrorFlag flags ErrorFlag.incident then [ascii "incident"] else []

structure Error where
  message : Bytes := []
  params : ScalarList := []
  ctx : Bytes := []
  level : LogLevel := LogLevel.error
  category : UInt8 := LogCategory.internal.value
  flags : UInt16 := 0
  fields : Bytes := []
  tsMs : Int64 := 0
  sourceType : UInt8 := LogSourceType.unknown.value
  sourceId : Bytes := []

structure SyncResult where
  accepted : Bool := false
  payloadJson : Bytes := []
  error : Option Error := none

structure AsyncResult where
  accepted : Bool := false
  cmdId : CmdId := 0
  error : Option Error := none

/-- Encode an error as JSON object text; without a message it encodes to `{}`.
The `*Name` members are derived from the numbers beside them. -/
def errorToJson (toChars : ToChars) (error : Error) : Bytes :=
  if error.message.isEmpty then [lbrace, rbrace]
  else
    let flagNames := errorFlagNames error.flags
    [lbrace] ++ ascii "\"message\":" ++ jsonQuoted error.message ++
      (if !error.params.isEmpty then
        ascii ",\"params\":" ++ scalarListToJson toChars error.params else []) ++
      (if !error.ctx.isEmpty then ascii ",\"ctx\":" ++ jsonQuoted error.ctx else []) ++
      ascii ",\"level\":" ++ decimal error.level.value.toNat ++
      ascii ",\"levelName\":" ++ jsonQuoted (logLevelName error.level) ++
      ascii ",\"category\":" ++ decimal error.category.toNat ++
      ascii ",\"categoryName\":" ++ jsonQuoted (logCategoryName error.category) ++
      ascii ",\"flags\":" ++ decimal error.flags.toNat ++
      (if !flagNames.isEmpty then
        appendItems jsonQuoted flagNames (ascii ",\"flagNames\":[") ++ [rbracket] else []) ++
      (if !isEmptyJsonObject error.fields then ascii ",\"fields\":" ++ error.fields else []) ++
      (if error.tsMs > 0 then ascii ",\"tsMs\":" ++ decimalInt error.tsMs.toInt else []) ++
      (if error.sourceType != LogSourceType.unknown.value then
        ascii ",\"sourceType\":" ++ decimal error.sourceType.toNat ++
          ascii ",\"sourceTypeName\":" ++ jsonQuoted (logSourceTypeName ⟨error.sourceType⟩)
      else []) ++
      (if !error.sourceId.isEmpty then ascii ",\"sourceId\":" ++ jsonQuoted error.sourceId
      else []) ++
      [rbrace]

/-- Whether `errorToJson` has something to render. -/
def isRenderableError (error : Error) : Bool := !error.message.isEmpty

end PhiTransport
