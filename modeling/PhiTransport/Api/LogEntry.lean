import PhiTransport.Api.Scalar

/-!
# The log record

The shared log vocabulary, the record that crosses to a transport and its JSON
text. An enumeration of the source with a fixed underlying type is its
underlying byte here, since any byte can be cast to it; a `switch` over its
names is a table with the name returned behind the switch.
-/

namespace PhiTransport

open Octets Rfc8259

/-- The shared log vocabulary's level. -/
structure LogLevel where
  value : UInt8
deriving DecidableEq

def LogLevel.trace : LogLevel := ⟨1⟩
def LogLevel.debug : LogLevel := ⟨2⟩
def LogLevel.info : LogLevel := ⟨3⟩
def LogLevel.warn : LogLevel := ⟨4⟩
def LogLevel.error : LogLevel := ⟨5⟩

/-- `0..63` is shared with adapters, `64..127` is core's own. -/
structure LogCategory where
  value : UInt8
deriving DecidableEq

def LogCategory.internal : LogCategory := ⟨0⟩
def LogCategory.lifecycle : LogCategory := ⟨1⟩
def LogCategory.discovery : LogCategory := ⟨2⟩
def LogCategory.network : LogCategory := ⟨3⟩
def LogCategory.protocol : LogCategory := ⟨4⟩
def LogCategory.device : LogCategory := ⟨5⟩
def LogCategory.config : LogCategory := ⟨6⟩
def LogCategory.performance : LogCategory := ⟨7⟩
def LogCategory.security : LogCategory := ⟨8⟩
def LogCategory.database : LogCategory := ⟨9⟩
def LogCategory.transport : LogCategory := ⟨64⟩
def LogCategory.automation : LogCategory := ⟨65⟩
def LogCategory.auth : LogCategory := ⟨66⟩
def LogCategory.storage : LogCategory := ⟨67⟩
def LogCategory.plugin : LogCategory := ⟨68⟩
def LogCategory.api : LogCategory := ⟨69⟩
def LogCategory.system : LogCategory := ⟨70⟩

structure LogSourceType where
  value : UInt8
deriving DecidableEq

def LogSourceType.unknown : LogSourceType := ⟨0⟩
def LogSourceType.core : LogSourceType := ⟨1⟩
def LogSourceType.adapter : LogSourceType := ⟨2⟩
def LogSourceType.webSocket : LogSourceType := ⟨3⟩
def LogSourceType.cli : LogSourceType := ⟨4⟩
def LogSourceType.transport : LogSourceType := ⟨5⟩
def LogSourceType.automation : LogSourceType := ⟨6⟩
def LogSourceType.database : LogSourceType := ⟨7⟩

structure LogEntry where
  level : LogLevel := LogLevel.info
  category : UInt8 := LogCategory.internal.value
  message : Bytes := []
  params : ScalarList := []
  ctx : Bytes := []
  fields : Bytes := []
  tsMs : Int64 := 0
  sourceType : LogSourceType := LogSourceType.core
  sourceId : Bytes := []

/-- The incident marker in a category byte. -/
def kLogIncidentFlag : UInt8 := 0x80

def isIncident (category : UInt8) : Bool := category &&& kLogIncidentFlag != 0

def baseCategory (category : UInt8) : UInt8 := category &&& 0x7F

def makeCategory (category : LogCategory) (incident : Bool := false) : UInt8 :=
  let value := category.value
  if incident then value ||| kLogIncidentFlag else value

def categoryEnum (category : UInt8) : LogCategory := ⟨category &&& 0x7F⟩

def logLevelName (level : LogLevel) : Bytes :=
  ([(LogLevel.trace, ascii "trace"), (LogLevel.debug, ascii "debug"),
    (LogLevel.info, ascii "info"), (LogLevel.warn, ascii "warn"),
    (LogLevel.error, ascii "error")].lookup level).getD (ascii "info")

def logCategoryName (category : UInt8) : Bytes :=
  ([(LogCategory.internal, ascii "internal"), (LogCategory.lifecycle, ascii "lifecycle"),
    (LogCategory.discovery, ascii "discovery"), (LogCategory.network, ascii "network"),
    (LogCategory.protocol, ascii "protocol"), (LogCategory.device, ascii "device"),
    (LogCategory.config, ascii "config"), (LogCategory.performance, ascii "performance"),
    (LogCategory.security, ascii "security"), (LogCategory.database, ascii "database"),
    (LogCategory.transport, ascii "transport"), (LogCategory.automation, ascii "automation"),
    (LogCategory.auth, ascii "auth"), (LogCategory.storage, ascii "storage"),
    (LogCategory.plugin, ascii "plugin"), (LogCategory.api, ascii "api"),
    (LogCategory.system, ascii "system")].lookup (categoryEnum category)).getD (ascii "internal")

def logSourceTypeName (sourceType : LogSourceType) : Bytes :=
  ([(LogSourceType.unknown, ascii "unknown"), (LogSourceType.core, ascii "core"),
    (LogSourceType.adapter, ascii "adapter"), (LogSourceType.webSocket, ascii "ws"),
    (LogSourceType.cli, ascii "cli"), (LogSourceType.transport, ascii "transport"),
    (LogSourceType.automation, ascii "automation"),
    (LogSourceType.database, ascii "database")].lookup sourceType).getD (ascii "unknown")

/-- Encode a log record as JSON object text. `fields` is nested unparsed, and
optional members are left out when they are empty. -/
def logEntryToJson (toChars : ToChars) (entry : LogEntry) : Bytes :=
  [lbrace] ++ ascii "\"level\":" ++ decimal entry.level.value.toNat ++
    ascii ",\"category\":" ++ decimal entry.category.toNat ++
    ascii ",\"message\":" ++ jsonQuoted entry.message ++
    (if !entry.params.isEmpty then
      ascii ",\"params\":" ++ scalarListToJson toChars entry.params else []) ++
    (if !entry.ctx.isEmpty then ascii ",\"ctx\":" ++ jsonQuoted entry.ctx else []) ++
    (if !isEmptyJsonObject entry.fields then ascii ",\"fields\":" ++ entry.fields else []) ++
    (if entry.tsMs > 0 then ascii ",\"tsMs\":" ++ decimalInt entry.tsMs.toInt else []) ++
    ascii ",\"sourceType\":" ++ decimal entry.sourceType.value.toNat ++
    (if !entry.sourceId.isEmpty then ascii ",\"sourceId\":" ++ jsonQuoted entry.sourceId else []) ++
    [rbrace]

end PhiTransport
