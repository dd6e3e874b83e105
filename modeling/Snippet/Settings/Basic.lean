import Snippet.Diagnostic.Basic
import Snippet.Json.Decoding
import Snippet.Json.Reading
import Snippet.Machine.Module

/-!
Settings: the choices that hold for every compilation, and their written form.
-/

namespace Snippet

/-- The choices that hold for every compilation. -/
structure CompilerSettings where
  version : UInt32
  warningsAsErrors : Bool
  suppressedWarnings : List String
  /-- The number of calls that may be nested. -/
  maxCallDepth : UInt64
deriving DecidableEq, Repr

namespace CompilerSettings

/-- The settings that hold without a file. -/
def default : CompilerSettings := ⟨1, false, [], .ofNat Module.defaultMaxDepth⟩

/-- The policy for warnings. -/
def policy (settings : CompilerSettings) : WarningPolicy :=
  ⟨settings.warningsAsErrors, settings.suppressedWarnings⟩

/-- The written form of settings. -/
def toJson (settings : CompilerSettings) : Json :=
  .object [("version", .int settings.version.toNat),
    ("warnings_as_errors", .bool settings.warningsAsErrors),
    ("suppressed_warnings", .array (settings.suppressedWarnings.map .string)),
    ("max_call_depth", .int settings.maxCallDepth.toNat)]

/-- The content of a field that has a default when it is missing. -/
def fieldOr {α : Type} (default : α) (read? : Json → Option α) : Option Json → Option α
  | none => some default
  | some json => read? json

/-- Reads settings. Only the version must be given. -/
def ofJson? (json : Json) : Option CompilerSettings := do
  let names := ["version", "warnings_as_errors", "suppressed_warnings", "max_call_depth"]
  match ← json.record? names 1 with
  | [version, warningsAsErrors, suppressedWarnings, maxCallDepth] =>
    return ⟨.ofNat (← version.bind (·.unsigned? UInt32.size)),
      ← fieldOr default.warningsAsErrors Json.bool? warningsAsErrors,
      ← fieldOr default.suppressedWarnings (Json.list? Json.text?) suppressedWarnings,
      ← fieldOr default.maxCallDepth (fun json => (json.unsigned? UInt64.size).map .ofNat) maxCallDepth⟩
  | _ => none

/-- The text of a settings file. -/
def toText (settings : CompilerSettings) : String := settings.toJson.pretty 0

/-- Reads the text of a settings file. -/
def ofText? (text : String) : Option CompilerSettings := do ofJson? (← Json.read? text)

end CompilerSettings

end Snippet
