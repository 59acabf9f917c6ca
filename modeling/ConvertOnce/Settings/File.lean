import ConvertOnce.Json.Reader
import ConvertOnce.Settings.Basic

/-!
# The settings file

A settings file is a JSON object of a fixed format and version with a choice of eleven fields.
`SettingsFile.members` checks what the file is, and `SettingsFile.ofMembers` reads the fields; the
first problem in the order written here is the one that is reported, whatever the order in the
file.
-/

namespace ConvertOnce

/-- What a settings file says.  A field that is absent says nothing. -/
structure SettingsFile where
  /-- The preferred manifest fields. -/
  properties : Option (List String)
  /-- The compiler's settings file, as written. -/
  tsconfig : Option String
  /-- The converter's entry point, as written. -/
  converterMain : Option String
  /-- The name of the converter's settings file. -/
  toolConfigName : Option String
  /-- The variable that marks a sandboxed build. -/
  skipVariable : Option String
  /-- The probed package. -/
  probePackage : Option String
  /-- The directory of the markers. -/
  markerDirectory : Option String
  /-- The program that runs the converter. -/
  runtime : Option String
  deriving DecidableEq, Repr

namespace SettingsFile

/-- The name of the settings file that is read when none is asked for. -/
def defaultName : String := "ngcc-gate.json"

/-- The names that a field may have. -/
def fieldNames : List String :=
  ["format", "version", "properties", "tsconfig", "tool_config", "skip_env", "probe_package",
    "marker_dir", "runtime", "transformer_main", "x"]

/-- The value is an object. -/
def isObject : Json → Bool
  | .object _ => true
  | _ => false

/-- The members of a settings file, checked for format, version and names. -/
def members : Json → Except SettingsProblem Members
  | .object members =>
    let unknown := (Members.names members).filter fun name => !fieldNames.contains name
    if (Members.get? members "format").bind Json.string? ≠ some "ngcc-gate"
        || !((Members.get? members "version").any Json.isZero) then .error .unsupported
    else if !unknown.isEmpty then .error (.unknownFields (sortedNames unknown))
    else if (Members.get? members "x").any fun value => !isObject value then .error .badExtension
    else .ok members
  | _ => .error .notObject

/-- A field that has to be a text with something in it, if it is there. -/
def textField (members : Members) (name : String) : Except SettingsProblem (Option String) :=
  match Members.get? members name with
  | none => .ok none
  | some (.string value) => if value = "" then .error (.badText name) else .ok (some value)
  | some _ => .error (.badText name)

/-- A text with something in it. -/
def properText? (value : Json) : Option String := value.string?.filter (· ≠ "")

/-- The preferred manifest fields, if they are there. -/
def propertiesField (members : Members) : Except SettingsProblem (Option (List String)) :=
  match Members.get? members "properties" with
  | none => .ok none
  | some (.array (first :: rest)) =>
    match (first :: rest).mapM properText? with
    | some properties => .ok (some properties)
    | none => .error .badProperties
  | some _ => .error .badProperties

/-- Reads the fields of a settings file. -/
def ofMembers (members : Members) : Except SettingsProblem SettingsFile := do
  let properties ← propertiesField members
  let tsconfig ← textField members "tsconfig"
  let converterMain ← textField members "transformer_main"
  let toolConfigName ← textField members "tool_config"
  let skipVariable ← textField members "skip_env"
  let probePackage ← textField members "probe_package"
  let markerDirectory ← textField members "marker_dir"
  let runtime ← textField members "runtime"
  return ⟨properties, tsconfig, converterMain, toolConfigName, skipVariable, probePackage,
    markerDirectory, runtime⟩

/-- The settings with everything that the file says; its paths are read from the directory `base`
that holds it. -/
def apply (file : SettingsFile) (base : Path) (settings : Settings) : Settings where
  tsconfig := (file.tsconfig.map (base / ·)).getD settings.tsconfig
  properties := file.properties.getD settings.properties
  toolConfigName := file.toolConfigName.getD settings.toolConfigName
  skipVariable := file.skipVariable.getD settings.skipVariable
  probePackage := file.probePackage.getD settings.probePackage
  markerDirectory := file.markerDirectory.getD settings.markerDirectory
  runtime := file.runtime.getD settings.runtime
  converterMain := (file.converterMain.map (base / ·)).or settings.converterMain

end SettingsFile

end ConvertOnce
