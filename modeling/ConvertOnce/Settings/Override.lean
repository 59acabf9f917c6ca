import ConvertOnce.Settings.Basic

/-!
# Overrides

A host can override single settings after the settings file has been read.  An override is given
by the name of a setting; one whose name is no setting is refused, and of several refused names all
are reported.
-/

namespace ConvertOnce

/-- One setting overridden by the host. -/
inductive Override where
  /-- The compiler's settings file. -/
  | tsconfig (path : String)
  /-- The preferred manifest fields. -/
  | properties (names : List String)
  /-- The name of the converter's settings file. -/
  | toolConfigName (name : String)
  /-- The variable that marks a sandboxed build. -/
  | skipVariable (name : String)
  /-- The probed package. -/
  | probePackage (name : String)
  /-- The directory of the markers. -/
  | markerDirectory (name : String)
  /-- The program that runs the converter. -/
  | runtime (program : String)
  /-- The converter's entry point, which may be taken away. -/
  | converterMain (path : Option String)
  /-- Something else. -/
  | unknown (name : String)
  deriving DecidableEq, Repr

namespace Override

/-- The name of an override that is no setting. -/
def unknownName? : Override → Option String
  | unknown name => some name
  | _ => none

/-- The settings with one of them overridden. -/
def apply (settings : Settings) : Override → Settings
  | tsconfig path => { settings with tsconfig := .ofString path }
  | properties names => { settings with properties := names }
  | toolConfigName name => { settings with toolConfigName := name }
  | skipVariable name => { settings with skipVariable := name }
  | probePackage name => { settings with probePackage := name }
  | markerDirectory name => { settings with markerDirectory := name }
  | runtime program => { settings with runtime := program }
  | converterMain path => { settings with converterMain := path.map .ofString }
  | unknown _ => settings

/-- The settings with all overrides, or the names that are no settings. -/
def applyAll (settings : Settings) (overrides : List Override) : Except SettingsProblem Settings :=
  let unknown := overrides.filterMap unknownName?
  if unknown.isEmpty then .ok (overrides.foldl apply settings)
  else .error (.unknownOverrides (sortedNames unknown))

end Override

end ConvertOnce
