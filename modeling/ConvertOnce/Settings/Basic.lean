import ConvertOnce.Path.Basic

/-!
# Settings of a build

What a build can choose about the conversion of its packages, with the value that each choice has
when nobody makes it, and what can be wrong with settings.
-/

namespace ConvertOnce

/-- What a build chooses about the conversion of its packages. -/
structure Settings where
  /-- The compiler's own settings file, which the converter needs too. -/
  tsconfig : Path
  /-- The manifest fields that name an entry point, the preferred ones first. -/
  properties : List String := ["es2015", "browser", "module", "main"]
  /-- The name of the converter's settings file in the project. -/
  toolConfigName : String := "ngcc.config.js"
  /-- The environment variable that marks a sandboxed build. -/
  skipVariable : String := "BAZEL_TARGET"
  /-- The package that shows whether the tree may be written. -/
  probePackage : String := "@angular/core"
  /-- The directory of the markers within the dependency tree. -/
  markerDirectory : String := ".cli-ngcc"
  /-- The program that runs the converter. -/
  runtime : String
  /-- The converter's entry point. -/
  converterMain : Option Path := none
  deriving DecidableEq

/-- What is wrong with settings. -/
inductive SettingsProblem where
  /-- The file that was asked for does not exist. -/
  | fileMissing
  /-- The file is no JSON. -/
  | invalidJson (message : String)
  /-- The file holds a value other than an object. -/
  | notObject
  /-- The file is of another format or version. -/
  | unsupported
  /-- The file has fields that have no meaning. -/
  | unknownFields (names : List String)
  /-- The field that is free for extensions is no object. -/
  | badExtension
  /-- The properties are not a list of texts with something in it. -/
  | badProperties
  /-- A field is not a text with something in it. -/
  | badText (field : String)
  /-- There are overrides for settings that do not exist. -/
  | unknownOverrides (names : List String)
  /-- A conversion is due and no entry point is chosen. -/
  | noConverter
  deriving DecidableEq, Repr

/-- The wording of a problem. -/
def SettingsProblem.message : SettingsProblem → String
  | fileMissing => "config file not found"
  | invalidJson message => "invalid JSON: " ++ message
  | notObject => "config must be a JSON object"
  | unsupported => "unsupported config format/version"
  | unknownFields names => "config has unknown fields: " ++ ", ".intercalate names
  | badExtension => "config field 'x' must be an object"
  | badProperties => "config field 'properties' must be a non-empty list of strings"
  | badText field => "config field '" ++ field ++ "' must be a non-empty string"
  | unknownOverrides names => "unknown config overrides: " ++ ", ".intercalate names
  | noConverter => "no transformer entry point configured (transformer_main)"

/-- The names, each once, in the order of their code points. -/
def sortedNames (names : List String) : List String :=
  names.eraseDups.mergeSort fun a b => decide (a ≤ b)

end ConvertOnce
