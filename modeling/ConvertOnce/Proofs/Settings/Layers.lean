import ConvertOnce.Proofs.Path.Absolute
import ConvertOnce.Settings.File
import ConvertOnce.Settings.Override

/-!
# Settings in layers

The eight settings of a build, taken one by one (`Setting`), with the name that each has in a
settings file and the name under which a host overrides it.  Three layers give values to settings:
the defaults, the members of a settings file (`Members.said?`) and the overrides (`lastGiven?`).
Each layer that is applied changes the settings to which it gives a value and no other
(`SettingsFile.get_apply`, `Override.get_foldl_apply`).
-/

namespace ConvertOnce

/-- The settings of a build, one by one. -/
inductive Setting where
  | tsconfig
  | properties
  | toolConfigName
  | skipVariable
  | probePackage
  | markerDirectory
  | runtime
  | converterMain
  deriving DecidableEq

namespace Setting

/-- What a setting can be. -/
@[reducible] def Value : Setting → Type
  | tsconfig => Path
  | properties => List String
  | converterMain => Option Path
  | toolConfigName | skipVariable | probePackage | markerDirectory | runtime => String

/-- The name of a setting in a settings file. -/
def fieldName : Setting → String
  | tsconfig => "tsconfig"
  | properties => "properties"
  | toolConfigName => "tool_config"
  | skipVariable => "skip_env"
  | probePackage => "probe_package"
  | markerDirectory => "marker_dir"
  | runtime => "runtime"
  | converterMain => "transformer_main"

/-- The name under which a host overrides a setting. -/
def overrideName : Setting → String
  | tsconfig => "tsconfig_path"
  | properties => "properties_to_consider"
  | toolConfigName => "tool_config_name"
  | skipVariable => "skip_env_var"
  | probePackage => "probe_package"
  | markerDirectory => "marker_dir_name"
  | runtime => "runtime"
  | converterMain => "transformer_main"

end Setting

/-- The value of one setting. -/
def Settings.get (settings : Settings) : (x : Setting) → x.Value
  | .tsconfig => settings.tsconfig
  | .properties => settings.properties
  | .toolConfigName => settings.toolConfigName
  | .skipVariable => settings.skipVariable
  | .probePackage => settings.probePackage
  | .markerDirectory => settings.markerDirectory
  | .runtime => settings.runtime
  | .converterMain => settings.converterMain

/-! ### The settings file -/

/-- A path written in a directory: an absolute one stands as it is. -/
def Path.writtenIn (directory : Path) (s : String) : Path :=
  if IsAbsoluteText s then .ofString s else directory / s

theorem Path.writtenIn_eq (directory : Path) (s : String) :
    directory.writtenIn s = directory / s := by
  rw [writtenIn]
  split
  · next h =>
    have hanchor : (ofString s).anchor ≠ .relative := bne_iff_ne.1 (isAbsolute_ofString h)
    exact (if_neg hanchor).symm
  · rfl

namespace Members

variable {members : Members}

/-- The text under a name. -/
def textAt? (members : Members) (name : String) : Option String :=
  (members.get? name).bind Json.string?

/-- The texts under a name. -/
def textsAt? (members : Members) (name : String) : Option (List String) :=
  match members.get? name with
  | some (.array elements) => elements.mapM Json.string?
  | _ => none

/-- What the members of a settings file in a directory say about a setting. -/
def said? (members : Members) (directory : Path) : (x : Setting) → Option x.Value
  | .tsconfig => (members.textAt? Setting.tsconfig.fieldName).map directory.writtenIn
  | .properties => members.textsAt? Setting.properties.fieldName
  | .toolConfigName => members.textAt? Setting.toolConfigName.fieldName
  | .skipVariable => members.textAt? Setting.skipVariable.fieldName
  | .probePackage => members.textAt? Setting.probePackage.fieldName
  | .markerDirectory => members.textAt? Setting.markerDirectory.fieldName
  | .runtime => members.textAt? Setting.runtime.fieldName
  | .converterMain =>
    (members.textAt? Setting.converterMain.fieldName).map fun s => some (directory.writtenIn s)

/-- All that the members of a settings file say. -/
def file (members : Members) : SettingsFile where
  properties := members.textsAt? Setting.properties.fieldName
  tsconfig := members.textAt? Setting.tsconfig.fieldName
  converterMain := members.textAt? Setting.converterMain.fieldName
  toolConfigName := members.textAt? Setting.toolConfigName.fieldName
  skipVariable := members.textAt? Setting.skipVariable.fieldName
  probePackage := members.textAt? Setting.probePackage.fieldName
  markerDirectory := members.textAt? Setting.markerDirectory.fieldName
  runtime := members.textAt? Setting.runtime.fieldName

/-- **Applying a settings file** changes the settings that it says something about. -/
theorem get_apply_file (members : Members) (directory : Path) (settings : Settings) (x : Setting) :
    (members.file.apply directory settings).get x
      = (members.said? directory x).getD (settings.get x) := by
  have hwritten : directory.writtenIn = fun s => directory / s := by
    funext s
    exact directory.writtenIn_eq s
  -- Only the two settings that are paths are read from where the file is.
  cases x with
  | tsconfig =>
    rw [said?, hwritten]
    rfl
  | converterMain =>
    rw [said?, hwritten]
    show (members.file.converterMain.map (directory / ·)).or settings.converterMain = _
    rw [file]
    cases members.textAt? Setting.converterMain.fieldName <;> rfl
  | properties => rfl
  | toolConfigName => rfl
  | skipVariable => rfl
  | probePackage => rfl
  | markerDirectory => rfl
  | runtime => rfl

end Members

/-! ### Overrides -/

namespace Override

/-- The name of an override. -/
def name : Override → String
  | tsconfig _ => Setting.tsconfig.overrideName
  | properties _ => Setting.properties.overrideName
  | toolConfigName _ => Setting.toolConfigName.overrideName
  | skipVariable _ => Setting.skipVariable.overrideName
  | probePackage _ => Setting.probePackage.overrideName
  | markerDirectory _ => Setting.markerDirectory.overrideName
  | runtime _ => Setting.runtime.overrideName
  | converterMain _ => Setting.converterMain.overrideName
  | unknown name => name

/-- The value that an override gives a setting. -/
def given? : Override → (x : Setting) → Option x.Value
  | tsconfig path, .tsconfig => some (Path.ofString path)
  | properties names, .properties => some names
  | toolConfigName name, .toolConfigName => some name
  | skipVariable name, .skipVariable => some name
  | probePackage name, .probePackage => some name
  | markerDirectory name, .markerDirectory => some name
  | runtime program, .runtime => some program
  | converterMain path, .converterMain => some (path.map Path.ofString)
  | _, _ => none

/-- An override by the name of a setting is one of that setting. -/
def IsNamed (o : Override) : Prop :=
  ∀ (name : String) (x : Setting), o = unknown name → name ≠ x.overrideName

/-- The value that overrides give a setting, by the last of them if there are several. -/
def lastGiven? (overrides : List Override) (x : Setting) : Option x.Value :=
  (overrides.filterMap (·.given? x)).getLast?

variable {o : Override} {overrides : List Override}

/-- The overrides by the name of a setting are those that give it a value. -/
theorem isSome_given?_iff (h : o.IsNamed) (x : Setting) :
    (o.given? x).isSome = true ↔ o.name = x.overrideName := by
  cases o with
  | unknown name => simpa [given?, Override.name] using h name x rfl
  | _ => cases x <;> simp [given?, Override.name, Setting.overrideName]

theorem unknownName?_eq_none_iff (h : o.IsNamed) :
    o.unknownName? = none ↔ ∃ x : Setting, o.name = x.overrideName := by
  simp only [← isSome_given?_iff h]
  cases o with
  | unknown name => simp [unknownName?, given?]
  | tsconfig path => exact iff_of_true rfl ⟨.tsconfig, rfl⟩
  | properties names => exact iff_of_true rfl ⟨.properties, rfl⟩
  | toolConfigName name => exact iff_of_true rfl ⟨.toolConfigName, rfl⟩
  | skipVariable name => exact iff_of_true rfl ⟨.skipVariable, rfl⟩
  | probePackage name => exact iff_of_true rfl ⟨.probePackage, rfl⟩
  | markerDirectory name => exact iff_of_true rfl ⟨.markerDirectory, rfl⟩
  | runtime program => exact iff_of_true rfl ⟨.runtime, rfl⟩
  | converterMain path => exact iff_of_true rfl ⟨.converterMain, rfl⟩

theorem get_apply (o : Override) (settings : Settings) (x : Setting) :
    (o.apply settings).get x = (o.given? x).getD (settings.get x) := by
  cases o <;> cases x <;> rfl

theorem lastGiven?_cons (o : Override) (overrides : List Override) (x : Setting) :
    lastGiven? (o :: overrides) x = (lastGiven? overrides x).or (o.given? x) := by
  rw [lastGiven?, lastGiven?, List.filterMap_cons]
  cases o.given? x with
  | none => rw [Option.or_none]
  | some value =>
    rw [List.getLast?_cons]
    cases (overrides.filterMap (·.given? x)).getLast? <;> rfl

/-- **Applying overrides** changes the settings to which they give a value. -/
theorem get_foldl_apply (overrides : List Override) (settings : Settings) (x : Setting) :
    (overrides.foldl apply settings).get x
      = (lastGiven? overrides x).getD (settings.get x) := by
  -- From the first on, which finds the settings as they are: a later one takes precedence.
  induction overrides generalizing settings with
  | nil => rfl
  | cons o overrides ih =>
    rw [List.foldl_cons, ih, get_apply, lastGiven?_cons]
    cases lastGiven? overrides x <;> rfl

/-- Overrides are accepted when each of them is one of a setting, and then they are applied. -/
theorem applyAll_eq_ok_iff (h : ∀ o ∈ overrides, o.IsNamed) {start settings : Settings} :
    applyAll start overrides = .ok settings ↔
      (∀ o ∈ overrides, ∃ x : Setting, o.name = x.overrideName) ∧
        settings = overrides.foldl apply start := by
  have hknown : (overrides.filterMap unknownName?).isEmpty = true ↔
      ∀ o ∈ overrides, ∃ x : Setting, o.name = x.overrideName := by
    rw [List.isEmpty_iff, List.filterMap_eq_nil_iff]
    exact forall₂_congr fun o ho => unknownName?_eq_none_iff (h o ho)
  rw [← hknown, applyAll]
  split
  · next hempty => simp [hempty, eq_comm]
  · next hempty => simp [hempty]

end Override

end ConvertOnce
