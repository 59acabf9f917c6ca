import ConvertOnce.FileSystem.RealPath
import ConvertOnce.Settings.File
import ConvertOnce.Settings.Override
import ConvertOnce.Text.Utf8

/-!
# Loading settings

The settings of a build are the defaults, changed by its settings file and then by overrides.  The
settings file is the one that is asked for, which then has to exist, or one with the usual name in
the base directory, which need not.
-/

namespace ConvertOnce.Settings

/-- The settings of a build that chooses nothing, by the real path of its base directory.  The
converter is run by the program that the build itself runs in. -/
def defaults (fs : FileSystem) (real : Path) : Settings where
  tsconfig := real / "tsconfig.json"
  runtime := fs.executable

/-- The settings of a build that chooses nothing. -/
def ofBase (fs : FileSystem) (base : Path) : Except Fault Settings := do
  return defaults fs (← fs.realPath base)

/-- A problem with the settings file at a path. -/
def problemAt (path : Path) (problem : SettingsProblem) : Fault :=
  .build (.badSettings problem.message (some path.text))

/-- The text of a file, with every line end as `\n`. -/
def readText (fs : FileSystem) (path : Path) : Except Fault (List Char) := do
  match Utf8.decodeChars (← fs.read path.text) with
  | some chars => .ok (normalizeLines chars)
  | none => .error .undecodable

/-- The members of the settings file at a path, checked for format, version and names. -/
def fileMembers (fs : FileSystem) (path : Path) : Except Fault Members := do
  let text ← readText fs path
  match Json.read fs.maxNesting text with
  | .error (.malformed complaint position) =>
    .error (problemAt path (.invalidJson (complaint.message text position)))
  | .error (.hugeInteger digits) => .error (.hugeInteger digits)
  | .error .tooDeep => .error .tooDeep
  | .ok value => (SettingsFile.members value).mapError (problemAt path)

/-- The settings changed by the file at a path. -/
def applyFile (fs : FileSystem) (settings : Settings) (path : Path) : Except Fault Settings := do
  let members ← fileMembers fs path
  let base ← fs.realPath path.parent
  let file ← (SettingsFile.ofMembers members).mapError (problemAt path)
  return file.apply base settings

/-- The settings of a build: the defaults for its base directory, then its settings file, then the
overrides. -/
def load (fs : FileSystem) (base : Path) (asked : Option Path) (overrides : List Override) :
    Except Fault Settings := do
  let start ← ofBase fs base
  let path := asked.getD (base / SettingsFile.defaultName)
  let there ← fs.isPresent path
  if !there && asked.isSome then .error (problemAt path .fileMissing)
  let settings ← if there then applyFile fs start path else pure start
  (Override.applyAll settings overrides).mapError fun problem =>
    .build (.badSettings problem.message none)

end ConvertOnce.Settings
