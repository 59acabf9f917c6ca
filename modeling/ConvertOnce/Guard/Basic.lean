import ConvertOnce.BuildInputs.Basic
import ConvertOnce.Guard.Decision
import ConvertOnce.Manifest
import ConvertOnce.Settings.Basic

/-!
# The guard of a dependency tree

A `Guard` stands before the conversion of a whole dependency tree.  `Guard.decide` looks whether a
conversion of the present inputs has left its marker, `Guard.convert` runs the converter as a child
process, and `Guard.record` leaves the marker.  `Guard.ensure` does the three in turn.

The three are separate steps.  Two builds that find no marker both convert the tree.
-/

namespace ConvertOnce

/-- What guards a dependency tree. -/
structure Guard where
  /-- The settings of the build. -/
  settings : Settings
  /-- The dependency tree, if the project has one. -/
  dependencyRoot : Option Path
  /-- Finds the manifest of the probed package. -/
  finder : Finder
  /-- The environment to look at, where it is not that of the process. -/
  environment : Option Environment := none

namespace Guard

/-- The directory of the project. -/
def projectRoot (g : Guard) : Option Path := g.dependencyRoot.map Path.parent

/-- The directory of the markers. -/
def markerDirectory (g : Guard) : Option Path :=
  g.dependencyRoot.map (· / g.settings.markerDirectory)

/-- Where the inputs for a dependency tree are found. -/
def sourcesOf (g : Guard) (root : Path) : InputSources where
  projectRoot := root.parent
  tsconfig := g.settings.tsconfig
  toolConfigName := g.settings.toolConfigName

/-- Where the inputs are found. -/
def sources (g : Guard) : Except Fault InputSources :=
  match g.dependencyRoot with
  | some root => .ok (g.sourcesOf root)
  | none => .error (.build (.noDependencyRoot "RunGate.hasher"))

/-- The environment that the guard looks at. -/
def environmentIn (g : Guard) (w : World) : Environment := g.environment.getD w.environment

/-- The environment of the process is to be asked for a variable of a name that it cannot be asked
for, since there is half of a character in it. -/
def asksInVain (g : Guard) : Bool :=
  g.environment.isNone && hasLoneHalf g.settings.skipVariable.toList

/-- The build is sandboxed, so that its tree is only in part its own. -/
def isSandboxed (g : Guard) (w : World) : Bool :=
  (g.environmentIn w).isSet g.settings.skipVariable

/-! ### Deciding -/

/-- The marker of a conversion of a dependency tree from the inputs of a digest. -/
def markerOf (g : Guard) (root : Path) (digest : InputDigest) : Path :=
  root / g.settings.markerDirectory / digest.markerFile

/-- What to do about a tree whose inputs are known, by whether their marker is there. -/
def decideByMarker (g : Guard) (root : Path) (fs : FileSystem) (digest : InputDigest) :
    Except Fault Decision := do
  let marker := g.markerOf root digest
  if ← fs.isPresent marker then return ⟨.skip, .markerPresent, digest, marker⟩
  else return ⟨.run, .markerAbsent, digest, marker⟩

/-- What to do about a tree that may be written.  Inputs that cannot be read need a conversion. -/
def decideByInputs (g : Guard) (root : Path) (fs : FileSystem) : Except Fault Decision :=
  match (g.sourcesOf root).digest fs with
  | .ok digest => g.decideByMarker root fs digest
  | .error (.system ..) | .error (.build _) => .ok { verdict := .run, reason := .inputsUnknown }
  | .error fault => .error fault

/-- What to do about a tree whose probed package has the given manifest. -/
def decideByProbe (g : Guard) (root : Path) (fs : FileSystem) :
    Option String → Except Fault Decision
  | none => g.decideByInputs root fs
  | some manifest => do
    if ← fs.isProtectedPackage manifest then return { verdict := .skip, reason := .readOnly }
    else g.decideByInputs root fs

/-- Decides whether the tree is to be converted.  Beyond a question to the host's finder this
changes nothing. -/
def decide (g : Guard) : Action World Decision := fun w =>
  match g.dependencyRoot with
  | none => (.ok { verdict := .skip, reason := .noDependencyRoot }, w)
  | some root =>
    if g.asksInVain then (.error .nulCharacter, w)
    else if g.isSandboxed w then (.ok { verdict := .skip, reason := .sandboxed }, w)
    else
      let (manifest, w) := g.finder.manifest? g.settings.probePackage root.text w
      (g.decideByProbe root w.files manifest, w)

/-! ### Converting and recording -/

/-- The arguments of the child process that converts a tree. -/
def childArguments (runtime : String) (main source : Path) (properties : List String)
    (tsconfig : Path) : List String :=
  [runtime, main.text, "--source", source.text, "--properties"] ++ properties
    ++ ["--first-only", "--create-ivy-entry-points", "--async", "--tsconfig", tsconfig.text,
      "--use-program-dependencies"]

/-- The arguments of the child that converts a tree by an entry point. -/
def argumentsFor (g : Guard) (root main : Path) : List String :=
  childArguments g.settings.runtime main root g.settings.properties g.settings.tsconfig

/-- Converts the tree, if the decision says so. -/
def convert (g : Guard) (d : Decision) : Action World Unit :=
  match d.verdict with
  | .skip => pure ()
  | .run =>
    match g.dependencyRoot, g.settings.converterMain with
    | none, _ => .fail (.build (.noDependencyRoot "RunGate.execute"))
    | _, none => .fail (.build (.badSettings SettingsProblem.noConverter.message none))
    | some root, some main =>
      World.measured "RunGate.execute" (World.convertTree (g.argumentsFor root main))

/-- Records a finished conversion, and says whether a marker was written. -/
def record (d : Decision) : Action World Bool := fun w =>
  let (written, files) := d.record w.files
  (written, { w with files })

/-- Decides, converts and records. -/
def ensure (g : Guard) : Action World Decision := do
  let d ← g.decide
  if d.isRun then
    g.convert d
    let _ ← record d
  return d

end Guard

end ConvertOnce
