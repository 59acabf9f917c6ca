import ConvertOnce.ByteCache
import ConvertOnce.Manifest
import ConvertOnce.Settings.Basic

/-!
# Converting packages on demand

While a compiler resolves imports, each resolved module is offered here, and the package that it
belongs to is converted when it is needed for the first time.  A file is *settled* once nothing
more has to be done for it: its package was converted, or has no manifest that may be written.
A file whose conversion failed is not settled, so the next offer tries again.
-/

namespace ConvertOnce

/-- What the conversions of one build work on and leave behind. -/
structure BuildState where
  /-- The world. -/
  world : World
  /-- The contents of files that the compiler has read. -/
  cache : ByteCache
  /-- What the converter has reported. -/
  report : Report
  /-- The canonical paths of the settled files, each once. -/
  settled : List String

namespace BuildState

/-- The state with one more settled file. -/
def settle (s : BuildState) (key : String) : BuildState :=
  if key ∈ s.settled then s else { s with settled := key :: s.settled }

/-- The file is settled. -/
def isSettled (s : BuildState) (file : String) : Bool := decide (canonicalText file ∈ s.settled)

/-- Forgets that a file is settled, since it has changed. -/
def unsettle (s : BuildState) (file : String) : BuildState :=
  { s with settled := s.settled.filter (· ≠ canonicalText file) }

/-- The settled files in the order of their code points. -/
def settledFiles (s : BuildState) : List String := s.settled.mergeSort fun a b => decide (a ≤ b)

end BuildState

/-- What converts packages on demand. -/
structure OnDemand where
  /-- The settings of the build. -/
  settings : Settings
  /-- The dependency tree, if the project has one. -/
  dependencyRoot : Option Path
  /-- Finds manifests. -/
  finder : Finder
  /-- The threshold of the converter's log. -/
  threshold : Gravity := .info

namespace OnDemand

/-- What the converter is asked to do with the package of a manifest. -/
def requestFor (c : OnDemand) (root : Path) (manifest : String) : ConversionRequest where
  basePath := root.text
  packagePath := directoryText manifest
  properties := c.settings.properties
  tsconfig := c.settings.tsconfig.text

/-- Converts the package of a manifest, on behalf of a module. -/
def convert (c : OnDemand) (root : Path) (moduleName manifest : String) : Action BuildState Unit :=
  fun s =>
    let (start, world) := s.world.startWatch
    let (failure, world, report) :=
      world.convertPackage c.threshold s.report (c.requestFor root manifest)
    let world := world.stopWatch ("IncrementalProcessor.process+" ++ moduleName) start
    let s := { s with world, report }
    match failure with
    | none => (.ok (), s)
    | some reason =>
      let message := "ngcc failed to process '" ++ moduleName ++ "': " ++ reason
      (.error (.build (.packageFailed message moduleName (some manifest))), s)

/-- Converts the package of a module that was resolved to a file, unless the file is settled.  A
relative module, an unknown file and a build without a dependency tree need nothing. -/
def offer (c : OnDemand) (moduleName : String) (file : Option String) : Action BuildState Unit :=
  fun s =>
    match c.dependencyRoot, file.filter (· ≠ "") with
    | some root, some file =>
      if isLocalName moduleName || s.isSettled file then (.ok (), s)
      else
        let key := canonicalText file
        let (manifest, world) := c.finder.manifest? moduleName file s.world
        let s := { s with world }
        match manifest with
        | none => (.ok (), s.settle key)
        | some manifest =>
          match s.world.files.isProtectedPackage manifest with
          | .error fault => (.error fault, s)
          | .ok true => (.ok (), s.settle key)
          | .ok false =>
            match c.convert root moduleName manifest s with
            | (.error fault, s) => (.error fault, s)
            | (.ok (), s) => (.ok (), { s with cache := s.cache.forget manifest }.settle key)
    | _, _ => (.ok (), s)

end OnDemand

end ConvertOnce
