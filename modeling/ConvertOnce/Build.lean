import ConvertOnce.Guard.Basic
import ConvertOnce.OnDemand
import ConvertOnce.Settings.Load

/-!
# Builds

A build guards its dependency tree as a whole and converts single packages on demand.  Both parts
share the settings, the finder and the dependency tree, which is looked for once.
-/

namespace ConvertOnce

/-- One build's way to converted packages. -/
structure Build where
  /-- The guard of the whole tree. -/
  guard : Guard
  /-- What converts single packages. -/
  onDemand : OnDemand

namespace Build

/-- A build with the given settings, dependency tree and finder. -/
def ofParts (settings : Settings) (dependencyRoot : Option Path) (finder : Finder) : Build where
  guard := { settings, dependencyRoot, finder }
  onDemand := { settings, dependencyRoot, finder }

/-- The build of the project around a directory.  Settings that are not given are loaded. -/
def forProject (fs : FileSystem) (base : Path) (settings : Option Settings)
    (finder : Finder) : Except Fault Build := do
  let settings ← match settings with
    | some settings => pure settings
    | none => Settings.load fs base none []
  return ofParts settings (← fs.dependencyRoot? base dependencyDirectory) finder

end Build

end ConvertOnce
