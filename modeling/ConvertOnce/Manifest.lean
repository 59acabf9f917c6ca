import ConvertOnce.FileSystem.Probe
import ConvertOnce.World

/-!
# Finding manifests

A module belongs to the package whose manifest its name leads to.  A `Finder` finds files of
packages: the usual one searches the dependency directories from the inside out, and a host can
supply its own.  `Finder.manifest?` asks the finder and falls back on the manifest beside the
importing file when it fails.

`FileSystem.dependencyRoot?` finds the dependency tree of a project by the same walk outwards.
-/

namespace ConvertOnce

/-- The usual name of a dependency directory. -/
def dependencyDirectory : String := "node_modules"

/-- The name of a manifest. -/
def manifestName : String := "package.json"

/-- A module named by its place relative to the importing file. -/
def isLocalName (name : String) : Bool := name.toList.head? = some '.'

/-- The request for the manifest of a module's package. -/
def packageManifest (moduleName : String) : String := moduleName ++ "/" ++ manifestName

namespace FileSystem

/-- The nearest dependency tree at or above a directory; the root of the file system has none. -/
def dependencyRoot? (fs : FileSystem) (base : Path) (name : String) :
    Except Fault (Option Path) :=
  (base.ancestors fs.cwd).findSomeM? fun directory => do
    return if ← fs.isPresent (directory / name) then some (directory / name) else none

/-- Searches the dependency directories of the given name from a file or directory outwards for a
file of a package.  A directory that is itself a dependency directory is passed over. -/
def findInDependencies (fs : FileSystem) (name context request : String) :
    Except Fault String := do
  if isLocalName request || request.toList.head? = some '/' then
    .error (.notPackageRequest request)
  let place := Path.ofString context
  let start := if ← fs.isDirectoryAt place then place else place.parent
  let found ← (start.ancestors fs.cwd).findSomeM? fun directory => do
    if directory.name = name then return none
    let candidate := directory / name / request
    return if ← fs.isFileAt candidate then some candidate else none
  match found with
  | some file => return file.text
  | none => .error (.unresolved request context)

/-- The manifest in the lexical parent of a path, if there is one. -/
def adjacentManifest? (fs : FileSystem) (context : String) : Option String :=
  let beside := ((Path.ofString context).absolute fs.cwd / ".." / manifestName).canonical.text
  if fs.leadsSomewhere beside then some beside else none

end FileSystem

/-- A way to find files of packages. -/
inductive Finder where
  /-- Searches the dependency directories of a name. -/
  | search (name : String)
  /-- Asks the host, which sees the world and is given the importing place and the request. -/
  | host (answer : World → String → String → Except Fault (Option String))

namespace Finder

/-- The finder of a build whose host supplies none. -/
def usual : Finder := .search dependencyDirectory

/-- Finds a file of a package as seen from a place.  A question to the host is noted. -/
def find (finder : Finder) (context request : String) : Action World (Option String) :=
  match finder with
  | search name => .query fun w => some <$> w.files.findInDependencies name context request
  | host answer => fun w =>
    let w := w.note (.lookup context request)
    (answer w context request, w)

/-- The manifest of a module's package as seen from a place.  An empty answer is none; where the
finder fails, whatever the reason, the manifest beside the place is taken if there is one. -/
def manifest? (finder : Finder) (moduleName context : String) (w : World) :
    Option String × World :=
  match finder.find context (packageManifest moduleName) w with
  | (.ok answer, w) => (answer.filter (· ≠ ""), w)
  | (.error _, w) => (w.files.adjacentManifest? context, w)

end Finder

end ConvertOnce
