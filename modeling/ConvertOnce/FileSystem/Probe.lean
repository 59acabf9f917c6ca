import ConvertOnce.FileSystem.Calls
import ConvertOnce.Path.Canonical

/-!
# Questions about paths, and directories on demand

A question about a path is answered by `no` where the path leads nowhere, but a refusal of another
kind, such as a missing permission on the way, is a fault and not an answer.
-/

namespace ConvertOnce.FileSystem

/-- Asks about the node that a path leads to; a path that leads nowhere fails every test. -/
def probe (fs : FileSystem) (test : Node → Bool) (p : Path) : Except Fault Bool :=
  match fs.stat p.text with
  | .ok node => .ok (test node)
  | .error fault => if fault.meansAbsent then .ok false else .error fault

/-- The path leads to something. -/
def isPresent (fs : FileSystem) (p : Path) : Except Fault Bool := fs.probe (fun _ => true) p

/-- The path leads to a regular file. -/
def isFileAt (fs : FileSystem) (p : Path) : Except Fault Bool := fs.probe Node.isFile p

/-- The path leads to a directory. -/
def isDirectoryAt (fs : FileSystem) (p : Path) : Except Fault Bool := fs.probe Node.isDirectory p

/-- Nothing at the text of a path can be changed, be it missing or protected. -/
def isProtected (fs : FileSystem) (path : String) : Except Fault Bool :=
  return !(← fs.canWrite path)

/-- A package is read-only when its manifest is, or else the directory part of the manifest's
path. -/
def isProtectedPackage (fs : FileSystem) (manifest : String) : Except Fault Bool := do
  if ← fs.isProtected manifest then return true
  fs.isProtected (directoryText manifest)

/-! ### Making directories -/

/-- After a refused attempt to make the directory: all is well if it is there. -/
def acceptDirectory (fs : FileSystem) (p : Path) (fault : Fault) : Except Fault Unit × FileSystem :=
  match fault with
  | .system .. =>
    match fs.isDirectoryAt p with
    | .ok true => (.ok (), fs)
    | .ok false => (.error fault, fs)
    | .error worse => (.error worse, fs)
  | _ => (.error fault, fs)

/-- Makes one directory in a directory that must be there; one that is there already is
accepted. -/
def ensureLast (fs : FileSystem) (p : Path) : Except Fault Unit × FileSystem :=
  match fs.makeDirectory p.text with
  | .ok fs' => (.ok (), fs')
  | .error (.system .noEntry path) => (.error (.system .noEntry path), fs)
  | .error fault => fs.acceptDirectory p fault

/-- Makes a directory and, if one is missing above it, that one first, in the same way.  The number
says how many more directories can be asked for, each for the sake of the one before.  A bare path
has nothing above it. -/
def ensureWithin : Nat → FileSystem → Path → Except Fault Unit × FileSystem
  | levels, fs, p =>
    match fs.makeDirectory p.text with
    | .ok fs' => (.ok (), fs')
    | .error (.system .noEntry path) =>
      if p.parts = [] then (.error (.system .noEntry path), fs)
      else
        match levels with
        | 0 => (.error .tooDeep, fs)
        | levels + 1 =>
          match ensureWithin levels fs p.parent with
          | (.ok (), fs') => fs'.ensureLast p
          | (.error fault, fs') => (.error fault, fs')
    | .error fault => fs.acceptDirectory p fault

/-- Makes a directory and every missing directory above it, as far as the process can go.  The
second component is the file system that is reached, also when a directory could not be made. -/
def ensureDirectory (fs : FileSystem) (p : Path) : Except Fault Unit × FileSystem :=
  ensureWithin fs.maxNesting fs p

end ConvertOnce.FileSystem
