import ConvertOnce.Digest.Sha256
import ConvertOnce.FileSystem.Probe
import ConvertOnce.Text.Hex

/-!
# Inputs of a conversion

`BuildInputs` is everything that can make an earlier conversion of the whole tree stale: the lock
file of the package manager with its path, the converter's settings, and the compiler's settings
with their path.  The five components are written one after the other into one stream of bytes
(`BuildInputs.stream`), and the digest of that stream stands for all of them.  It is written in
hexadecimal, and so written it gives the marker of a conversion its name.
-/

namespace ConvertOnce

/-- The digest of the inputs of a conversion. -/
structure InputDigest where
  /-- The bytes of the digest. -/
  bytes : Bytes
  deriving DecidableEq, Repr

namespace InputDigest

/-- The digest in lowercase hexadecimal. -/
def hex (d : InputDigest) : String := Hex.encode d.bytes

/-- Reads a digest from hexadecimal text. -/
def ofHex (text : String) : Except Fault InputDigest := InputDigest.mk <$> Hex.decode text

/-- The name of the file that marks a conversion of these inputs. -/
def markerFile (d : InputDigest) : String := d.hex ++ ".lock"

end InputDigest

/-- A lock file that could be read. -/
structure LockFile where
  /-- Where it is. -/
  path : Path
  /-- What it holds. -/
  bytes : Bytes
  deriving DecidableEq

/-- Everything that a conversion of the whole tree depends on. -/
structure BuildInputs where
  /-- The lock file. -/
  lock : LockFile
  /-- The converter's settings; nothing when there are none. -/
  toolConfig : Bytes
  /-- The compiler's settings. -/
  tsconfig : Bytes
  /-- Where the compiler's settings are, as seen from the project. -/
  tsconfigPath : Path
  deriving DecidableEq

/-- Where the inputs of a conversion are found. -/
structure InputSources where
  /-- The directory of the project. -/
  projectRoot : Path
  /-- The compiler's settings file. -/
  tsconfig : Path
  /-- The name of the converter's settings file in the project. -/
  toolConfigName : String := "ngcc.config.js"
  deriving DecidableEq

/-- The lock files of the package managers, the preferred one first. -/
def lockFileNames : List String := ["yarn.lock", "pnpm-lock.yaml", "package-lock.json"]

namespace FileSystem

/-- The contents of a file that can be read; one that the file system refuses has none. -/
def read? (fs : FileSystem) (p : Path) : Except Fault (Option Bytes) :=
  match fs.read p.text with
  | .ok bytes => .ok (some bytes)
  | .error (.system ..) => .ok none
  | .error fault => .error fault

/-- The contents of a file, or nothing where the file system refuses it. -/
def readOrEmpty (fs : FileSystem) (p : Path) : Except Fault Bytes :=
  return (← fs.read? p).getD []

/-- The first of the named lock files that can be read in a directory. -/
def firstLockFile (fs : FileSystem) (projectRoot : Path) (names : List String) :
    Except Fault LockFile := do
  let found ← names.findSomeM? fun name => do
    let path := projectRoot / name
    return (← fs.read? path).map (LockFile.mk path)
  match found with
  | some lock => return lock
  | none => .error (.build (.noLockFile projectRoot.text))

end FileSystem

namespace BuildInputs

/-- The components in one stream of bytes. -/
def stream (inputs : BuildInputs) : Bytes :=
  inputs.lock.bytes ++ Utf8.encode inputs.lock.path.text ++ inputs.toolConfig ++ inputs.tsconfig
    ++ Utf8.encode inputs.tsconfigPath.text

/-- The digest of the stream. -/
def digest (inputs : BuildInputs) : InputDigest := ⟨Sha256.digest inputs.stream⟩

end BuildInputs

namespace InputSources

/-- Reads the inputs.  The compiler's settings have to be readable, and then a lock file. -/
def read (sources : InputSources) (fs : FileSystem) : Except Fault BuildInputs := do
  let toolConfig ← fs.readOrEmpty (sources.projectRoot / sources.toolConfigName)
  let tsconfig ← fs.read sources.tsconfig.text
  let lock ← fs.firstLockFile sources.projectRoot lockFileNames
  let tsconfigPath := sources.tsconfig.relativeTo fs.cwd sources.projectRoot
  return ⟨lock, toolConfig, tsconfig, tsconfigPath⟩

/-- The digest of the inputs that are found. -/
def digest (sources : InputSources) (fs : FileSystem) : Except Fault InputDigest :=
  BuildInputs.digest <$> sources.read fs

end InputSources

end ConvertOnce
