import ConvertOnce.BuildInputs.Basic
import ConvertOnce.FileSystem.Probe

/-!
# Decisions

A decision says whether the whole tree is to be converted, and why.  Where the inputs are known
their digest goes with the decision, and so does the path of the marker that a conversion leaves;
`Decision.record` leaves the marker.
-/

namespace ConvertOnce

/-- What to do about the whole tree. -/
inductive Verdict where
  /-- Convert it. -/
  | run
  /-- Leave it alone. -/
  | skip
  deriving DecidableEq, Repr

/-- Why a decision was taken. -/
inductive Reason where
  /-- There is no dependency tree. -/
  | noDependencyRoot
  /-- The build is sandboxed. -/
  | sandboxed
  /-- The tree may not be written. -/
  | readOnly
  /-- The inputs of a conversion cannot be read. -/
  | inputsUnknown
  /-- A conversion of these very inputs left its marker. -/
  | markerPresent
  /-- No conversion of these very inputs left a marker. -/
  | markerAbsent
  deriving DecidableEq, Repr

/-- The name of a reason. -/
def Reason.name : Reason → String
  | noDependencyRoot => "no-dependency-root"
  | sandboxed => "sandboxed"
  | readOnly => "read-only"
  | inputsUnknown => "fingerprint-unavailable"
  | markerPresent => "marker-present"
  | markerAbsent => "marker-absent"

/-- What to do about the whole tree, and why. -/
structure Decision where
  /-- What to do. -/
  verdict : Verdict
  /-- Why. -/
  reason : Reason
  /-- The digest of the inputs. -/
  digest : Option InputDigest := none
  /-- The marker of a conversion of these inputs. -/
  marker : Option Path := none
  deriving DecidableEq

namespace Decision

/-- The tree is to be converted. -/
def isRun (d : Decision) : Bool := d.verdict = .run

/-- The failure to write a marker, where the file system is what refused it. -/
def markerFault (marker : Path) : Fault → Fault
  | .system .. => .build (.markerUnwritten marker.text)
  | fault => fault

/-- Writes a marker, an empty file, with the directories above it. -/
def writeMarker (marker : Path) (fs : FileSystem) : Except Fault Unit × FileSystem :=
  match fs.ensureDirectory marker.parent with
  | (.ok (), fs) =>
    match fs.write marker.text [] with
    | .ok fs => (.ok (), fs)
    | .error fault => (.error (markerFault marker fault), fs)
  | (.error fault, fs) => (.error (markerFault marker fault), fs)

/-- Records a finished conversion, and says whether a marker was written.  Where the marker cannot
be written nothing is lost but that the next build converts once more. -/
def record (d : Decision) (fs : FileSystem) : Except Fault Bool × FileSystem :=
  match d.verdict, d.marker with
  | .run, some marker =>
    match writeMarker marker fs with
    | (.ok (), fs) => (.ok true, fs)
    | (.error (.build (.markerUnwritten _)), fs) => (.ok false, fs)
    | (.error fault, fs) => (.error fault, fs)
  | _, _ => (.ok false, fs)

end Decision

end ConvertOnce
