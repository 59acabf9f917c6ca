import ConvertOnce.Text.Quoted

/-!
# What can go wrong

`Errno` names the causes for which the file system refuses a call, `BuildError` the failures that
the library itself reports to a build, and `Fault` is either of these or one of the few remaining
causes.  Every operation that can fail answers with a `Fault`; the wording of a failure is a
function of its cause.
-/

namespace ConvertOnce

/-! ### Refusals of the file system -/

/-- Why the file system refuses a call. -/
inductive Errno where
  /-- Nothing has that name. -/
  | noEntry
  /-- A permission is missing. -/
  | accessDenied
  /-- Something has that name already. -/
  | alreadyExists
  /-- A part that must be a directory is something else. -/
  | notDirectory
  /-- A directory where a file is needed. -/
  | isDirectory
  /-- A part or the whole path is too long. -/
  | nameTooLong
  /-- Too many symbolic links on the way. -/
  | tooManyLinks
  deriving DecidableEq, Repr

/-- The number of a refusal. -/
def Errno.code : Errno → Nat
  | noEntry => 2
  | accessDenied => 13
  | alreadyExists => 17
  | notDirectory => 20
  | isDirectory => 21
  | nameTooLong => 36
  | tooManyLinks => 40

/-! ### Failures reported to a build -/

/-- A failure that is reported to a build, by its cause. -/
inductive BuildError where
  /-- A failure with a reason code of its own. -/
  | other (code message : String) (path moduleName : Option String) (exitStatus : Option Int)
  /-- No lock file of a package manager can be read in the project. -/
  | noLockFile (projectRoot : String)
  /-- The conversion of the whole tree failed. -/
  | treeFailed (message : String) (exitStatus : Option Int)
  /-- The conversion of one package failed. -/
  | packageFailed (message moduleName : String) (path : Option String)
  /-- A marker could not be written. -/
  | markerUnwritten (path : String)
  /-- The settings are not usable. -/
  | badSettings (message : String) (path : Option String)
  /-- The operation needs a dependency tree and there is none. -/
  | noDependencyRoot (operation : String)
  deriving DecidableEq, Repr

namespace BuildError

/-- A stable code for tools. -/
def code : BuildError → String
  | other code .. => code
  | noLockFile .. => "NO_LOCK_FILE"
  | treeFailed .. => "TRANSFORM_FAILED"
  | packageFailed .. => "MODULE_PROCESSING_FAILED"
  | markerUnwritten .. => "MARKER_WRITE_FAILED"
  | badSettings .. => "CONFIG_INVALID"
  | noDependencyRoot .. => "NO_DEPENDENCY_ROOT"

/-- The message for a person. -/
def message : BuildError → String
  | other _ message .. => message
  | noLockFile .. => "Cannot locate a package manager lock file."
  | treeFailed message .. => message
  | packageFailed message .. => message
  | markerUnwritten .. => "cannot write run marker"
  | badSettings message .. => message
  | noDependencyRoot operation => operation ++ " requires a node_modules directory"

/-- The file or directory that the failure is about. -/
def path? : BuildError → Option String
  | other _ _ path .. => path
  | noLockFile projectRoot => some projectRoot
  | treeFailed .. => none
  | packageFailed _ _ path => path
  | markerUnwritten path => some path
  | badSettings _ path => path
  | noDependencyRoot .. => none

/-- The module whose package was being converted. -/
def moduleName? : BuildError → Option String
  | other _ _ _ moduleName _ => moduleName
  | packageFailed _ moduleName _ => some moduleName
  | _ => none

/-- The exit status of the child process. -/
def exitStatus? : BuildError → Option Int
  | other _ _ _ _ exitStatus => exitStatus
  | treeFailed _ exitStatus => exitStatus
  | _ => none

/-- The detail `label=value` for a text that is present and not empty. -/
def detail (label : String) : Option String → List String
  | some value => if value = "" then [] else [label ++ "=" ++ value]
  | none => []

/-- One line with the code, the message and every detail that is known. -/
def text (e : BuildError) : String :=
  " ".intercalate (["[" ++ e.code ++ "] " ++ e.message]
    ++ detail "module" e.moduleName? ++ detail "path" e.path?
    ++ detail "exit_status" (e.exitStatus?.map fun n => toString n))

end BuildError

/-! ### Every cause -/

/-- Why an operation failed. -/
inductive Fault where
  /-- The file system refused a call on the path. -/
  | system (errno : Errno) (path : String)
  /-- The character U+0000, or half of a character, in what is handed to the system: a path, an
  argument of a child process or the name of a variable. -/
  | nulCharacter
  /-- Symbolic links that lead back to themselves. -/
  | linkLoop (path : String)
  /-- Something is nested deeper than the process can follow. -/
  | tooDeep
  /-- Bytes that are no UTF-8 text. -/
  | undecodable
  /-- An integer with more digits than a reader accepts. -/
  | hugeInteger (digits : Nat)
  /-- Text that is no hexadecimal number, and where it stops being one. -/
  | badHex (position : Nat)
  /-- The request does not name a file of a package. -/
  | notPackageRequest (request : String)
  /-- No dependency directory holds the requested file. -/
  | unresolved (request context : String)
  /-- A part supplied by the host failed, with the text that it gave. -/
  | host (text : String)
  /-- A failure that is reported to a build. -/
  | build (error : BuildError)
  deriving DecidableEq, Repr

namespace Fault

/-- The message of a cause that has one of its own. -/
def message : Fault → String
  | system .. => ""
  | nulCharacter => "embedded null byte"
  | linkLoop path => "Symlink loop from " ++ quoted path
  | tooDeep => ""
  | undecodable => ""
  | hugeInteger digits =>
    "Exceeds the limit (4300 digits) for integer string conversion: value has "
      ++ toString digits
      ++ " digits; use sys.set_int_max_str_digits() to increase the limit"
  | badHex position =>
    "non-hexadecimal number found in fromhex() arg at position " ++ toString position
  | notPackageRequest request => "not a package request: " ++ request
  | unresolved request context => "cannot resolve '" ++ request ++ "' from " ++ context
  | host text => text
  | build error => error.text

/-- The refusals that say that a path leads nowhere.  A path with U+0000 in it leads nowhere
too. -/
def meansAbsent : Fault → Bool
  | system .noEntry _ | system .notDirectory _ | system .tooManyLinks _ | nulCharacter => true
  | _ => false

end Fault

end ConvertOnce
