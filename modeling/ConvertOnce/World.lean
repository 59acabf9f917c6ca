import ConvertOnce.Action
import ConvertOnce.Decimal.FixedPlaces
import ConvertOnce.FileSystem.Calls
import ConvertOnce.Report
import ConvertOnce.Table

/-!
# The world around a build

A `World` holds all that a build can see or change: the files, the environment, a clock, the title
of the process, what is written to the error stream, and how the converter is going to behave.
The converter runs either as a child process for a whole tree or within the build for one package;
each run follows the next script, or does nothing remarkable when no script is left.  Where the
arguments for a child are not taken (`World.refuses`) there is no child and no script is followed.

`World.measured` measures an action when the build is profiled.  It leaves the outcome of the action
alone and writes one line behind what the action has written, be it successful or not.
-/

namespace ConvertOnce

/-- The variables of an environment. -/
abbrev Environment := Table String String

/-- The variable is set to a text with something in it. -/
def Environment.isSet (environment : Environment) (name : String) : Bool :=
  (environment.get? name).any (· ≠ "")

/-! ### What the converter does -/

/-- How the attempt to run a child process ends. -/
inductive ChildOutcome where
  /-- It could not be started, for the reason that the system gives. -/
  | notStarted (reason : String)
  /-- It exited; a negative status is the number of a signal. -/
  | exited (status : Int)
  deriving DecidableEq, Repr

/-- What happens while the process that asks for a child waits for it.  It is the child that does
all this; where none could be started, it is what others do in the meantime. -/
structure ChildScript where
  /-- The title that the waiting process is given, if it is given one. -/
  title : Option String := none
  /-- The nodes that are left behind. -/
  puts : List Entry := []
  /-- What is written to the error stream, which the child shares for all its output. -/
  output : String := ""
  /-- How the attempt ends. -/
  outcome : ChildOutcome := .exited 0

/-- What the converter does with one package. -/
structure ConversionScript where
  /-- The calls of the log that it makes. -/
  calls : List LogCall := []
  /-- It leaves these nodes behind. -/
  puts : List Entry := []
  /-- Why it fails, if it does. -/
  failure : Option String := none

/-- What the converter is asked to do with one package. -/
structure ConversionRequest where
  /-- The dependency tree. -/
  basePath : String
  /-- The directory of the package. -/
  packagePath : String
  /-- The manifest fields that name an entry point. -/
  properties : List String
  /-- The compiler's settings file. -/
  tsconfig : String
  /-- Convert every format that the package has. -/
  allFormats : Bool := false
  /-- Write the results as entry points of their own. -/
  newEntryPoints : Bool := true
  deriving DecidableEq, Repr

/-- Something that the build caused outside itself. -/
inductive Event where
  /-- The system was asked for a child process with these arguments. -/
  | child (arguments : List String)
  /-- The converter was called for one package. -/
  | conversion (request : ConversionRequest)
  /-- The host was asked to find a file of a package. -/
  | lookup (context request : String)
  deriving DecidableEq, Repr

/-- All that a build can see or change. -/
structure World where
  /-- The files. -/
  files : FileSystem
  /-- The environment of the process. -/
  environment : Environment
  /-- What the clock is going to show, in seconds; it shows zero when that is used up. -/
  clock : List Float
  /-- The title of the process. -/
  title : String
  /-- What happens at the next attempts to run a child process. -/
  children : List ChildScript
  /-- What the converter does with the next packages. -/
  conversions : List ConversionScript
  /-- What has been caused so far. -/
  events : List Event
  /-- What has been written to the error stream so far. -/
  errorText : String
  /-- The arguments of child processes are checked, as every system does before it starts one.  Only
  a rehearsal, where scripts stand for the children, can do without. -/
  checksArguments : Bool := true

namespace World

/-- Writes to the error stream. -/
def writeError (w : World) (text : String) : World := { w with errorText := w.errorText ++ text }

/-- Notes that something was caused. -/
def note (w : World) (event : Event) : World := { w with events := w.events ++ [event] }

/-- Puts nodes into the tree of files. -/
def putAll (w : World) (entries : List Entry) : World :=
  { w with files := { w.files with tree := w.files.tree.putAll entries } }

/-! ### Running the converter -/

/-- The arguments are not taken, since one of them has the character U+0000 in it. -/
def refuses (w : World) (arguments : List String) : Bool :=
  w.checksArguments && arguments.any fun argument => argument.toList.contains '\x00'

/-- The script of the next attempt to run a child process. -/
def nextChild (w : World) : ChildScript := w.children.head?.getD {}

/-- Asks for a child process, and waits for it if there is one.  The attempt is noted in any case.
Where the arguments are taken its script is followed: what is written and left behind stays, and so
does another title. -/
def runChild (arguments : List String) : Action World ChildOutcome := fun w =>
  let asked := { w with children := w.children.tail }.note (.child arguments)
  if w.refuses arguments then (.error .nulCharacter, asked)
  else
    let script := w.nextChild
    let after := (asked.writeError script.output).putAll script.puts
    (.ok script.outcome, { after with title := script.title.getD w.title })

/-- Runs the converter on a whole tree.  The title of the process is the same afterwards.  A child
that the system did not start, or that ended with a status other than zero, is a failed conversion;
arguments that were not taken are a failure of their own. -/
def convertTree (arguments : List String) : Action World Unit := fun w =>
  let (outcome, after) := runChild arguments w
  let after := { after with title := w.title }
  match outcome with
  | .error fault => (.error fault, after)
  | .ok (.notStarted reason) =>
    (.error (.build (.treeFailed (reason ++ "\nngcc failed, see above.") none)), after)
  | .ok (.exited status) =>
    if status = 0 then (.ok (), after)
    else (.error (.build (.treeFailed "ngcc failed." (some status))), after)

/-- Runs the converter on one package.  What it logs goes into the report and to the error stream;
the answer is why it failed, if it did. -/
def convertPackage (w : World) (threshold : Gravity) (report : Report)
    (request : ConversionRequest) : Option String × World × Report :=
  let script := w.conversions.head?.getD {}
  let (report, text) := report.logAll threshold script.calls
  let w := { w with conversions := w.conversions.tail }.note (.conversion request)
  (script.failure, (w.writeError text).putAll script.puts, report)

/-! ### Measuring -/

/-- The variable that turns profiling on. -/
def profilingVariable : String := "NGCC_GATE_PROFILING"

/-- The build is profiled. -/
def isProfiled (w : World) : Bool := w.environment.isSet profilingVariable

/-- Reads the clock. -/
def readClock (w : World) : Float × World :=
  (w.clock.head?.getD 0.0, { w with clock := w.clock.tail })

/-- The time at which a measured action starts; none is taken when the build is not profiled. -/
def startWatch (w : World) : Option Float × World :=
  if w.isProfiled then
    let (time, w) := w.readClock
    (some time, w)
  else (none, w)

/-- A span of seconds as text: milliseconds with three places. -/
def milliseconds (start stop : Float) : String :=
  Decimal.fixedPlaces 3 ((stop - start) * 1000.0) ++ "ms"

/-- Writes how long an action took that started at the given time, if one was taken. -/
def stopWatch (w : World) (label : String) : Option Float → World
  | none => w
  | some start =>
    let (stop, w) := w.readClock
    w.writeError (label ++ ": " ++ milliseconds start stop ++ "\n")

/-- Measures an action, whatever its outcome. -/
def measured {α : Type} (label : String) (action : Action World α) : Action World α := fun w =>
  let (start, w) := w.startWatch
  let (outcome, w) := action w
  (outcome, w.stopWatch label start)

end World

end ConvertOnce
