/-!
# Reports

A converter says what it does through log calls.  Warnings and errors are collected in a `Report`;
progress is written out at once, framed by line ends, and then forgotten.  `Report.log` is the rule
for one call, under a threshold below which progress and warnings are dropped.
-/

namespace ConvertOnce

/-- How grave a log call is. -/
inductive Gravity where
  /-- Of no interest to a build. -/
  | debug
  /-- Progress. -/
  | info
  /-- A warning. -/
  | warn
  /-- An error. -/
  | error
  deriving DecidableEq, Repr

/-- The rank of a level; a graver one ranks higher. -/
def Gravity.rank : Gravity → Nat
  | debug => 0
  | info => 1
  | warn => 2
  | error => 3

/-- An error with what is known about it. -/
structure Finding where
  /-- What is wrong. -/
  message : String
  /-- A code for tools. -/
  code : Option String := none
  /-- The part of the build that found it. -/
  phase : Option String := some "ngcc"
  /-- How grave it is. -/
  severity : String := "error"
  /-- Further remarks. -/
  notes : List String := []
  deriving DecidableEq, Repr

/-- The text of a finding: a line, and one more for each note. -/
def Finding.text (f : Finding) : String :=
  let phase := (f.phase.filter (· ≠ "")).map (· ++ ": ")
  let code := (f.code.filter (· ≠ "")).map fun code => " [" ++ code ++ "]"
  phase.getD "" ++ f.severity ++ ": " ++ f.message ++ code.getD ""
    ++ String.join (f.notes.map ("\n  note: " ++ ·))

/-- A call of the log, with the words of its message. -/
structure LogCall where
  /-- How grave it is. -/
  level : Gravity
  /-- The words, which a space joins. -/
  words : List String
  deriving DecidableEq, Repr

/-- The message of a call. -/
def LogCall.text (call : LogCall) : String := " ".intercalate call.words

/-- The warnings and errors collected for a build. -/
structure Report where
  /-- The warnings, the first one first. -/
  warnings : List String := []
  /-- The errors, the first one first. -/
  errors : List Finding := []
  deriving DecidableEq, Repr

namespace Report

/-- There is an error. -/
def holdsErrors (r : Report) : Bool := !r.errors.isEmpty

/-- A report followed by another one. -/
def append (r other : Report) : Report :=
  ⟨r.warnings ++ other.warnings, r.errors ++ other.errors⟩

instance : Append Report := ⟨append⟩

/-- The report after a log call, and the text that the call writes out.  An error is always kept,
a warning and progress only if the threshold does not rank higher. -/
def log (threshold : Gravity) (r : Report) (call : LogCall) : Report × String :=
  match call.level with
  | .debug => (r, "")
  | .info => (r, if threshold.rank ≤ Gravity.info.rank then "\n" ++ call.text ++ "\n" else "")
  | .warn =>
    (if threshold.rank ≤ Gravity.warn.rank then { r with warnings := r.warnings ++ [call.text] }
      else r, "")
  | .error => ({ r with errors := r.errors ++ [{ message := call.text }] }, "")

/-- The report after log calls in turn, and all the text that they write out. -/
def logAll (threshold : Gravity) (r : Report) (calls : List LogCall) : Report × String :=
  calls.foldl (fun (r, written) call =>
    let (r, text) := r.log threshold call
    (r, written ++ text)) (r, "")

end Report

end ConvertOnce
