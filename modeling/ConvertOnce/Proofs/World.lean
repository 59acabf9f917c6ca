import ConvertOnce.Proofs.Manifest
import Mathlib.Logic.Basic

/-!
# What the steps of a world leave alone

Most steps touch one or two fields of a `World`: writing to the error stream, reading the clock and
noting an event change no file, and measuring an action changes nothing but the clock and the error
stream.  The lemmas here say so field by field, and then for a run of the converter on a whole tree
(`World.convertTree_eq`) and for a question to a finder (`Finder.manifest?_snd`).  That questions to
a finder are all that has happened between two worlds is `World.OnlyAsked`.
-/

namespace ConvertOnce

/-- Questions to the host's finder and nothing else. -/
def AreLookups (events : List Event) : Prop :=
  ∀ event ∈ events, ∃ context request, event = .lookup context request

namespace World

/-- A world in which nothing but the files matters. -/
def ofFiles (files : FileSystem) : World where
  files := files
  environment := .empty
  clock := []
  title := ""
  children := []
  conversions := []
  events := []
  errorText := ""

@[simp] theorem files_ofFiles (files : FileSystem) : (ofFiles files).files = files := rfl

@[simp] theorem environment_ofFiles (files : FileSystem) :
    (ofFiles files).environment = .empty := rfl

/-! ### Single steps -/

@[simp] theorem files_writeError (w : World) (text : String) :
    (w.writeError text).files = w.files :=
  rfl

@[simp] theorem events_writeError (w : World) (text : String) :
    (w.writeError text).events = w.events := rfl

@[simp] theorem files_note (w : World) (event : Event) : (w.note event).files = w.files := rfl

@[simp] theorem events_note (w : World) (event : Event) :
    (w.note event).events = w.events ++ [event] := rfl

@[simp] theorem events_putAll (w : World) (entries : List Entry) :
    (w.putAll entries).events = w.events := rfl

/-! ### Measuring -/

/-- Starting a watch takes at most a number from the clock. -/
theorem startWatch_snd (w : World) : ∃ clock, w.startWatch.2 = { w with clock } := by
  rw [startWatch]
  split
  · exact ⟨w.clock.tail, rfl⟩
  · exact ⟨w.clock, rfl⟩

/-- Stopping a watch takes at most a number from the clock and writes at most one line. -/
theorem stopWatch_eq (w : World) (label : String) (start : Option Float) :
    ∃ clock errorText, w.stopWatch label start = { w with clock, errorText } := by
  cases start with
  | none => exact ⟨w.clock, w.errorText, rfl⟩
  | some start => exact ⟨w.clock.tail, _, rfl⟩

@[simp] theorem files_startWatch (w : World) : w.startWatch.2.files = w.files := by
  obtain ⟨clock, h⟩ := startWatch_snd w
  rw [h]

@[simp] theorem events_startWatch (w : World) : w.startWatch.2.events = w.events := by
  obtain ⟨clock, h⟩ := startWatch_snd w
  rw [h]

@[simp] theorem children_startWatch (w : World) : w.startWatch.2.children = w.children := by
  obtain ⟨clock, h⟩ := startWatch_snd w
  rw [h]

@[simp] theorem files_stopWatch (w : World) (label : String) (start : Option Float) :
    (w.stopWatch label start).files = w.files := by
  obtain ⟨clock, errorText, h⟩ := stopWatch_eq w label start
  rw [h]

@[simp] theorem events_stopWatch (w : World) (label : String) (start : Option Float) :
    (w.stopWatch label start).events = w.events := by
  obtain ⟨clock, errorText, h⟩ := stopWatch_eq w label start
  rw [h]

/-- Measuring leaves the outcome of an action alone. -/
theorem measured_fst {α : Type} (label : String) (action : Action World α) (w : World) :
    (measured label action w).1 = (action w.startWatch.2).1 := rfl

theorem measured_snd {α : Type} (label : String) (action : Action World α) (w : World) :
    (measured label action w).2 =
      (action w.startWatch.2).2.stopWatch label w.startWatch.1 := rfl

/-! ### The child process -/

/-- What comes of a child that ended in a given way. -/
def childVerdict : ChildOutcome → Except Fault Unit
  | .notStarted reason =>
    .error (.build (.treeFailed (reason ++ "\nngcc failed, see above.") none))
  | .exited status =>
    if status = 0 then .ok () else .error (.build (.treeFailed "ngcc failed." (some status)))

/-- What comes of an attempt to run a child with these arguments. -/
def verdictFor (w : World) (arguments : List String) : Except Fault Unit :=
  if w.refuses arguments then .error .nulCharacter else childVerdict w.nextChild.outcome

/-- The nodes that such an attempt leaves behind. -/
def putsFor (w : World) (arguments : List String) : List Entry :=
  if w.refuses arguments then [] else w.nextChild.puts

/-- What is written to the error stream in the course of such an attempt. -/
def outputFor (w : World) (arguments : List String) : String :=
  if w.refuses arguments then "" else w.nextChild.output

/-- **Converting a tree asks for one child**: the outcome is that of the attempt, the files are
changed and the output is written as its script says, and the title of the process is what it
was. -/
theorem convertTree_eq (arguments : List String) (w : World) :
    convertTree arguments w = (w.verdictFor arguments,
      { w with
        files := { w.files with tree := w.files.tree.putAll (w.putsFor arguments) }
        children := w.children.tail
        events := w.events ++ [.child arguments]
        errorText := w.errorText ++ w.outputFor arguments }) := by
  rw [convertTree, runChild, verdictFor, putsFor, outputFor]
  -- An attempt whose arguments are refused leaves the files and the output as they are.
  cases hrefuses : w.refuses arguments with
  | true =>
    have hnone : w.errorText ++ "" = w.errorText := String.append_empty
    simp only [if_true, hnone]
    rfl
  | false =>
    simp only [Bool.false_eq_true, if_false]
    cases houtcome : w.nextChild.outcome with
    | notStarted reason => rfl
    | exited status =>
      rw [childVerdict]
      by_cases hs : status = 0
      · simp only [hs, if_true]
        rfl
      · simp only [hs, if_false]
        rfl

/-- A child's verdict is good exactly when it was started and exited with status zero. -/
theorem childVerdict_eq_ok_iff (outcome : ChildOutcome) :
    childVerdict outcome = .ok () ↔ outcome = .exited 0 := by
  cases outcome with
  | notStarted reason => simp [childVerdict]
  | exited status => by_cases hs : status = 0 <;> simp [childVerdict, hs]

/-- A child that ends with another status than zero is a failure that gives the status. -/
theorem childVerdict_exited {status : Int} (h : status ≠ 0) :
    childVerdict (.exited status) = .error (.build (.treeFailed "ngcc failed." (some status))) :=
  if_neg h

/-- An attempt ends well exactly when its arguments are taken and the child is started and exits
with status zero. -/
theorem verdictFor_eq_ok_iff {w : World} {arguments : List String} :
    w.verdictFor arguments = .ok () ↔
      w.refuses arguments = false ∧ w.nextChild.outcome = .exited 0 := by
  rw [verdictFor]
  cases w.refuses arguments <;> simp [childVerdict_eq_ok_iff]

/-- A child that leaves nothing behind leaves nothing, whether it is started or not. -/
theorem putsFor_of_puts_eq_nil {w : World} (h : w.nextChild.puts = []) (arguments : List String) :
    w.putsFor arguments = [] := by
  rw [putsFor, h, ite_self]

/-- What comes of an attempt is a matter of what is to happen at the next one, and of whether
arguments are checked. -/
theorem refuses_congr {w w' : World} (h : w'.checksArguments = w.checksArguments)
    (arguments : List String) : w'.refuses arguments = w.refuses arguments := by
  rw [refuses, refuses, h]

theorem nextChild_congr {w w' : World} (h : w'.children = w.children) :
    w'.nextChild = w.nextChild := by
  rw [nextChild, nextChild, h]

/-! ### The converter within the build -/

/-- Converting a package calls the converter once. -/
@[simp] theorem events_convertPackage (w : World) (threshold : Gravity) (report : Report)
    (request : ConversionRequest) :
    (w.convertPackage threshold report request).2.1.events = w.events ++ [.conversion request] :=
  rfl

/-! ### Questions to a finder -/

/-- Nothing has happened but that the host's finder was asked. -/
def OnlyAsked (w w' : World) : Prop :=
  ∃ asked, AreLookups asked ∧ w' = { w with events := w.events ++ asked }

theorem OnlyAsked.refl (w : World) : w.OnlyAsked w := by
  refine ⟨[], ?_, ?_⟩
  · intro event hevent
    cases hevent
  · rw [List.append_nil]

theorem OnlyAsked.checksArguments_eq {w v : World} (h : w.OnlyAsked v) :
    v.checksArguments = w.checksArguments := by
  obtain ⟨asked, -, rfl⟩ := h
  rfl

theorem OnlyAsked.title_eq {w v : World} (h : w.OnlyAsked v) : v.title = w.title := by
  obtain ⟨asked, -, rfl⟩ := h
  rfl

theorem onlyAsked_note (w : World) (context request : String) :
    w.OnlyAsked (w.note (.lookup context request)) := by
  refine ⟨[.lookup context request], ?_, rfl⟩
  intro event hevent
  exact ⟨context, request, List.mem_singleton.1 hevent⟩

end World

/-- A question to a finder is noted when the finder is the host's, and changes nothing else. -/
theorem Finder.find_snd (finder : Finder) (context request : String) (w : World) :
    (finder.find context request w).2 =
      match finder with
      | .search _ => w
      | .host _ => w.note (.lookup context request) := by
  cases finder <;> rfl

/-- Nothing happens in a search for a manifest but that the finder is asked. -/
theorem Finder.manifest?_snd_eq_find_snd (finder : Finder) (moduleName context : String)
    (w : World) :
    (finder.manifest? moduleName context w).2 =
      (finder.find context (packageManifest moduleName) w).2 := by
  rw [manifest?]
  rcases finder.find context (packageManifest moduleName) w with ⟨fault | answer, w'⟩ <;> rfl

theorem Finder.manifest?_snd (finder : Finder) (moduleName context : String) (w : World) :
    (finder.manifest? moduleName context w).2 =
      match finder with
      | .search _ => w
      | .host _ => w.note (.lookup context (packageManifest moduleName)) := by
  rw [manifest?_snd_eq_find_snd, find_snd]

@[simp] theorem Finder.files_manifest? (finder : Finder) (moduleName context : String) (w : World) :
    (finder.manifest? moduleName context w).2.files = w.files := by
  rw [manifest?_snd]
  cases finder <;> rfl

/-- A question to a finder is all that a search for a manifest leaves. -/
theorem Finder.onlyAsked_manifest? (finder : Finder) (moduleName context : String) (w : World) :
    w.OnlyAsked (finder.manifest? moduleName context w).2 := by
  rw [manifest?_snd]
  cases finder with
  | search name => exact .refl w
  | host answer => exact w.onlyAsked_note context (packageManifest moduleName)

end ConvertOnce
