import ConvertOnce.Proofs.World.Measuring

/-!
# A world with and without profiling

`World.Mirrors` relates a world in which nothing is measured to one in which everything is, and
which is the same otherwise but for the clock and the error stream.  Between two pairs of such
worlds `World.WrittenAlike` compares what was written: the profiled side has one line more behind
the output of each run of the converter, and nothing else is different.  An action is transparent
(`Action.Transparent`) when it leads from mirrored worlds to mirrored worlds in this way, with the
same outcome; what is put together from transparent actions is transparent.
-/

namespace ConvertOnce

namespace World

variable {w w' v v' u u' : World} {label : String}

/-- The second world is profiled, the first is not, and what they contain is the same but for the
clock and the error stream. -/
structure Mirrors (w w' : World) : Prop where
  plain : w.isProfiled = false
  profiled : w'.isProfiled = true
  otherVariables : ∀ name ≠ profilingVariable, w'.environment.get? name = w.environment.get? name
  files : w'.files = w.files
  title : w'.title = w.title
  children : w'.children = w.children
  checksArguments : w'.checksArguments = w.checksArguments
  conversions : w'.conversions = w.conversions
  events : w'.events = w.events

/-- Runs of the converter, the text that they write without profiling, and the text with it: one
line with the label follows the output of each run. -/
inductive Timed (label : String) : List Event → String → String → Prop
  | nil : Timed label [] "" ""
  | snoc {runs : List Event} {plain profiled : String} (earlier : Timed label runs plain profiled)
      (event : Event) (output : String) (start stop : Float) :
      Timed label (runs ++ [event]) (plain ++ output)
        (profiled ++ (output ++ timingLine label start stop))

/-- From `w` to `v` as from `w'` to `v'` the same runs of the converter took place, and what was
written is the same but for the lines of the measurements. -/
def WrittenAlike (label : String) (w v w' v' : World) : Prop :=
  ∃ runs plain profiled, w.Wrote v runs plain ∧ w'.Wrote v' runs profiled ∧
    Timed label runs plain profiled

/-! ### Mirrored worlds -/

theorem Mirrors.note (h : w.Mirrors w') (event : Event) : (w.note event).Mirrors (w'.note event) :=
  { h with events := congrArg (· ++ [event]) h.events }

theorem Mirrors.withFiles (h : w.Mirrors w') (files : FileSystem) :
    ({ w with files } : World).Mirrors { w' with files } :=
  { h with files := rfl }

/-- Any other variable than that of the profiling is set in both or in neither. -/
theorem Mirrors.isSet_eq (h : w.Mirrors w') {name : String} (hname : name ≠ profilingVariable) :
    w'.environment.isSet name = w.environment.isSet name := by
  rw [Environment.isSet, Environment.isSet, h.otherVariables name hname]

/-- What comes of an attempt to run a child is the same. -/
theorem Mirrors.attempt_eq (h : w.Mirrors w') (arguments : List String) :
    w'.verdictFor arguments = w.verdictFor arguments ∧ w'.putsFor arguments = w.putsFor arguments ∧
      w'.outputFor arguments = w.outputFor arguments := by
  have hrefuses := refuses_congr h.checksArguments arguments
  have hchild := nextChild_congr h.children
  refine ⟨?_, ?_, ?_⟩
  · rw [verdictFor, verdictFor, hrefuses, hchild]
  · rw [putsFor, putsFor, hrefuses, hchild]
  · rw [outputFor, outputFor, hrefuses, hchild]

/-! ### What is written -/

theorem Timed.one (label : String) (event : Event) (output : String) (start stop : Float) :
    Timed label [event] output (output ++ timingLine label start stop) := by
  have hone : Timed label _ _ _ := .snoc .nil event output start stop
  rwa [List.nil_append, String.empty_append, String.empty_append] at hone

theorem Timed.append {runs runs' : List Event} {plain plain' profiled profiled' : String}
    (h : Timed label runs plain profiled) (h' : Timed label runs' plain' profiled') :
    Timed label (runs ++ runs') (plain ++ plain') (profiled ++ profiled') := by
  induction h' with
  | nil =>
    rw [List.append_nil, String.append_empty, String.append_empty]
    exact h
  | snoc _ event output start stop ih =>
    have hall := ih.snoc event output start stop
    simpa only [List.append_assoc, String.append_assoc] using hall

theorem WrittenAlike.trans (h : WrittenAlike label w v w' v') (h' : WrittenAlike label v u v' u') :
    WrittenAlike label w u w' u' := by
  obtain ⟨runs, plain, profiled, hplain, hprofiled, htimed⟩ := h
  obtain ⟨runs', plain', profiled', hplain', hprofiled', htimed'⟩ := h'
  exact ⟨_, _, _, hplain.trans hplain', hprofiled.trans hprofiled', htimed.append htimed'⟩

theorem writtenAlike_of_quiet (h : w.Wrote v [] "") (h' : w'.Wrote v' [] "") :
    WrittenAlike label w v w' v' := ⟨[], "", "", h, h', .nil⟩

theorem WrittenAlike.refl (w w' : World) : WrittenAlike label w w w' w' :=
  writtenAlike_of_quiet (.refl w) (.refl w')

/-- The measurement of one run is a line in the profiled world and nothing in the other. -/
theorem Mirrors.writtenAlike_of_run (h : w.Mirrors w') {event : Event} {output : String}
    (hplain : w.Wrote v [event] (output ++ w.timing label))
    (hprofiled : w'.Wrote v' [event] (output ++ w'.timing label)) :
    WrittenAlike label w v w' v' := by
  rw [timing_of_not_isProfiled h.plain, String.append_empty] at hplain
  rw [timing, if_pos h.profiled] at hprofiled
  exact ⟨[event], output, _, hplain, hprofiled, .one label event output _ _⟩

end World

/-! ### Transparent actions -/

namespace Action

open World

variable {label : String} {α β : Type}

/-- The action does the same with profiling and without, and writes the same but for the lines of
the measurements. -/
def Transparent (label : String) (x : Action World α) : Prop :=
  ∀ w w' : World, w.Mirrors w' →
    (x w').1 = (x w).1 ∧ (x w).2.Mirrors (x w').2 ∧ WrittenAlike label w (x w).2 w' (x w').2

theorem transparent_pure (a : α) : (pure a : Action World α).Transparent label :=
  fun w w' h => ⟨rfl, h, .refl w w'⟩

theorem transparent_fail (fault : Fault) : (fail fault : Action World α).Transparent label :=
  fun w w' h => ⟨rfl, h, .refl w w'⟩

theorem Transparent.bind {x : Action World α} {next : α → Action World β}
    (hx : x.Transparent label) (hnext : ∀ a, (next a).Transparent label) :
    (x >>= next).Transparent label := by
  intro w w' h
  obtain ⟨houtcome, hworlds, htext⟩ := hx w w' h
  rcases hplain : x w with ⟨outcome, v⟩
  rcases hprofiled : x w' with ⟨outcome', v'⟩
  rw [hplain, hprofiled] at houtcome hworlds htext
  obtain rfl : outcome' = outcome := houtcome
  -- Both sides fail together, or both go on from mirrored worlds.
  cases outcome' with
  | error fault =>
    rw [bind_of_error hplain, bind_of_error hprofiled]
    exact ⟨rfl, hworlds, htext⟩
  | ok a =>
    rw [bind_of_ok hplain, bind_of_ok hprofiled]
    obtain ⟨houtcome, hworlds', htext'⟩ := hnext a v v' hworlds
    exact ⟨houtcome, hworlds', htext.trans htext'⟩

end Action

/-- A measured conversion of the tree. -/
theorem World.transparent_convertTree (label : String) (arguments : List String) :
    (measured label (convertTree arguments)).Transparent label := by
  intro w w' h
  have hwrote : ∀ w : World, w.Wrote (measured label (convertTree arguments) w).2
      [.child arguments] (w.outputFor arguments ++ w.timing label) := by
    intro w
    rw [measured_convertTree_eq]
    exact ⟨⟨_, rfl, rfl⟩, String.append_assoc⟩
  obtain ⟨hverdict, hputs, houtput⟩ := h.attempt_eq arguments
  -- The output of the child is the same in both worlds; only the line behind it is not.
  have hprofiled := hwrote w'
  rw [houtput] at hprofiled
  refine ⟨?_, ?_, h.writtenAlike_of_run (hwrote w) hprofiled⟩
  · rw [measured_convertTree_eq, measured_convertTree_eq, hverdict]
  · rw [measured_convertTree_eq, measured_convertTree_eq, hputs]
    exact { h with
      files := by rw [h.files]
      children := congrArg List.tail h.children
      events := congrArg (· ++ [.child arguments]) h.events }

/-! ### Searching for a manifest -/

namespace Finder

variable {finder : Finder} {w w' : World}

/-- The finder answers the same whether it is asked in a profiled world or not. -/
def IgnoresProfiling (finder : Finder) : Prop :=
  ∀ (w w' : World) (context request : String), w.Mirrors w' →
    (finder.find context request w').1 = (finder.find context request w).1

/-- The same manifest is found with profiling and without. -/
theorem IgnoresProfiling.manifest? (hfinder : finder.IgnoresProfiling) (h : w.Mirrors w')
    (moduleName context : String) :
    (finder.manifest? moduleName context w').1 = (finder.manifest? moduleName context w).1 ∧
      (finder.manifest? moduleName context w).2.Mirrors
        (finder.manifest? moduleName context w').2 := by
  have hanswer := hfinder w w' context (packageManifest moduleName) h
  have hmirrors : (finder.find context (packageManifest moduleName) w).2.Mirrors
      (finder.find context (packageManifest moduleName) w').2 := by
    rw [find_snd, find_snd]
    cases finder with
    | search name => exact h
    | host answer => exact h.note _
  rw [Finder.manifest?, Finder.manifest?]
  generalize finder.find context (packageManifest moduleName) w = found at *
  generalize finder.find context (packageManifest moduleName) w' = found' at *
  obtain ⟨answer, v⟩ := found
  obtain ⟨answer', v'⟩ := found'
  obtain rfl : answer' = answer := hanswer
  -- After a failure the file beside the place is looked for, and the files are the same.
  cases answer' with
  | ok manifest => exact ⟨rfl, hmirrors⟩
  | error fault =>
    have hfiles : v'.files = v.files := hmirrors.files
    refine ⟨?_, hmirrors⟩
    dsimp only
    rw [hfiles]

end Finder

end ConvertOnce
