import ConvertOnce.Proofs.World

/-!
# What measuring adds, and what is written

A measured action writes one line behind what it has written itself (`World.timing`) and takes two
numbers from the clock; where the build is not profiled it does neither.  `World.Wrote` keeps
account of the runs of the converter between two worlds and of the text that was written to the
error stream.
-/

namespace ConvertOnce

/-- The converter ran, as a child process or within the build. -/
def Event.runsConverter : Event → Bool
  | .child _ | .conversion _ => true
  | .lookup .. => false

namespace World

variable {w v u : World} {label text text' : String} {runs runs' : List Event}

/-! ### The line of a measurement -/

/-- The line that says how long something took. -/
def timingLine (label : String) (start stop : Float) : String :=
  label ++ ": " ++ milliseconds start stop ++ "\n"

/-- What a measured action leaves on the error stream: a line, if the build is profiled at all. -/
def timing (w : World) (label : String) : String :=
  if w.isProfiled then
    timingLine label (w.clock.head?.getD 0.0) (w.clock.tail.head?.getD 0.0)
  else ""

/-- What the clock is going to show after a measured action. -/
def laterClock (w : World) : List Float := if w.isProfiled then w.clock.tail.tail else w.clock

theorem timing_of_not_isProfiled (h : w.isProfiled = false) (label : String) :
    w.timing label = "" := by
  rw [timing, h]
  rfl

theorem startWatch_snd_eq (w : World) :
    w.startWatch.2 = { w with clock := if w.isProfiled then w.clock.tail else w.clock } := by
  rw [startWatch]
  split <;> rfl

/-- A watch that was started in one world and is stopped in another, with the clock where it was. -/
theorem stopWatch_startWatch (w v : World) (label : String)
    (hclock : v.clock = w.startWatch.2.clock) :
    v.stopWatch label w.startWatch.1 =
      { v with clock := w.laterClock, errorText := v.errorText ++ w.timing label } := by
  rw [startWatch_snd_eq] at hclock
  rw [startWatch, laterClock, timing]
  -- Without profiling neither the clock nor the error stream is touched.
  cases hprofiled : w.isProfiled with
  | true =>
    rw [hprofiled] at hclock
    have hclock : v.clock = w.clock.tail := hclock
    rw [← hclock]
    rfl
  | false =>
    rw [hprofiled] at hclock
    have hclock : v.clock = w.clock := hclock
    have htext : v.errorText ++ "" = v.errorText := String.append_empty
    rw [← hclock]
    show v = { v with clock := v.clock, errorText := v.errorText ++ "" }
    rw [htext]

/-- **A measured conversion of the tree** is the conversion and a line behind it. -/
theorem measured_convertTree_eq (label : String) (arguments : List String) (w : World) :
    measured label (convertTree arguments) w = (w.verdictFor arguments,
      { w with
        files := { w.files with tree := w.files.tree.putAll (w.putsFor arguments) }
        children := w.children.tail
        events := w.events ++ [.child arguments]
        clock := w.laterClock
        errorText := w.errorText ++ w.outputFor arguments ++ w.timing label }) := by
  have hsnd := startWatch_snd_eq w
  -- The conversion itself does not look at the clock.
  have hclock : (convertTree arguments w.startWatch.2).2.clock = w.startWatch.2.clock := by
    rw [convertTree_eq]
  refine Prod.ext ?_ ?_
  · rw [measured_fst, convertTree_eq, hsnd]
    rfl
  · rw [measured_snd, stopWatch_startWatch _ _ _ hclock, convertTree_eq, hsnd]
    rfl

/-! ### The account of a stretch -/

/-- From one world to another the converter ran as `runs` says, and `text` was written. -/
structure Wrote (w v : World) (runs : List Event) (text : String) : Prop where
  events : ∃ new, v.events = w.events ++ new ∧ new.filter Event.runsConverter = runs
  errorText : v.errorText = w.errorText ++ text

theorem Wrote.refl (w : World) : w.Wrote w [] "" :=
  ⟨⟨[], (List.append_nil _).symm, rfl⟩, String.append_empty.symm⟩

theorem Wrote.trans (h : w.Wrote v runs text) (h' : v.Wrote u runs' text') :
    w.Wrote u (runs ++ runs') (text ++ text') := by
  obtain ⟨⟨new, hnew, hruns⟩, htext⟩ := h
  obtain ⟨⟨new', hnew', hruns'⟩, htext'⟩ := h'
  refine ⟨⟨new ++ new', ?_, ?_⟩, ?_⟩
  · rw [hnew', hnew, List.append_assoc]
  · rw [List.filter_append, hruns, hruns']
  · rw [htext', htext, String.append_assoc]

/-- Questions to a finder run no converter. -/
theorem OnlyAsked.wrote (h : w.OnlyAsked v) : w.Wrote v [] "" := by
  obtain ⟨asked, hasked, rfl⟩ := h
  refine ⟨⟨asked, rfl, ?_⟩, String.append_empty.symm⟩
  rw [List.filter_eq_nil_iff]
  intro event hevent
  obtain ⟨context, request, rfl⟩ := hasked event hevent
  exact Bool.false_ne_true

end World

end ConvertOnce
