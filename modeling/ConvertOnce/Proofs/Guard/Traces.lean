import ConvertOnce.Proofs.Guard.Failures

/-!
# What a guard leaves behind

A call of `Guard.ensure` leaves a trace of its own in the files only where a conversion of known
inputs has succeeded.  `World.OnlyAsked` and `World.ChildRan` compare the world after a call with
the world before it as a whole, and `Guard.ensure_leavesNoTrace` says which of the two holds of a
call that leaves the tree alone, of one that fails, and of one whose inputs are unknown.
-/

namespace ConvertOnce

namespace World

variable {w w' w'' : World}

/-- One child was asked for.  If its arguments were taken the files are changed as its script says,
and if not they are as they were.  Beyond that no more has happened than that the host's finder was
asked, a clock was read and something was written to the error stream. -/
def ChildRan (w w' : World) : Prop :=
  ∃ asked arguments clock errorText, AreLookups asked ∧ w' =
    { w with
      files := { w.files with tree := w.files.tree.putAll (w.putsFor arguments) }
      clock := clock
      children := w.children.tail
      events := w.events ++ asked ++ [.child arguments]
      errorText := errorText }

theorem OnlyAsked.childRan (h : w.OnlyAsked w') (h' : w'.ChildRan w'') : w.ChildRan w'' := by
  obtain ⟨asked, hasked, rfl⟩ := h
  obtain ⟨asked', arguments, clock, errorText, hasked', rfl⟩ := h'
  refine ⟨asked ++ asked', arguments, clock, errorText, ?_, by rw [← List.append_assoc]; rfl⟩
  intro event hevent
  exact (List.mem_append.1 hevent).elim (hasked event) (hasked' event)

theorem OnlyAsked.files_eq (h : w.OnlyAsked w') : w'.files = w.files := by
  obtain ⟨asked, -, rfl⟩ := h
  rfl

theorem OnlyAsked.verdictFor_eq (h : w.OnlyAsked w') (arguments : List String) :
    w'.verdictFor arguments = w.verdictFor arguments := by
  obtain ⟨asked, -, rfl⟩ := h
  rfl

/-- A child that leaves nothing behind leaves the files as they were. -/
theorem ChildRan.files_eq (h : w.ChildRan w') (hputs : w.nextChild.puts = []) :
    w'.files = w.files := by
  obtain ⟨asked, arguments, clock, errorText, -, rfl⟩ := h
  dsimp only
  rw [putsFor_of_puts_eq_nil hputs]
  rfl

end World

namespace Guard

variable {g : Guard} {w w' : World} {d : Decision} {fault : Fault} {root main : Path}

/-! ### The three steps -/

/-- A conversion that is due asks for one child. -/
theorem IsDue.childRan (h : g.IsDue d root main) (w : World) : w.ChildRan (g.convert d w).2 := by
  rw [h.convert_eq]
  refine ⟨[], g.argumentsFor root main, w.laterClock,
    w.errorText ++ w.outputFor (g.argumentsFor root main) ++ w.timing "RunGate.execute", ?_, ?_⟩
  · intro event hevent
    cases hevent
  · rw [List.append_nil]

/-- A conversion that is due ends as the attempt to run its child does. -/
theorem IsDue.convert_fst (h : g.IsDue d root main) (w : World) :
    (g.convert d w).1 = w.verdictFor (g.argumentsFor root main) := by
  rw [h.convert_eq]

/-- A decision about unknown inputs names no marker. -/
theorem marker_of_inputsUnknown (h : (g.decide w).1 = .ok d) (hreason : d.reason = .inputsUnknown) :
    d.marker = none := by
  have hdecided := decided_decide g w
  rw [h] at hdecided
  cases hdecided with
  | unknown => rfl
  | noTree | sandboxed | readOnly | present | absent => cases hreason

theorem isRun_of_inputsUnknown (h : (g.decide w).1 = .ok d) (hreason : d.reason = .inputsUnknown) :
    d.isRun = true := by
  have hdecided := decided_decide g w
  rw [h] at hdecided
  cases hdecided with
  | unknown => rfl
  | noTree | sandboxed | readOnly | present | absent => cases hreason

end Guard

namespace Decision

variable {d : Decision} {fs : FileSystem} {fault : Fault}

/-- A failure to record leaves the files alone, if U+0000 in the path of the marker can only come
from its directory. -/
theorem record_snd_of_error
    (hnul : ∀ marker, d.marker = some marker → HasNul marker.text → HasNul marker.parent.text)
    (h : (d.record fs).1 = .error fault) : (d.record fs).2 = fs := by
  obtain ⟨marker, hrun, hmarker, hcause⟩ := record_error h
  rcases hcause with hmarkerNul | hdeep
  · rw [record_of_hasNul hrun hmarker (hnul marker hmarker hmarkerNul)]
  · rw [record_of_tooDeep hrun hmarker hdeep]

end Decision

namespace Guard

variable {g : Guard} {w w' : World} {d : Decision} {fault : Fault} {root main : Path}

/-- A failure to record leaves the world alone. -/
theorem record_of_error (h : (g.decide w).1 = .ok d) (hrecord : (record d w').1 = .error fault) :
    (record d w').2 = w' := by
  have hfiles : (d.record w'.files).2 = w'.files := by
    refine Decision.record_snd_of_error (fun marker hmarker hnul => ?_) hrecord
    obtain ⟨root, digest, -, rfl⟩ := exists_digest_of_marker h hmarker
    exact hasNul_markerDirectory hnul
  show { w' with files := (d.record w'.files).2 } = w'
  rw [hfiles]

/-- Without a marker there is nothing to record. -/
theorem record_of_unmarked (hmarker : d.marker = none) : record d w' = (.ok false, w') := by
  unfold record
  rw [Decision.record_of_unmarked hmarker]

/-! ### A call -/

/-- The child of a conversion that has ended well has run. -/
theorem childRan_of_convert (hdecide : (g.decide w).1 = .ok d) (hrun : d.isRun = true)
    (hconvert : g.convert d (g.decide w).2 = (.ok (), w')) : w.ChildRan w' := by
  obtain ⟨root, hroot⟩ := exists_root_of_isRun hdecide hrun
  cases hmain : g.settings.converterMain with
  | none =>
    rw [convert_of_noConverter hrun hroot hmain] at hconvert
    cases hconvert
  | some main =>
    have hran := (isDue_of_isRun hrun hroot hmain).childRan (g.decide w).2
    rw [hconvert] at hran
    exact (onlyAsked_decide g w).childRan hran

/-- A call that leaves the tree alone has only asked. -/
theorem onlyAsked_ensure (h : (g.ensure w).1 = .ok d) (hskip : d.isRun = false) :
    w.OnlyAsked (g.ensure w).2 := by
  have hasked := onlyAsked_decide g w
  have hensured := ensured_ensure g w
  generalize g.ensure w = answer at h hensured ⊢
  cases hensured with
  | undecided | unconverted | unrecorded => cases h
  | spared hdecide hrun =>
    rw [hdecide] at hasked
    exact hasked
  | recorded hdecide hrun =>
    obtain rfl := Except.ok.inj h
    rw [hrun] at hskip
    cases hskip

/-- A call that fails has only asked, or run one child. -/
theorem onlyAsked_or_childRan_ensure (h : (g.ensure w).1 = .error fault) :
    w.OnlyAsked (g.ensure w).2 ∨ w.ChildRan (g.ensure w).2 := by
  have hasked := onlyAsked_decide g w
  have hensured := ensured_ensure g w
  generalize g.ensure w = answer at h hensured ⊢
  cases hensured with
  | spared | recorded => cases h
  | undecided hdecide =>
    rw [hdecide] at hasked
    exact Or.inl hasked
  | @unconverted d _ w₁ w₂ hdecide hrun hconvert =>
    obtain ⟨root, hroot⟩ := exists_root_of_isRun (congrArg Prod.fst hdecide) hrun
    rw [hdecide] at hasked
    cases hmain : g.settings.converterMain with
    | none =>
      rw [convert_of_noConverter hrun hroot hmain] at hconvert
      obtain rfl : w₁ = w₂ := congrArg Prod.snd hconvert
      exact Or.inl hasked
    | some main =>
      have hran := (isDue_of_isRun hrun hroot hmain).childRan w₁
      rw [hconvert] at hran
      exact Or.inr (hasked.childRan hran)
  | @unrecorded d _ w₁ w₂ w₃ hdecide hrun hconvert hrecord =>
    -- The child has ended well, and a failure to record that adds nothing to what it left.
    have hfirst : (g.decide w).1 = .ok d := congrArg Prod.fst hdecide
    have hsame : (record d w₂).2 = w₂ := record_of_error hfirst (congrArg Prod.fst hrecord)
    rw [hrecord] at hsame
    obtain rfl : w₃ = w₂ := hsame
    refine Or.inr (childRan_of_convert hfirst hrun ?_)
    rw [hdecide]
    exact hconvert

/-- A call that has converted a tree with unknown inputs has run one child. -/
theorem childRan_ensure (h : (g.ensure w).1 = .ok d) (hreason : d.reason = .inputsUnknown) :
    w.ChildRan (g.ensure w).2 := by
  have hensured := ensured_ensure g w
  generalize g.ensure w = answer at h hensured ⊢
  -- With unknown inputs there is no marker to record, so the child is the last to act.
  cases hensured with
  | undecided | unconverted | unrecorded => cases h
  | spared hdecide hrun =>
    obtain rfl := Except.ok.inj h
    rw [isRun_of_inputsUnknown (congrArg Prod.fst hdecide) hreason] at hrun
    cases hrun
  | @recorded _ _ w₁ w₂ w₃ hdecide hrun hconvert hrecord =>
    obtain rfl := Except.ok.inj h
    have hfirst : (g.decide w).1 = .ok _ := congrArg Prod.fst hdecide
    rw [record_of_unmarked (marker_of_inputsUnknown hfirst hreason)] at hrecord
    obtain rfl : w₂ = w₃ := congrArg Prod.snd hrecord
    refine childRan_of_convert hfirst hrun ?_
    rw [hdecide]
    exact hconvert

/-- A conversion that is due fails where there is no entry point. -/
theorem ensure_of_noConverter (hdecide : (g.decide w).1 = .ok d) (hrun : d.isRun = true)
    (hmain : g.settings.converterMain = none) :
    g.ensure w = (.error (.build (.badSettings SettingsProblem.noConverter.message none)),
      (g.decide w).2) := by
  obtain ⟨root, hroot⟩ := exists_root_of_isRun hdecide hrun
  have hconvert := convert_of_noConverter (w := (g.decide w).2) hrun hroot hmain
  rw [ensure_of_convert_error hdecide hrun (congrArg Prod.fst hconvert), hconvert]

/-- A conversion that is due fails where the attempt to run its child does. -/
theorem ensure_of_childFailed (hdecide : (g.decide w).1 = .ok d) (hdue : g.IsDue d root main)
    (hfails : w.verdictFor (g.argumentsFor root main) = .error fault) :
    (g.ensure w).1 = .error fault ∧ w.ChildRan (g.ensure w).2 := by
  have hasked := onlyAsked_decide g w
  -- The child that is asked for is the next one of the world before the decision.
  have hconvert : (g.convert d (g.decide w).2).1 = .error fault := by
    rw [hdue.convert_fst, hasked.verdictFor_eq, hfails]
  rw [ensure_of_convert_error hdecide hdue.isRun hconvert]
  exact ⟨rfl, hasked.childRan (hdue.childRan (g.decide w).2)⟩

/-- A conversion that is due fails where the arguments for its child are not taken, and then there
is no child to leave anything. -/
theorem ensure_of_refuses (hdecide : (g.decide w).1 = .ok d) (hdue : g.IsDue d root main)
    (hrefuses : w.refuses (g.argumentsFor root main) = true) :
    (g.ensure w).1 = .error .nulCharacter ∧ (g.ensure w).2.files = w.files := by
  have hafter : (g.decide w).2.refuses (g.argumentsFor root main) = true := by
    rw [World.refuses_congr (onlyAsked_decide g w).checksArguments_eq, hrefuses]
  have hconvert : (g.convert d (g.decide w).2).1 = .error .nulCharacter := by
    rw [hdue.convert_fst]
    exact if_pos hafter
  have hputs : (g.decide w).2.putsFor (g.argumentsFor root main) = [] := if_pos hafter
  rw [ensure_of_convert_error hdecide hdue.isRun hconvert, hdue.convert_eq]
  refine ⟨rfl, ?_⟩
  dsimp only
  rw [hputs, files_decide]
  rfl

/-! ### No trace -/

/-- What a guard leaves behind where no conversion of known inputs has succeeded. -/
structure LeavesNoTrace (g : Guard) (w : World) : Prop where
  /-- A call that leaves the tree alone does nothing at all, with an entry point or without. -/
  spared : ∀ d, (g.ensure w).1 = .ok d → d.isRun = false → w.OnlyAsked (g.ensure w).2
  /-- A call that fails, for whatever reason, leaves what its child leaves, if it has asked for
  one. -/
  failed : ∀ fault, (g.ensure w).1 = .error fault →
    w.OnlyAsked (g.ensure w).2 ∨ w.ChildRan (g.ensure w).2
  /-- The files are as they were after such a call, if nothing is left behind during an attempt to
  run a child; so it is with a child that could not be started, unless others have put something
  there. -/
  untouched : ∀ fault, (g.ensure w).1 = .error fault → w.nextChild.puts = [] →
    (g.ensure w).2.files = w.files
  /-- A conversion that is due fails without an entry point, and no child is started. -/
  noConverter : ∀ d, (g.decide w).1 = .ok d → d.isRun = true → g.settings.converterMain = none →
    (g.ensure w).1 = .error (.build (.badSettings SettingsProblem.noConverter.message none)) ∧
      w.OnlyAsked (g.ensure w).2
  /-- A conversion whose child could not be started, or exited with a status other than zero, is a
  failure, and leaves what the child leaves. -/
  childFailed : ∀ d root main, (g.decide w).1 = .ok d → g.IsDue d root main →
    w.refuses (g.argumentsFor root main) = false → w.nextChild.outcome ≠ .exited 0 →
    ∃ message status, (g.ensure w).1 = .error (.build (.treeFailed message status)) ∧
      (∀ code, w.nextChild.outcome = .exited code → status = some code) ∧
      w.ChildRan (g.ensure w).2
  /-- A conversion whose child has no arguments that are taken is a failure, and leaves the files as
  they were. -/
  childRefused : ∀ d root main, (g.decide w).1 = .ok d → g.IsDue d root main →
    w.refuses (g.argumentsFor root main) = true →
    (g.ensure w).1 = .error .nulCharacter ∧ (g.ensure w).2.files = w.files
  /-- A conversion of unknown inputs that succeeds leaves what its child leaves. -/
  unmarked : ∀ d, (g.ensure w).1 = .ok d → d.reason = .inputsUnknown → w.ChildRan (g.ensure w).2

/-- **A call leaves no trace unless a conversion of known inputs has succeeded.** -/
theorem ensure_leavesNoTrace (g : Guard) (w : World) : LeavesNoTrace g w where
  spared d h hskip := onlyAsked_ensure h hskip
  failed fault h := onlyAsked_or_childRan_ensure h
  untouched fault h hputs :=
    (onlyAsked_or_childRan_ensure h).elim World.OnlyAsked.files_eq fun hran => hran.files_eq hputs
  noConverter d hdecide hrun hmain := by
    rw [ensure_of_noConverter hdecide hrun hmain]
    exact ⟨rfl, onlyAsked_decide g w⟩
  childFailed d root main hdecide hdue htaken hchild := by
    have hverdict : w.verdictFor (g.argumentsFor root main)
        = World.childVerdict w.nextChild.outcome := by
      rw [World.verdictFor, htaken]
      rfl
    -- A child that ends badly has not been started, or exits with a status other than zero.
    cases houtcome : w.nextChild.outcome with
    | notStarted reason =>
      rw [houtcome] at hverdict
      obtain ⟨hfails, hran⟩ := ensure_of_childFailed hdecide hdue hverdict
      refine ⟨_, none, hfails, ?_, hran⟩
      intro code hcode
      cases hcode
    | exited status =>
      have hstatus : status ≠ 0 := by
        intro hzero
        rw [hzero] at houtcome
        exact hchild houtcome
      rw [houtcome, World.childVerdict_exited hstatus] at hverdict
      obtain ⟨hfails, hran⟩ := ensure_of_childFailed hdecide hdue hverdict
      refine ⟨_, some status, hfails, ?_, hran⟩
      intro code hcode
      rw [ChildOutcome.exited.inj hcode]
  childRefused d root main hdecide hdue hrefuses :=
    ensure_of_refuses hdecide hdue hrefuses
  unmarked d h hreason := childRan_ensure h hreason

end Guard

end ConvertOnce
