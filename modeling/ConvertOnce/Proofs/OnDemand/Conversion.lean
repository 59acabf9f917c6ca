import ConvertOnce.Proofs.OnDemand.Outcome
import ConvertOnce.Proofs.World.Measuring

/-!
# One conversion in full

`OnDemand.convert_eq` says what a conversion does to every part of a build's state: the next script
decides how it ends, what it leaves in the files and which calls of the log it makes, and the line
of the measurement, if there is one, stands behind what those calls write.

An offer comes to a conversion when it concerns, its file is not settled and a manifest is found
that may be written (`OnDemand.Reaches`).  `OnDemand.Reaches.offer_eq` says what such an offer does,
and any other one at most asks the finder (`OnDemand.reaches_or_onlyAsked`).
-/

namespace ConvertOnce

/-- What the converter does with the next package. -/
def World.nextConversion (w : World) : ConversionScript := w.conversions.head?.getD {}

theorem World.OnlyAsked.nextConversion_eq {w w' : World} (h : w.OnlyAsked w') :
    w'.nextConversion = w.nextConversion := by
  obtain ⟨asked, -, rfl⟩ := h
  rfl

namespace OnDemand

/-- The label of the measured conversions on behalf of a module. -/
def timingLabel (moduleName : String) : String := "IncrementalProcessor.process+" ++ moduleName

/-- What comes of a conversion that failed for a reason, or did not fail. -/
def conversionVerdict (moduleName manifest : String) : Option String → Except Fault Unit
  | none => .ok ()
  | some reason => .error (.build (.packageFailed
      ("ngcc failed to process '" ++ moduleName ++ "': " ++ reason) moduleName (some manifest)))

/-- The world after a conversion whose calls of the log write the given text. -/
def worldAfter (w : World) (request : ConversionRequest) (moduleName logged : String) : World :=
  { w with
    files := { w.files with tree := w.files.tree.putAll w.nextConversion.puts }
    conversions := w.conversions.tail
    events := w.events ++ [.conversion request]
    clock := w.laterClock
    errorText := w.errorText ++ logged ++ w.timing (timingLabel moduleName) }

/-- **A conversion follows the next script.** -/
theorem convert_eq (c : OnDemand) (root : Path) (moduleName manifest : String) (s : BuildState) :
    c.convert root moduleName manifest s =
      (conversionVerdict moduleName manifest s.world.nextConversion.failure,
        { s with
          world := worldAfter s.world (c.requestFor root manifest) moduleName
            (s.report.logAll c.threshold s.world.nextConversion.calls).2
          report := (s.report.logAll c.threshold s.world.nextConversion.calls).1 }) := by
  have hsnd := World.startWatch_snd_eq s.world
  -- The converter does not look at the clock, so the watch is stopped where it was started.
  have hstop : ∀ report, ((s.world.startWatch.2.convertPackage c.threshold report
        (c.requestFor root manifest)).2.1).stopWatch (timingLabel moduleName) s.world.startWatch.1
      = worldAfter s.world (c.requestFor root manifest) moduleName
          (report.logAll c.threshold s.world.nextConversion.calls).2 := by
    intro report
    rw [World.stopWatch_startWatch s.world _ _ (by rfl), hsnd]
    rfl
  have hstop := hstop s.report
  unfold timingLabel at hstop
  rw [convert]
  dsimp only
  rw [hstop, hsnd]
  unfold World.convertPackage
  dsimp only
  show (match s.world.nextConversion.failure with | none => _ | some reason => _) = _
  cases s.world.nextConversion.failure <;> rfl

/-- A conversion runs the converter once, and the measurement comes last. -/
theorem wrote_convert (c : OnDemand) (root : Path) (moduleName manifest : String) (s : BuildState) :
    s.world.Wrote (c.convert root moduleName manifest s).2.world
      [.conversion (c.requestFor root manifest)]
      ((s.report.logAll c.threshold s.world.nextConversion.calls).2
        ++ s.world.timing (timingLabel moduleName)) := by
  rw [convert_eq]
  exact ⟨⟨[.conversion (c.requestFor root manifest)], rfl, rfl⟩, String.append_assoc⟩

/-! ### Offers that come to a conversion -/

variable {c : OnDemand} {root : Path} {moduleName name manifest : String} {file : Option String}
  {s : BuildState}

/-- The offer comes to a conversion of the package of a manifest. -/
structure Reaches (c : OnDemand) (root : Path) (moduleName : String) (file : Option String)
    (name manifest : String) (s : BuildState) : Prop where
  /-- The offer has to be looked at. -/
  concerns : c.Concerns root moduleName file name
  /-- The file is not settled. -/
  unsettled : canonicalText name ∉ s.settled
  /-- The manifest is found. -/
  found : (c.finder.manifest? moduleName name s.world).1 = some manifest
  /-- The package may be written. -/
  writable : s.world.files.isProtectedPackage manifest = .ok false

/-- The state after a conversion to which an offer has come. -/
def stateAfter (c : OnDemand) (root : Path) (moduleName name manifest : String) (s : BuildState) :
    BuildState :=
  { s with
    world := worldAfter (c.finder.manifest? moduleName name s.world).2 (c.requestFor root manifest)
      moduleName (s.report.logAll c.threshold s.world.nextConversion.calls).2
    report := (s.report.logAll c.threshold s.world.nextConversion.calls).1 }

/-- **What an offer does that comes to a conversion.** -/
theorem Reaches.offer_eq (h : c.Reaches root moduleName file name manifest s) :
    c.offer moduleName file s =
      match conversionVerdict moduleName manifest s.world.nextConversion.failure with
      | .error fault => (.error fault, c.stateAfter root moduleName name manifest s)
      | .ok () => (.ok (), { c.stateAfter root moduleName name manifest s with
          cache := s.cache.forget manifest }.settle (canonicalText name)) := by
  obtain ⟨hconcerns, hunsettled, hfound, hwritable⟩ := h
  have hasked := c.finder.onlyAsked_manifest? moduleName name s.world
  have hnot := (s.isSettled_eq_false_iff name).2 hunsettled
  have hfind : c.finder.manifest? moduleName name s.world
      = (some manifest, (c.finder.manifest? moduleName name s.world).2) :=
    Prod.ext hfound rfl
  -- What the offer asks before the conversion has been answered as `Reaches` says.
  rw [offer_of_not_isSettled hconcerns hnot, hfind]
  dsimp only
  rw [Finder.files_manifest?, hwritable]
  dsimp only
  rw [convert_eq]
  dsimp only
  rw [hasked.nextConversion_eq]
  cases conversionVerdict moduleName manifest s.world.nextConversion.failure <;> rfl

theorem Reaches.world_offer (h : c.Reaches root moduleName file name manifest s) :
    (c.offer moduleName file s).2.world = (c.stateAfter root moduleName name manifest s).world := by
  rw [h.offer_eq]
  cases conversionVerdict moduleName manifest s.world.nextConversion.failure with
  | error fault => rfl
  | ok => exact BuildState.world_settle _ _

/-- The offer calls the converter once, after at most a question to the finder. -/
def Calls (c : OnDemand) (moduleName : String) (file : Option String) (s : BuildState)
    (request : ConversionRequest) : Prop :=
  ∃ asked, AreLookups asked ∧ (c.offer moduleName file s).2.world.events
    = s.world.events ++ (asked ++ [.conversion request])

theorem Reaches.calls (h : c.Reaches root moduleName file name manifest s) :
    c.Calls moduleName file s (c.requestFor root manifest) := by
  obtain ⟨asked, hasked, hworld⟩ := c.finder.onlyAsked_manifest? moduleName name s.world
  refine ⟨asked, hasked, ?_⟩
  rw [h.world_offer, ← List.append_assoc]
  show (c.finder.manifest? moduleName name s.world).2.events ++ _ = _
  rw [hworld]

/-- The files are changed as the converter changes them. -/
theorem Reaches.files_offer (h : c.Reaches root moduleName file name manifest s) :
    (c.offer moduleName file s).2.world.files
      = { s.world.files with tree := s.world.files.tree.putAll s.world.nextConversion.puts } := by
  have hasked := c.finder.onlyAsked_manifest? moduleName name s.world
  rw [h.world_offer]
  show { (c.finder.manifest? moduleName name s.world).2.files with
    tree := (c.finder.manifest? moduleName name s.world).2.files.tree.putAll
      (c.finder.manifest? moduleName name s.world).2.nextConversion.puts } = _
  rw [Finder.files_manifest?, hasked.nextConversion_eq]

theorem files_of_found {found : Option String} {world : World}
    (hfind : c.finder.manifest? moduleName name s.world = (found, world)) :
    world.files = s.world.files := by
  have hfiles := c.finder.files_manifest? moduleName name s.world
  rwa [hfind] at hfiles

theorem onlyAsked_of_found {found : Option String} {world : World}
    (hfind : c.finder.manifest? moduleName name s.world = (found, world)) :
    s.world.OnlyAsked world := by
  have honly := c.finder.onlyAsked_manifest? moduleName name s.world
  rwa [hfind] at honly

theorem reaches_of_found {world : World} (hconcerns : c.Concerns root moduleName file name)
    (hnot : s.isSettled name = false)
    (hfind : c.finder.manifest? moduleName name s.world = (some manifest, world))
    (hwritable : world.files.isProtectedPackage manifest = .ok false) :
    c.Reaches root moduleName file name manifest s := by
  rw [files_of_found hfind] at hwritable
  have hunsettled := (s.isSettled_eq_false_iff name).1 hnot
  exact ⟨hconcerns, hunsettled, congrArg Prod.fst hfind, hwritable⟩

/-- An offer that does not come to a conversion at most asks the finder. -/
theorem reaches_or_onlyAsked (c : OnDemand) (moduleName : String) (file : Option String)
    (s : BuildState) :
    (∃ root name manifest, c.Reaches root moduleName file name manifest s) ∨
      s.world.OnlyAsked (c.offer moduleName file s).2.world := by
  have hoffered := offered_offer c moduleName file s
  generalize (c.offer moduleName file s).1 = outcome at hoffered
  generalize (c.offer moduleName file s).2 = s' at hoffered
  cases hoffered with
  | unneeded | known => exact Or.inr (.refl s.world)
  | missed _ _ hfind =>
    rw [BuildState.world_settle]
    exact Or.inr (onlyAsked_of_found hfind)
  | refused _ _ hfind => exact Or.inr (onlyAsked_of_found hfind)
  | failed hconcerns hnot hfind hwritable | converted hconcerns hnot hfind hwritable =>
    exact Or.inl ⟨_, _, _, reaches_of_found hconcerns hnot hfind hwritable⟩

/-! ### The conversions among the events -/

variable {request : ConversionRequest}

/-- Questions to a finder call for no conversion. -/
theorem not_mem_drop_of_onlyAsked {w w' : World} (h : w.OnlyAsked w') :
    .conversion request ∉ w'.events.drop w.events.length := by
  obtain ⟨asked, hasked, rfl⟩ := h
  intro hmem
  rw [List.drop_left] at hmem
  obtain ⟨context, what, hevent⟩ := hasked _ hmem
  cases hevent

/-- The converter is called for the package of the manifest. -/
theorem Reaches.request_eq (h : c.Reaches root moduleName file name manifest s)
    (hmem : .conversion request ∈
      (c.offer moduleName file s).2.world.events.drop s.world.events.length) :
    request = c.requestFor root manifest := by
  obtain ⟨asked, hasked, hevents⟩ := h.calls
  rw [hevents, List.drop_left] at hmem
  rcases List.mem_append.1 hmem with hlookup | hlast
  · obtain ⟨context, what, hevent⟩ := hasked _ hlookup
    cases hevent
  · exact Event.conversion.inj (List.mem_singleton.1 hlast)

end OnDemand

end ConvertOnce
