import ConvertOnce.Proofs.OnDemand.Outcome
import ConvertOnce.Proofs.World.SeenFrom

/-!
# Offers seen from several directories

An offer of a file with an absolute path, of a module whose manifest is searched for in the files,
has the same outcome from every current directory and changes the build in the same way
(`OnDemand.offer_ignores`).  Which file is settled is a matter of its text alone.
-/

namespace ConvertOnce

namespace BuildState

variable {cwd : String}

/-- The same state with another current directory. -/
def seenFrom (s : BuildState) (cwd : String) : BuildState :=
  { s with world := s.world.seenFrom cwd }

theorem settle_seenFrom (s : BuildState) (key : String) :
    (s.seenFrom cwd).settle key = (s.settle key).seenFrom cwd := by
  by_cases h : key ∈ s.settled
  · have hkey : key ∈ (s.seenFrom cwd).settled := h
    rw [settle, settle, if_pos h, if_pos hkey]
  · have hkey : key ∉ (s.seenFrom cwd).settled := h
    rw [settle, settle, if_neg h, if_neg hkey]
    rfl

end BuildState

namespace OnDemand

variable {c : OnDemand} {cwd moduleName name : String} {file : Option String} {s : BuildState}

/-- A conversion looks at no path at all. -/
theorem convert_ignores (c : OnDemand) (root : Path) (moduleName manifest : String) :
    (c.convert root moduleName manifest).Ignores (·.seenFrom cwd) := by
  intro s
  -- The clock, the converter and the report are asked in turn, and none of them reads the current
  -- directory.
  have hstart : (s.seenFrom cwd).world.startWatch
      = (s.world.startWatch.1, s.world.startWatch.2.seenFrom cwd) :=
    World.startWatch_seenFrom s.world
  have hreport : (s.seenFrom cwd).report = s.report := rfl
  show c.convert root moduleName manifest (s.seenFrom cwd) = _
  rw [convert, convert, hstart, hreport]
  dsimp only
  rw [World.convertPackage_seenFrom]
  rcases s.world.startWatch.2.convertPackage c.threshold s.report (c.requestFor root manifest)
    with ⟨failure, world, report⟩
  dsimp only [Prod.map, id]
  rw [World.stopWatch_seenFrom]
  cases failure <;> rfl

/-- An offer of a file with an absolute path can end in the same way from everywhere. -/
theorem Offered.seenFrom {outcome : Except Fault Unit} {s' : BuildState} (cwd : String)
    (hfinder : c.finder = .search name) (hfile : ∀ path, file = some path → IsAbsoluteText path)
    (h : Offered c moduleName file s outcome s') :
    Offered c moduleName file (s.seenFrom cwd) outcome (s'.seenFrom cwd) := by
  -- The same manifest is found, and it is as protected as before.
  have hfound : ∀ {root path manifest world}, c.Concerns root moduleName file path →
      c.finder.manifest? moduleName path s.world = (manifest, world) →
      c.finder.manifest? moduleName path (s.seenFrom cwd).world = (manifest, world.seenFrom cwd) ∧
        ∀ file, manifest = some file →
          (world.seenFrom cwd).files.isProtectedPackage file
            = world.files.isProtectedPackage file := by
    intro root path manifest world concerns found
    have habsolute := hfile path concerns.file_eq
    rw [hfinder] at found ⊢
    refine ⟨?_, ?_⟩
    · rw [show (s.seenFrom cwd).world = s.world.seenFrom cwd from rfl,
        Finder.manifest?_seenFrom habsolute, found]
      rfl
    · intro file hmanifest
      have hanswer : ((Finder.search name).manifest? moduleName path s.world).1 = some file := by
        rw [found]
        exact hmanifest
      exact FileSystem.isProtectedPackage_seenFrom
        (Finder.isAbsoluteText_of_manifest? habsolute hanswer)
  -- The converter is called with the same request, and a call looks at no path.
  have hsameConversion : ∀ root manifest s, c.convert root moduleName manifest (s.seenFrom cwd)
      = Prod.map id (·.seenFrom cwd) (c.convert root moduleName manifest s) :=
    fun root manifest s => convert_ignores c root moduleName manifest s
  -- Each way to end is the same way seen from elsewhere.
  cases h with
  | unneeded idle => exact .unneeded idle
  | known concerns settled => exact .known concerns settled
  | @missed root path manifest world concerns unsettled found isProtected =>
    obtain ⟨hmanifest, hsame⟩ := hfound concerns found
    rw [← BuildState.settle_seenFrom]
    refine .missed concerns unsettled hmanifest fun file hfile => ?_
    rw [hsame file hfile]
    exact isProtected file hfile
  | @refused root path manifest world fault concerns unsettled found refusal =>
    obtain ⟨hmanifest, hsame⟩ := hfound concerns found
    refine .refused concerns unsettled hmanifest ?_
    rw [hsame manifest rfl]
    exact refusal
  | @failed root path manifest world fault s' concerns unsettled found writable failure =>
    obtain ⟨hmanifest, hsame⟩ := hfound concerns found
    refine .failed concerns unsettled hmanifest ?_ ?_
    · rw [hsame manifest rfl]
      exact writable
    · have hconvert := hsameConversion root manifest { s with world }
      rw [failure] at hconvert
      exact hconvert
  | @converted root path manifest world s' concerns unsettled found writable success =>
    obtain ⟨hmanifest, hsame⟩ := hfound concerns found
    rw [← BuildState.settle_seenFrom]
    show Offered c moduleName file (s.seenFrom cwd) (.ok ())
      ({ s'.seenFrom cwd with cache := (s'.seenFrom cwd).cache.forget manifest }.settle
        (canonicalText path))
    refine .converted concerns unsettled hmanifest ?_ ?_
    · rw [hsame manifest rfl]
      exact writable
    · have hconvert := hsameConversion root manifest { s with world }
      rw [success] at hconvert
      exact hconvert

/-- **An offer of a file with an absolute path is the same from everywhere.** -/
theorem offer_ignores (hfinder : c.finder = .search name)
    (hfile : ∀ path, file = some path → IsAbsoluteText path) :
    (c.offer moduleName file).Ignores (·.seenFrom cwd) := by
  intro s
  have hoffered := offered_offer c moduleName file s
  exact (hoffered.seenFrom cwd hfinder hfile).offer_eq

end OnDemand

end ConvertOnce
