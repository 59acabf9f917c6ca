import ConvertOnce.Proofs.OnDemand.Conversion
import ConvertOnce.Proofs.World.Profiled

/-!
# Offers with and without profiling

States mirror one another when their worlds do and all else is equal.  An offer ends the same in
mirrored states and reaches mirrored states again; where it calls the converter, the profiled side
has the line of the measurement besides (`OnDemand.offer_mirrored`).
-/

namespace ConvertOnce

open World

namespace BuildState

variable {s s' : BuildState}

/-- The second state is profiled, the first is not, and there is no other difference. -/
structure Mirrors (s s' : BuildState) : Prop where
  world : s.world.Mirrors s'.world
  cache : s'.cache = s.cache
  report : s'.report = s.report
  settled : s'.settled = s.settled

theorem Mirrors.withWorld (h : s.Mirrors s') {w w' : World} (hw : w.Mirrors w') :
    ({ s with world := w } : BuildState).Mirrors { s' with world := w' } :=
  { h with world := hw }

theorem Mirrors.isSettled_eq (h : s.Mirrors s') (file : String) :
    s'.isSettled file = s.isSettled file := by
  rw [isSettled, isSettled, h.settled]

theorem Mirrors.settle (h : s.Mirrors s') (key : String) :
    (s.settle key).Mirrors (s'.settle key) := by
  rw [BuildState.settle, BuildState.settle, h.settled]
  split
  · exact h
  · exact { h with settled := rfl }

theorem Mirrors.unsettle (h : s.Mirrors s') (file : String) :
    (s.unsettle file).Mirrors (s'.unsettle file) :=
  { h with settled := congrArg (List.filter (· ≠ canonicalText file)) h.settled }

theorem Mirrors.forget (h : s.Mirrors s') (file : String) :
    ({ s with cache := s.cache.forget file } : BuildState).Mirrors
      { s' with cache := s'.cache.forget file } :=
  { h with cache := congrArg (ByteCache.forget · file) h.cache }

end BuildState

namespace OnDemand

variable {c : OnDemand} {s s' : BuildState}

/-- A conversion is the same with profiling and without, but for the line of the measurement. -/
theorem convert_mirrored (c : OnDemand) (root : Path) (moduleName manifest : String)
    (h : s.Mirrors s') :
    (c.convert root moduleName manifest s').1 = (c.convert root moduleName manifest s).1 ∧
      (c.convert root moduleName manifest s).2.Mirrors
        (c.convert root moduleName manifest s').2 ∧
      WrittenAlike (timingLabel moduleName) s.world
        (c.convert root moduleName manifest s).2.world s'.world
        (c.convert root moduleName manifest s').2.world := by
  -- Both conversions follow the same script.
  have hscript : s'.world.nextConversion = s.world.nextConversion := by
    rw [nextConversion, nextConversion, h.world.conversions]
  have hwrote := wrote_convert c root moduleName manifest s
  have hwrote' := wrote_convert c root moduleName manifest s'
  rw [hscript, h.report] at hwrote'
  refine ⟨?_, ?_, h.world.writtenAlike_of_run hwrote hwrote'⟩
  · rw [convert_eq, convert_eq, hscript]
  · rw [convert_eq, convert_eq, hscript, h.report]
    exact { h with
      world := { h.world with
        files := by simp only [worldAfter, hscript, h.world.files]
        conversions := congrArg List.tail h.world.conversions
        events := congrArg (· ++ [Event.conversion (c.requestFor root manifest)]) h.world.events }
      report := rfl }

/-- An offer of a file that is not settled yet. -/
theorem offer_mirrored_of_not_isSettled (hfinder : c.finder.IgnoresProfiling) (h : s.Mirrors s')
    {root : Path} {moduleName name : String} {file : Option String}
    (hconcerns : c.Concerns root moduleName file name) (hs : s.isSettled name = false) :
    (c.offer moduleName file s').1 = (c.offer moduleName file s).1 ∧
      (c.offer moduleName file s).2.Mirrors (c.offer moduleName file s').2 ∧
      WrittenAlike (timingLabel moduleName) s.world (c.offer moduleName file s).2.world s'.world
        (c.offer moduleName file s').2.world := by
  have hs' : s'.isSettled name = false := (h.isSettled_eq name).trans hs
  rw [offer_of_not_isSettled hconcerns hs, offer_of_not_isSettled hconcerns hs']
  -- The finder is asked first, and finds the same.
  have hasked := (c.finder.onlyAsked_manifest? moduleName name s.world).wrote
  have hasked' := (c.finder.onlyAsked_manifest? moduleName name s'.world).wrote
  have hquiet : WrittenAlike (timingLabel moduleName) _ _ _ _ :=
    writtenAlike_of_quiet hasked hasked'
  obtain ⟨hmanifest, hworlds⟩ := hfinder.manifest? h.world moduleName name
  generalize c.finder.manifest? moduleName name s.world = found at hquiet hmanifest hworlds ⊢
  generalize c.finder.manifest? moduleName name s'.world = found' at hquiet hmanifest hworlds ⊢
  obtain ⟨manifest, w⟩ := found
  obtain ⟨manifest', w'⟩ := found'
  obtain rfl : manifest' = manifest := hmanifest
  have hquiet : WrittenAlike (timingLabel moduleName) s.world w s'.world w' := hquiet
  have hstates := h.withWorld hworlds
  have hfiles : w'.files = w.files := hworlds.files
  cases manifest' with
  | none =>
    refine ⟨rfl, hstates.settle _, ?_⟩
    rw [BuildState.world_settle, BuildState.world_settle]
    exact hquiet
  | some manifest =>
    dsimp only
    rw [hfiles]
    split
    · exact ⟨rfl, hstates, hquiet⟩
    · refine ⟨rfl, hstates.settle _, ?_⟩
      rw [BuildState.world_settle, BuildState.world_settle]
      exact hquiet
    · -- The package is converted.
      obtain ⟨houtcome, hafter, htext⟩ := convert_mirrored c root moduleName manifest hstates
      have htext := hquiet.trans htext
      generalize c.convert root moduleName manifest { s with world := w } = converted at *
      generalize c.convert root moduleName manifest { s' with world := w' } = converted' at *
      obtain ⟨outcome, t⟩ := converted
      obtain ⟨outcome', t'⟩ := converted'
      obtain rfl : outcome' = outcome := houtcome
      cases outcome' with
      | error fault => exact ⟨rfl, hafter, htext⟩
      | ok _ =>
        refine ⟨rfl, (hafter.forget manifest).settle _, ?_⟩
        rw [BuildState.world_settle, BuildState.world_settle]
        exact htext

/-- **An offer ends the same with profiling and without**, and the line of the measurement is all
that is written besides. -/
theorem offer_mirrored (hfinder : c.finder.IgnoresProfiling) (moduleName : String)
    (file : Option String) (h : s.Mirrors s') :
    (c.offer moduleName file s').1 = (c.offer moduleName file s).1 ∧
      (c.offer moduleName file s).2.Mirrors (c.offer moduleName file s').2 ∧
      WrittenAlike (timingLabel moduleName) s.world (c.offer moduleName file s).2.world s'.world
        (c.offer moduleName file s').2.world := by
  by_cases hconcerns : ∃ root name, c.Concerns root moduleName file name
  · obtain ⟨root, name, hconcerns⟩ := hconcerns
    cases hs : s.isSettled name with
    | true =>
      have hs' : s'.isSettled name = true := (h.isSettled_eq name).trans hs
      rw [offer_of_isSettled hconcerns hs, offer_of_isSettled hconcerns hs']
      exact ⟨rfl, h, .refl _ _⟩
    | false => exact offer_mirrored_of_not_isSettled hfinder h hconcerns hs
  · have hidle : ∀ root name, ¬c.Concerns root moduleName file name := by
      simpa only [not_exists] using hconcerns
    rw [offer_of_not_concerns hidle, offer_of_not_concerns hidle]
    exact ⟨rfl, h, .refl _ _⟩

end OnDemand

end ConvertOnce
