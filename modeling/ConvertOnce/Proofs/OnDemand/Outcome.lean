import ConvertOnce.OnDemand
import ConvertOnce.Proofs.World
import Mathlib.Tactic.Common

/-!
# What comes of an offer

`Offered` lists the six ways in which an offer of a module can end, each with everything that it
does to the state of the build, and `offered_offer` says that there is no other; `Offered.offer_eq`
is the converse.  All that is proved about runs of offers is proved by cases on this relation; the
definition of `OnDemand.offer` is not opened again.
-/

namespace ConvertOnce

/-! ### Settling and unsettling -/

namespace BuildState

@[simp] theorem mem_settled_settle (s : BuildState) (key k : String) :
    k ∈ (s.settle key).settled ↔ k = key ∨ k ∈ s.settled := by
  rw [settle]
  split
  · next h =>
    constructor
    · exact Or.inr
    · rintro (rfl | hk)
      · exact h
      · exact hk
  · exact List.mem_cons

@[simp] theorem world_settle (s : BuildState) (key : String) : (s.settle key).world = s.world := by
  rw [settle]
  split <;> rfl

@[simp] theorem cache_settle (s : BuildState) (key : String) : (s.settle key).cache = s.cache := by
  rw [settle]
  split <;> rfl

@[simp] theorem mem_settled_unsettle (s : BuildState) (file k : String) :
    k ∈ (s.unsettle file).settled ↔ k ∈ s.settled ∧ k ≠ canonicalText file := by
  simp [unsettle, List.mem_filter]

theorem isSettled_iff (s : BuildState) (file : String) :
    s.isSettled file = true ↔ canonicalText file ∈ s.settled := by
  simp [isSettled]

theorem isSettled_eq_false_iff (s : BuildState) (file : String) :
    s.isSettled file = false ↔ canonicalText file ∉ s.settled := by
  simp [isSettled]

end BuildState

namespace OnDemand

/-! ### One conversion -/

/-- What one conversion does: the world and the report may become anything, but the converter is
called once, and nothing is settled. -/
theorem convert_spec {c : OnDemand} {root : Path} {moduleName manifest : String}
    {s s' : BuildState} {outcome : Except Fault Unit}
    (h : c.convert root moduleName manifest s = (outcome, s')) :
    ∃ world report, s' = { s with world, report } ∧
      world.events = s.world.events ++ [.conversion (c.requestFor root manifest)] := by
  have hevents := World.events_convertPackage s.world.startWatch.2 c.threshold s.report
    (c.requestFor root manifest)
  rw [World.events_startWatch] at hevents
  rw [convert] at h
  -- The clock and the converter may answer anything, but only the converter is noted.
  generalize s.world.startWatch = watch at hevents h
  obtain ⟨start, watched⟩ := watch
  simp only at hevents h
  generalize watched.convertPackage c.threshold s.report (c.requestFor root manifest) = answer
    at hevents h
  obtain ⟨failure, world, report⟩ := answer
  refine ⟨world.stopWatch ("IncrementalProcessor.process+" ++ moduleName) start, report, ?_, ?_⟩
  · cases failure with
    | none => exact (Prod.mk.inj h).2.symm
    | some reason => exact (Prod.mk.inj h).2.symm
  · rw [World.events_stopWatch]
    exact hevents

/-! ### The six endings -/

/-- The offer of a module that was resolved to the file `name` has to be looked at: there is a
dependency tree, the file is known and the module is not a relative one. -/
structure Concerns (c : OnDemand) (root : Path) (moduleName : String) (file : Option String)
    (name : String) : Prop where
  /-- There is a dependency tree. -/
  root_eq : c.dependencyRoot = some root
  /-- The file is known. -/
  file_eq : file = some name
  /-- The file has a name. -/
  ne_empty : name ≠ ""
  /-- The module is not a relative one. -/
  not_local : isLocalName moduleName = false

/-- The ways in which an offer can end, each with its outcome and the state that it reaches. -/
inductive Offered (c : OnDemand) (moduleName : String) (file : Option String) (s : BuildState) :
    Except Fault Unit → BuildState → Prop
  /-- Nothing has to be done for such a module or file. -/
  | unneeded (idle : ∀ root name, ¬c.Concerns root moduleName file name) :
      Offered c moduleName file s (.ok ()) s
  /-- The file is settled. -/
  | known {root name} (concerns : c.Concerns root moduleName file name)
      (settled : s.isSettled name = true) : Offered c moduleName file s (.ok ()) s
  /-- There is no manifest that may be written; this is remembered. -/
  | missed {root name manifest world} (concerns : c.Concerns root moduleName file name)
      (unsettled : s.isSettled name = false)
      (found : c.finder.manifest? moduleName name s.world = (manifest, world))
      (isProtected : ∀ file, manifest = some file →
        world.files.isProtectedPackage file = .ok true) :
      Offered c moduleName file s (.ok ()) ({ s with world }.settle (canonicalText name))
  /-- It cannot be told whether the manifest may be written. -/
  | refused {root name manifest world fault} (concerns : c.Concerns root moduleName file name)
      (unsettled : s.isSettled name = false)
      (found : c.finder.manifest? moduleName name s.world = (some manifest, world))
      (refusal : world.files.isProtectedPackage manifest = .error fault) :
      Offered c moduleName file s (.error fault) { s with world }
  /-- The converter failed. -/
  | failed {root name manifest world fault s'} (concerns : c.Concerns root moduleName file name)
      (unsettled : s.isSettled name = false)
      (found : c.finder.manifest? moduleName name s.world = (some manifest, world))
      (writable : world.files.isProtectedPackage manifest = .ok false)
      (failure : c.convert root moduleName manifest { s with world } = (.error fault, s')) :
      Offered c moduleName file s (.error fault) s'
  /-- The package was converted; the manifest is read anew from now on. -/
  | converted {root name manifest world s'} (concerns : c.Concerns root moduleName file name)
      (unsettled : s.isSettled name = false)
      (found : c.finder.manifest? moduleName name s.world = (some manifest, world))
      (writable : world.files.isProtectedPackage manifest = .ok false)
      (success : c.convert root moduleName manifest { s with world } = (.ok (), s')) :
      Offered c moduleName file s (.ok ())
        ({ s' with cache := s'.cache.forget manifest }.settle (canonicalText name))

variable {c : OnDemand} {moduleName : String} {file : Option String} {s : BuildState}

/-- An offer that does not concern is answered at once. -/
theorem offer_of_not_concerns (h : ∀ root name, ¬c.Concerns root moduleName file name) :
    c.offer moduleName file s = (.ok (), s) := by
  rw [offer]
  split
  · next root name hroot hfile =>
    obtain ⟨hname, hne⟩ := Option.filter_eq_some_iff.1 hfile
    rw [if_pos]
    by_contra hno
    simp only [Bool.or_eq_true, not_or, Bool.not_eq_true] at hno
    exact h root name ⟨hroot, hname, by simpa using hne, hno.1⟩
  · rfl

theorem Concerns.filter_eq {root : Path} {name : String}
    (h : c.Concerns root moduleName file name) :
    file.filter (· ≠ "") = some name := by
  rw [h.file_eq, Option.filter_some, if_pos (by simpa using h.ne_empty)]

/-- An offer of a settled file is answered at once. -/
theorem offer_of_isSettled {root : Path} {name : String} (h : c.Concerns root moduleName file name)
    (hs : s.isSettled name = true) : c.offer moduleName file s = (.ok (), s) := by
  rw [offer, h.root_eq, h.filter_eq]
  simp only [hs, Bool.or_true, if_true]

/-- Any other offer that concerns depends on the manifest. -/
theorem offer_of_not_isSettled {root : Path} {name : String}
    (h : c.Concerns root moduleName file name) (hs : s.isSettled name = false) :
    c.offer moduleName file s =
      match c.finder.manifest? moduleName name s.world with
      | (none, world) => (.ok (), { s with world }.settle (canonicalText name))
      | (some manifest, world) =>
        match world.files.isProtectedPackage manifest with
        | .error fault => (.error fault, { s with world })
        | .ok true => (.ok (), { s with world }.settle (canonicalText name))
        | .ok false =>
          match c.convert root moduleName manifest { s with world } with
          | (.error fault, s) => (.error fault, s)
          | (.ok (), s) =>
            (.ok (), { s with cache := s.cache.forget manifest }.settle (canonicalText name)) := by
  rw [offer, h.root_eq, h.filter_eq]
  simp only [h.not_local, hs, Bool.or_self, Bool.false_eq_true, if_false]
  rcases c.finder.manifest? moduleName name s.world with ⟨_ | manifest, world⟩ <;> rfl

/-- **Every offer ends in one of the six ways.** -/
theorem offered_offer (c : OnDemand) (moduleName : String) (file : Option String)
    (s : BuildState) :
    Offered c moduleName file s (c.offer moduleName file s).1 (c.offer moduleName file s).2 := by
  -- The ways to end are told apart in the order in which the offer asks.
  by_cases h : ∃ root name, c.Concerns root moduleName file name
  · obtain ⟨root, name, h⟩ := h
    cases hs : s.isSettled name with
    | true =>
      rw [offer_of_isSettled h hs]
      exact .known h hs
    | false =>
      rw [offer_of_not_isSettled h hs]
      rcases hfind : c.finder.manifest? moduleName name s.world with ⟨_ | manifest, world⟩
      · exact .missed h hs hfind (by simp)
      · dsimp only
        cases hp : world.files.isProtectedPackage manifest with
        | error fault => exact .refused h hs hfind hp
        | ok isProtected =>
          cases isProtected with
          | true => exact .missed h hs hfind (by simpa using hp)
          | false =>
            dsimp only
            rcases hconv : c.convert root moduleName manifest { s with world } with
              ⟨fault | _, s'⟩
            · exact .failed h hs hfind hp hconv
            · exact .converted h hs hfind hp hconv
  · simp only [not_exists] at h
    rw [offer_of_not_concerns h]
    exact .unneeded h

/-- An offer that can end in some way does end in that way. -/
theorem Offered.offer_eq {outcome : Except Fault Unit} {s' : BuildState}
    (h : Offered c moduleName file s outcome s') : c.offer moduleName file s = (outcome, s') := by
  cases h with
  | unneeded idle => exact offer_of_not_concerns idle
  | known concerns settled => exact offer_of_isSettled concerns settled
  | @missed root name manifest world concerns unsettled found isProtected =>
    rw [offer_of_not_isSettled concerns unsettled, found]
    cases manifest with
    | none => rfl
    | some manifest =>
      dsimp only
      rw [isProtected manifest rfl]
  | refused concerns unsettled found refusal =>
    rw [offer_of_not_isSettled concerns unsettled, found]
    dsimp only
    rw [refusal]
  | failed concerns unsettled found writable failure =>
    rw [offer_of_not_isSettled concerns unsettled, found]
    dsimp only
    rw [writable]
    dsimp only
    rw [failure]
  | converted concerns unsettled found writable success =>
    rw [offer_of_not_isSettled concerns unsettled, found]
    dsimp only
    rw [writable]
    dsimp only
    rw [success]

end OnDemand

end ConvertOnce
