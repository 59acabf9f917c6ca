import ConvertOnce.Proofs.ByteCache
import ConvertOnce.Proofs.OnDemand.Conversion

/-!
# The cache after a conversion

The converter rewrites the manifest of the package that it converts, behind the back of the cache.
So an offer that has called the converter and succeeds forgets the manifest, whatever spelling of
its path the cache was filled under; it forgets nothing else, and it settles the file that was
offered and no other.  An offer that succeeds without calling the converter leaves the cache alone.
`OnDemand.offer_keepsFresh` says so for every state of a build.
-/

namespace ConvertOnce

namespace OnDemand

variable {c : OnDemand} {root : Path} {moduleName name manifest : String} {file : Option String}
  {s s' : BuildState} {request : ConversionRequest}

/-- The state `s'` is reached from `s` by converting the package of a manifest on behalf of a file,
and nothing stale is remembered in it. -/
structure Refreshed (c : OnDemand) (moduleName name manifest : String) (s s' : BuildState) :
    Prop where
  /-- The manifest is the one that is found for the file. -/
  found : (c.finder.manifest? moduleName name s.world).1 = some manifest
  /-- The files are as the converter has left them. -/
  files_eq : s'.world.files
    = { s.world.files with tree := s.world.files.tree.putAll s.world.nextConversion.puts }
  /-- Nothing is remembered of the manifest, under any spelling of its path. -/
  forgotten : ∀ path, canonicalText path = canonicalText manifest → s'.cache.remembers path = false
  /-- So reading it gives what can be read of these files. -/
  reread : ∀ path, canonicalText path = canonicalText manifest →
    Prod.fst <$> s'.cache.read s'.world.files path = s'.world.files.read (canonicalText path)
  /-- Everything else in the cache is as before. -/
  others : ∀ key ≠ canonicalText manifest,
    s'.cache.remembered.get? key = s.cache.remembered.get? key
  /-- The file was not settled. -/
  unsettled : canonicalText name ∉ s.settled
  /-- It is now, and no other file is settled that was not before. -/
  settled : ∀ key, key ∈ s'.settled ↔ key = canonicalText name ∨ key ∈ s.settled

/-- What is promised of an offer in case it succeeds. -/
structure KeepsFresh (c : OnDemand) (moduleName : String) (file : Option String)
    (s : BuildState) : Prop where
  /-- Where the converter was called, nothing stale is remembered of the manifest. -/
  converted : ∀ s' request, c.offer moduleName file s = (.ok (), s') →
    .conversion request ∈ s'.world.events.drop s.world.events.length →
      ∃ root name manifest, c.Concerns root moduleName file name ∧
        request = c.requestFor root manifest ∧ c.Refreshed moduleName name manifest s s'
  /-- Where it was not called, the cache is as before. -/
  untouched : ∀ s', c.offer moduleName file s = (.ok (), s') →
    (∀ request, .conversion request ∉ s'.world.events.drop s.world.events.length) →
      s'.cache = s.cache

/-- A conversion that succeeds leaves the state of the build with its manifest forgotten and its
file settled. -/
theorem Reaches.eq_of_offer_eq_ok (h : c.Reaches root moduleName file name manifest s)
    (hoffer : c.offer moduleName file s = (.ok (), s')) :
    s' = { c.stateAfter root moduleName name manifest s with
      cache := s.cache.forget manifest }.settle (canonicalText name) := by
  rw [h.offer_eq] at hoffer
  cases hverdict : conversionVerdict moduleName manifest s.world.nextConversion.failure with
  | error fault =>
    rw [hverdict] at hoffer
    cases hoffer
  | ok =>
    rw [hverdict] at hoffer
    exact (Prod.mk.inj hoffer).2.symm

/-- The cache after a conversion that succeeds. -/
theorem Reaches.cache_eq (h : c.Reaches root moduleName file name manifest s)
    (hoffer : c.offer moduleName file s = (.ok (), s')) :
    s'.cache = s.cache.forget manifest := by
  rw [h.eq_of_offer_eq_ok hoffer]
  exact BuildState.cache_settle _ _

theorem Reaches.refreshed (h : c.Reaches root moduleName file name manifest s)
    (hoffer : c.offer moduleName file s = (.ok (), s')) :
    c.Refreshed moduleName name manifest s s' := by
  -- The cache is the old one without the manifest, so each claim about it is one about `forget`.
  have hcache := h.cache_eq hoffer
  have hforgotten : ∀ path, canonicalText path = canonicalText manifest →
      s'.cache.get? path = none := by
    intro path hsame
    rw [hcache, ByteCache.get?_forget_of_same hsame]
  exact {
    found := h.found
    files_eq := by
      have hfiles := h.files_offer
      rwa [hoffer] at hfiles
    forgotten := by
      intro path hsame
      rw [ByteCache.remembers, hforgotten path hsame]
      rfl
    reread := fun path hsame => ByteCache.fst_read_of_get?_eq_none (hforgotten path hsame) _
    others := by
      intro key hkey
      rw [hcache, ByteCache.get?_forget, if_neg hkey]
    unsettled := h.unsettled
    settled := by
      intro key
      rw [h.eq_of_offer_eq_ok hoffer, BuildState.mem_settled_settle]
      rfl }

/-- The converter is called by an offer that comes to a conversion. -/
theorem Reaches.mem_drop (h : c.Reaches root moduleName file name manifest s) :
    .conversion (c.requestFor root manifest)
      ∈ (c.offer moduleName file s).2.world.events.drop s.world.events.length := by
  obtain ⟨asked, -, hevents⟩ := h.calls
  rw [hevents, List.drop_left]
  exact List.mem_append_right asked (List.mem_singleton_self _)

/-- An offer that does not come to a conversion leaves the cache alone. -/
theorem cache_offer_of_not_reaches
    (h : ∀ root name manifest, ¬c.Reaches root moduleName file name manifest s) :
    (c.offer moduleName file s).2.cache = s.cache := by
  have hoffered := offered_offer c moduleName file s
  generalize (c.offer moduleName file s).1 = outcome at hoffered
  generalize (c.offer moduleName file s).2 = s' at hoffered
  cases hoffered with
  | unneeded | known | refused => rfl
  | missed => exact BuildState.cache_settle _ _
  | failed hconcerns hnot hfind hwritable | converted hconcerns hnot hfind hwritable =>
    exact absurd (reaches_of_found hconcerns hnot hfind hwritable) (h _ _ _)

/-- **No manifest is stale after a conversion.** -/
theorem offer_keepsFresh (c : OnDemand) (moduleName : String) (file : Option String)
    (s : BuildState) : c.KeepsFresh moduleName file s where
  converted := by
    intro s' request hoffer hmem
    have hstate : s' = (c.offer moduleName file s).2 := by rw [hoffer]
    rw [hstate] at hmem
    rcases c.reaches_or_onlyAsked moduleName file s with ⟨root, name, manifest, hreaches⟩ | hasked
    · exact ⟨root, name, manifest, hreaches.concerns, hreaches.request_eq hmem,
        hreaches.refreshed hoffer⟩
    · exact absurd hmem (not_mem_drop_of_onlyAsked hasked)
  untouched := by
    intro s' hoffer hnone
    have hstate : s' = (c.offer moduleName file s).2 := by rw [hoffer]
    rw [hstate] at hnone ⊢
    apply cache_offer_of_not_reaches
    intro root name manifest hreaches
    exact hnone _ hreaches.mem_drop

/-! ### A manifest that was read before -/

/-- A project that finds its packages by the usual search. -/
def rereadDemand : OnDemand where
  settings := { tsconfig := .ofString "/p/tsconfig.json", runtime := "/usr/bin/python3" }
  dependencyRoot := some (.ofString "/p/node_modules")
  finder := .usual

/-- The compiler has read the manifest of package `a`, by another spelling of its path than the one
that is going to be found, and the converter is going to rewrite it. -/
def rereadState : BuildState where
  world := { World.ofFiles {
      tree := .putAll .empty [⟨"/p/node_modules/a/package.json", .file .newFile [1]⟩]
      cwd := "/p"
      executable := "/usr/bin/python3" } with
    conversions := [{ puts := [⟨"/p/node_modules/a/package.json", .file .newFile [2]⟩] }] }
  cache := .remember .empty "/p/node_modules/b/../a/package.json" [1]
  report := {}
  settled := []

/-- The compiler reads the new manifest under the spelling that it used before. -/
example : (let s := (rereadDemand.offer "a" (some "/p/node_modules/a/i.js") rereadState).2
    Prod.fst <$> s.cache.read s.world.files "/p/node_modules/b/../a/package.json")
      = .ok [2] := by
  decide +kernel

end OnDemand

end ConvertOnce
