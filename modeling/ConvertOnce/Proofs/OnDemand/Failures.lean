import ConvertOnce.Proofs.Guard.Failures
import ConvertOnce.Proofs.OnDemand.Conversion

/-!
# Offers that fail

An offer that fails leaves the settled files and the cache as they were, and the files but for what
the converter itself has put there.  A failure of the converter is reported with the module and its
manifest, and the next offer of the file calls the converter again.  With a finder that searches the
files nothing else can fail.  `OnDemand.offer_failsCleanly` says so for every offer.
-/

namespace ConvertOnce.OnDemand

variable {c : OnDemand} {root : Path} {moduleName name manifest : String} {file : Option String}
  {s s' : BuildState} {fault : Fault}

/-- What is promised of an offer in case it fails. -/
structure FailsCleanly (c : OnDemand) (moduleName : String) (file : Option String)
    (s : BuildState) : Prop where
  /-- The settled files and the cache are as before. -/
  kept : ∀ fault s', c.offer moduleName file s = (.error fault, s') →
    s'.settled = s.settled ∧ s'.cache = s.cache
  /-- So are the files, unless the converter was called and has put something there. -/
  files : ∀ fault s', c.offer moduleName file s = (.error fault, s') →
    s'.world.files = s.world.files ∨
      (∃ root name manifest, c.Reaches root moduleName file name manifest s) ∧
        s'.world.files
          = { s.world.files with tree := s.world.files.tree.putAll s.world.nextConversion.puts }
  /-- A failure of the converter is reported with the module and the manifest. -/
  reported : ∀ root name manifest reason, c.Reaches root moduleName file name manifest s →
    s.world.nextConversion.failure = some reason →
      (c.offer moduleName file s).1 = .error (.build (.packageFailed
        ("ngcc failed to process '" ++ moduleName ++ "': " ++ reason) moduleName (some manifest)))
  /-- As long as no more is settled, another offer of the same file calls the converter if a
  manifest is found that may be written. -/
  retried : ∀ fault s', c.offer moduleName file s = (.error fault, s') →
    ∀ root name, c.Concerns root moduleName file name →
      ∀ (u : BuildState) moduleName' file' name' manifest', u.settled = s'.settled →
        c.Concerns root moduleName' file' name' → canonicalText name' = canonicalText name →
        (c.finder.manifest? moduleName' name' u.world).1 = some manifest' →
        u.world.files.isProtectedPackage manifest' = .ok false →
          c.Calls moduleName' file' u (c.requestFor root manifest')
  /-- With a finder that searches, only the converter can have failed. -/
  searching : ∀ dirname, c.finder = .search dirname →
    ∀ fault s', c.offer moduleName file s = (.error fault, s') →
      ∃ root name manifest reason, c.Reaches root moduleName file name manifest s ∧
        s.world.nextConversion.failure = some reason ∧
        fault = .build (.packageFailed
          ("ngcc failed to process '" ++ moduleName ++ "': " ++ reason) moduleName (some manifest))

theorem offered_of_eq {outcome : Except Fault Unit}
    (h : c.offer moduleName file s = (outcome, s')) : Offered c moduleName file s outcome s' := by
  have hoffered := offered_offer c moduleName file s
  rwa [h] at hoffered

/-- Nothing is settled or forgotten by an offer that fails. -/
theorem Offered.kept_of_error (h : Offered c moduleName file s (.error fault) s') :
    s'.settled = s.settled ∧ s'.cache = s.cache := by
  cases h with
  | refused => exact ⟨rfl, rfl⟩
  | failed _ _ _ _ hconvert =>
    obtain ⟨world, report, rfl, -⟩ := convert_spec hconvert
    exact ⟨rfl, rfl⟩

/-- A search finds manifests of which it can be told whether they may be written. -/
theorem Offered.reaches_of_error {dirname : String} (hfinder : c.finder = .search dirname)
    (h : Offered c moduleName file s (.error fault) s') :
    ∃ root name manifest, c.Reaches root moduleName file name manifest s := by
  cases h with
  | refused _ _ hfind hrefusal =>
    rw [hfinder] at hfind
    exact absurd (FileSystem.isProtectedPackage_error hrefusal)
      (Finder.not_hasNul_of_manifest? (congrArg Prod.fst hfind))
  | failed hconcerns hnot hfind hwritable =>
    exact ⟨_, _, _, reaches_of_found hconcerns hnot hfind hwritable⟩

/-- The failure of the converter is that of the offer. -/
theorem Reaches.offer_fst (h : c.Reaches root moduleName file name manifest s) :
    (c.offer moduleName file s).1
      = conversionVerdict moduleName manifest s.world.nextConversion.failure := by
  rw [h.offer_eq]
  cases conversionVerdict moduleName manifest s.world.nextConversion.failure <;> rfl

/-- The file of an offer that failed was not settled. -/
theorem Concerns.not_mem_settled_of_error (h : c.Concerns root moduleName file name)
    (hoffer : c.offer moduleName file s = (.error fault, s')) : canonicalText name ∉ s.settled := by
  intro hmem
  rw [offer_of_isSettled h ((s.isSettled_iff name).2 hmem)] at hoffer
  cases hoffer

/-- **A failing offer changes nothing of its own.** -/
theorem offer_failsCleanly (c : OnDemand) (moduleName : String) (file : Option String)
    (s : BuildState) : c.FailsCleanly moduleName file s where
  kept := fun _ _ h => (offered_of_eq h).kept_of_error
  files := by
    intro fault s' h
    have hworld : s'.world = (c.offer moduleName file s).2.world := by rw [h]
    rw [hworld]
    rcases c.reaches_or_onlyAsked moduleName file s with ⟨root, name, manifest, hreaches⟩ | hasked
    · exact Or.inr ⟨⟨root, name, manifest, hreaches⟩, hreaches.files_offer⟩
    · obtain ⟨asked, -, heq⟩ := hasked
      rw [heq]
      exact Or.inl rfl
  reported := by
    intro root name manifest reason hreaches hfailure
    rw [hreaches.offer_fst, hfailure, conversionVerdict]
  retried := by
    intro fault s' h root name hconcerns u moduleName' file' name' manifest' hsettled hconcerns'
      hsame hfound hwritable
    have hnot : canonicalText name' ∉ u.settled := by
      rw [hsame, hsettled, (offered_of_eq h).kept_of_error.1]
      exact hconcerns.not_mem_settled_of_error h
    exact Reaches.calls ⟨hconcerns', hnot, hfound, hwritable⟩
  searching := by
    -- A finder that searches the files takes a manifest that can be asked about, so nothing but the
    -- converter is left to fail.
    intro dirname hfinder fault s' h
    obtain ⟨root, name, manifest, hreaches⟩ := (offered_of_eq h).reaches_of_error hfinder
    have hfst := hreaches.offer_fst
    rw [h] at hfst
    cases hfailure : s.world.nextConversion.failure with
    | none =>
      rw [hfailure, conversionVerdict] at hfst
      cases hfst
    | some reason =>
      rw [hfailure, conversionVerdict] at hfst
      exact ⟨root, name, manifest, reason, hreaches, rfl, Except.error.inj hfst⟩

end ConvertOnce.OnDemand
