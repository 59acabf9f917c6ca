import ConvertOnce.Proofs.BuildInputs.Read
import ConvertOnce.Proofs.FileSystem.Making
import ConvertOnce.Proofs.Guard.Outcome
import ConvertOnce.Settings.Load

/-!
# Where a guard fails instead of converting

A guard is to convert the tree whenever it cannot tell what is there, and to go without a marker
whenever it cannot write one.  `Guard.failsOpen_iff` says how far it does, with a finder that
searches the files.  `Guard.Unforeseen` lists what is not provided for: a name that the system does
not take, a marker that cannot be asked for, and a directory of markers deeper than the process can
go.  Where nothing of that is met, the failures that a build is told of are those of the converter,
unless the converter cannot even be asked (`Guard.Unpassable`).  `Guard.not_alwaysFailsOpen` is a
tree with a directory of markers that may not be searched.
-/

namespace ConvertOnce

/-! ### Reading the inputs -/

namespace InputSources

variable {sources : InputSources} {fs : FileSystem} {fault : Fault}

/-- A reading of the inputs comes to a path with U+0000 in it. -/
def MeetsNul (sources : InputSources) (fs : FileSystem) : Prop :=
  HasNul (sources.projectRoot / sources.toolConfigName).text ∨ HasNul sources.tsconfig.text ∨
    (∃ bytes, fs.read sources.tsconfig.text = .ok bytes) ∧ HasNul sources.projectRoot.text

/-- **What keeps the inputs from being read**: U+0000 in a path is the only cause that does not make
them unknown. -/
theorem digest_eq_error_iff (hfault : fault.makesUnknown = false) :
    sources.digest fs = .error fault ↔ fault = .nulCharacter ∧ sources.MeetsNul fs := by
  rw [digest, map_eq_error_iff]
  constructor
  · intro h
    -- The settings of the converter, those of the compiler and the lock file are read in turn.
    rcases bind_eq_error_iff.1 h with h | ⟨toolConfig, -, h⟩
    · obtain ⟨hnul, rfl⟩ := FileSystem.readOrEmpty_eq_error_iff.1 h
      exact ⟨rfl, Or.inl hnul⟩
    rcases bind_eq_error_iff.1 h with h | ⟨tsconfig, hts, h⟩
    · cases FileSystem.read_error h with
      | nul hnul => exact ⟨rfl, Or.inr (Or.inl hnul)⟩
      | system hnul errno => cases hfault
    rcases bind_eq_error_iff.1 h with h | ⟨lock, -, h⟩
    · rcases FileSystem.firstLockFile_error h with rfl | ⟨rfl, name, hname, hnul⟩
      · cases hfault
      · obtain ⟨hpart, hnot⟩ := not_hasNul_of_mem_lockFileNames hname
        have hroot := ((Path.hasNul_div_of_isPart hpart).1 hnul).resolve_right hnot
        exact ⟨rfl, Or.inr (Or.inr ⟨⟨tsconfig, hts⟩, hroot⟩)⟩
    · cases h
  · rintro ⟨rfl, h⟩
    refine bind_eq_error_iff.2 ?_
    cases htool : fs.readOrEmpty (sources.projectRoot / sources.toolConfigName) with
    | error fault => exact Or.inl (by rw [(FileSystem.readOrEmpty_eq_error_iff.1 htool).2])
    | ok toolConfig =>
      refine Or.inr ⟨toolConfig, rfl, bind_eq_error_iff.2 ?_⟩
      rcases h with h | h | ⟨⟨tsconfig, hts⟩, h⟩
      · cases htool.symm.trans (FileSystem.readOrEmpty_eq_error_iff.2 ⟨h, rfl⟩)
      · exact Or.inl (FileSystem.read_of_hasNul h)
      · refine Or.inr ⟨tsconfig, hts, bind_eq_error_iff.2 (Or.inl ?_)⟩
        have hpart : IsPart "yarn.lock" := by decide
        exact FileSystem.firstLockFile_of_hasNul ((Path.hasNul_div_of_isPart hpart).2 (Or.inl h))

end InputSources

/-! ### The probed package -/

namespace FileSystem

variable {fs : FileSystem}

theorem not_hasNul_of_findInDependencies {name context request file : String}
    (h : fs.findInDependencies name context request = .ok file) : ¬ HasNul file := by
  obtain ⟨isDirectory, directory, -, hisFile, rfl⟩ := exists_of_findInDependencies h
  exact not_hasNul_of_probe hisFile

theorem not_hasNul_of_adjacentManifest? {context manifest : String}
    (h : fs.adjacentManifest? context = some manifest) : ¬ HasNul manifest := by
  rw [adjacentManifest?] at h
  split at h
  · next hleads =>
    obtain rfl := Option.some.inj h
    intro hnul
    rw [leadsSomewhere, stat_of_hasNul hnul] at hleads
    cases hleads
  · cases h

theorem isProtected_error {path : String} {fault : Fault} (h : fs.isProtected path = .error fault) :
    HasNul path := by
  rcases bind_eq_error_iff.1 h with h | ⟨writable, -, h⟩
  · exact canWrite_error h
  · cases h

/-- The directory part of a text is made of characters of the text. -/
theorem hasNul_of_directoryText {s : String} (h : HasNul (directoryText s)) : HasNul s := by
  have hhead : ∀ c ∈ s.toList.reverse.dropWhile (· ≠ '/'), c ∈ s.toList := fun c hc =>
    List.mem_reverse.1 ((List.dropWhile_sublist _).subset hc)
  unfold directoryText at h
  simp only at h
  split at h
  · rw [HasNul, String.toList_ofList] at h
    exact hhead _ h
  · rw [HasNul, String.toList_ofList, List.mem_reverse] at h
    exact hhead _ ((List.dropWhile_sublist _).subset h)

theorem isProtectedPackage_error {manifest : String} {fault : Fault}
    (h : fs.isProtectedPackage manifest = .error fault) : HasNul manifest := by
  rcases bind_eq_error_iff.1 h with h | ⟨isProtected, -, h⟩
  · exact isProtected_error h
  · cases isProtected with
    | true => cases h
    | false => exact hasNul_of_directoryText (isProtected_error h)

end FileSystem

/-- A manifest that was searched for has no U+0000 in its path. -/
theorem Finder.not_hasNul_of_manifest? {name moduleName context manifest : String} {w : World}
    (h : ((Finder.search name).manifest? moduleName context w).1 = some manifest) :
    ¬ HasNul manifest := by
  rcases found_of_manifest? h with hfound | hadjacent
  · exact FileSystem.not_hasNul_of_findInDependencies hfound
  · exact FileSystem.not_hasNul_of_adjacentManifest? hadjacent

/-! ### Recording -/

namespace Decision

variable {d : Decision} {marker : Path} {fs : FileSystem} {fault : Fault}

theorem markerFault_of_isSystem (h : fault.isSystem = true) :
    markerFault marker fault = .build (.markerUnwritten marker.text) := by
  cases fault with
  | system errno path => rfl
  | _ => cases h

/-- What the file system refuses while a marker is written is a marker that was not written. -/
theorem writeMarker_error (hnul : ¬ HasNul marker.text)
    (h : (writeMarker marker fs).1 = .error fault) :
    fault = .build (.markerUnwritten marker.text) ∨
      (fs.ensureDirectory marker.parent).1 = .error .tooDeep := by
  rw [writeMarker] at h
  -- Either the marker is refused, or a directory above it.
  split at h
  · split at h
    · cases h
    · next hwrite =>
      have hsystem := (FileSystem.write_error hwrite).isSystem hnul
      rw [← markerFault_of_isSystem hsystem]
      exact Or.inl (Except.error.inj h).symm
  · next fault' fs' hdirectory =>
    have herror : (fs.ensureDirectory marker.parent).1 = .error fault' :=
      congrArg Prod.fst hdirectory
    rcases FileSystem.ensureDirectory_error (fun hparent => hnul (Path.hasNul_of_parent hparent))
      herror with hsystem | rfl
    · rw [← markerFault_of_isSystem hsystem]
      exact Or.inl (Except.error.inj h).symm
    · exact Or.inr herror

/-- **Recording fails** only for a marker with U+0000 in its path, or with a directory that is too
deep. -/
theorem record_error (h : (d.record fs).1 = .error fault) :
    ∃ marker, d.verdict = .run ∧ d.marker = some marker ∧
      (HasNul marker.text ∨ (fs.ensureDirectory marker.parent).1 = .error .tooDeep) := by
  cases hverdict : d.verdict with
  | skip => rw [record_of_skip hverdict] at h; cases h
  | run =>
    cases hmarker : d.marker with
    | none => rw [record_of_unmarked hmarker] at h; cases h
    | some marker =>
      refine ⟨marker, rfl, rfl, ?_⟩
      by_cases hnul : HasNul marker.text
      · exact Or.inl hnul
      rw [record_eq hverdict hmarker] at h
      rcases hwrite : writeMarker marker fs with ⟨fault' | _, fs'⟩
      · rcases writeMarker_error hnul (congrArg Prod.fst hwrite) with rfl | hdeep
        · -- Such a failure only leaves the conversion without a marker.
          rw [hwrite] at h
          cases h
        · exact Or.inr hdeep
      · rw [hwrite] at h
        cases h

theorem record_of_hasNul (hrun : d.verdict = .run) (hmarker : d.marker = some marker)
    (hnul : HasNul marker.parent.text) : d.record fs = (.error .nulCharacter, fs) := by
  rw [record_eq hrun hmarker, writeMarker, FileSystem.ensureDirectory_of_hasNul hnul]
  rfl

theorem record_of_tooDeep (hrun : d.verdict = .run) (hmarker : d.marker = some marker)
    (hdeep : (fs.ensureDirectory marker.parent).1 = .error .tooDeep) :
    d.record fs = (.error .tooDeep, fs) := by
  rw [record_eq hrun hmarker, writeMarker, FileSystem.ensureDirectory_of_tooDeep hdeep]
  rfl

end Decision

/-! ### Failing open -/

/-- Arguments are refused for the character U+0000, where they are checked. -/
theorem World.refuses_iff {w : World} {arguments : List String} :
    w.refuses arguments = true ↔
      w.checksArguments = true ∧ ∃ argument ∈ arguments, HasNul argument := by
  rw [World.refuses, Bool.and_eq_true, List.any_eq_true]
  simp only [List.contains_iff_mem, HasNul]

namespace Guard

variable {g : Guard} {w : World} {root : Path} {d : Decision} {fault : Fault}

/-- U+0000 in the path of a marker comes from its directory. -/
theorem hasNul_markerDirectory {digest : InputDigest} (h : HasNul (g.markerOf root digest).text) :
    HasNul (g.markerOf root digest).parent.text := by
  rw [markerOf, Path.parent_div_of_isPart digest.isPart_markerFile]
  exact ((Path.hasNul_div_of_isPart digest.isPart_markerFile).1 h).resolve_right
    digest.nul_not_mem_markerFile

end Guard

end ConvertOnce
