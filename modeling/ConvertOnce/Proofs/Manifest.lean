import ConvertOnce.Manifest
import ConvertOnce.Proofs.Except
import ConvertOnce.Proofs.Path.Directory

/-!
# What a search finds

A search of the dependency directories tries one directory after the other
(`FileSystem.findInDependencies_eq`), and what it finds is a file in the dependency directory of one
of the ancestors of its start (`FileSystem.exists_of_findInDependencies`).  A manifest that is
searched for is found in this way, or beside the place where the search began
(`Finder.found_of_manifest?`).  Either way it has the name of a manifest
(`Finder.exists_path_of_manifest?`).
-/

namespace ConvertOnce

theorem isPart_manifestName : IsPart manifestName := by decide

theorem Path.parts_ne_nil_of_manifestName {p : Path} (h : p.name = manifestName) : p.parts ≠ [] :=
  parts_ne_nil_of_name (h.trans_ne (by decide))

namespace FileSystem

variable {fs : FileSystem} {name context request : String} {directory : Path}

/-- The file that a directory's own dependency directory of the given name has for a request. -/
def candidateIn (fs : FileSystem) (name request : String) (directory : Path) :
    Except Fault (Option Path) := do
  if directory.name = name then return none
  return if ← fs.isFileAt (directory / name / request) then some (directory / name / request)
    else none

theorem of_candidateIn {file : Path} (h : fs.candidateIn name request directory = .ok (some file)) :
    fs.isFileAt (directory / name / request) = .ok true ∧ file = directory / name / request := by
  rw [candidateIn] at h
  split at h
  · cases h
  · obtain ⟨isFile, hisFile, h⟩ := bind_eq_ok_iff.1 h
    cases isFile with
    | false => cases h
    | true =>
      cases h
      exact ⟨hisFile, rfl⟩

/-- The directory in which a search begins. -/
def searchStart (context : String) (isDirectory : Bool) : Path :=
  if isDirectory then .ofString context else (Path.ofString context).parent

/-- A search for a file of a package tries one directory after the other. -/
theorem findInDependencies_eq (fs : FileSystem) (name context request : String) :
    fs.findInDependencies name context request =
      if isLocalName request || request.toList.head? = some '/' then
        .error (.notPackageRequest request)
      else (do
        let isDirectory ← fs.isDirectoryAt (.ofString context)
        let found ← ((searchStart context isDirectory).ancestors fs.cwd).findSomeM?
          (fs.candidateIn name request)
        match found with
        | some file => return file.text
        | none => .error (.unresolved request context)) := by
  rw [findInDependencies]
  split <;> rfl

/-- What a search has found is a file in a dependency directory of an ancestor of its start. -/
theorem exists_of_findInDependencies {file : String}
    (h : fs.findInDependencies name context request = .ok file) :
    ∃ isDirectory, ∃ directory ∈ (searchStart context isDirectory).ancestors fs.cwd,
      fs.isFileAt (directory / name / request) = .ok true ∧
        file = (directory / name / request).text := by
  rw [findInDependencies_eq] at h
  split at h
  · cases h
  · obtain ⟨isDirectory, -, h⟩ := bind_eq_ok_iff.1 h
    obtain ⟨found, hfound, h⟩ := bind_eq_ok_iff.1 h
    cases found with
    | none => cases h
    | some candidate =>
      cases h
      obtain ⟨before, directory, after, hancestors, hcandidate, -⟩ :=
        findSomeM?_eq_ok_some_iff.1 hfound
      obtain ⟨hisFile, rfl⟩ := of_candidateIn hcandidate
      exact ⟨isDirectory, directory, by rw [hancestors]; simp, hisFile, rfl⟩

/-- A manifest that a search has found is a file of that name in some directory. -/
theorem exists_path_of_findInDependencies {moduleName file : String}
    (h : fs.findInDependencies name context (packageManifest moduleName) = .ok file) :
    ∃ p : Path, file = p.text ∧ p.name = manifestName ∧ directoryText p.text ≠ "" ∧
      fs.isFileAt p = .ok true := by
  obtain ⟨isDirectory, directory, hmem, hisFile, rfl⟩ := exists_of_findInDependencies h
  have hblank : ¬ (directory / name).IsBlank :=
    Path.not_isBlank_div (Path.not_isBlank_of_parts (Path.parts_ne_nil_of_mem_ancestors hmem)) name
  have hname := (directory / name).name_div_append moduleName isPart_manifestName
  have hparts := Path.parts_ne_nil_of_manifestName hname
  refine ⟨_, rfl, hname, ?_, hisFile⟩
  exact Path.directoryText_text_ne_empty hparts
    (Path.not_isBlank_parent_div_append hblank moduleName isPart_manifestName)

theorem exists_path_of_adjacentManifest? {file : String}
    (h : fs.adjacentManifest? context = some file) :
    ∃ p : Path, file = p.text ∧ p.name = manifestName := by
  rw [adjacentManifest?] at h
  split at h
  · exact ⟨_, (Option.some.inj h).symm, Path.name_canonical_div _ isPart_manifestName (by decide)⟩
  · cases h

/-- A dependency tree that was found belongs to an ancestor of the directory. -/
theorem exists_of_dependencyRoot? {base root : Path}
    (h : fs.dependencyRoot? base name = .ok (some root)) :
    ∃ directory ∈ base.ancestors fs.cwd, root = directory / name := by
  obtain ⟨before, directory, after, hancestors, hfound, -⟩ := findSomeM?_eq_ok_some_iff.1 h
  refine ⟨directory, by rw [hancestors]; simp, ?_⟩
  obtain ⟨isPresent, -, hfound⟩ := bind_eq_ok_iff.1 hfound
  cases isPresent with
  | false => cases hfound
  | true =>
    cases hfound
    rfl

end FileSystem

namespace Finder

/-- What the search of the files finds, and the manifest beside the place where it fails. -/
theorem manifest?_search (name moduleName context : String) (w : World) :
    (search name).manifest? moduleName context w =
      (match w.files.findInDependencies name context (packageManifest moduleName) with
        | .ok file => (some file).filter (· ≠ "")
        | .error _ => w.files.adjacentManifest? context, w) := by
  rw [manifest?, find, Action.query]
  cases w.files.findInDependencies name context (packageManifest moduleName) <;> rfl

/-- A manifest that is searched for is found in a dependency directory or beside the place. -/
theorem found_of_manifest? {name moduleName context manifest : String} {w : World}
    (h : ((search name).manifest? moduleName context w).1 = some manifest) :
    w.files.findInDependencies name context (packageManifest moduleName) = .ok manifest ∨
      w.files.adjacentManifest? context = some manifest := by
  rw [manifest?_search] at h
  cases hfind : w.files.findInDependencies name context (packageManifest moduleName) with
  | error fault =>
    rw [hfind] at h
    dsimp only at h
    exact Or.inr h
  | ok file =>
    rw [hfind] at h
    dsimp only at h
    obtain ⟨hfile, -⟩ := Option.filter_eq_some_iff.1 h
    rw [Option.some.inj hfile]
    exact Or.inl rfl

/-- What is found for a manifest has the name of one. -/
theorem exists_path_of_manifest? {name moduleName context manifest : String} {w : World}
    (h : ((search name).manifest? moduleName context w).1 = some manifest) :
    ∃ p : Path, manifest = p.text ∧ p.name = manifestName := by
  rcases found_of_manifest? h with hfound | hadjacent
  · obtain ⟨p, hp, hname, -⟩ := FileSystem.exists_path_of_findInDependencies hfound
    exact ⟨p, hp, hname⟩
  · exact FileSystem.exists_path_of_adjacentManifest? hadjacent

end Finder

end ConvertOnce
