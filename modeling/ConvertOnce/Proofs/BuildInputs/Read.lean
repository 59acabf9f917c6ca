import ConvertOnce.BuildInputs.Basic
import ConvertOnce.Proofs.FileSystem.Refusals

/-!
# Reading the inputs of a conversion

What a reading of all inputs amounts to, one component at a time (`InputSources.read_eq_ok_iff`),
what is known of the lock file that it selects (`FileSystem.firstLockFile_eq_ok`), and how the
selection can fail (`FileSystem.firstLockFile_error`).
-/

namespace ConvertOnce

namespace FileSystem

variable {fs : FileSystem} {p : Path} {fault : Fault}

/-- A file has contents exactly when it can be read. -/
theorem read?_eq_ok_some_iff {bytes : Bytes} :
    fs.read? p = .ok (some bytes) ↔ fs.read p.text = .ok bytes := by
  rw [read?]
  cases h : fs.read p.text with
  | ok found => simp
  | error fault => cases fault <;> simp

/-- The selected lock file has one of the names, stands in the directory, and can be read. -/
theorem firstLockFile_eq_ok {projectRoot : Path} {names : List String} {lock : LockFile}
    (h : fs.firstLockFile projectRoot names = .ok lock) :
    ∃ name ∈ names, lock.path = projectRoot / name ∧ fs.read lock.path.text = .ok lock.bytes := by
  rw [firstLockFile, bind_eq_ok_iff] at h
  obtain ⟨found, hfound, h⟩ := h
  cases found with
  | none => cases h
  | some found =>
    obtain rfl : found = lock := Except.ok.inj h
    obtain ⟨before, name, after, rfl, hname, -⟩ := findSomeM?_eq_ok_some_iff.1 hfound
    obtain ⟨bytes, hread, hname⟩ := bind_eq_ok_iff.1 hname
    obtain ⟨bytes, rfl, rfl⟩ := Option.map_eq_some_iff.1 (Except.ok.inj hname)
    exact ⟨name, by simp, rfl, read?_eq_ok_some_iff.1 hread⟩

/-! ### How a reading fails -/

theorem read?_of_hasNul (h : HasNul p.text) : fs.read? p = .error .nulCharacter := by
  rw [read?, read_of_hasNul h]

theorem read?_error (h : fs.read? p = .error fault) : HasNul p.text ∧ fault = .nulCharacter := by
  rw [read?] at h
  cases hread : fs.read p.text with
  | ok bytes => rw [hread] at h; cases h
  | error fault' =>
    rw [hread] at h
    cases read_error hread with
    | nul hnul => cases h; exact ⟨hnul, rfl⟩
    | system hnul errno => cases h

theorem readOrEmpty_eq_error_iff :
    fs.readOrEmpty p = .error fault ↔ HasNul p.text ∧ fault = .nulCharacter := by
  constructor
  · intro h
    rcases bind_eq_error_iff.1 h with h | ⟨bytes, -, h⟩
    · exact read?_error h
    · cases h
  · rintro ⟨hnul, rfl⟩
    rw [readOrEmpty, read?_of_hasNul hnul]
    rfl

/-- The selection of a lock file fails where there is none, or by U+0000 in a path. -/
theorem firstLockFile_error {projectRoot : Path} {names : List String}
    (h : fs.firstLockFile projectRoot names = .error fault) :
    fault = .build (.noLockFile projectRoot.text) ∨
      fault = .nulCharacter ∧ ∃ name ∈ names, HasNul (projectRoot / name).text := by
  rw [firstLockFile] at h
  rcases bind_eq_error_iff.1 h with h | ⟨found, -, h⟩
  · obtain ⟨name, hname, h⟩ := exists_of_findSomeM?_eq_error h
    rcases bind_eq_error_iff.1 h with h | ⟨bytes, -, h⟩
    · obtain ⟨hnul, rfl⟩ := read?_error h
      exact Or.inr ⟨rfl, name, hname, hnul⟩
    · cases h
  · cases found with
    | some lock => cases h
    | none => cases h; exact Or.inl rfl

theorem firstLockFile_of_hasNul {projectRoot : Path} {name : String} {names : List String}
    (h : HasNul (projectRoot / name).text) :
    fs.firstLockFile projectRoot (name :: names) = .error .nulCharacter := by
  simp only [firstLockFile, List.findSomeM?_cons, read?_of_hasNul h]
  rfl

end FileSystem

theorem not_hasNul_of_mem_lockFileNames {name : String} (h : name ∈ lockFileNames) :
    IsPart name ∧ ¬ HasNul name := by
  have hall : ∀ name ∈ lockFileNames, IsPart name ∧ '\x00' ∉ name.toList := by decide
  exact hall name h

namespace InputSources

/-- **A reading of the inputs, component by component.** -/
theorem read_eq_ok_iff {sources : InputSources} {fs : FileSystem} {inputs : BuildInputs} :
    sources.read fs = .ok inputs ↔
      fs.readOrEmpty (sources.projectRoot / sources.toolConfigName) = .ok inputs.toolConfig ∧
      fs.read sources.tsconfig.text = .ok inputs.tsconfig ∧
      fs.firstLockFile sources.projectRoot lockFileNames = .ok inputs.lock ∧
      inputs.tsconfigPath = sources.tsconfig.relativeTo fs.cwd sources.projectRoot := by
  obtain ⟨lock, toolConfig, tsconfig, tsconfigPath⟩ := inputs
  simp only [read, bind_eq_ok_iff, pure_eq_ok, Except.ok.injEq, BuildInputs.mk.injEq]
  constructor
  · rintro ⟨toolConfig, htool, tsconfig, hts, lock, hlock, rfl, rfl, rfl, rfl⟩
    exact ⟨htool, hts, hlock, rfl⟩
  · rintro ⟨htool, hts, hlock, rfl⟩
    exact ⟨toolConfig, htool, tsconfig, hts, lock, hlock, rfl, rfl, rfl, rfl⟩

/-- There is a digest exactly when all inputs can be read. -/
theorem digest_eq_ok_iff {sources : InputSources} {fs : FileSystem} {digest : InputDigest} :
    sources.digest fs = .ok digest ↔
      ∃ inputs, sources.read fs = .ok inputs ∧ inputs.digest = digest :=
  map_eq_ok_iff

end InputSources

end ConvertOnce
