import ConvertOnce.Proofs.BuildInputs.Read
import ConvertOnce.Proofs.Path.Absolute

/-!
# What the digest of the inputs is

The reading of the inputs comes across files that are missing, directories, permissions that are
missing and links that lead nowhere.  What that means depends on the file: the next lock file is
tried, the converter's settings count as empty, and without the compiler's settings there is no
digest.  `InputSources.digest_definition` says so for all files.

The digest therefore depends on the first lock file that can be read and not on the others, and on
what can be read of the converter's settings and not on why nothing can.  The current directory has
a say in it only through the place of the compiler's settings as seen from the project, and none if
both paths are absolute (`InputSources.AlikeBesidesToolConfig.of_isAbsolute`).
-/

namespace ConvertOnce

namespace FileSystem

variable {fs fs' : FileSystem} {p projectRoot : Path} {names : List String} {lock lock' : LockFile}

/-- What can be read of a file, which may be nothing. -/
def contents (fs : FileSystem) (p : Path) : Bytes :=
  match fs.read p.text with
  | .ok bytes => bytes
  | .error _ => []

/-- There is nothing to be read. -/
inductive IsUnwritten (fs : FileSystem) (p : Path) : Prop
  /-- The path leads nowhere, or may not be followed. -/
  | missing {fault : Fault} (stat_eq : fs.stat p.text = .error fault) : IsUnwritten fs p
  /-- It leads to a directory. -/
  | directory {permissions : Permissions}
      (stat_eq : fs.stat p.text = .ok (.directory permissions)) :
      IsUnwritten fs p
  /-- It leads to a file that may not be read. -/
  | unreadable {permissions : Permissions} {bytes : Bytes}
      (stat_eq : fs.stat p.text = .ok (.file permissions bytes))
      (canRead : permissions.canRead = false) : IsUnwritten fs p
  /-- It leads to an empty file. -/
  | empty {permissions : Permissions} (stat_eq : fs.stat p.text = .ok (.file permissions [])) :
      IsUnwritten fs p

theorem IsUnwritten.contents_eq (h : fs.IsUnwritten p) : fs.contents p = [] := by
  unfold contents read
  cases h with
  | missing hstat => rw [hstat]; rfl
  | directory hstat => rw [hstat]; rfl
  | unreadable hstat hcan =>
    rw [hstat, ok_bind]
    simp [hcan]
  | empty hstat =>
    rw [hstat, ok_bind]
    dsimp only
    split
    · next h => split at h <;> cases h; rfl
    · rfl

/-- The lock file is the first of the named ones that can be read. -/
structure IsFirstLock (fs : FileSystem) (projectRoot : Path) (names : List String)
    (lock : LockFile) : Prop where
  /-- It can be read. -/
  read_eq : fs.read lock.path.text = .ok lock.bytes
  /-- Those before it cannot. -/
  first : ∃ before name after, names = before ++ name :: after ∧ lock.path = projectRoot / name ∧
    ∀ other ∈ before, ∀ bytes, fs.read (projectRoot / other).text ≠ .ok bytes

/-! ### Reading what may be missing -/

theorem read?_eq_ok_none_iff (hnul : ¬ HasNul p.text) :
    fs.read? p = .ok none ↔ ∀ bytes, fs.read p.text ≠ .ok bytes := by
  rw [read?]
  cases hread : fs.read p.text with
  | ok bytes => simp
  | error fault =>
    cases read_error hread with
    | nul h => exact absurd h hnul
    | system => simp

theorem readOrEmpty_eq_contents (hnul : ¬ HasNul p.text) :
    fs.readOrEmpty p = .ok (fs.contents p) := by
  rw [readOrEmpty, read?, contents]
  cases hread : fs.read p.text with
  | ok bytes => rfl
  | error fault =>
    cases read_error hread with
    | nul h => exact absurd h hnul
    | system => rfl

/-! ### The first lock file -/

/-- An attempt to read a lock file succeeds if it can be read. -/
theorem attempt_eq_ok_some_iff :
    (do return (← fs.read? p).map (LockFile.mk p)) = (.ok (some lock) : Except Fault _) ↔
      lock.path = p ∧ fs.read p.text = .ok lock.bytes := by
  rw [bind_eq_ok_iff]
  constructor
  · rintro ⟨found, hread, h⟩
    obtain ⟨bytes, rfl, rfl⟩ := Option.map_eq_some_iff.1 (Except.ok.inj h)
    exact ⟨rfl, read?_eq_ok_some_iff.1 hread⟩
  · rintro ⟨rfl, hread⟩
    exact ⟨some lock.bytes, read?_eq_ok_some_iff.2 hread, rfl⟩

/-- It is passed over if it cannot. -/
theorem attempt_eq_ok_none_iff (hnul : ¬ HasNul p.text) :
    (do return (← fs.read? p).map (LockFile.mk p)) = (.ok none : Except Fault _) ↔
      ∀ bytes, fs.read p.text ≠ .ok bytes := by
  rw [← read?_eq_ok_none_iff hnul, bind_eq_ok_iff]
  constructor
  · rintro ⟨found, hread, h⟩
    obtain rfl := Option.map_eq_none_iff.1 (Except.ok.inj h)
    exact hread
  · intro hread
    exact ⟨none, hread, rfl⟩

/-- **The lock file that is selected is the first that can be read.** -/
theorem firstLockFile_eq_ok_iff (hnul : ∀ name ∈ names, ¬ HasNul (projectRoot / name).text) :
    fs.firstLockFile projectRoot names = .ok lock ↔ fs.IsFirstLock projectRoot names lock := by
  -- The search stops at the first name whose file is read, and a file that is missing is passed
  -- over.
  rw [firstLockFile, bind_eq_ok_iff]
  constructor
  · rintro ⟨found, hfound, h⟩
    cases found with
    | none => cases h
    | some found =>
      obtain rfl : found = lock := Except.ok.inj h
      obtain ⟨before, name, after, rfl, hname, hbefore⟩ := findSomeM?_eq_ok_some_iff.1 hfound
      obtain ⟨hpath, hread⟩ := attempt_eq_ok_some_iff.1 hname
      refine ⟨by rwa [hpath], before, name, after, rfl, hpath, fun other hother => ?_⟩
      have hother' := hnul other (List.mem_append_left _ hother)
      exact (attempt_eq_ok_none_iff hother').1 (hbefore other hother)
  · rintro ⟨hread, before, name, after, rfl, hpath, hbefore⟩
    refine ⟨some lock, findSomeM?_eq_ok_some_iff.2 ⟨before, name, after, rfl, ?_, ?_⟩, rfl⟩
    · exact attempt_eq_ok_some_iff.2 ⟨hpath, by rwa [← hpath]⟩
    · intro other hother
      have hother' := hnul other (List.mem_append_left _ hother)
      exact (attempt_eq_ok_none_iff hother').2 (hbefore other hother)

/-- None is selected where none can be read. -/
theorem firstLockFile_eq_noLockFile_iff
    (hnul : ∀ name ∈ names, ¬ HasNul (projectRoot / name).text) :
    fs.firstLockFile projectRoot names = .error (.build (.noLockFile projectRoot.text)) ↔
      ∀ name ∈ names, ∀ bytes, fs.read (projectRoot / name).text ≠ .ok bytes := by
  have hnone : (∀ name ∈ names, ∀ bytes, fs.read (projectRoot / name).text ≠ .ok bytes) ↔
      (names.findSomeM? fun name => do
        let path := projectRoot / name
        return (← fs.read? path).map (LockFile.mk path)) = .ok none := by
    rw [findSomeM?_eq_ok_none_iff]
    exact forall₂_congr fun name hname => (attempt_eq_ok_none_iff (hnul name hname)).symm
  rw [hnone, firstLockFile]
  constructor
  · intro h
    rcases bind_eq_error_iff.1 h with herror | ⟨found, hfound, h⟩
    · -- An attempt fails for U+0000 only.
      obtain ⟨name, hname, hattempt⟩ := exists_of_findSomeM?_eq_error herror
      rcases bind_eq_error_iff.1 hattempt with hread | ⟨bytes, -, h⟩
      · exact absurd (read?_error hread).1 (hnul name hname)
      · cases h
    · cases found with
      | none => exact hfound
      | some lock => cases h
  · intro h
    rw [h]
    rfl

/-- One is selected where one can be read. -/
theorem exists_firstLockFile (hnul : ∀ name ∈ names, ¬ HasNul (projectRoot / name).text)
    (h : ∃ name ∈ names, ∃ bytes, fs.read (projectRoot / name).text = .ok bytes) :
    ∃ lock, fs.firstLockFile projectRoot names = .ok lock := by
  obtain ⟨name, hname, bytes, hread⟩ := h
  cases hlock : fs.firstLockFile projectRoot names with
  | ok lock => exact ⟨lock, rfl⟩
  | error fault =>
    rcases firstLockFile_error hlock with rfl | ⟨-, other, hother, hotherNul⟩
    · exact absurd hread ((firstLockFile_eq_noLockFile_iff hnul).1 hlock name hname bytes)
    · exact absurd hotherNul (hnul other hother)

end FileSystem

namespace InputSources

variable {sources : InputSources} {fs fs' : FileSystem} {tsconfig : Bytes} {lock : LockFile}
  {fault : Fault}

/-- The paths and names of the sources have no U+0000 in them. -/
structure IsNulFree (sources : InputSources) : Prop where
  projectRoot : ¬ HasNul sources.projectRoot.text
  tsconfig : ¬ HasNul sources.tsconfig.text
  toolConfigName : ¬ HasNul sources.toolConfigName

/-- The inputs that are read when the compiler's settings and a lock file can be. -/
def inputsFrom (sources : InputSources) (fs : FileSystem) (lock : LockFile) (tsconfig : Bytes) :
    BuildInputs where
  lock := lock
  toolConfig := fs.contents (sources.projectRoot / sources.toolConfigName)
  tsconfig := tsconfig
  tsconfigPath := sources.tsconfig.relativeTo fs.cwd sources.projectRoot

namespace IsNulFree

theorem toolConfig (h : sources.IsNulFree) :
    ¬ HasNul (sources.projectRoot / sources.toolConfigName).text := by
  intro hnul
  rcases Path.hasNul_of_div hnul with hnul | hnul
  · exact h.projectRoot hnul
  · exact h.toolConfigName hnul

theorem lockFile (h : sources.IsNulFree) :
    ∀ name ∈ lockFileNames, ¬ HasNul (sources.projectRoot / name).text := by
  intro name hname hnul
  rcases Path.hasNul_of_div hnul with hnul | hnul
  · exact h.projectRoot hnul
  · exact (not_hasNul_of_mem_lockFileNames hname).2 hnul

/-- The reading fails with the compiler's settings, or else with the lock file. -/
theorem read_eq (h : sources.IsNulFree) (fs : FileSystem) :
    sources.read fs = do
      let tsconfig ← fs.read sources.tsconfig.text
      let lock ← fs.firstLockFile sources.projectRoot lockFileNames
      return sources.inputsFrom fs lock tsconfig := by
  rw [read, FileSystem.readOrEmpty_eq_contents h.toolConfig]
  rfl

/-- There is a digest where the compiler's settings and a lock file can be read. -/
theorem digest_eq (h : sources.IsNulFree)
    (hts : fs.read sources.tsconfig.text = .ok tsconfig)
    (hlock : fs.IsFirstLock sources.projectRoot lockFileNames lock) :
    sources.digest fs = .ok (sources.inputsFrom fs lock tsconfig).digest := by
  have hselected := (FileSystem.firstLockFile_eq_ok_iff h.lockFile).2 hlock
  rw [digest, h.read_eq, hts, ok_bind, hselected]
  rfl

/-- Where there is none, the one or the other cannot be read. -/
theorem digest_eq_error_iff (h : sources.IsNulFree) :
    sources.digest fs = .error fault ↔
      fs.read sources.tsconfig.text = .error fault ∨
      (∃ tsconfig, fs.read sources.tsconfig.text = .ok tsconfig) ∧
        fs.firstLockFile sources.projectRoot lockFileNames = .error fault := by
  rw [digest, map_eq_error_iff, h.read_eq, bind_eq_error_iff]
  -- The settings of the converter are never in the way: what cannot be read of them counts as
  -- empty.
  refine or_congr_right ?_
  rw [← exists_and_right]
  refine exists_congr fun tsconfig => and_congr_right fun _ => ?_
  rw [bind_eq_error_iff]
  constructor
  · rintro (hlock | ⟨lock, -, hdone⟩)
    · exact hlock
    · cases hdone
  · exact Or.inl

/-- The failure is that of the compiler's settings if the file system refused them. -/
theorem digest_eq_error_of_read_iff (h : sources.IsNulFree) :
    fs.read sources.tsconfig.text = .error fault ↔
      sources.digest fs = .error fault ∧ fault.isSystem = true := by
  constructor
  · intro hread
    exact ⟨h.digest_eq_error_iff.2 (Or.inl hread),
      (FileSystem.read_error hread).isSystem h.tsconfig⟩
  · rintro ⟨hdigest, hsystem⟩
    rcases h.digest_eq_error_iff.1 hdigest with hread | ⟨-, hlock⟩
    · exact hread
    · rcases FileSystem.firstLockFile_error hlock with rfl | ⟨rfl, -⟩
      · cases hsystem
      · cases hsystem

theorem digest_eq_noLockFile_iff (h : sources.IsNulFree) :
    sources.digest fs = .error (.build (.noLockFile sources.projectRoot.text)) ↔
      (∃ tsconfig, fs.read sources.tsconfig.text = .ok tsconfig) ∧
        ∀ name ∈ lockFileNames, ∀ bytes,
          fs.read (sources.projectRoot / name).text ≠ .ok bytes := by
  rw [h.digest_eq_error_iff, FileSystem.firstLockFile_eq_noLockFile_iff h.lockFile]
  constructor
  · rintro (hread | hnone)
    · -- The file system gives no such failure.
      cases (FileSystem.read_error hread).isSystem h.tsconfig
    · exact hnone
  · exact Or.inr

end IsNulFree

/-! ### The digest -/

/-- The two file systems have the same first lock file and the same settings of the compiler, which
are in the same place as seen from the project. -/
structure AlikeBesidesToolConfig (sources : InputSources) (fs fs' : FileSystem) : Prop where
  lock : ∃ lock, fs.IsFirstLock sources.projectRoot lockFileNames lock ∧
    fs'.IsFirstLock sources.projectRoot lockFileNames lock
  tsconfig : fs'.read sources.tsconfig.text = fs.read sources.tsconfig.text
  tsconfigPath : sources.tsconfig.relativeTo fs'.cwd sources.projectRoot =
    sources.tsconfig.relativeTo fs.cwd sources.projectRoot

/-- The place is the same from any current directory when the paths are absolute. -/
theorem AlikeBesidesToolConfig.of_isAbsolute (hroot : sources.projectRoot.isAbsolute = true)
    (htsconfig : sources.tsconfig.isAbsolute = true)
    (hlock : fs.IsFirstLock sources.projectRoot lockFileNames lock)
    (hlock' : fs'.IsFirstLock sources.projectRoot lockFileNames lock)
    (hread : fs'.read sources.tsconfig.text = fs.read sources.tsconfig.text) :
    sources.AlikeBesidesToolConfig fs fs' where
  lock := ⟨lock, hlock, hlock'⟩
  tsconfig := hread
  tsconfigPath := Path.relativeTo_of_isAbsolute _ _ htsconfig hroot

theorem IsNulFree.digest_congr (h : sources.IsNulFree)
    (halike : sources.AlikeBesidesToolConfig fs fs')
    (htool : fs'.contents (sources.projectRoot / sources.toolConfigName) =
      fs.contents (sources.projectRoot / sources.toolConfigName)) :
    sources.digest fs' = sources.digest fs := by
  obtain ⟨lock, hlock, hlock'⟩ := halike.lock
  cases hts : fs.read sources.tsconfig.text with
  | error fault =>
    have hts' := halike.tsconfig.trans hts
    rw [h.digest_eq_error_iff.2 (Or.inl hts), h.digest_eq_error_iff.2 (Or.inl hts')]
  | ok tsconfig =>
    have hinputs : sources.inputsFrom fs' lock tsconfig = sources.inputsFrom fs lock tsconfig := by
      rw [inputsFrom, inputsFrom, htool, halike.tsconfigPath]
    rw [h.digest_eq hts hlock, h.digest_eq (halike.tsconfig.trans hts) hlock', hinputs]

/-- What the digest is, for all files. -/
structure DigestDefinition (sources : InputSources) : Prop where
  /-- Without the compiler's settings it fails as their reading did, with or without a lock file. -/
  unreadable : ∀ fs fault, fs.read sources.tsconfig.text = .error fault ↔
    sources.digest fs = .error fault ∧ fault.isSystem = true
  /-- With them, it fails for want of a lock file if none can be read. -/
  unlocked : ∀ fs : FileSystem,
    sources.digest fs = .error (.build (.noLockFile sources.projectRoot.text)) ↔
      (∃ tsconfig, fs.read sources.tsconfig.text = .ok tsconfig) ∧
        ∀ name ∈ lockFileNames, ∀ bytes,
          fs.read (sources.projectRoot / name).text ≠ .ok bytes
  /-- Otherwise it is the digest of five things in a row, of the first lock file that can be
  read. -/
  digested : ∀ (fs : FileSystem) tsconfig, fs.read sources.tsconfig.text = .ok tsconfig →
    (∃ name ∈ lockFileNames, ∃ bytes,
      fs.read (sources.projectRoot / name).text = .ok bytes) →
    ∃ lock, fs.IsFirstLock sources.projectRoot lockFileNames lock ∧
      sources.digest fs = .ok ⟨Sha256.digest (
        lock.bytes ++ Utf8.encode lock.path.text ++
        fs.contents (sources.projectRoot / sources.toolConfigName) ++ tsconfig ++
        Utf8.encode (sources.tsconfig.relativeTo fs.cwd sources.projectRoot).text)⟩
  /-- It depends on no other lock file, and on the converter's settings as far as they are read. -/
  congr : ∀ fs fs', sources.AlikeBesidesToolConfig fs fs' →
    fs'.contents (sources.projectRoot / sources.toolConfigName) =
      fs.contents (sources.projectRoot / sources.toolConfigName) →
    sources.digest fs' = sources.digest fs
  /-- It does not depend on the reason for which there are none of the latter to be read. -/
  unwritten : ∀ fs fs', sources.AlikeBesidesToolConfig fs fs' →
    fs.IsUnwritten (sources.projectRoot / sources.toolConfigName) →
    fs'.IsUnwritten (sources.projectRoot / sources.toolConfigName) →
    sources.digest fs' = sources.digest fs

/-- **The digest of the inputs**: when there is one, what it is the digest of, what the failure is
when there is none, and what it does not depend on. -/
theorem digest_definition (h : sources.IsNulFree) : sources.DigestDefinition where
  unreadable _ _ := h.digest_eq_error_of_read_iff
  unlocked _ := h.digest_eq_noLockFile_iff
  digested fs tsconfig hts hsome := by
    obtain ⟨lock, hselected⟩ := FileSystem.exists_firstLockFile h.lockFile hsome
    have hlock := (FileSystem.firstLockFile_eq_ok_iff h.lockFile).1 hselected
    exact ⟨lock, hlock, h.digest_eq hts hlock⟩
  congr _ _ := h.digest_congr
  unwritten _ _ halike hfs hfs' :=
    h.digest_congr halike (hfs'.contents_eq.trans hfs.contents_eq.symm)

/-- The files of a project whose first lock file is none, and whose settings may not be read. -/
def mixedFiles : FileSystem where
  tree := .putAll .empty [⟨"/p/yarn.lock", .directory .newDirectory⟩,
    ⟨"/p/package-lock.json", .file .newFile [1]⟩, ⟨"/p/tsconfig.json", .file .newFile [2]⟩,
    ⟨"/p/ngcc.config.js", .file ⟨['w']⟩ [3]⟩]
  cwd := "/"
  executable := "/usr/bin/python3"

/-- The inputs of the project. -/
def mixedSources : InputSources where
  projectRoot := .ofString "/p"
  tsconfig := .ofString "/p/tsconfig.json"

/-- The last of the lock files counts, and the converter's settings as nothing. -/
theorem digest_definition_mixedSources :
    mixedSources.IsNulFree ∧ mixedSources.DigestDefinition ∧
      mixedSources.read mixedFiles = .ok {
        lock := ⟨.ofString "/p/package-lock.json", [1]⟩
        toolConfig := []
        tsconfig := [2]
        tsconfigPath := .ofString "tsconfig.json" } := by
  have hnul : mixedSources.IsNulFree := by
    constructor
    all_goals unfold HasNul; decide
  exact ⟨hnul, digest_definition hnul, by decide +kernel⟩

end InputSources

end ConvertOnce
