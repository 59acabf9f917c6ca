import ConvertOnce.Proofs.FileSystem.Making
import ConvertOnce.Proofs.Manifest
import ConvertOnce.Proofs.Path.Absolute

/-!
# One tree seen from several directories

`FileSystem.seenFrom` changes the current directory and nothing else.  A call that is given an
absolute path answers the same from every directory, and a call that changes a file changes the same
file.  This is carried from the resolution of a path (`FileSystem.resolve_seenFrom`) through every
call, question and search, up to the making of directories (`FileSystem.ensureDirectory_seenFrom`)
and the search for manifests (`FileSystem.findInDependencies_seenFrom`).
-/

namespace ConvertOnce

namespace FileSystem

variable {fs : FileSystem} {path : String} {p : Path} {follow : Bool} {cwd : String}

/-- The same tree seen from another current directory. -/
def seenFrom (fs : FileSystem) (cwd : String) : FileSystem := { fs with cwd }

@[simp] theorem tree_seenFrom (fs : FileSystem) (cwd : String) :
    (fs.seenFrom cwd).tree = fs.tree := rfl

/-! ### Single calls -/

theorem start_of_isAbsoluteText (h : IsAbsoluteText path) : fs.start path = [] := if_pos h

/-- An absolute path is resolved the same from everywhere. -/
theorem resolve_seenFrom (h : IsAbsoluteText path) :
    (fs.seenFrom cwd).resolve follow path = fs.resolve follow path := by
  rw [resolve, resolve, start_of_isAbsoluteText h, start_of_isAbsoluteText h, tree_seenFrom]

theorem locate_seenFrom (h : IsAbsoluteText path) :
    (fs.seenFrom cwd).locate follow path = fs.locate follow path := by
  rw [locate, locate, resolve_seenFrom h]

theorem stat_seenFrom (h : IsAbsoluteText path) : (fs.seenFrom cwd).stat path = fs.stat path := by
  rw [stat, stat, locate_seenFrom h]

theorem lstat_seenFrom (h : IsAbsoluteText path) :
    (fs.seenFrom cwd).lstat path = fs.lstat path := by
  rw [lstat, lstat, locate_seenFrom h]

theorem leadsSomewhere_seenFrom (h : IsAbsoluteText path) :
    (fs.seenFrom cwd).leadsSomewhere path = fs.leadsSomewhere path := by
  rw [leadsSomewhere, leadsSomewhere, stat_seenFrom h]

theorem canWrite_seenFrom (h : IsAbsoluteText path) :
    (fs.seenFrom cwd).canWrite path = fs.canWrite path := by
  rw [canWrite, canWrite, stat_seenFrom h]

theorem read_seenFrom (h : IsAbsoluteText path) : (fs.seenFrom cwd).read path = fs.read path := by
  rw [read, read, stat_seenFrom h]

/-- Writing to an absolute path changes the same file from everywhere. -/
theorem write_seenFrom (h : IsAbsoluteText path) (bytes : Bytes) :
    (fs.seenFrom cwd).write path bytes = (·.seenFrom cwd) <$> fs.write path bytes := by
  rw [write, write, locate_seenFrom h]
  cases fs.locate true path with
  | error fault => rfl
  | ok spot =>
    have hadd : ∀ directory, (fs.seenFrom cwd).canAddTo directory = fs.canAddTo directory :=
      fun _ => rfl
    dsimp only [bind, Except.bind]
    split
    · rw [hadd]
      split <;> rfl
    · split <;> rfl
    · rfl

/-- An absolute path names the same new directory from everywhere. -/
theorem makeDirectory_seenFrom (h : IsAbsoluteText path) :
    (fs.seenFrom cwd).makeDirectory path = (·.seenFrom cwd) <$> fs.makeDirectory path := by
  rw [makeDirectory, makeDirectory, locate_seenFrom h]
  cases fs.locate false path with
  | error fault => rfl
  | ok spot =>
    have hadd : ∀ directory, (fs.seenFrom cwd).canAddTo directory = fs.canAddTo directory :=
      fun _ => rfl
    dsimp only [bind, Except.bind]
    split
    · rw [hadd]
      split <;> rfl
    · rfl

/-! ### Questions about paths -/

theorem probe_seenFrom (h : p.isAbsolute = true) (test : Node → Bool) :
    (fs.seenFrom cwd).probe test p = fs.probe test p := by
  rw [probe, probe, stat_seenFrom (Path.isAbsoluteText_text h)]

theorem isPresent_seenFrom (h : p.isAbsolute = true) :
    (fs.seenFrom cwd).isPresent p = fs.isPresent p :=
  probe_seenFrom h _

theorem isFileAt_seenFrom (h : p.isAbsolute = true) :
    (fs.seenFrom cwd).isFileAt p = fs.isFileAt p :=
  probe_seenFrom h _

theorem isDirectoryAt_seenFrom (h : p.isAbsolute = true) :
    (fs.seenFrom cwd).isDirectoryAt p = fs.isDirectoryAt p :=
  probe_seenFrom h _

theorem isProtected_seenFrom (h : IsAbsoluteText path) :
    (fs.seenFrom cwd).isProtected path = fs.isProtected path := by
  rw [isProtected, isProtected, canWrite_seenFrom h]

theorem isProtectedPackage_seenFrom (h : IsAbsoluteText path) :
    (fs.seenFrom cwd).isProtectedPackage path = fs.isProtectedPackage path := by
  rw [isProtectedPackage, isProtectedPackage, isProtected_seenFrom h,
    isProtected_seenFrom (isAbsoluteText_directoryText h)]

/-! ### Making directories -/

theorem acceptDirectory_seenFrom (h : p.isAbsolute = true) (fault : Fault) :
    (fs.seenFrom cwd).acceptDirectory p fault
      = Prod.map id (·.seenFrom cwd) (fs.acceptDirectory p fault) := by
  cases fault with
  | system errno path =>
    rw [acceptDirectory, acceptDirectory, isDirectoryAt_seenFrom h]
    rcases fs.isDirectoryAt p with worse | isDirectory
    · rfl
    · cases isDirectory <;> rfl
  | _ => rfl

theorem ensureLast_seenFrom (h : p.isAbsolute = true) :
    (fs.seenFrom cwd).ensureLast p = Prod.map id (·.seenFrom cwd) (fs.ensureLast p) := by
  rw [ensureLast, ensureLast, makeDirectory_seenFrom (Path.isAbsoluteText_text h)]
  rcases fs.makeDirectory p.text with fault | fs'
  · cases fault with
    | system errno path =>
      cases errno with
      | noEntry => rfl
      | _ => exact acceptDirectory_seenFrom h _
    | _ => exact acceptDirectory_seenFrom h _
  · rfl

theorem Lacks.seenFrom (h : fs.Lacks p) (habsolute : p.isAbsolute = true) :
    (fs.seenFrom cwd).Lacks p where
  parts_ne_nil := h.parts_ne_nil
  makeDirectory_eq := by
    rw [makeDirectory_seenFrom (Path.isAbsoluteText_text habsolute), h.makeDirectory_eq]
    rfl

/-- The same directories are asked for, and made, from everywhere. -/
theorem Making.seenFrom {levels : Nat} {answer : Except Fault Unit × FileSystem}
    (h : Making levels fs p answer) (habsolute : p.isAbsolute = true) :
    Making levels (fs.seenFrom cwd) p (Prod.map id (·.seenFrom cwd) answer) := by
  -- By induction on the making: the parents of an absolute path are absolute.
  induction h with
  | made hmake =>
    refine .made ?_
    rw [makeDirectory_seenFrom (Path.isAbsoluteText_text habsolute), hmake]
    rfl
  | bare hparts hmake =>
    refine .bare hparts ?_
    rw [makeDirectory_seenFrom (Path.isAbsoluteText_text habsolute), hmake]
    rfl
  | tooDeep hlacks => exact .tooDeep (hlacks.seenFrom habsolute)
  | above hlacks _ ih =>
    rw [← ensureLast_seenFrom habsolute]
    exact .above (hlacks.seenFrom habsolute) (ih (Path.isAbsolute_parent habsolute))
  | stuck hlacks _ ih =>
    exact .stuck (hlacks.seenFrom habsolute) (ih (Path.isAbsolute_parent habsolute))
  | refused hmake hne =>
    rw [← acceptDirectory_seenFrom habsolute]
    refine .refused ?_ hne
    rw [makeDirectory_seenFrom (Path.isAbsoluteText_text habsolute), hmake]
    rfl

/-- **An absolute path names the same directories to be made from everywhere.** -/
theorem ensureDirectory_seenFrom (h : p.isAbsolute = true) :
    (fs.seenFrom cwd).ensureDirectory p = Prod.map id (·.seenFrom cwd) (fs.ensureDirectory p) :=
  ((making_ensureWithin fs.maxNesting fs p).seenFrom h).ensureWithin_eq

/-! ### Searches -/

theorem dependencyRoot?_seenFrom (h : p.isAbsolute = true) (name : String) :
    (fs.seenFrom cwd).dependencyRoot? p name = fs.dependencyRoot? p name := by
  rw [dependencyRoot?, dependencyRoot?, Path.ancestors_of_isAbsolute _ fs.cwd h]
  refine findSomeM?_congr fun directory hdirectory => ?_
  have habsolute := Path.isAbsolute_of_mem_ancestors h hdirectory
  rw [isPresent_seenFrom (Path.isAbsolute_div habsolute name)]

/-- A dependency tree that is found is named by an absolute path. -/
theorem isAbsolute_of_dependencyRoot? {name : String} {root : Path} (h : p.isAbsolute = true)
    (hroot : fs.dependencyRoot? p name = .ok (some root)) : root.isAbsolute = true := by
  obtain ⟨directory, hdirectory, rfl⟩ := exists_of_dependencyRoot? hroot
  exact Path.isAbsolute_div (Path.isAbsolute_of_mem_ancestors h hdirectory) name

theorem candidateIn_seenFrom {directory : Path} (h : directory.isAbsolute = true)
    (name request : String) :
    (fs.seenFrom cwd).candidateIn name request directory
      = fs.candidateIn name request directory := by
  have hcandidate := Path.isAbsolute_div (Path.isAbsolute_div h name) request
  rw [candidateIn, candidateIn, isFileAt_seenFrom hcandidate]

theorem isAbsolute_searchStart {context : String} (h : IsAbsoluteText context)
    (isDirectory : Bool) :
    (searchStart context isDirectory).isAbsolute = true := by
  have hplace := Path.isAbsolute_ofString h
  cases isDirectory with
  | true => exact hplace
  | false => exact Path.isAbsolute_parent hplace

/-- **A search from an absolute path finds the same file from everywhere.** -/
theorem findInDependencies_seenFrom {context : String} (h : IsAbsoluteText context)
    (name request : String) :
    (fs.seenFrom cwd).findInDependencies name context request
      = fs.findInDependencies name context request := by
  rw [findInDependencies_eq, findInDependencies_eq,
    isDirectoryAt_seenFrom (Path.isAbsolute_ofString h)]
  split
  · rfl
  · -- The ancestors are listed from the current directory, which an absolute start does not need.
    refine bind_congr fun isDirectory => ?_
    have hstart := isAbsolute_searchStart h isDirectory
    have hsearch : ((searchStart context isDirectory).ancestors fs.cwd).findSomeM?
          ((fs.seenFrom cwd).candidateIn name request)
        = ((searchStart context isDirectory).ancestors fs.cwd).findSomeM?
          (fs.candidateIn name request) := by
      refine findSomeM?_congr fun directory hdirectory => ?_
      exact candidateIn_seenFrom (Path.isAbsolute_of_mem_ancestors hstart hdirectory) name request
    rw [Path.ancestors_of_isAbsolute _ fs.cwd hstart, hsearch]

/-- A file that is found is named by an absolute path. -/
theorem isAbsoluteText_of_findInDependencies {name context request file : String}
    (h : IsAbsoluteText context)
    (hfile : fs.findInDependencies name context request = .ok file) : IsAbsoluteText file := by
  obtain ⟨isDirectory, directory, hdirectory, -, rfl⟩ := exists_of_findInDependencies hfile
  have habsolute :=
    Path.isAbsolute_of_mem_ancestors (isAbsolute_searchStart h isDirectory) hdirectory
  exact Path.isAbsoluteText_text (Path.isAbsolute_div (Path.isAbsolute_div habsolute name) request)

/-- The manifest beside an absolute path. -/
theorem isAbsolute_beside {context : String} (h : IsAbsoluteText context) (cwd : String) :
    (((Path.ofString context).absolute cwd / ".." / manifestName).canonical).isAbsolute = true := by
  have hplace := Path.isAbsolute_ofString h
  rw [Path.absolute_of_isAbsolute cwd hplace]
  exact Path.isAbsolute_canonical
    (Path.isAbsolute_div (Path.isAbsolute_div (Path.isAbsolute_canonical hplace) "..") manifestName)

theorem adjacentManifest?_seenFrom {context : String} (h : IsAbsoluteText context) :
    (fs.seenFrom cwd).adjacentManifest? context = fs.adjacentManifest? context := by
  have hplace := Path.isAbsolute_ofString h
  have hbeside := Path.isAbsoluteText_text (isAbsolute_beside h fs.cwd)
  rw [adjacentManifest?, adjacentManifest?, Path.absolute_of_isAbsolute _ hplace,
    ← Path.absolute_of_isAbsolute fs.cwd hplace, leadsSomewhere_seenFrom hbeside]

theorem isAbsoluteText_of_adjacentManifest? {context manifest : String} (h : IsAbsoluteText context)
    (hmanifest : fs.adjacentManifest? context = some manifest) : IsAbsoluteText manifest := by
  rw [adjacentManifest?] at hmanifest
  split at hmanifest
  · obtain rfl := Option.some.inj hmanifest
    exact Path.isAbsoluteText_text (isAbsolute_beside h fs.cwd)
  · cases hmanifest

end FileSystem

end ConvertOnce
