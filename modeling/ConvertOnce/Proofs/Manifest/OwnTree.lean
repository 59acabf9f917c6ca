import ConvertOnce.Proofs.FileSystem.Directories
import ConvertOnce.Proofs.Manifest.Nearest
import ConvertOnce.Proofs.Path.Absolute
import ConvertOnce.Proofs.World

/-!
# Packages of the tree that was found

The dependency tree of a project is found on a way outwards that looks into every directory.  Where
the tree is asked for one of its packages, the way outwards begins in the tree and passes over
directories that bear the name of a dependency directory.  The two ways meet at the directory that
holds the tree (`FileSystem.IsTree.isDecisive`) unless that bears the name too: a tree in another
one is found and then passed over.  So a package that the tree has is found there exactly when its
name is not empty and the tree is not in another one (`Finder.manifest?_eq_own_iff`).
-/

namespace ConvertOnce

/-! ### The path of a request -/

variable {moduleName : String}

theorem head?_packageManifest (h : moduleName ≠ "") :
    (packageManifest moduleName).toList.head? = moduleName.toList.head? := by
  have hne : moduleName.toList ≠ [] := by simpa using h
  rw [packageManifest, String.append_assoc, String.toList_append, List.head?_append_of_ne_nil _ hne]

/-- A module that is neither local nor a path from the root can be asked for its manifest, unless it
has no name. -/
theorem isForeign_packageManifest_iff (hlocal : isLocalName moduleName = false)
    (habsolute : ¬ IsAbsoluteText moduleName) :
    FileSystem.IsForeign (packageManifest moduleName) ↔ moduleName = "" := by
  by_cases hempty : moduleName = ""
  · subst hempty
    have hforeign : FileSystem.IsForeign (packageManifest "") := Or.inr (by decide)
    simp [hforeign]
  · have hdot : moduleName.toList.head? ≠ some '.' := by simpa [isLocalName] using hlocal
    have hslash : moduleName.toList.head? ≠ some '/' := habsolute
    simp [FileSystem.IsForeign, head?_packageManifest hempty, hempty, hdot, hslash]

/-- The request for a manifest leads to the directory of the package and then to the manifest. -/
theorem Path.div_packageManifest (p : Path) (hempty : moduleName ≠ "")
    (habsolute : ¬ IsAbsoluteText moduleName) :
    p / packageManifest moduleName = p / moduleName / manifestName := by
  have hrequest : ¬ IsAbsoluteText (packageManifest moduleName) := by
    rw [IsAbsoluteText, head?_packageManifest hempty]
    exact habsolute
  have hparts : (ofString (packageManifest moduleName)).parts
      = (ofString moduleName).parts ++ [manifestName] :=
    parts_ofString_append moduleName isPart_manifestName
  refine ext_parts ?_ ?_
  · rw [anchor_div_of_relative hrequest, anchor_div_of_isPart isPart_manifestName,
      anchor_div_of_relative habsolute]
  · rw [parts_div_of_relative hrequest, hparts, parts_div_of_isPart isPart_manifestName,
      parts_div_of_relative habsolute, List.append_assoc]

namespace FileSystem

variable {fs : FileSystem} {name : String} {base root : Path}

/-! ### The tree that was found -/

/-- The path of a dependency tree: absolute and canonical, with the name of the dependency
directories, in a directory that is not the bare root. -/
structure IsTree (name : String) (root : Path) : Prop where
  isAbsolute : root.isAbsolute = true
  up_not_mem : ".." ∉ root.parts
  name_eq : root.name = name
  parts_parent : root.parent.parts ≠ []

/-- What is found as the tree of a project has the path of one. -/
theorem isTree_of_dependencyRoot? (hcwd : IsAbsoluteText fs.cwd) (hname : IsPart name)
    (hup : name ≠ "..") (h : fs.dependencyRoot? base name = .ok (some root)) :
    IsTree name root := by
  obtain ⟨directory, hmem, rfl⟩ := exists_of_dependencyRoot? h
  have hparts : directory.parts ≠ [] := Path.parts_ne_nil_of_mem_ancestors hmem
  obtain ⟨n, -, -, rfl⟩ := Path.mem_ancestors_iff.1 hmem
  -- The directory that holds the tree is an ancestor of the base, so its path is absolute and goes
  -- nowhere up.
  have habsolute : (base.absolute fs.cwd).isAbsolute = true :=
    Path.isAbsolute_absolute (Or.inr hcwd)
  have hnone : ".." ∉ (base.absolute fs.cwd).parts :=
    (Path.isCanonical_absolute base fs.cwd).up_not_mem habsolute
  have hdirectory : ((base.absolute fs.cwd).take n).isAbsolute = true := habsolute
  refine ⟨Path.isAbsolute_div hdirectory name, ?_, ?_, ?_⟩
  · rw [Path.parts_div_of_isPart hname]
    intro hmem'
    rcases List.mem_append.1 hmem' with hmem' | hmem'
    · exact hnone (List.mem_of_mem_take hmem')
    · exact hup (List.mem_singleton.1 hmem').symm
  · exact Path.name_eq_of_parts (Path.parts_div_of_isPart hname)
  · rw [Path.parent_div_of_isPart hname]
    exact hparts

namespace IsTree

theorem parts_ne_nil (h : IsTree name root) : root.parts ≠ [] :=
  Path.parts_ne_nil_of_parent h.parts_parent

theorem isCanonical (h : IsTree name root) : root.IsCanonical :=
  Path.isCanonical_of_up_not_mem h.up_not_mem

/-- The path of a tree is read alike from everywhere. -/
theorem absolute_eq (h : IsTree name root) (cwd : String) : root.absolute cwd = root := by
  rw [Path.absolute_of_isAbsolute cwd h.isAbsolute, Path.canonical_eq_self h.isCanonical]

theorem parent_div (h : IsTree name root) : root.parent / name = root := by
  have hroot := Path.parent_div_name h.parts_ne_nil
  rwa [h.name_eq] at hroot

/-- A search that is told the path of the tree begins in the tree, if there is anything in it. -/
theorem isDirectoryAt (h : IsTree name root) (habsolute : ¬ IsAbsoluteText moduleName)
    (hfile : fs.isFileAt (root / moduleName / manifestName) = .ok true) :
    fs.isDirectoryAt root = .ok true := by
  have hparts : (root / moduleName / manifestName).parts
      = root.parts ++ ((Path.ofString moduleName).parts ++ [manifestName]) := by
    rw [Path.parts_div_of_isPart isPart_manifestName, Path.parts_div_of_relative habsolute,
      List.append_assoc]
  have hanchor : root.anchor = (root / moduleName / manifestName).anchor := by
    rw [Path.anchor_div_of_isPart isPart_manifestName, Path.anchor_div_of_relative habsolute]
  have habove : root.IsAbove (root / moduleName / manifestName) :=
    ⟨hanchor, by rw [hparts]; exact List.prefix_append _ _⟩
  -- What is above a file that can be asked for is a directory.
  refine isDirectoryAt_of_isAbove habove ?_ h.parts_ne_nil hfile
  intro heq
  have hlength := congrArg (fun p : Path => p.parts.length) heq
  simp [hparts] at hlength

/-- **The two ways meet**: the directory that holds the tree settles the search, unless it bears the
name of a dependency directory too. -/
theorem isDecisive {request : String} (h : IsTree name root) (hparent : root.parent.name ≠ name)
    (hfile : fs.isFileAt (root / request) = .ok true) :
    fs.IsDecisive name request root (root.parts.length - 1) := by
  have htake := Path.take_length_sub_one root
  have hlength : root.parent.parts.length = root.parts.length - 1 := List.length_dropLast
  have hpos : 0 < root.parent.parts.length := List.length_pos_iff.2 h.parts_parent
  rw [IsDecisive, h.absolute_eq]
  refine ⟨by omega, by omega, ?_, ?_⟩
  · rw [htake]
    rintro (hname | hnone)
    · exact hparent hname
    · rw [h.parent_div, hfile] at hnone
      cases hnone
  · intro m hm hle
    -- Only the tree itself lies further in.
    have hwhole : m = root.parts.length := by omega
    rw [hwhole, Path.take_length_parts]
    exact Or.inl h.name_eq

/-- What is found in the tree is found in the dependency directory of the directory that holds
it. -/
theorem take_eq_parent_of_div_eq {request : String} {n : Nat} (h : IsTree name root)
    (hname : IsPart name) (hrequest : ¬ IsAbsoluteText request)
    (heq : root.take n / name / request = root / request) : root.take n = root.parent := by
  refine Path.ext_parts rfl ?_
  have hparts := congrArg Path.parts heq
  rw [Path.parts_div_of_relative hrequest, Path.parts_div_of_relative hrequest] at hparts
  have hroot : (root.take n / name).parts = root.parts := List.append_cancel_right hparts
  rw [Path.parts_div_of_isPart hname, ← h.parent_div, Path.parts_div_of_isPart hname] at hroot
  have hcancelled := List.append_cancel_right hroot
  rwa [h.parent_div] at hcancelled

/-- The manifest beside the tree is not one in the tree. -/
theorem adjacentManifest?_ne (h : IsTree name root) (hup : name ≠ "..")
    (habsolute : ¬ IsAbsoluteText moduleName) :
    fs.adjacentManifest? root.text ≠ some (root / moduleName / manifestName).text := by
  intro hbeside
  have hcanonical : ((Path.ofString root.text).absolute fs.cwd / ".." / manifestName).canonical
      = root.parent / manifestName := by
    rw [Path.ofString_text, h.absolute_eq]
    have hname : root.name ≠ ".." := by
      rw [h.name_eq]
      exact hup
    exact Path.canonical_div_up_div h.isCanonical (Path.push_up_of_name_ne h.parts_ne_nil hname)
      isPart_manifestName (by decide)
  rw [adjacentManifest?, hcanonical] at hbeside
  split at hbeside
  · have hsame : root.parent / manifestName = root / moduleName / manifestName :=
      Path.text_injective (Option.some.inj hbeside)
    -- The one is beside the tree and the other below it, so their paths have different lengths.
    have hparts := congrArg (fun p : Path => p.parts.length) hsame
    have hlength : root.parent.parts.length = root.parts.length - 1 := List.length_dropLast
    have hpos : 0 < root.parts.length := List.length_pos_iff.2 h.parts_ne_nil
    simp only [Path.parts_div_of_isPart isPart_manifestName, Path.parts_div_of_relative habsolute,
      List.length_append] at hparts
    omega
  · cases hbeside

end IsTree

end FileSystem

/-! ### Packages of the tree -/

namespace FileSystem.IsTree

variable {fs : FileSystem} {name : String} {root : Path}

/-- A search from the tree finds a package of the tree exactly when the package has a name and the
tree is not in another one. -/
theorem findInDependencies_eq_iff (h : IsTree name root) (hname : IsPart name)
    (hlocal : isLocalName moduleName = false) (habsolute : ¬ IsAbsoluteText moduleName)
    (hfile : fs.isFileAt (root / moduleName / manifestName) = .ok true) :
    fs.findInDependencies name root.text (packageManifest moduleName)
        = .ok (root / moduleName / manifestName).text ↔
      moduleName ≠ "" ∧ root.parent.name ≠ name := by
  have hstart : fs.isDirectoryAt (.ofString root.text) = .ok true := by
    rw [Path.ofString_text]
    exact h.isDirectoryAt habsolute hfile
  have hplace : searchStart root.text true = root := Path.ofString_text root
  have hforeign := isForeign_packageManifest_iff hlocal habsolute
  constructor
  · intro hfind
    obtain ⟨hrequest, isDirectory, n, hstart', hdecisive, htext⟩ :=
      (FileSystem.findInDependencies_eq_iff.1 hfind).of_ok
    cases hstart.symm.trans hstart'
    -- What is found is the file of the tree, so the decisive directory is the one that holds the
    -- tree.
    have hempty : moduleName ≠ "" := mt hforeign.2 hrequest
    rw [hplace] at hdecisive htext
    rw [h.absolute_eq, ← Path.div_packageManifest root hempty habsolute] at htext
    have hparent : root.take n = root.parent :=
      h.take_eq_parent_of_div_eq hname (fun hslash => hrequest (Or.inr hslash))
        (Path.text_injective htext).symm
    have hnot := name_ne_of_not_passesOver hdecisive.not_passed
    rw [h.absolute_eq, hparent] at hnot
    exact ⟨hempty, hnot⟩
  · rintro ⟨hempty, hparent⟩
    rw [← Path.div_packageManifest root hempty habsolute] at hfile ⊢
    have hdecisive := h.isDecisive hparent hfile
    have hfound : root.take (root.parts.length - 1) / name / packageManifest moduleName
        = root / packageManifest moduleName := by
      rw [Path.take_length_sub_one, h.parent_div]
    rw [← hplace] at hdecisive
    have hanswer := SearchAnswer.found (mt hforeign.1 hempty) hstart hdecisive (by
      rw [hplace, h.absolute_eq, hfound]
      exact hfile)
    rw [hanswer.findInDependencies_eq, hplace, h.absolute_eq, hfound]

end FileSystem.IsTree

variable {w : World} {base root : Path}

/-- **The manifest of a package of the tree that was found** is what the usual finder finds from the
tree, exactly when the package has a name and the tree is not in another one. -/
theorem Finder.manifest?_eq_own_iff (hcwd : IsAbsoluteText w.files.cwd)
    (hroot : w.files.dependencyRoot? base dependencyDirectory = .ok (some root))
    (hlocal : isLocalName moduleName = false) (habsolute : ¬ IsAbsoluteText moduleName)
    (hfile : w.files.isFileAt (root / moduleName / manifestName) = .ok true) :
    (usual.manifest? moduleName root.text w).1 = some (root / moduleName / manifestName).text ↔
      moduleName ≠ "" ∧ root.parent.name ≠ dependencyDirectory := by
  have hname : IsPart dependencyDirectory := by decide
  have hup : dependencyDirectory ≠ ".." := by decide
  have htree := FileSystem.isTree_of_dependencyRoot? hcwd hname hup hroot
  rw [← htree.findInDependencies_eq_iff hname hlocal habsolute hfile]
  constructor
  · intro h
    rcases found_of_manifest? h with hfound | hbeside
    · exact hfound
    · exact absurd hbeside (htree.adjacentManifest?_ne hup habsolute)
  · intro h
    rw [usual, manifest?_search, h]
    simp [Path.text_ne_empty]

/-- A project with a package. -/
def packagedFiles : FileSystem where
  tree := .putAll .empty [⟨"/p/node_modules/@angular/core/package.json", .file .newFile []⟩]
  cwd := "/"
  executable := "/usr/bin/python3"

/-- A package of the project is found from the tree that was found on the way outwards from one of
its directories. -/
theorem Finder.manifest?_eq_own_packagedFiles :
    packagedFiles.dependencyRoot? (.ofString "/p/node_modules/@angular") dependencyDirectory
        = .ok (some (.ofString "/p/node_modules")) ∧
      (usual.manifest? "@angular/core" (Path.ofString "/p/node_modules").text
          (.ofFiles packagedFiles)).1
        = some (Path.ofString "/p/node_modules" / "@angular/core" / manifestName).text := by
  have hroot : packagedFiles.dependencyRoot? (.ofString "/p/node_modules/@angular")
      dependencyDirectory = .ok (some (.ofString "/p/node_modules")) := by
    decide +kernel
  have hfile : packagedFiles.isFileAt
      (Path.ofString "/p/node_modules" / "@angular/core" / manifestName) = .ok true := by
    decide +kernel
  have hcwd : IsAbsoluteText (World.ofFiles packagedFiles).files.cwd := by decide
  have hown := manifest?_eq_own_iff hcwd hroot (by decide) (by decide)
    hfile
  exact ⟨hroot, hown.2 (by decide +kernel)⟩

/-- A tree in another one. -/
def nestedFiles : FileSystem where
  tree := .putAll .empty [⟨"/p/node_modules/node_modules/a/package.json", .file .newFile []⟩]
  cwd := "/"
  executable := "/usr/bin/python3"

/-- From the tree that was found, the usual finder finds the packages of the tree. -/
def AlwaysMeets : Prop :=
  ∀ (w : World) (base root : Path) (moduleName : String), IsAbsoluteText w.files.cwd →
    w.files.dependencyRoot? base dependencyDirectory = .ok (some root) →
    isLocalName moduleName = false → ¬ IsAbsoluteText moduleName →
    w.files.isFileAt (root / moduleName / manifestName) = .ok true →
    (Finder.usual.manifest? moduleName root.text w).1
      = some (root / moduleName / manifestName).text

/-- **A tree in another one is found and not searched.** -/
theorem not_alwaysMeets : ¬ AlwaysMeets := by
  intro h
  have hroot : nestedFiles.dependencyRoot? (.ofString "/p/node_modules") dependencyDirectory
      = .ok (some (.ofString "/p/node_modules/node_modules")) := by
    decide +kernel
  have hfile : nestedFiles.isFileAt
      (Path.ofString "/p/node_modules/node_modules" / "a" / manifestName) = .ok true := by
    decide +kernel
  have hmissing : (Finder.usual.manifest? "a" (Path.ofString "/p/node_modules/node_modules").text
      (.ofFiles nestedFiles)).1 = none := by
    decide +kernel
  have hmeets := h (.ofFiles nestedFiles) _ _ "a" (by decide) hroot (by decide) (by decide) hfile
  cases hmissing.symm.trans hmeets

end ConvertOnce
