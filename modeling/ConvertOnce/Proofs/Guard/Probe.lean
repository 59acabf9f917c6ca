import ConvertOnce.Proofs.FileSystem.Holder
import ConvertOnce.Proofs.Guard.Table

/-!
# What a read-only decision is about

A tree is left alone as read-only on account of the probed package.  Where a search finds no
manifest of that package, though, the manifest beside the tree is taken in its place, and that is
the one of the project.  Decisions are about the probed package exactly where this does not happen
(`Guard.aboutProbe_iff`); it can happen (`Guard.not_alwaysAboutProbe`).
-/

namespace ConvertOnce

/-- The file at a path, or the directory that holds it, may not be written. -/
def FileSystem.IsUnwritable (fs : FileSystem) (p : Path) : Prop :=
  (∃ node, fs.stat p.text = .ok node ∧ node.canWrite = false) ∨
    ∃ here permissions, fs.HeldIn p here permissions ∧ permissions.canWrite = false

namespace Guard

variable {g : Guard} {w : World} {root : Path} {d : Decision} {name : String}

/-- The search for the manifest of the probed package, as seen from the tree. -/
def findProbe (g : Guard) (name : String) (root : Path) (w : World) : Except Fault String :=
  w.files.findInDependencies name root.text (packageManifest g.settings.probePackage)

/-- A tree is left alone as read-only on account of the probed package only. -/
structure AboutProbe (g : Guard) (name : String) (w : World) : Prop where
  /-- Then a manifest of the probed package was found, and it cannot be written, or the directory
  that holds it cannot. -/
  resolved : ∀ root d, g.dependencyRoot = some root → (g.decide w).1 = .ok d →
    d.Gives .skip .readOnly →
      ∃ p : Path, g.findProbe name root w = .ok p.text ∧ p.name = manifestName ∧
        w.files.IsUnwritable p
  /-- A project in which none is found is not left alone as read-only. -/
  installed : ∀ root fault d, g.dependencyRoot = some root →
    g.findProbe name root w = .error fault → (g.decide w).1 = .ok d → ¬ d.Gives .skip .readOnly

/-- The manifest beside the tree is taken for that of the probed package, and is protected. -/
structure MistakesProject (g : Guard) (name : String) (w : World) (root : Path) : Prop where
  root_eq : g.dependencyRoot = some root
  asks : g.asksInVain = false
  not_inSandbox : ¬ g.InSandbox w
  missing : ∃ fault, g.findProbe name root w = .error fault
  beside : ∃ manifest, w.files.adjacentManifest? root.text = some manifest ∧
    w.files.isProtectedPackage manifest = .ok true

/-- Where nothing is found the manifest beside the tree is asked for. -/
theorem manifest?_of_missing (hfinder : g.finder = .search name) {fault : Fault}
    (h : g.findProbe name root w = .error fault) :
    (g.finder.manifest? g.settings.probePackage root.text w).1
      = w.files.adjacentManifest? root.text := by
  rw [findProbe] at h
  rw [hfinder, Finder.manifest?_search, h]

/-- What is found is not passed over. -/
theorem eq_of_manifest?_of_found (hfinder : g.finder = .search name) {file manifest : String}
    (h : g.findProbe name root w = .ok file)
    (hmanifest : (g.finder.manifest? g.settings.probePackage root.text w).1 = some manifest) :
    manifest = file := by
  rw [findProbe] at h
  rw [hfinder, Finder.manifest?_search, h] at hmanifest
  have hfile : (some file).filter (· ≠ "") = some manifest := hmanifest
  exact (Option.some.inj (Option.filter_eq_some_iff.1 hfile).1).symm

/-- A protected manifest beside the tree is a reason to leave the tree alone. -/
theorem MistakesProject.decide_fst (hfinder : g.finder = .search name)
    (h : g.MistakesProject name w root) :
    (g.decide w).1 = .ok { verdict := .skip, reason := .readOnly } := by
  obtain ⟨hroot, hasks, hsandbox, ⟨fault, hmissing⟩, manifest, hbeside, hprotected⟩ := h
  rw [decide_eq hroot hasks (isSandboxed_eq_false_iff.2 hsandbox),
    manifest?_of_missing hfinder hmissing, hbeside, decideByProbe_some, hprotected]

/-- What is found and protected may not be written. -/
theorem isUnwritable_of_found {file : String} (hfound : g.findProbe name root w = .ok file)
    (hprotected : w.files.isProtectedPackage file = .ok true) :
    ∃ p : Path, file = p.text ∧ p.name = manifestName ∧ w.files.IsUnwritable p := by
  obtain ⟨p, rfl, hname, hne, hisFile⟩ := FileSystem.exists_path_of_findInDependencies hfound
  have hparts := Path.parts_ne_nil_of_manifestName hname
  obtain ⟨node, hstat, -⟩ := FileSystem.exists_stat_of_probe hisFile
  obtain ⟨haccepts, l, hleads, -⟩ := (FileSystem.stat_text_eq_ok_iff hparts).1 hstat
  obtain ⟨here, permissions, hheld⟩ := FileSystem.exists_heldIn hparts hleads
  rw [hheld.isProtectedPackage_text haccepts hparts hne hstat] at hprotected
  refine ⟨p, rfl, hname, ?_⟩
  -- What is protected about a package is its manifest or the directory that holds it.
  cases hnode : node.canWrite with
  | false => exact Or.inl ⟨node, hstat, hnode⟩
  | true =>
    rw [hnode] at hprotected
    exact Or.inr ⟨here, permissions, hheld, by simpa using hprotected⟩

/-- A read-only decision rests on a manifest that the search has found, unless the one beside the
tree is mistaken for it. -/
theorem exists_found_of_gives (hfinder : g.finder = .search name)
    (hnot : ∀ root, ¬ g.MistakesProject name w root) (hroot : g.dependencyRoot = some root)
    (hdecide : (g.decide w).1 = .ok d) (hreason : d.Gives .skip .readOnly) :
    ∃ file, g.findProbe name root w = .ok file ∧ w.files.isProtectedPackage file = .ok true := by
  have hrow := row_of_decide hdecide
  rw [hreason.1, hreason.2] at hrow
  obtain ⟨root', hroot', hsandbox, manifest, hmanifest, hprotected⟩ := hrow
  cases hroot.symm.trans hroot'
  -- Where the search fails, what was asked about is the manifest beside the tree.
  cases hfind : g.findProbe name root w with
  | ok file =>
    rw [eq_of_manifest?_of_found hfinder hfind hmanifest] at hprotected
    exact ⟨file, rfl, hprotected⟩
  | error fault =>
    rw [manifest?_of_missing hfinder hfind] at hmanifest
    have hasks := asks_of_decide hroot hdecide
    refine absurd ?_ (hnot root)
    exact ⟨hroot, hasks, hsandbox, ⟨fault, hfind⟩, manifest, hmanifest, hprotected⟩

/-- **Read-only decisions are about the probed package exactly where the manifest beside the tree is
not taken in its place.** -/
theorem aboutProbe_iff (hfinder : g.finder = .search name) :
    g.AboutProbe name w ↔ ∀ root, ¬ g.MistakesProject name w root := by
  constructor
  · intro habout root hmistakes
    obtain ⟨fault, hmissing⟩ := hmistakes.missing
    exact habout.installed root fault _ hmistakes.root_eq hmissing (hmistakes.decide_fst hfinder)
      ⟨rfl, rfl⟩
  · intro hnot
    refine ⟨?_, ?_⟩
    · intro root d hroot hdecide hreason
      obtain ⟨file, hfound, hprotected⟩ := exists_found_of_gives hfinder hnot hroot hdecide hreason
      obtain ⟨p, rfl, hname, hunwritable⟩ := isUnwritable_of_found hfound hprotected
      exact ⟨p, hfound, hname, hunwritable⟩
    · intro root fault d hroot hmissing hdecide hreason
      obtain ⟨file, hfound, -⟩ := exists_found_of_gives hfinder hnot hroot hdecide hreason
      cases hmissing.symm.trans hfound

/-! ### A project that is mistaken for the package -/

/-- The guard of a project in `/p`. -/
def probing : Guard where
  settings := { tsconfig := .ofString "/p/tsconfig.json", runtime := "/usr/bin/python3" }
  dependencyRoot := some (.ofString "/p/node_modules")
  finder := .usual

/-- The probed package is there, and its manifest may not be written. -/
def protectedPackageFiles : FileSystem where
  tree := .putAll .empty
    [⟨"/p/node_modules/@angular/core/package.json", .file (.ofString "r") []⟩,
      ⟨"/p/package.json", .file .newFile []⟩]
  cwd := "/"
  executable := "/usr/bin/python3"

/-- There is no probed package, and the manifest of the project may not be written. -/
def protectedProjectFiles : FileSystem where
  tree := .putAll .empty [⟨"/p/node_modules", .directory .newDirectory⟩,
    ⟨"/p/package.json", .file (.ofString "r") []⟩]
  cwd := "/"
  executable := "/usr/bin/python3"

/-- A tree with a protected package is left alone, and that is about the package. -/
theorem aboutProbe_iff_protectedPackage :
    (probing.decide (.ofFiles protectedPackageFiles)).1
        = .ok { verdict := .skip, reason := .readOnly } ∧
      probing.AboutProbe dependencyDirectory (.ofFiles protectedPackageFiles) := by
  have hfinder : probing.finder = .search dependencyDirectory := rfl
  have hfound : probing.findProbe dependencyDirectory (.ofString "/p/node_modules")
      (.ofFiles protectedPackageFiles) = .ok "/p/node_modules/@angular/core/package.json" := by
    decide +kernel
  refine ⟨by decide +kernel, (aboutProbe_iff hfinder).2 fun root hmistakes => ?_⟩
  obtain rfl : .ofString "/p/node_modules" = root := Option.some.inj hmistakes.root_eq
  obtain ⟨fault, hmissing⟩ := hmistakes.missing
  cases hfound.symm.trans hmissing

/-- Read-only decisions of guards with the usual finder are about the probed package. -/
def AlwaysAboutProbe : Prop :=
  ∀ (g : Guard) (w : World), g.finder = .usual → g.AboutProbe dependencyDirectory w

/-- **A protected project can be taken for the probed package.** -/
theorem not_alwaysAboutProbe : ¬ AlwaysAboutProbe := by
  intro h
  have hdecide : (probing.decide (.ofFiles protectedProjectFiles)).1
      = .ok { verdict := .skip, reason := .readOnly } := by
    decide +kernel
  have hmissing : probing.findProbe dependencyDirectory (.ofString "/p/node_modules")
      (.ofFiles protectedProjectFiles)
        = .error (.unresolved "@angular/core/package.json" "/p/node_modules") := by
    decide +kernel
  exact (h probing (.ofFiles protectedProjectFiles) rfl).installed _ _ _ rfl hmissing hdecide
    ⟨rfl, rfl⟩

end Guard

end ConvertOnce
