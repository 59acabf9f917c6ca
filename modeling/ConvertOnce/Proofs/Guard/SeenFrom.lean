import ConvertOnce.Proofs.Guard.Outcome
import ConvertOnce.Proofs.World.SeenFrom

/-!
# A guard seen from several directories

A guard that searches the files for manifests, and whose dependency tree and compiler's settings
file are named by absolute paths, decides and records the same from every current directory
(`Guard.ensure_ignores`).  The one place where a path is made relative is the way from the project
to the compiler's settings file, which is an input of the digest.
-/

namespace ConvertOnce

/-! ### Reading the inputs -/

namespace FileSystem

variable {fs : FileSystem} {cwd : String} {p : Path}

theorem read?_seenFrom (h : p.isAbsolute = true) : (fs.seenFrom cwd).read? p = fs.read? p := by
  rw [read?, read?, read_seenFrom (Path.isAbsoluteText_text h)]

theorem readOrEmpty_seenFrom (h : p.isAbsolute = true) :
    (fs.seenFrom cwd).readOrEmpty p = fs.readOrEmpty p := by
  rw [readOrEmpty, readOrEmpty, read?_seenFrom h]

theorem firstLockFile_seenFrom (h : p.isAbsolute = true) (names : List String) :
    (fs.seenFrom cwd).firstLockFile p names = fs.firstLockFile p names := by
  rw [firstLockFile, firstLockFile]
  refine congrArg (· >>= _) (findSomeM?_congr fun name _ => ?_)
  dsimp only
  rw [read?_seenFrom (Path.isAbsolute_div h name)]

end FileSystem

namespace InputSources

variable {sources : InputSources} {fs : FileSystem} {cwd : String}

/-- The inputs are the same from everywhere, the way to the compiler's settings file included. -/
theorem read_seenFrom (hproject : sources.projectRoot.isAbsolute = true)
    (htsconfig : sources.tsconfig.isAbsolute = true) :
    sources.read (fs.seenFrom cwd) = sources.read fs := by
  have htool : (fs.seenFrom cwd).readOrEmpty (sources.projectRoot / sources.toolConfigName)
      = fs.readOrEmpty (sources.projectRoot / sources.toolConfigName) :=
    FileSystem.readOrEmpty_seenFrom (Path.isAbsolute_div hproject _)
  have hbytes : (fs.seenFrom cwd).read sources.tsconfig.text = fs.read sources.tsconfig.text :=
    FileSystem.read_seenFrom (Path.isAbsoluteText_text htsconfig)
  -- The one path that is read from the current directory, and does not depend on it.
  have hway := Path.relativeTo_of_isAbsolute (fs.seenFrom cwd).cwd fs.cwd htsconfig hproject
  rw [read, read, htool, hbytes, FileSystem.firstLockFile_seenFrom hproject, hway]

theorem digest_seenFrom (hproject : sources.projectRoot.isAbsolute = true)
    (htsconfig : sources.tsconfig.isAbsolute = true) :
    sources.digest (fs.seenFrom cwd) = sources.digest fs := by
  rw [digest, digest, read_seenFrom hproject htsconfig]

end InputSources

/-! ### Recording -/

namespace Decision

variable {d : Decision} {marker : Path} {fs : FileSystem} {cwd : String}

theorem writeMarker_seenFrom (h : marker.isAbsolute = true) :
    writeMarker marker (fs.seenFrom cwd)
      = Prod.map id (·.seenFrom cwd) (writeMarker marker fs) := by
  rw [writeMarker, writeMarker, FileSystem.ensureDirectory_seenFrom (Path.isAbsolute_parent h)]
  rcases fs.ensureDirectory marker.parent with ⟨fault | _, fs'⟩
  · rfl
  · dsimp only [Prod.map, id]
    rw [FileSystem.write_seenFrom (Path.isAbsoluteText_text h)]
    cases fs'.write marker.text [] <;> rfl

/-- **A marker with an absolute path is written in the same place from everywhere.** -/
theorem record_seenFrom (h : ∀ marker, d.marker = some marker → marker.isAbsolute = true) :
    d.record (fs.seenFrom cwd) = Prod.map id (·.seenFrom cwd) (d.record fs) := by
  rw [record, record]
  split
  · next marker _ hmarker =>
    rw [writeMarker_seenFrom (h marker hmarker)]
    rcases writeMarker marker fs with ⟨fault | _, fs'⟩
    · dsimp only [Prod.map, id]
      split <;> simp_all
    · rfl
  · rfl

end Decision

namespace Guard

variable {g : Guard} {root : Path} {fs : FileSystem} {cwd : String} {d : Decision} {w : World}

/-- The guard searches for manifests itself and knows its places by absolute paths. -/
structure IsAbsolute (g : Guard) : Prop where
  /-- The dependency tree, if there is one. -/
  root : ∀ root, g.dependencyRoot = some root → root.isAbsolute = true
  /-- The compiler's settings file. -/
  tsconfig : g.settings.tsconfig.isAbsolute = true
  /-- Manifests are searched for. -/
  finder : ∃ name, g.finder = .search name

/-! ### Deciding -/

theorem isAbsolute_markerOf (h : root.isAbsolute = true) (digest : InputDigest) :
    (g.markerOf root digest).isAbsolute = true := by
  rw [markerOf]
  exact Path.isAbsolute_div (Path.isAbsolute_div h _) _

theorem decideByInputs_seenFrom (hroot : root.isAbsolute = true)
    (htsconfig : g.settings.tsconfig.isAbsolute = true) :
    g.decideByInputs root (fs.seenFrom cwd) = g.decideByInputs root fs := by
  have hdigest : (g.sourcesOf root).digest (fs.seenFrom cwd) = (g.sourcesOf root).digest fs :=
    InputSources.digest_seenFrom (Path.isAbsolute_parent hroot) htsconfig
  have hmarker : ∀ digest,
      g.decideByMarker root (fs.seenFrom cwd) digest = g.decideByMarker root fs digest := by
    intro digest
    rw [decideByMarker_eq, decideByMarker_eq,
      FileSystem.isPresent_seenFrom (isAbsolute_markerOf hroot digest)]
  rw [decideByInputs_eq, decideByInputs_eq, hdigest]
  cases (g.sourcesOf root).digest fs with
  | error fault => rfl
  | ok digest => exact hmarker digest

theorem decideByProbe_seenFrom (hroot : root.isAbsolute = true)
    (htsconfig : g.settings.tsconfig.isAbsolute = true) {manifest : Option String}
    (hmanifest : ∀ file, manifest = some file → IsAbsoluteText file) :
    g.decideByProbe root (fs.seenFrom cwd) manifest = g.decideByProbe root fs manifest := by
  have hinputs : g.decideByInputs root (fs.seenFrom cwd) = g.decideByInputs root fs :=
    decideByInputs_seenFrom hroot htsconfig
  cases manifest with
  | none => exact hinputs
  | some file =>
    rw [decideByProbe_some, decideByProbe_some,
      FileSystem.isProtectedPackage_seenFrom (hmanifest file rfl), hinputs]

/-- The same is decided from everywhere. -/
theorem decide_ignores (h : g.IsAbsolute) : g.decide.Ignores (·.seenFrom cwd) := by
  intro w
  show g.decide (w.seenFrom cwd) = _
  rw [decide, decide]
  cases hroot : g.dependencyRoot with
  | none => rfl
  | some root =>
    dsimp only
    have hsandboxed : g.isSandboxed (w.seenFrom cwd) = g.isSandboxed w := rfl
    rw [hsandboxed]
    split
    · rfl
    split
    · rfl
    -- All paths that are looked at are absolute: the tree, what the search finds from it, and the
    -- sources of the digest.
    · obtain ⟨name, hfinder⟩ := h.finder
      have habsolute := h.root root hroot
      have htext := Path.isAbsoluteText_text habsolute
      rw [hfinder, Finder.manifest?_seenFrom htext]
      have hmanifest : ∀ file,
          ((Finder.search name).manifest? g.settings.probePackage root.text w).1 = some file →
            IsAbsoluteText file :=
        fun _ hfile => Finder.isAbsoluteText_of_manifest? htext hfile
      generalize (Finder.search name).manifest? g.settings.probePackage root.text w = answer
        at hmanifest ⊢
      have hprobe : g.decideByProbe root (answer.2.files.seenFrom cwd) answer.1
          = g.decideByProbe root answer.2.files answer.1 :=
        decideByProbe_seenFrom habsolute h.tsconfig hmanifest
      exact Prod.ext hprobe rfl

/-- The marker of a decision is named by an absolute path. -/
theorem isAbsolute_marker (h : g.IsAbsolute) (hdecide : (g.decide w).1 = .ok d) {marker : Path}
    (hmarker : d.marker = some marker) : marker.isAbsolute = true := by
  obtain ⟨root, digest, hroot, rfl⟩ := exists_digest_of_marker hdecide hmarker
  exact isAbsolute_markerOf (h.root root hroot) digest

/-! ### A call -/

theorem convert_ignores (g : Guard) (d : Decision) : (g.convert d).Ignores (·.seenFrom cwd) := by
  rw [convert]
  split
  · exact Action.ignores_pure ()
  · split
    · exact Action.ignores_fail _
    · exact Action.ignores_fail _
    · exact World.measured_ignores _ (World.convertTree_ignores _)

theorem record_ignores (h : ∀ marker, d.marker = some marker → marker.isAbsolute = true) :
    (record d).Ignores (·.seenFrom cwd) := by
  intro w
  have hrecord : d.record (w.seenFrom cwd).files
      = Prod.map id (·.seenFrom cwd) (d.record w.files) := Decision.record_seenFrom h
  show record d (w.seenFrom cwd) = _
  rw [record, record, hrecord]
  rfl

/-- **A call decides, converts and records the same from everywhere.** -/
theorem ensure_ignores (h : g.IsAbsolute) : g.ensure.Ignores (·.seenFrom cwd) := by
  rw [ensure]
  refine (decide_ignores h).bind fun w d hdecide => ?_
  -- Recording needs to know of the marker, and so what the decision was taken from.
  have hmarker : ∀ marker, d.marker = some marker → marker.isAbsolute = true :=
    fun _ hmarker => isAbsolute_marker h hdecide hmarker
  split
  · refine (convert_ignores g d).bind fun _ _ _ => ?_
    exact (record_ignores hmarker).bind fun _ _ _ => Action.ignores_pure d
  · exact Action.ignores_pure d

end Guard

end ConvertOnce
