import ConvertOnce.Proofs.FileSystem.Writing
import ConvertOnce.Proofs.Guard.Traces

/-!
# What recording a conversion changes

`Decision.Attempt` lists the ways in which the attempt to leave a marker can end, with the files
that each leaves, and `Decision.attempt_record` says that there is no other.  Whatever comes of it,
the files that there were are as they were but for the marker, and all that is new is directories
above the marker and the marker itself (`Guard.record_changesOnlyMarker`).
-/

namespace ConvertOnce

namespace Decision

variable {d : Decision} {marker : Path} {fs fs' way : FileSystem} {fault : Fault} {l : Location}
  {permissions : Permissions} {node : Node} {outcome : Except Fault Bool}

/-- The ways in which the attempt to leave a marker can end. -/
inductive Attempt (marker : Path) (fs : FileSystem) : Except Fault Bool → FileSystem → Prop
  /-- The directories were made, and the marker was written. -/
  | written {way fs' : FileSystem} {l : Location} {permissions : Permissions}
      (ensured : fs.ensureDirectory marker.parent = (.ok (), way))
      (writesAt : way.WritesAt marker l permissions)
      (sets : way.Sets l (.file permissions []) fs') : Attempt marker fs (.ok true) fs'
  /-- The directories were made, but the marker cannot be written in them. -/
  | unwritable {way : FileSystem} (ensured : fs.ensureDirectory marker.parent = (.ok (), way))
      (not_writesAt : ∀ l permissions, ¬ way.WritesAt marker l permissions)
      (not_hasNul : ¬ HasNul marker.text) : Attempt marker fs (.ok false) way
  /-- The file system has refused one of the directories. -/
  | obstructed {way : FileSystem} {fault : Fault}
      (ensured : fs.ensureDirectory marker.parent = (.error fault, way))
      (isSystem : fault.isSystem = true) (not_hasNul : ¬ HasNul marker.parent.text) :
      Attempt marker fs (.ok false) way
  /-- The directory is deeper than the process can go. -/
  | tooDeep (ensured : fs.ensureDirectory marker.parent = (.error .tooDeep, fs))
      (not_hasNul : ¬ HasNul marker.parent.text) : Attempt marker fs (.error .tooDeep) fs
  /-- There is U+0000 in the path of the marker. -/
  | malformed {way : FileSystem} {outcome : Except Fault Unit}
      (ensured : fs.ensureDirectory marker.parent = (outcome, way)) (hasNul : HasNul marker.text) :
      Attempt marker fs (.error .nulCharacter) way

theorem writeMarker_of_obstructed
    (hensured : fs.ensureDirectory marker.parent = (.error fault, way)) :
    writeMarker marker fs = (.error (markerFault marker fault), way) := by
  rw [writeMarker, hensured]

theorem writeMarker_of_written (hensured : fs.ensureDirectory marker.parent = (.ok (), way))
    (hwritten : way.write marker.text [] = .ok fs') : writeMarker marker fs = (.ok (), fs') := by
  simp only [writeMarker, hensured, hwritten]

theorem writeMarker_of_unwritten (hensured : fs.ensureDirectory marker.parent = (.ok (), way))
    (hwritten : way.write marker.text [] = .error fault) :
    writeMarker marker fs = (.error (markerFault marker fault), way) := by
  simp only [writeMarker, hensured, hwritten]

/-- What the file system has refused is not reported. -/
theorem record_of_isSystem (hrun : d.verdict = .run) (hmarker : d.marker = some marker)
    (hwrite : writeMarker marker fs = (.error (markerFault marker fault), way))
    (hfault : fault.isSystem = true) : d.record fs = (.ok false, way) := by
  rw [record_eq hrun hmarker, hwrite, markerFault_of_isSystem hfault]

/-- U+0000 in the path is reported. -/
theorem record_of_nulCharacter (hrun : d.verdict = .run) (hmarker : d.marker = some marker)
    (hwrite : writeMarker marker fs = (.error (markerFault marker .nulCharacter), way)) :
    d.record fs = (.error .nulCharacter, way) := by
  rw [record_eq hrun hmarker, hwrite]
  rfl

/-- **Every attempt ends in one of these ways.** -/
theorem attempt_record (hrun : d.verdict = .run) (hmarker : d.marker = some marker) :
    Attempt marker fs (d.record fs).1 (d.record fs).2 := by
  rcases hensured : fs.ensureDirectory marker.parent with ⟨fault | _, way⟩
  · have hwrite := writeMarker_of_obstructed hensured
    -- Where the directory cannot be made this is due to the path, to the system, or to the depth.
    by_cases hnul : HasNul marker.parent.text
    · obtain ⟨rfl, rfl⟩ : Fault.nulCharacter = fault ∧ fs = way := by
        rw [FileSystem.ensureDirectory_of_hasNul hnul] at hensured
        simpa using hensured
      rw [record_of_nulCharacter hrun hmarker hwrite]
      exact .malformed hensured (Path.hasNul_of_parent hnul)
    · rcases FileSystem.ensureDirectory_error hnul (congrArg Prod.fst hensured) with hfault | rfl
      · rw [record_of_isSystem hrun hmarker hwrite hfault]
        exact .obstructed hensured hfault hnul
      · have hdeep := congrArg Prod.fst hensured
        rw [record_of_tooDeep hrun hmarker hdeep]
        exact .tooDeep (FileSystem.ensureDirectory_of_tooDeep hdeep) hnul
  · cases hwritten : way.write marker.text [] with
    | ok fs' =>
      obtain ⟨l, permissions, hwrites, hsets⟩ := FileSystem.exists_sets_of_write hwritten
      rw [record_eq hrun hmarker, writeMarker_of_written hensured hwritten]
      exact .written hensured hwrites hsets
    | error fault =>
      have hwrite := writeMarker_of_unwritten hensured hwritten
      -- The directory is there, and the marker itself is refused.
      cases FileSystem.write_error hwritten with
      | nul hnul =>
        rw [record_of_nulCharacter hrun hmarker hwrite]
        exact .malformed hensured hnul
      | system hnul errno =>
        rw [record_of_isSystem hrun hmarker hwrite rfl]
        refine .unwritable hensured ?_ hnul
        intro l permissions hwrites
        obtain ⟨fs', hok, -⟩ := hwrites.exists_write []
        cases hok.symm.trans hwritten

/-- The directories are made first, whatever comes of the attempt, and then at most the marker is
written. -/
theorem Attempt.exists_way (h : Attempt marker fs outcome fs') :
    ∃ way, fs.AddsDirectories marker.parent way ∧
      (fs' = way ∧ outcome ≠ .ok true ∨
        outcome = .ok true ∧ ∃ l permissions, way.WritesAt marker l permissions ∧
          way.Sets l (.file permissions []) fs') := by
  have hadds := FileSystem.ensureDirectory_addsDirectories fs marker.parent
  cases h with
  | written hensured hwrites hsets =>
    rw [hensured] at hadds
    exact ⟨_, hadds, Or.inr ⟨rfl, _, _, hwrites, hsets⟩⟩
  | unwritable hensured | obstructed hensured | tooDeep hensured | malformed hensured =>
    rw [hensured] at hadds
    exact ⟨_, hadds, Or.inl ⟨rfl, by simp⟩⟩

/-- What keeps a marker from being written and is no refusal of the file system: U+0000 in its path,
or more directories that are missing above it than the process can ask for. -/
inductive Misplaced (marker : Path) (fs : FileSystem) : Fault → Prop
  | malformed (hasNul : HasNul marker.text) : Misplaced marker fs .nulCharacter
  | tooDeep (lacks : ∀ q ∈ Path.outward (fs.maxNesting + 1) marker.parent, fs.Lacks q) :
      Misplaced marker fs .tooDeep

/-- The failures that an attempt reports are no refusals of the file system. -/
theorem Attempt.misplaced (h : Attempt marker fs (.error fault) fs') :
    Misplaced marker fs fault := by
  cases h with
  | tooDeep hensured =>
    have hdeep := congrArg Prod.fst hensured
    exact .tooDeep (FileSystem.ensureDirectory_eq_tooDeep_iff.1 hdeep)
  | malformed _ hnul => exact .malformed hnul

/-- The directories were made, and the marker was written at the location. -/
theorem Attempt.exists_of_ok_true (h : Attempt marker fs (.ok true) fs') :
    ∃ way l permissions, fs.AddsDirectories marker.parent way ∧ way.WritesAt marker l permissions ∧
      way.Sets l (.file permissions []) fs' := by
  obtain ⟨way, hadds, ⟨-, hne⟩ | ⟨-, l, permissions, hwrites, hsets⟩⟩ := h.exists_way
  · exact absurd rfl hne
  · exact ⟨way, l, permissions, hadds, hwrites, hsets⟩

/-- Where no marker was written there are new directories at most. -/
theorem Attempt.addsDirectories (h : Attempt marker fs outcome fs')
    (hne : outcome ≠ .ok true) : fs.AddsDirectories marker.parent fs' := by
  obtain ⟨way, hadds, ⟨rfl, -⟩ | ⟨heq, -⟩⟩ := h.exists_way
  · exact hadds
  · exact absurd heq hne

/-- A marker that was written is an empty file. -/
theorem Attempt.exists_locate (h : Attempt marker fs (.ok true) fs') :
    ∃ l permissions, fs'.locate true marker.text = .ok (.node l (.file permissions [])) := by
  obtain ⟨way, l, permissions, -, hwrites, hsets⟩ := h.exists_of_ok_true
  exact ⟨l, permissions, hwrites.locate_of_sets hsets hwrites⟩

/-- A node that was there is as it was, or has become the marker. -/
theorem Attempt.kept (h : Attempt marker fs outcome fs')
    (hnode : fs.tree.nodeAt l = some node) :
    fs'.tree.nodeAt l = some node ∨
      ∃ permissions bytes, node = .file permissions bytes ∧ outcome = .ok true ∧
        fs'.locate true marker.text = .ok (.node l (.file permissions [])) ∧
        fs'.tree.nodeAt l = some (.file permissions []) := by
  obtain ⟨way, hadds, ⟨rfl, -⟩ | ⟨hok, top, permissions, hwrites, hsets⟩⟩ := h.exists_way
  · exact Or.inl (hadds.keeps l node hnode)
  · have hway := hadds.keeps l node hnode
    by_cases htop : l = top
    · -- A node that the marker replaces can only be a file.
      subst htop
      rcases hwrites.old with ⟨hnone, -⟩ | ⟨old, hfile⟩
      · cases hnone.symm.trans hway
      · have hold := Option.some.inj (hway.symm.trans hfile)
        exact Or.inr ⟨permissions, old, hold, hok, hwrites.locate_of_sets hsets hwrites,
          hsets.nodeAt_self⟩
    · rw [hsets.nodeAt_of_ne htop]
      exact Or.inl hway

/-- A node that was not there is a directory on the way to the marker, or the marker. -/
theorem Attempt.added (h : Attempt marker fs outcome fs')
    (hnone : fs.tree.nodeAt l = none) (hnode : fs'.tree.nodeAt l = some node) :
    (node = .directory .newDirectory ∧ ∃ q, q.IsAbove marker.parent ∧ fs'.Leads q l) ∨
      (node = .file .newFile [] ∧ outcome = .ok true ∧
        fs'.locate true marker.text = .ok (.node l (.file .newFile []))) := by
  obtain ⟨way, hadds, ⟨rfl, -⟩ | ⟨hok, top, permissions, hwrites, hsets⟩⟩ := h.exists_way
  · exact Or.inl (hadds.new l node hnone hnode)
  · by_cases htop : l = top
    · subst htop
      obtain rfl := Option.some.inj (hsets.nodeAt_self.symm.trans hnode)
      rcases hwrites.old with ⟨-, rfl⟩ | ⟨old, hfile⟩
      · exact Or.inr ⟨rfl, hok, hwrites.locate_of_sets hsets hwrites⟩
      · -- No file was added with the directories.
        cases (hadds.new l _ hnone hfile).1
    · rw [hsets.nodeAt_of_ne htop] at hnode
      obtain ⟨hnew, q, hq, hleads⟩ := hadds.new l node hnone hnode
      exact Or.inl ⟨hnew, q, hq, (hwrites.grows hsets).leads hleads⟩

/-- Where no marker was written the same files are there. -/
theorem Attempt.nodeAt_eq_file_iff {bytes : Bytes}
    (h : Attempt marker fs outcome fs') (hne : outcome ≠ .ok true) :
    fs'.tree.nodeAt l = some (.file permissions bytes) ↔
      fs.tree.nodeAt l = some (.file permissions bytes) := by
  have hadds := h.addsDirectories hne
  constructor
  · intro hnode
    cases hold : fs.tree.nodeAt l with
    | none => cases (hadds.new l _ hold hnode).1
    | some node => rw [← hnode, hadds.keeps l node hold]
  · exact hadds.keeps l _

/-- The process is the same. -/
theorem Attempt.process_eq (h : Attempt marker fs outcome fs') :
    fs'.toProcess = fs.toProcess := by
  obtain ⟨way, hadds, ⟨rfl, -⟩ | ⟨-, l, permissions, -, hsets⟩⟩ := h.exists_way
  · exact hadds.process_eq
  · rw [hsets.process_eq, hadds.process_eq]

theorem record_of_idle (h : d.verdict = .skip ∨ d.marker = none) :
    d.record fs = (.ok false, fs) :=
  h.elim record_of_skip record_of_unmarked

/-- A decision comes with an attempt to leave a marker, or has nothing to record. -/
theorem attempt_or_idle (d : Decision) :
    (∃ marker, d.verdict = .run ∧ d.marker = some marker) ∨
      d.verdict = .skip ∨ d.marker = none := by
  cases hverdict : d.verdict with
  | skip => exact Or.inr (Or.inl rfl)
  | run =>
    cases hmarker : d.marker with
    | none => exact Or.inr (Or.inr rfl)
    | some marker => exact Or.inl ⟨marker, rfl, rfl⟩

end Decision

namespace Guard

variable {d : Decision} {w : World} {l : Location} {permissions : Permissions} {node : Node}
  {marker : Path}

/-- The marker of a decision was recorded, and its path leads to an empty file at the location. -/
def MarkedAt (d : Decision) (w : World) (l : Location) (permissions : Permissions) : Prop :=
  (record d w).1 = .ok true ∧ ∃ marker, d.marker = some marker ∧
    (record d w).2.files.locate true marker.text = .ok (.node l (.file permissions []))

/-- What recording a decision does to a world. -/
structure ChangesOnlyMarker (d : Decision) (w : World) : Prop where
  /-- A decision to leave the tree alone is not recorded, nor is one without a marker. -/
  idle : d.verdict = .skip ∨ d.marker = none → record d w = (.ok false, w)
  /-- No refusal of the file system is reported, and no failure to write the marker. -/
  misplaced : ∀ fault, (record d w).1 = .error fault →
    ∃ marker, d.marker = some marker ∧ Decision.Misplaced marker w.files fault
  /-- Nothing but files is changed. -/
  world_eq : (record d w).2 = { w with files := (record d w).2.files }
  /-- The process is the same. -/
  process_eq : (record d w).2.files.toProcess = w.files.toProcess
  /-- A marker that is said to be written is there, and is an empty file. -/
  marked : (record d w).1 = .ok true → ∃ marker l permissions, d.marker = some marker ∧
    MarkedAt d w l permissions ∧
    (record d w).2.files.stat marker.text = .ok (.file permissions []) ∧
    (record d w).2.files.isPresent marker = .ok true
  /-- Otherwise the same files are there, with the same contents. -/
  unmarked : (record d w).1 ≠ .ok true → ∀ l permissions bytes,
    (record d w).2.files.tree.nodeAt l = some (.file permissions bytes) ↔
      w.files.tree.nodeAt l = some (.file permissions bytes)
  /-- A node that was there is as it was, unless it is the file that has become the marker. -/
  kept : ∀ l node, w.files.tree.nodeAt l = some node →
    (record d w).2.files.tree.nodeAt l = some node ∨
      ∃ permissions bytes, node = .file permissions bytes ∧ MarkedAt d w l permissions ∧
        (record d w).2.files.tree.nodeAt l = some (.file permissions [])
  /-- A node that was not there is a directory on the way to the marker, or the marker. -/
  added : ∀ l node, w.files.tree.nodeAt l = none →
    (record d w).2.files.tree.nodeAt l = some node →
      (node = .directory .newDirectory ∧ ∃ marker q, d.marker = some marker ∧
        q.IsAbove marker.parent ∧ (record d w).2.files.Leads q l) ∨
      (node = .file .newFile [] ∧ MarkedAt d w l .newFile)

theorem record_of_idle (h : d.verdict = .skip ∨ d.marker = none) : record d w = (.ok false, w) := by
  unfold record
  rw [Decision.record_of_idle h]

theorem attempt_record (hrun : d.verdict = .run) (hmarker : d.marker = some marker) :
    Decision.Attempt marker w.files (record d w).1 (record d w).2.files :=
  Decision.attempt_record hrun hmarker

/-- A decision that has nothing to record changes nothing. -/
theorem changesOnlyMarker_of_idle (h : d.verdict = .skip ∨ d.marker = none) :
    ChangesOnlyMarker d w := by
  have hrecord : record d w = (.ok false, w) := record_of_idle h
  have hfirst : (record d w).1 ≠ .ok true := by simp [hrecord]
  have hfiles : (record d w).2.files = w.files := by rw [hrecord]
  -- With the world as it was, each claim is about one tree.
  exact {
    idle := fun _ => hrecord
    misplaced := by
      intro fault hfault
      rw [hrecord] at hfault
      cases hfault
    world_eq := by rw [hrecord]
    process_eq := by rw [hfiles]
    marked := fun hok => absurd hok hfirst
    unmarked := by
      intro _ l permissions bytes
      rw [hfiles]
    kept := by
      intro l node hnode
      rw [hfiles]
      exact Or.inl hnode
    added := by
      intro l node hnone hnode
      rw [hfiles] at hnode
      cases hnone.symm.trans hnode }

/-- An attempt to leave a marker changes nothing but that. -/
theorem changesOnlyMarker_of_run (hrun : d.verdict = .run) (hmarker : d.marker = some marker) :
    ChangesOnlyMarker d w := by
  have hattempt := attempt_record (w := w) hrun hmarker
  -- All that is claimed can be read off the way in which the attempt has ended.
  exact {
    idle := by
      rintro (hskip | hnone)
      · cases hrun.symm.trans hskip
      · cases hmarker.symm.trans hnone
    misplaced := by
      intro fault hfault
      rw [hfault] at hattempt
      exact ⟨marker, hmarker, hattempt.misplaced⟩
    world_eq := rfl
    process_eq := hattempt.process_eq
    marked := by
      intro hok
      rw [hok] at hattempt
      obtain ⟨l, permissions, hlocate⟩ := hattempt.exists_locate
      have hstat : (record d w).2.files.stat marker.text = .ok (.file permissions []) := by
        rw [FileSystem.stat, hlocate]
        rfl
      refine ⟨marker, l, permissions, hmarker, ⟨hok, marker, hmarker, hlocate⟩, hstat, ?_⟩
      rw [FileSystem.isPresent, FileSystem.probe, hstat]
    unmarked := fun hne _ _ _ => hattempt.nodeAt_eq_file_iff hne
    kept := by
      intro l node hnode
      refine (hattempt.kept hnode).imp_right ?_
      rintro ⟨permissions, bytes, rfl, hok, hlocate, hempty⟩
      exact ⟨permissions, bytes, rfl, ⟨hok, marker, hmarker, hlocate⟩, hempty⟩
    added := by
      intro l node hnone hnode
      refine (hattempt.added hnone hnode).imp ?_ ?_
      · rintro ⟨hnew, q, hq, hleads⟩
        exact ⟨hnew, marker, q, hmarker, hq, hleads⟩
      · rintro ⟨hnew, hok, hlocate⟩
        exact ⟨hnew, hok, marker, hmarker, hlocate⟩ }

/-- **Recording a conversion changes nothing but its marker**, and adds nothing but that and the
directories on the way to it. -/
theorem record_changesOnlyMarker (d : Decision) (w : World) : ChangesOnlyMarker d w := by
  rcases d.attempt_or_idle with ⟨marker, hrun, hmarker⟩ | hidle
  · exact changesOnlyMarker_of_run hrun hmarker
  · exact changesOnlyMarker_of_idle hidle

end Guard

end ConvertOnce
