import ConvertOnce.Proofs.FileSystem.Changes
import ConvertOnce.Proofs.FileTree.Overwrite

/-!
# What writing changes

Where a path can be written, at which location and with which permissions, is `FileSystem.WritesAt`.
Writing puts a file there and changes nothing else (`FileSystem.exists_sets_of_write`).  The file is
found by all paths that could be written there, and writing to one path does not change where
another one can be written (`FileSystem.WritesAt.iff_of_sets`).
-/

namespace ConvertOnce.FileSystem

variable {fs fs' : FileSystem} {p q : Path} {l k : Location} {node : Node}
  {permissions permissions' : Permissions} {bytes : Bytes} {follow : Bool} {spot : Spot}

/-! ### Where a path can be written -/

/-- Writing to the path gives the location a file with these permissions. -/
inductive WritesAt (fs : FileSystem) (p : Path) : Location → Permissions → Prop
  /-- A file is made under a free name. -/
  | new {name : String} {directory : Location}
      (locate_eq : fs.locate true p.text = .ok (.free directory name))
      (canAdd : fs.canAddTo directory = true) : WritesAt fs p (name :: directory) .newFile
  /-- A file that is there is overwritten, and keeps its permissions. -/
  | existing {l : Location} {permissions : Permissions} {old : Bytes}
      (locate_eq : fs.locate true p.text = .ok (.node l (.file permissions old)))
      (canWrite : permissions.canWrite = true) : WritesAt fs p l permissions

theorem nodeAt_of_locate_free {name : String} {directory : Location} (hparts : p.parts ≠ [])
    (h : fs.locate follow p.text = .ok (.free directory name)) :
    fs.tree.nodeAt (name :: directory) = none := by
  obtain ⟨-, -, hwalk⟩ := (locate_text_eq_ok_iff hparts).1 h
  exact FileTree.nodeAt_of_walk_free hwalk

theorem nodeAt_of_locate (hparts : p.parts ≠ []) (h : fs.locate true p.text = .ok (.node l node)) :
    fs.tree.nodeAt l = some node := by
  obtain ⟨-, -, hwalk⟩ := (locate_text_eq_ok_iff hparts).1 h
  obtain ⟨-, -, -, hnode⟩ := FileTree.walks_of_walk hwalk
  exact hnode

/-- A path without parts leads to a directory, if it leads anywhere. -/
theorem exists_directory_of_locate (hparts : p.parts = []) (h : fs.locate true p.text = .ok spot) :
    ∃ l permissions, spot = .node l (.directory permissions) := by
  -- Such a path is written `.` or as its anchor, and either leads to a directory.
  by_cases hanchor : p.anchor = .relative
  · have htext : p.text = "." := by rw [Path.text, if_pos ⟨hanchor, hparts⟩]
    rw [locate_eq_mapError (not_hasNul_of_locate h), mapError_eq_ok_iff, htext, resolve_dot] at h
    split at h
    · cases h
    · have hsearch := FileTree.searchable_of_walk h
      obtain ⟨permissions, hnode, -⟩ := id hsearch
      rw [FileTree.walk_dot hsearch, FileTree.walk_nil, hnode] at h
      exact ⟨_, permissions, (Except.ok.inj h).symm⟩
  · have htext : p.text = p.anchor.text := by
      rw [Path.text, if_neg fun hblank => hanchor hblank.1, hparts]
      exact String.append_empty
    rw [htext, locate_anchor fs true hanchor] at h
    exact ⟨[], fs.tree.root, (Except.ok.inj h).symm⟩

namespace WritesAt

/-- A path without parts cannot be written. -/
theorem parts_ne_nil (h : fs.WritesAt p l permissions) : p.parts ≠ [] := by
  intro hparts
  cases h with
  | new hlocate =>
    obtain ⟨_, _, hspot⟩ := exists_directory_of_locate hparts hlocate
    cases hspot
  | existing hlocate =>
    obtain ⟨_, _, hspot⟩ := exists_directory_of_locate hparts hlocate
    cases hspot

/-- There is nothing at the location, or a file with these permissions. -/
theorem old (h : fs.WritesAt p l permissions) :
    fs.tree.nodeAt l = none ∧ permissions = .newFile ∨
      ∃ old, fs.tree.nodeAt l = some (.file permissions old) := by
  have hparts := h.parts_ne_nil
  cases h with
  | new hlocate => exact Or.inl ⟨nodeAt_of_locate_free hparts hlocate, rfl⟩
  | existing hlocate => exact Or.inr ⟨_, nodeAt_of_locate hparts hlocate⟩

/-- A file at such a location could be overwritten. -/
theorem canWrite (h : fs.WritesAt p l permissions) : permissions.canWrite = true := by
  cases h with
  | new => rfl
  | existing _ hcan => exact hcan

/-- Writing puts a file where the path can be written. -/
theorem exists_write (h : fs.WritesAt p l permissions) (bytes : Bytes) :
    ∃ fs', fs.write p.text bytes = .ok fs' ∧ Sets fs l (.file permissions bytes) fs' := by
  have hparts := h.parts_ne_nil
  cases h with
  | @new name directory hlocate hadd =>
    have hnone := nodeAt_of_locate_free hparts hlocate
    refine ⟨fs.place name directory (.file .newFile bytes), ?_, sets_place_of_free hadd hnone⟩
    rw [write, hlocate, ok_bind]
    dsimp only
    rw [if_pos hadd]
  | @existing _ _ old hlocate hcan =>
    have hnode := nodeAt_of_locate hparts hlocate
    cases l with
    | nil => cases hnode
    | cons name directory =>
      have hdirectory := FileTree.isDirectory_of_nodeAt hnode
      have hnot := FileTree.not_isDirectory_of_eq_file hnode
      refine ⟨fs.place name directory (.file permissions bytes), ?_, sets_place hdirectory hnot⟩
      rw [write, hlocate, ok_bind]
      dsimp only
      rw [if_pos hcan]

/-- The permissions depend on the location alone. -/
theorem permissions_eq (h : fs.WritesAt p l permissions) (h' : fs.WritesAt q l permissions') :
    permissions = permissions' := by
  rcases h.old with ⟨hnone, hnew⟩ | ⟨old, hnode⟩
  · rcases h'.old with ⟨-, hnew'⟩ | ⟨old', hnode'⟩
    · rw [hnew, hnew']
    · cases hnone.symm.trans hnode'
  · rcases h'.old with ⟨hnone', -⟩ | ⟨old', hnode'⟩
    · cases hnone'.symm.trans hnode
    · cases hnode.symm.trans hnode'
      rfl

theorem unique (h : fs.WritesAt p l permissions) (h' : fs.WritesAt p k permissions') :
    l = k ∧ permissions = permissions' := by
  cases h with
  | new hlocate =>
    cases h' with
    | new hlocate' =>
      cases hlocate.symm.trans hlocate'
      exact ⟨rfl, rfl⟩
    | existing hlocate' => cases hlocate.symm.trans hlocate'
  | existing hlocate =>
    cases h' with
    | new hlocate' => cases hlocate.symm.trans hlocate'
    | existing hlocate' =>
      cases hlocate.symm.trans hlocate'
      exact ⟨rfl, rfl⟩

end WritesAt

/-- A path that was written could be written. -/
theorem exists_writesAt_of_write (h : fs.write p.text bytes = .ok fs') :
    ∃ l permissions, fs.WritesAt p l permissions := by
  obtain ⟨spot, hlocate, hspot⟩ := bind_eq_ok_iff.1 h
  split at hspot
  · next directory name =>
    split at hspot
    · next hadd => exact ⟨_, _, .new hlocate hadd⟩
    · cases hspot
  · next name directory permissions old =>
    split at hspot
    · next hcan => exact ⟨_, _, .existing hlocate hcan⟩
    · cases hspot
  · cases hspot

/-- **Writing puts a file where the path can be written, and changes nothing else.** -/
theorem exists_sets_of_write (h : fs.write p.text bytes = .ok fs') :
    ∃ l permissions, fs.WritesAt p l permissions ∧ Sets fs l (.file permissions bytes) fs' := by
  obtain ⟨l, permissions, hwrites⟩ := exists_writesAt_of_write h
  obtain ⟨fs'', hwrite, hsets⟩ := hwrites.exists_write bytes
  obtain rfl : fs'' = fs' := Except.ok.inj (hwrite.symm.trans h)
  exact ⟨l, permissions, hwrites, hsets⟩

/-! ### Resolving a path after a file was written -/

/-- A file has been put at a location where a path can be written. -/
theorem WritesAt.putsFile (h : fs.WritesAt p l permissions)
    (hsets : Sets fs l (.file permissions bytes) fs') :
    fs.tree.PutsFile l (.file permissions bytes) fs'.tree where
  isFile := rfl
  old node hnode := by
    rcases h.old with ⟨hnone, -⟩ | ⟨old, hfile⟩
    · cases hnone.symm.trans hnode
    · cases hfile.symm.trans hnode
      rfl
  nodeAt_eq := hsets.nodeAt_eq

theorem after_resolve (hparts : q.parts ≠ []) (hcwd : fs'.cwd = fs.cwd)
    (hputs : fs.tree.PutsFile l node fs'.tree) :
    FileTree.After l node (fs.resolve follow q.text) (fs'.resolve follow q.text) := by
  have hstart : fs'.startOf q = fs.startOf q := by rw [startOf, startOf, hcwd]
  rw [resolve_text hparts, resolve_text hparts, hstart]
  by_cases hlong : q.text.utf8ByteSize > maxPathBytes
  · rw [if_pos hlong, if_pos hlong]
    exact .refused _ _
  rw [if_neg hlong, if_neg hlong]
  by_cases hnone : fs.tree.nodeAt (fs.startOf q) = none
  · -- The file itself may have been put where the walk starts, but no name is looked up in it.
    have hnot : ¬ IsDirectory (fs'.tree.nodeAt (fs.startOf q)) :=
      hputs.not_isDirectory (FileTree.not_isDirectory_of_eq_none hnone)
    obtain ⟨name, rest, hcons⟩ := List.exists_cons_of_ne_nil hparts
    obtain ⟨errno, herror⟩ : ∃ errno, fs'.tree.walk follow FileTree.maxLinks (fs.startOf q)
        (name :: rest) = .error errno := FileTree.walk_of_not_isDirectory hnot
    rw [if_pos (by rw [hnone]; rfl), hcons, herror]
    split <;> exact .refused _ _
  · have hsome := Option.isSome_iff_ne_none.2 hnone
    have hnone' := Option.isSome_iff_ne_none.1 (hputs.isSome_nodeAt hsome)
    rw [if_neg (by simpa using hnone), if_neg (by simpa using hnone')]
    exact FileTree.after_walk hputs hsome

/-- Writing makes the files grow. -/
theorem WritesAt.grows (h : fs.WritesAt p l permissions)
    (hsets : Sets fs l (.file permissions bytes) fs') : Grows fs fs' where
  process_eq := hsets.process_eq
  tree := {
    keeps := by
      intro k node hnode
      -- The location was free or that of a file, and a file stays a file.
      by_cases heq : k = l
      · subst heq
        rcases h.old with ⟨hnone, -⟩ | ⟨old, hfile⟩
        · cases hnone.symm.trans hnode
        · obtain rfl := Option.some.inj (hfile.symm.trans hnode)
          exact ⟨_, hsets.nodeAt_self, rfl⟩
      · rw [hsets.nodeAt_of_ne heq]
        exact ⟨node, hnode, rfl⟩
    link := by
      intro k target hlink
      by_cases heq : k = l
      · subst heq
        cases hsets.nodeAt_self.symm.trans hlink
      · rwa [hsets.nodeAt_of_ne heq] at hlink }

/-- **A file that was written is where its path leads**, and so do the paths that led to what it
replaces; every other path leads where it led. -/
theorem after_locate (hparts : q.parts ≠ []) (hcwd : fs'.cwd = fs.cwd)
    (hputs : fs.tree.PutsFile l node fs'.tree) :
    FileTree.After l node (fs.locate follow q.text) (fs'.locate follow q.text) := by
  by_cases hnul : HasNul q.text
  · rw [locate_of_hasNul hnul, locate_of_hasNul hnul]
    exact .refused _ _
  · rw [locate_eq_mapError hnul, locate_eq_mapError hnul]
    have hresolve : FileTree.After l node (fs.resolve follow q.text) (fs'.resolve follow q.text) :=
      after_resolve hparts hcwd hputs
    exact hresolve.mapError fun errno => Fault.system errno q.text

/-- Names can be added where they could be added before. -/
theorem canAddTo_of_putsFile (hputs : fs.tree.PutsFile l node fs'.tree) (directory : Location) :
    fs'.canAddTo directory = fs.canAddTo directory := by
  rw [canAddTo, canAddTo, hputs.nodeAt_eq]
  by_cases heq : directory = l
  · subst heq
    have hfile := hputs.isFile
    have hold := hputs.old
    rw [if_pos rfl]
    cases hnode : fs.tree.nodeAt directory with
    | none => cases node <;> cases hfile; rfl
    | some old =>
      have hold := hold old hnode
      cases node <;> cases hfile
      cases old <;> cases hold
      rfl
  · rw [if_neg heq]

namespace WritesAt

/-- A file that was written is where all paths lead that could be written there. -/
theorem locate_of_sets (h : fs.WritesAt p l permissions)
    (hsets : Sets fs l (.file permissions bytes) fs') (h' : fs.WritesAt q l permissions') :
    fs'.locate true q.text = .ok (.node l (.file permissions bytes)) := by
  have hafter : FileTree.After l (.file permissions bytes) (fs.locate true q.text)
      (fs'.locate true q.text) := after_locate h'.parts_ne_nil hsets.cwd_eq (h.putsFile hsets)
  -- The path has led to the location before, and what has led there leads to the new file.
  generalize fs'.locate true q.text = answer at hafter ⊢
  cases h' with
  | new hlocate =>
    rw [hlocate] at hafter
    cases hafter with
    | made => rfl
    | free hne => exact absurd rfl hne
  | existing hlocate =>
    rw [hlocate] at hafter
    cases hafter with
    | replaced => rfl
    | other hne => exact absurd rfl hne

/-- A path that could be written still can be, at the same location. -/
theorem of_sets (h : fs.WritesAt p l permissions)
    (hsets : Sets fs l (.file permissions bytes) fs') (h' : fs.WritesAt q k permissions') :
    fs'.WritesAt q k permissions' := by
  -- A path that was written to leads to the file now. Any other one leads where it has led.
  by_cases heq : k = l
  · subst heq
    have hlocate := h.locate_of_sets hsets h'
    rw [h.permissions_eq h'] at hlocate
    exact .existing hlocate h'.canWrite
  · have hputs := h.putsFile hsets
    have hafter : FileTree.After l (.file permissions bytes) (fs.locate true q.text)
        (fs'.locate true q.text) := after_locate h'.parts_ne_nil hsets.cwd_eq hputs
    generalize hlocate' : fs'.locate true q.text = answer at hafter
    cases h' with
    | new hlocate hadd =>
      rw [hlocate] at hafter
      cases hafter with
      | made heq' => exact absurd heq' heq
      | free => exact .new hlocate' (by rw [canAddTo_of_putsFile hputs, hadd])
    | existing hlocate hcan =>
      rw [hlocate] at hafter
      cases hafter with
      | replaced => exact absurd rfl heq
      | other => exact .existing hlocate' hcan

/-- A path that can be written could be written before, at the same location. -/
theorem to_sets (h : fs.WritesAt p l permissions)
    (hsets : Sets fs l (.file permissions bytes) fs') (h' : fs'.WritesAt q k permissions') :
    fs.WritesAt q k permissions' := by
  have hputs := h.putsFile hsets
  have hafter : FileTree.After l (.file permissions bytes) (fs.locate true q.text)
      (fs'.locate true q.text) := after_locate h'.parts_ne_nil hsets.cwd_eq hputs
  have hparts := h.parts_ne_nil
  have hparts' := h'.parts_ne_nil
  generalize hlocate : fs.locate true q.text = answer at hafter
  cases h' with
  | new hlocate' hadd =>
    rw [hlocate'] at hafter
    rw [canAddTo_of_putsFile hputs] at hadd
    cases hafter with
    | free => exact .new hlocate hadd
  | existing hlocate' hcan =>
    rw [hlocate'] at hafter
    cases hafter with
    | replaced old =>
      have hnode := nodeAt_of_locate hparts' hlocate
      rcases h.old with ⟨hnone, -⟩ | ⟨_, hfile⟩
      · cases hnone.symm.trans hnode
      · obtain rfl := Option.some.inj (hnode.symm.trans hfile)
        exact .existing hlocate hcan
    | made heq =>
      -- Both paths lead to the name that was free then.
      subst heq
      have hnone := nodeAt_of_locate_free hparts' hlocate
      cases h with
      | new _ hadd => exact .new hlocate hadd
      | existing hlocate'' => cases hnone.symm.trans (nodeAt_of_locate hparts hlocate'')
    | other => exact .existing hlocate hcan

/-- **Writing to one path does not change where another one can be written.** -/
theorem iff_of_sets (h : fs.WritesAt p l permissions)
    (hsets : Sets fs l (.file permissions bytes) fs') :
    fs'.WritesAt q k permissions' ↔ fs.WritesAt q k permissions' :=
  ⟨h.to_sets hsets, h.of_sets hsets⟩

end WritesAt

end ConvertOnce.FileSystem
