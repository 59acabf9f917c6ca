import ConvertOnce.Proofs.FileSystem.Leads
import ConvertOnce.Proofs.Path.Canonical
import ConvertOnce.Proofs.Path.Directory

/-!
# The directory that holds a file

The last name of a path that leads somewhere is looked up in a directory (`FileSystem.HeldIn`), and
the directory part of the text of the path leads to that very directory, whatever links there are on
the way (`FileSystem.HeldIn.stat_directoryText`).

A package is protected when its manifest or that directory may not be written
(`FileSystem.HeldIn.isProtectedPackage_text`).  Any other package can be rewritten: its manifest can
be overwritten, and new names can be added beside it (`FileSystem.rewritable_of_not_protected`).
-/

namespace ConvertOnce.FileSystem

variable {fs : FileSystem} {p d : Path} {here l : Location} {permissions : Permissions}
  {node : Node} {name path : String} {spot : Spot} {follow : Bool}

/-- The last name of a path is looked up in the directory at the location. -/
structure HeldIn (fs : FileSystem) (p : Path) (here : Location) (permissions : Permissions) :
    Prop where
  /-- The path to the directory leads there. -/
  leads : fs.Leads p.parent here
  /-- It is a directory. -/
  nodeAt_eq : fs.tree.nodeAt here = some (.directory permissions)
  /-- Names may be looked up in it. -/
  canSearch : permissions.canSearch = true

/-- The last name of a path that can be resolved is looked up in a directory. -/
theorem exists_heldIn_of_locate (hparts : p.parts ≠ []) (h : fs.locate follow p.text = .ok spot) :
    ∃ here permissions, fs.HeldIn p here permissions := by
  obtain ⟨-, -, hwalk⟩ := (locate_text_eq_ok_iff hparts).1 h
  rw [Path.parts_eq_parent_concat_name hparts] at hwalk
  obtain ⟨here, n, hn, hwalks, hlast⟩ :=
    FileTree.exists_walks_of_walk_append (List.cons_ne_nil _ _) hwalk
  obtain ⟨permissions, hnode, hcan⟩ := FileTree.searchable_of_walk hlast
  exact ⟨here, permissions, ⟨by rw [hnode]; rfl, n, hn, hwalks⟩, hnode, hcan⟩

/-- What a path leads to is held in a directory. -/
theorem exists_heldIn (hparts : p.parts ≠ []) (h : fs.Leads p l) :
    ∃ here permissions, fs.HeldIn p here permissions := by
  have hname := Path.parts_eq_parent_concat_name hparts
  obtain ⟨here, n, hleads, hwalks⟩ := h.split (show p.parent.anchor = p.anchor from rfl) hname.symm
  obtain ⟨permissions, hnode, hcan⟩ := hwalks.searchable
  exact ⟨here, permissions, hleads, hnode, hcan⟩

theorem HeldIn.searchable (h : fs.HeldIn p here permissions) : fs.tree.Searchable here :=
  ⟨permissions, h.nodeAt_eq, h.canSearch⟩

/-- The path to a directory is accepted with the paths of what is below it. -/
theorem Accepts.of_isAbove {q : Path} (h : Accepts p) (hq : q.IsAbove p) : Accepts q := by
  obtain ⟨hnul, hsize⟩ := h
  have hsub : q.parts.Sublist p.parts := hq.isPrefix.sublist
  have hle := Path.utf8ByteSize_text_le hq.anchor_eq hsub
  refine ⟨?_, by omega⟩
  intro hnul'
  obtain ⟨part, hpart, hbad⟩ := Path.hasNul_text.1 hnul'
  exact hnul (Path.hasNul_text.2 ⟨part, hsub.subset hpart, hbad⟩)

/-- **The path above leads to the directory in which the last name is looked up.** -/
theorem HeldIn.stat_parent (h : fs.HeldIn p here permissions) (haccepts : Accepts p) :
    fs.stat p.parent.text = .ok (.directory permissions) := by
  by_cases hparent : p.parent.parts = []
  · have hnode := h.nodeAt_eq
    have hsearch := h.searchable
    obtain ⟨-, n, -, hwalks⟩ := h.leads
    rw [hparent] at hwalks
    cases hwalks
    rw [stat, locate_text_of_parts_eq_nil hparent (fun _ => hsearch) hnode]
    rfl
  · have hparentAccepts := haccepts.of_isAbove (Path.IsAbove.of_parent (.refl p.parent))
    exact (stat_text_eq_ok_iff hparent).2 ⟨hparentAccepts, here, h.leads, h.nodeAt_eq⟩

/-- **The directory part of a path leads to the directory that holds what the path leads to.** -/
theorem HeldIn.stat_directoryText (h : fs.HeldIn p here permissions) (haccepts : Accepts p)
    (hparts : p.parts ≠ []) (hne : directoryText p.text ≠ "") :
    fs.stat (directoryText p.text) = .ok (.directory permissions) := by
  rw [Path.directoryText_eq_parent_text hparts hne]
  exact h.stat_parent haccepts

/-! ### Protected packages -/

theorem canWrite_of_stat (h : fs.stat path = .ok node) : fs.canWrite path = .ok node.canWrite := by
  rw [canWrite, h]

/-- What may be written is there. -/
theorem exists_of_canWrite (h : fs.canWrite path = .ok true) :
    ∃ node, fs.stat path = .ok node ∧ node.canWrite = true := by
  rw [canWrite] at h
  cases hstat : fs.stat path with
  | ok node =>
    rw [hstat] at h
    exact ⟨node, rfl, Except.ok.inj h⟩
  | error fault =>
    rw [hstat] at h
    cases fault <;> cases h

/-- The manifest is asked for first, and the directory only when that may be written. -/
theorem isProtectedPackage_eq (fs : FileSystem) (manifest : String) :
    fs.isProtectedPackage manifest =
      match fs.canWrite manifest with
      | .ok true => (!·) <$> fs.canWrite (directoryText manifest)
      | .ok false => .ok true
      | .error fault => .error fault := by
  rw [isProtectedPackage, isProtected, isProtected]
  cases fs.canWrite manifest with
  | error fault => rfl
  | ok writable =>
    cases writable with
    | false => rfl
    | true => cases fs.canWrite (directoryText manifest) with
      | error fault => rfl
      | ok writable => cases writable <;> rfl

/-- **A package is protected when its manifest or the directory that holds it may not be
written.** -/
theorem HeldIn.isProtectedPackage_text (h : fs.HeldIn p here permissions) (haccepts : Accepts p)
    (hparts : p.parts ≠ []) (hne : directoryText p.text ≠ "") (hstat : fs.stat p.text = .ok node) :
    fs.isProtectedPackage p.text = .ok !(node.canWrite && permissions.canWrite) := by
  have hdirectory := canWrite_of_stat (h.stat_directoryText haccepts hparts hne)
  rw [isProtectedPackage_eq, canWrite_of_stat hstat, hdirectory]
  cases node.canWrite with
  | false => rfl
  | true => rfl

/-- A package that is not protected has a manifest and a directory that may be written. -/
theorem canWrite_of_not_protected {manifest : String}
    (h : fs.isProtectedPackage manifest = .ok false) :
    fs.canWrite manifest = .ok true ∧ fs.canWrite (directoryText manifest) = .ok true := by
  rw [isProtectedPackage_eq] at h
  split at h
  · next hmanifest =>
    obtain ⟨writable, hwritable, hnot⟩ := map_eq_ok_iff.1 h
    obtain rfl : writable = true := by simpa using hnot
    exact ⟨hmanifest, hwritable⟩
  · cases h
  · cases h

/-! ### Names in a directory -/

/-- A name that can be given to something new in a directory: it is an ordinary name, neither it nor
its path is too long, and nothing has it. -/
structure IsVacant (fs : FileSystem) (d : Path) (name : String) : Prop where
  isPart : IsPart name
  isName : FileTree.IsName name
  accepts : Accepts (d / name)
  absent : ∀ node, fs.lstat (d / name).text ≠ .ok node

/-- A name is looked up in the directory to which the path before it leads. -/
theorem locate_div_eq_ok (hd : fs.Leads d here) (hsearch : fs.tree.Searchable here)
    (hpart : IsPart name) (haccepts : Accepts (d / name))
    (hwalk : ∀ links, fs.tree.walk follow links here [name] = .ok spot) :
    fs.locate follow (d / name).text = .ok spot := by
  have hparts : (d / name).parts = d.parts ++ [name] := Path.parts_div_of_isPart hpart
  have hstart : fs.startOf (d / name) = fs.startOf d := by
    rw [startOf, startOf, Path.isAbsolute, Path.isAbsolute, Path.anchor_div_of_isPart hpart]
  obtain ⟨-, n, hn, hwalks⟩ := id hd
  rw [locate_text_eq_ok_iff (by simp [hparts]), hstart, hparts]
  refine ⟨haccepts, ?_, ?_⟩
  -- A path without parts leads to where it starts, and there is a directory there.
  · by_cases hnil : d.parts = []
    · rw [hnil] at hwalks
      cases hwalks
      obtain ⟨permissions, hnode, -⟩ := hsearch
      rw [hnode]
      rfl
    · exact hd.isSome_startOf hnil
  · rw [FileTree.walk_append hwalks hn (Or.inl (by simp))]
    exact hwalk _

/-- Nothing in the directory has a vacant name. -/
theorem IsVacant.nodeAt_eq_none (h : fs.IsVacant d name) (hd : fs.Leads d here)
    (hsearch : fs.tree.Searchable here) : fs.tree.nodeAt (name :: here) = none := by
  cases hnode : fs.tree.nodeAt (name :: here) with
  | none => rfl
  | some node =>
    have hlocate : fs.locate false (d / name).text = .ok (.node (name :: here) node) :=
      locate_div_eq_ok hd hsearch h.isPart h.accepts fun _ =>
        FileTree.walk_named hsearch h.isName hnode
    refine absurd ?_ (h.absent node)
    rw [lstat, hlocate]
    rfl

theorem IsVacant.locate_eq (h : fs.IsVacant d name) (hd : fs.Leads d here)
    (hsearch : fs.tree.Searchable here) :
    fs.locate follow (d / name).text = .ok (.free here name) :=
  locate_div_eq_ok hd hsearch h.isPart h.accepts fun _ =>
    FileTree.walk_free hsearch h.isName (h.nodeAt_eq_none hd hsearch)

/-! ### Packages that can be rewritten -/

/-- The package of a manifest can be rewritten: a manifest that is a file can be overwritten, and in
its directory files and directories can be made under every vacant name. -/
structure Rewritable (fs : FileSystem) (manifest : String) : Prop where
  overwrites : ∀ permissions old, fs.stat manifest = .ok (.file permissions old) →
    ∀ bytes, ∃ fs', fs.write manifest bytes = .ok fs'
  addsFile : ∀ name, fs.IsVacant (.ofString (directoryText manifest)) name →
    ∀ bytes, ∃ fs', fs.write (Path.ofString (directoryText manifest) / name).text bytes = .ok fs'
  addsDirectory : ∀ name, fs.IsVacant (.ofString (directoryText manifest)) name →
    ∃ fs', fs.makeDirectory (Path.ofString (directoryText manifest) / name).text = .ok fs'

/-- A file that may be written can be overwritten. -/
theorem exists_write_of_stat {old : Bytes} (hparts : p.parts ≠ [])
    (hstat : fs.stat p.text = .ok (.file permissions old)) (hcan : permissions.canWrite = true)
    (bytes : Bytes) : ∃ fs', fs.write p.text bytes = .ok fs' := by
  obtain ⟨haccepts, l, hleads, hnode⟩ := (stat_text_eq_ok_iff hparts).1 hstat
  obtain ⟨-, n, hn, hwalks⟩ := id hleads
  have hlocate : fs.locate true p.text = .ok (.node l (.file permissions old)) :=
    (locate_text_eq_ok_iff hparts).2
      ⟨haccepts, hleads.isSome_startOf hparts, FileTree.walk_of_walks hwalks hn hnode⟩
  rw [write, hlocate, ok_bind]
  cases l with
  | nil => cases hnode
  | cons name directory =>
    dsimp only
    rw [if_pos hcan]
    exact ⟨_, rfl⟩

/-- **A package that is not protected can be rewritten.** -/
theorem rewritable_of_not_protected (hparts : p.parts ≠ [])
    (h : fs.isProtectedPackage p.text = .ok false) : fs.Rewritable p.text := by
  obtain ⟨hmanifest, hdirectory⟩ := canWrite_of_not_protected h
  obtain ⟨node, hstat, hwritable⟩ := exists_of_canWrite hmanifest
  obtain ⟨directory, hopen, hadd⟩ := exists_of_canWrite hdirectory
  have hne : directoryText p.text ≠ "" := by
    intro hempty
    rw [hempty] at hopen
    cases hopen
  obtain ⟨haccepts, l, hleads, -⟩ := (stat_text_eq_ok_iff hparts).1 hstat
  obtain ⟨here, permissions, hheld⟩ := exists_heldIn hparts hleads
  -- The directory of the manifest is asked for by the text before the last slash, and this leads to
  -- the directory that holds what the manifest leads to.
  rw [hheld.stat_directoryText haccepts hparts hne] at hopen
  cases hopen
  have hparent : Path.ofString (directoryText p.text) = p.parent := by
    rw [Path.directoryText_eq_parent_text hparts hne, Path.ofString_text]
  have hcan : fs.canAddTo here = true := by
    rw [canAddTo, hheld.nodeAt_eq]
    exact hadd
  refine ⟨?_, ?_, ?_⟩
  · intro permissions old hfile bytes
    cases hstat.symm.trans hfile
    exact exists_write_of_stat hparts hstat hwritable bytes
  · rw [hparent]
    intro name hvacant bytes
    rw [write, hvacant.locate_eq hheld.leads hheld.searchable, ok_bind]
    dsimp only
    rw [if_pos hcan]
    exact ⟨_, rfl⟩
  · rw [hparent]
    intro name hvacant
    rw [makeDirectory, hvacant.locate_eq hheld.leads hheld.searchable, ok_bind]
    dsimp only
    rw [if_pos hcan]
    exact ⟨_, rfl⟩

end ConvertOnce.FileSystem
