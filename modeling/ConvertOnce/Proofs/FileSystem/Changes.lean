import ConvertOnce.Proofs.FileSystem.Leads

/-!
# What the making of directories changes

A changing call puts one node at one location (`FileSystem.Sets`).  Making a directory puts it where
there was nothing, so that making the directories on the way to a path leaves every node exactly as
it was (`FileSystem.ensureDirectory_addsDirectories`).
-/

namespace ConvertOnce.FileSystem

variable {fs fs' fs'' : FileSystem} {p q : Path} {l k : Location} {node : Node}

/-- One node has been put at a location, and nothing else has changed. -/
structure Sets (fs : FileSystem) (l : Location) (node : Node) (fs' : FileSystem) : Prop where
  process_eq : fs'.toProcess = fs.toProcess
  nodeAt_eq : ∀ k, fs'.tree.nodeAt k = if k = l then some node else fs.tree.nodeAt k

theorem Sets.cwd_eq (h : Sets fs l node fs') : fs'.cwd = fs.cwd := congrArg Process.cwd h.process_eq

theorem Sets.nodeAt_self (h : Sets fs l node fs') : fs'.tree.nodeAt l = some node := by
  rw [h.nodeAt_eq, if_pos rfl]

theorem Sets.nodeAt_of_ne (h : Sets fs l node fs') (hne : k ≠ l) :
    fs'.tree.nodeAt k = fs.tree.nodeAt k := by
  rw [h.nodeAt_eq, if_neg hne]

theorem sets_place {name : String} {directory : Location}
    (hdirectory : IsDirectory (fs.tree.nodeAt directory))
    (hnot : ¬ IsDirectory (fs.tree.nodeAt (name :: directory))) :
    Sets fs (name :: directory) node (fs.place name directory node) :=
  ⟨rfl, FileTree.nodeAt_place_of_not_isDirectory hdirectory hnot⟩

theorem sets_place_of_free {name : String} {directory : Location}
    (hadd : fs.canAddTo directory = true) (hnone : fs.tree.nodeAt (name :: directory) = none) :
    Sets fs (name :: directory) node (fs.place name directory node) := by
  apply sets_place (isDirectory_of_canAddTo hadd)
  rintro ⟨permissions, hdirectory⟩
  cases hnone.symm.trans hdirectory

/-! ### Making a directory -/

/-- A directory is made where the path leads then, and nothing was. -/
theorem exists_sets_of_makeDirectory (h : fs.makeDirectory p.text = .ok fs') :
    ∃ l, fs.tree.nodeAt l = none ∧ Sets fs l (.directory .newDirectory) fs' ∧ fs'.Leads p l := by
  have hplaces := places_of_makeDirectory h
  have hparts : p.parts ≠ [] := fun hparts => makeDirectory_ne_ok hparts h
  obtain ⟨spot, hlocate, hspot⟩ := bind_eq_ok_iff.1 h
  obtain ⟨-, -, hwalk⟩ := (locate_text_eq_ok_iff hparts).1 hlocate
  -- A directory is only made under a name that is free.
  cases spot with
  | node location node => cases hspot
  | free directory name =>
    simp only at hspot
    split at hspot
    · next hadd =>
      cases hspot
      have hnone := FileTree.nodeAt_of_walk_free hwalk
      have hsets : Sets fs (name :: directory) (.directory .newDirectory) _ :=
        sets_place_of_free hadd hnone
      refine ⟨name :: directory, hnone, hsets, hplaces.new _ ⟨hnone, ?_⟩⟩
      rw [hsets.nodeAt_self]
      rfl
    · cases hspot

/-- Directories were added for a path, and nothing else has changed. -/
structure AddsDirectories (fs : FileSystem) (p : Path) (fs' : FileSystem) : Prop where
  process_eq : fs'.toProcess = fs.toProcess
  /-- Every node is exactly as it was. -/
  keeps : ∀ l node, fs.tree.nodeAt l = some node → fs'.tree.nodeAt l = some node
  /-- What is new is a directory, to which the path or one above it leads. -/
  new : ∀ l node, fs.tree.nodeAt l = none → fs'.tree.nodeAt l = some node →
    node = .directory .newDirectory ∧ ∃ q : Path, q.IsAbove p ∧ fs'.Leads q l

namespace AddsDirectories

theorem refl (fs : FileSystem) (p : Path) : AddsDirectories fs p fs where
  process_eq := rfl
  keeps _ _ h := h
  new l node hnone hnode := by cases hnone.symm.trans hnode

theorem grows (h : AddsDirectories fs p fs') : Grows fs fs' where
  process_eq := h.process_eq
  tree := {
    keeps := fun l node hnode => ⟨node, h.keeps l node hnode, rfl⟩
    link := by
      intro l target hlink
      cases hnode : fs.tree.nodeAt l with
      | some node => rw [← hlink, h.keeps l node hnode]
      | none => cases (h.new l _ hnode hlink).1 }

theorem trans (h : AddsDirectories fs p fs') (h' : AddsDirectories fs' p fs'') :
    AddsDirectories fs p fs'' where
  process_eq := h'.process_eq.trans h.process_eq
  keeps l node hnode := h'.keeps l node (h.keeps l node hnode)
  new l node hnone hnode := by
    cases hmid : fs'.tree.nodeAt l with
    | none => exact h'.new l node hmid hnode
    | some node' =>
      obtain rfl : node' = node := Option.some.inj ((h'.keeps l node' hmid).symm.trans hnode)
      obtain ⟨hnew, q, hq, hleads⟩ := h.new l node' hnone hmid
      exact ⟨hnew, q, hq, h'.grows.leads hleads⟩

theorem of_makeDirectory (hq : q.IsAbove p) (h : fs.makeDirectory q.text = .ok fs') :
    AddsDirectories fs p fs' := by
  obtain ⟨top, hnone, hsets, hleads⟩ := exists_sets_of_makeDirectory h
  refine ⟨hsets.process_eq, ?_, ?_⟩
  · intro l node hnode
    rw [hsets.nodeAt_of_ne, hnode]
    rintro rfl
    cases hnone.symm.trans hnode
  · intro l node hnode hnew
    -- Only the new directory was not there.
    obtain rfl : l = top := by
      by_contra hne
      rw [hsets.nodeAt_of_ne hne, hnode] at hnew
      cases hnew
    rw [hsets.nodeAt_self] at hnew
    exact ⟨(Option.some.inj hnew).symm, q, hq, hleads⟩

end AddsDirectories

/-- **Making the directories on the way to a path** changes nothing that there was. -/
theorem ensureDirectory_addsDirectories (fs : FileSystem) (p : Path) :
    AddsDirectories fs p (fs.ensureDirectory p).2 :=
  ensureDirectory_induction (r := fun fs fs' => AddsDirectories fs p fs') (fun fs => .refl fs p)
    (fun _ _ _ h h' => h.trans h') (fun _ hq _ _ hmake => .of_makeDirectory hq hmake) fs

end ConvertOnce.FileSystem
