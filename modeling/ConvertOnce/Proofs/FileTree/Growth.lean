import ConvertOnce.Proofs.FileTree.Walks

/-!
# Trees that grow

A tree grows (`FileTree.Grows`) when every node stays where it is, up to the bytes of a file, and no
link is added.  Placing a node that is no link where there is none makes a tree grow, and so does
giving a file other bytes.  What grows keeps every walk (`FileTree.Grows.walks`), and a name that
was found free is where its path leads once a node has been placed there (`FileTree.walks_of_free`).
-/

namespace ConvertOnce

/-- A node without the bytes of a file. -/
def Node.shape : Node → Node
  | file permissions _ => file permissions []
  | node => node

namespace Node

variable {node node' : Node}

theorem eq_directory_of_shape {permissions : Permissions}
    (h : node.shape = (directory permissions).shape) : node = directory permissions := by
  cases node <;> cases h
  rfl

theorem eq_link_of_shape {target : String} (h : node.shape = (link target).shape) :
    node = link target := by
  cases node <;> cases h
  rfl

theorem isDirectory_of_shape (h : node.shape = node'.shape) :
    node.isDirectory = node'.isDirectory := by
  cases node <;> cases node' <;> cases h <;> rfl

theorem isLink_of_shape (h : node.shape = node'.shape) : node.isLink = node'.isLink := by
  cases node <;> cases node' <;> cases h <;> rfl

end Node

namespace FileTree

variable {t t' t'' : FileTree} {name : String} {node : Node} {above l there : Location}

/-- Every node stays, up to the bytes of a file, and no link is added. -/
structure Grows (t t' : FileTree) : Prop where
  keeps : ∀ l node, t.nodeAt l = some node → ∃ node', t'.nodeAt l = some node' ∧
    node'.shape = node.shape
  link : ∀ l target, t'.nodeAt l = some (.link target) → t.nodeAt l = some (.link target)

/-- Nothing but the bytes of files is different. -/
def EditsBytes (t t' : FileTree) : Prop :=
  ∀ l, (t'.nodeAt l).map Node.shape = (t.nodeAt l).map Node.shape

/-- A location that has got a node. -/
def IsNew (t t' : FileTree) (l : Location) : Prop :=
  t.nodeAt l = none ∧ (t'.nodeAt l).isSome = true

namespace Grows

theorem refl (t : FileTree) : Grows t t :=
  ⟨fun _ node h => ⟨node, h, rfl⟩, fun _ _ h => h⟩

theorem trans (h : Grows t t') (h' : Grows t' t'') : Grows t t'' where
  keeps l node hnode := by
    obtain ⟨node', hnode', hshape⟩ := h.keeps l node hnode
    obtain ⟨node'', hnode'', hshape'⟩ := h'.keeps l node' hnode'
    exact ⟨node'', hnode'', hshape'.trans hshape⟩
  link l target hlink := h.link l target (h'.link l target hlink)

theorem isSome_nodeAt (h : Grows t t') (hnode : (t.nodeAt l).isSome = true) :
    (t'.nodeAt l).isSome = true := by
  obtain ⟨node, hnode⟩ := Option.isSome_iff_exists.1 hnode
  obtain ⟨node', hnode', -⟩ := h.keeps l node hnode
  rw [hnode']
  rfl

theorem searchable (h : Grows t t') (hsearch : t.Searchable l) : t'.Searchable l := by
  obtain ⟨permissions, hnode, hcan⟩ := hsearch
  obtain ⟨node', hnode', hshape⟩ := h.keeps l _ hnode
  rw [Node.eq_directory_of_shape hshape] at hnode'
  exact ⟨permissions, hnode', hcan⟩

/-- **A tree that grows keeps every walk.** -/
theorem walks {n : Nat} {here : Location} {names : List String} (h : Grows t t')
    (hwalks : t.Walks here names there n) : t'.Walks here names there n := by
  induction hwalks with
  | nil here => exact .nil here
  | dot search heq walks ih => exact .dot (h.searchable search) heq ih
  | up search heq walks ih => exact .up (h.searchable search) heq ih
  | link search hname hnode walks ih =>
    obtain ⟨node', hnode', hshape⟩ := h.keeps _ _ hnode
    rw [Node.eq_link_of_shape hshape] at hnode'
    exact .link (h.searchable search) hname hnode' ih
  | step search hname hnode hlink walks ih =>
    obtain ⟨node', hnode', hshape⟩ := h.keeps _ _ hnode
    exact .step (h.searchable search) hname hnode' ((Node.isLink_of_shape hshape).trans hlink) ih

end Grows

/-! ### Edits of bytes -/

theorem EditsBytes.isSome_nodeAt (h : EditsBytes t t') (l : Location) :
    (t'.nodeAt l).isSome = (t.nodeAt l).isSome := by
  have hl := congrArg Option.isSome (h l)
  rwa [Option.isSome_map, Option.isSome_map] at hl

theorem EditsBytes.grows (h : EditsBytes t t') : Grows t t' where
  keeps l node hnode := by
    have hl := h l
    rw [hnode] at hl
    exact Option.map_eq_some_iff.1 hl
  link l target hlink := by
    have hl := h l
    rw [hlink] at hl
    obtain ⟨node, hnode, hshape⟩ := Option.map_eq_some_iff.1 hl.symm
    rw [hnode, Node.eq_link_of_shape hshape]

/-! ### Placing a node -/

/-- Whatever has a location stands in a directory. -/
theorem isDirectory_of_nodeAt (h : t.nodeAt (name :: above) = some node) :
    IsDirectory (t.nodeAt above) :=
  t.isDirectory_above name above (Option.isSome_of_eq_some h)

/-- Where there is nothing there is no directory. -/
theorem not_isDirectory_of_eq_none {found : Option Node} (h : found = none) :
    ¬ IsDirectory found := by
  rintro ⟨permissions, hdirectory⟩
  cases h.symm.trans hdirectory

/-- Where there is a file there is no directory. -/
theorem not_isDirectory_of_eq_file {found : Option Node} {permissions : Permissions}
    {bytes : Bytes} (h : found = some (.file permissions bytes)) : ¬ IsDirectory found := by
  rintro ⟨permissions', hdirectory⟩
  cases h.symm.trans hdirectory

/-- Nothing stands below what is no directory. -/
theorem nodeAt_eq_none_of_isWithin {top : Location} (htop : ¬ IsDirectory (t.nodeAt top))
    (hwithin : Location.isWithin top l = true) (hne : l ≠ top) : t.nodeAt l = none := by
  induction l with
  | nil =>
    have hnil := List.suffix_nil.1 (List.isSuffixOf_iff_suffix.1 hwithin)
    exact absurd hnil.symm hne
  | cons name above ih =>
    have habove : Location.isWithin top above = true := by
      rcases List.suffix_cons_iff.1 (List.isSuffixOf_iff_suffix.1 hwithin) with heq | hsuffix
      · exact absurd heq.symm hne
      · exact List.isSuffixOf_iff_suffix.2 hsuffix
    -- A node here would stand in a directory, which is neither the top nor below it.
    by_contra hnode
    have hdirectory := t.isDirectory_above name above (Option.isSome_iff_ne_none.2 hnode)
    by_cases heq : above = top
    · subst heq
      exact htop hdirectory
    · exact not_isDirectory_of_eq_none (ih habove heq) hdirectory

/-- Placing a node over what is no directory changes nothing else. -/
theorem nodeAt_place_of_not_isDirectory (habove : IsDirectory (t.nodeAt above))
    (htop : ¬ IsDirectory (t.nodeAt (name :: above))) (l : Location) :
    (t.place name above node).nodeAt l = if l = name :: above then some node else t.nodeAt l := by
  rw [nodeAt_place habove]
  by_cases heq : l = name :: above
  · rw [if_pos heq, if_pos heq]
  · rw [if_neg heq, if_neg heq]
    by_cases hsurvives : survives (name :: above) node l = true
    · rw [if_pos hsurvives]
    · rw [if_neg hsurvives]
      have hwithin : Location.isWithin (name :: above) l = true := by
        simp only [survives, Bool.or_eq_true, Bool.not_eq_true', not_or] at hsurvives
        simpa using hsurvives.2
      exact (nodeAt_eq_none_of_isWithin htop hwithin heq).symm

/-- A node that is placed where there was none, or a file with other bytes, makes the tree grow. -/
theorem grows_place (habove : IsDirectory (t.nodeAt above)) (hlink : node.isLink = false)
    (htop : ¬ IsDirectory (t.nodeAt (name :: above)))
    (hold : ∀ old, t.nodeAt (name :: above) = some old → node.shape = old.shape) :
    Grows t (t.place name above node) where
  keeps l old hnode := by
    rw [nodeAt_place_of_not_isDirectory habove htop]
    by_cases heq : l = name :: above
    · rw [if_pos heq]
      rw [heq] at hnode
      exact ⟨node, rfl, hold old hnode⟩
    · rw [if_neg heq]
      exact ⟨old, hnode, rfl⟩
  link l target hnode := by
    rw [nodeAt_place_of_not_isDirectory habove htop] at hnode
    by_cases heq : l = name :: above
    · rw [if_pos heq] at hnode
      cases hnode
      cases hlink
    · rwa [if_neg heq] at hnode

theorem isNew_place (habove : IsDirectory (t.nodeAt above))
    (htop : ¬ IsDirectory (t.nodeAt (name :: above)))
    (h : IsNew t (t.place name above node) l) : l = name :: above := by
  obtain ⟨hnone, hsome⟩ := h
  rw [nodeAt_place_of_not_isDirectory habove htop] at hsome
  by_contra heq
  rw [if_neg heq, hnone] at hsome
  cases hsome

/-! ### Names that were free -/

theorem walks_of_course_free {follow : Bool} {links : Nat} {here : Location}
    {names : List String} {enter : Location → List String → Except Errno Spot} (h : Grows t t')
    (hnode : t'.nodeAt (name :: above) = some node) (hlink : node.isLink = false)
    (henter : ∀ here names, enter here names = .ok (.free above name) →
      ∃ n < links, t'.Walks here names (name :: above) n)
    (hfree : Course t follow enter here names (.ok (.free above name))) :
    ∃ n ≤ links, t'.Walks here names (name :: above) n := by
  -- By induction on the course in the smaller tree. What it looked up is there still, and the name
  -- that it found free is now that of the node.
  generalize hanswer : Except.ok (Spot.free above name) = answer at hfree
  induction hfree with
  | dot hsearch _ ih =>
    obtain ⟨n, hn, hwalks⟩ := ih hanswer
    exact ⟨n, hn, .dot (h.searchable hsearch) rfl hwalks⟩
  | up hsearch _ ih =>
    obtain ⟨n, hn, hwalks⟩ := ih hanswer
    exact ⟨n, hn, .up (h.searchable hsearch) rfl hwalks⟩
  | free hsearch hname =>
    cases hanswer
    exact ⟨0, Nat.zero_le _, .step (h.searchable hsearch) hname hnode hlink (.nil _)⟩
  | link hsearch hname htarget =>
    obtain ⟨n, hn, hwalks⟩ := henter _ _ hanswer.symm
    obtain ⟨node', hnode', hshape⟩ := h.keeps _ _ htarget
    rw [Node.eq_link_of_shape hshape] at hnode'
    exact ⟨n + 1, hn, .link (h.searchable hsearch) hname hnode' hwalks⟩
  | step hsearch hname hnext hnot _ ih =>
    obtain ⟨n, hn, hwalks⟩ := ih hanswer
    obtain ⟨node', hnode', hshape⟩ := h.keeps _ _ hnext
    exact ⟨n, hn, .step (h.searchable hsearch) hname hnode'
      ((Node.isLink_of_shape hshape).trans hnot) hwalks⟩
  | arrived | lost | blocked | closed | tooLong | missing | kept => cases hanswer

/-- A name that was found free is where its path leads once it is that of a node. -/
theorem walks_of_free {follow : Bool} {links : Nat} {here : Location} {names : List String}
    (h : Grows t t') (hnode : t'.nodeAt (name :: above) = some node) (hlink : node.isLink = false)
    (hfree : t.walk follow links here names = .ok (.free above name)) :
    ∃ n ≤ links, t'.Walks here names (name :: above) n := by
  induction links generalizing here names with
  | zero =>
    refine walks_of_course_free h hnode hlink (fun _ _ hfail => ?_) (course_of_walkNames hfree)
    cases hfail
  | succ links ih =>
    refine walks_of_course_free h hnode hlink (fun here names henter => ?_)
      (course_of_walkNames hfree)
    obtain ⟨n, hn, hwalks⟩ := ih henter
    exact ⟨n, by omega, hwalks⟩

end FileTree

end ConvertOnce
