import ConvertOnce.Proofs.FileSystem.Leads
import ConvertOnce.Proofs.FileSystem.RealPath

/-!
# What can be told without looking into files

No path is followed by looking into a file.  Where nothing is different but the bytes of files
(`FileSystem.EditsBytes`), a path names the same, leads to something or not as before, and has the
same real path (`FileSystem.EditsBytes.lstat`, `FileSystem.EditsBytes.isPresent`,
`FileSystem.EditsBytes.realPath`).
-/

namespace ConvertOnce

/-! ### Walks -/

/-- Where a path leads, without the bytes of a file. -/
def Spot.shape : Spot → Spot
  | .node location reached => .node location reached.shape
  | .free directory name => .free directory name

/-- Spots of one shape are the same, but for the bytes of a file. -/
theorem Spot.eq_node_or_free {spot spot' : Spot} (h : spot'.shape = spot.shape) :
    (∃ location reached reached', spot = .node location reached ∧ spot' = .node location reached' ∧
      reached'.shape = reached.shape) ∨
    ∃ directory name, spot = .free directory name ∧ spot' = .free directory name := by
  cases spot with
  | node location reached =>
    cases spot' with
    | node location' reached' =>
      obtain ⟨rfl, hreached⟩ := Spot.node.inj h
      exact .inl ⟨_, _, _, rfl, rfl, hreached⟩
    | free => cases h
  | free directory name =>
    cases spot' with
    | node => cases h
    | free =>
      cases h
      exact .inr ⟨_, _, rfl, rfl⟩

namespace FileTree.EditsBytes

variable {t t' : FileTree} {follow : Bool} {here : Location} {names : List String}
  {answer : Except Errno Spot} {enter enter' : Location → List String → Except Errno Spot}

theorem nodeAt_eq_none {l : Location} (h : EditsBytes t t') (hnone : t.nodeAt l = none) :
    t'.nodeAt l = none := by
  have hl := h l
  rw [hnone] at hl
  exact Option.map_eq_none_iff.1 hl

/-- A course takes the same turns in both trees: all that it asks of a node is in its shape. -/
theorem exists_course (h : EditsBytes t t')
    (henter : ∀ here names, Spot.shape <$> enter' here names = Spot.shape <$> enter here names)
    (hcourse : Course t follow enter here names answer) :
    ∃ answer', Course t' follow enter' here names answer' ∧
      Spot.shape <$> answer' = Spot.shape <$> answer := by
  induction hcourse with
  | @arrived here node hnode =>
    obtain ⟨node', hnode', hshape⟩ := h.grows.keeps _ _ hnode
    have hspot : (Spot.node here node').shape = (Spot.node here node).shape :=
      congrArg (Spot.node here) hshape
    exact ⟨_, .arrived hnode', congrArg Except.ok hspot⟩
  | lost hnode => exact ⟨_, .lost (h.nodeAt_eq_none hnode), rfl⟩
  | blocked hnode hdirectory =>
    obtain ⟨node', hnode', hshape⟩ := h.grows.keeps _ _ hnode
    exact ⟨_, .blocked hnode' ((Node.isDirectory_of_shape hshape).trans hdirectory), rfl⟩
  | closed hnode hcan =>
    obtain ⟨node', hnode', hshape⟩ := h.grows.keeps _ _ hnode
    rw [Node.eq_directory_of_shape hshape] at hnode'
    exact ⟨_, .closed hnode' hcan, rfl⟩
  | dot hsearch _ ih =>
    obtain ⟨answer', hcourse', hsame⟩ := ih
    exact ⟨answer', .dot (h.grows.searchable hsearch) hcourse', hsame⟩
  | up hsearch _ ih =>
    obtain ⟨answer', hcourse', hsame⟩ := ih
    exact ⟨answer', .up (h.grows.searchable hsearch) hcourse', hsame⟩
  | tooLong hsearch hdot hup hlong =>
    exact ⟨_, .tooLong (h.grows.searchable hsearch) hdot hup hlong, rfl⟩
  | free hsearch hname hfree =>
    exact ⟨_, .free (h.grows.searchable hsearch) hname (h.nodeAt_eq_none hfree), rfl⟩
  | missing hsearch hname hfree hrest =>
    exact ⟨_, .missing (h.grows.searchable hsearch) hname (h.nodeAt_eq_none hfree) hrest, rfl⟩
  | kept hsearch hname hlink hfollow =>
    obtain ⟨node', hnode', hshape⟩ := h.grows.keeps _ _ hlink
    rw [Node.eq_link_of_shape hshape] at hnode'
    exact ⟨_, .kept (h.grows.searchable hsearch) hname hnode' hfollow, rfl⟩
  | link hsearch hname hlink hfollowed =>
    obtain ⟨node', hnode', hshape⟩ := h.grows.keeps _ _ hlink
    rw [Node.eq_link_of_shape hshape] at hnode'
    exact ⟨_, .link (h.grows.searchable hsearch) hname hnode' hfollowed, henter _ _⟩
  | step hsearch hname hnext hlink _ ih =>
    obtain ⟨node', hnext', hshape⟩ := h.grows.keeps _ _ hnext
    have hlink' := (Node.isLink_of_shape hshape).trans hlink
    obtain ⟨answer', hcourse', hsame⟩ := ih
    exact ⟨answer', .step (h.grows.searchable hsearch) hname hnext' hlink' hcourse', hsame⟩

theorem walkNames (h : EditsBytes t t')
    (henter : ∀ here names, Spot.shape <$> enter' here names = Spot.shape <$> enter here names)
    (follow : Bool) (here : Location) (names : List String) :
    Spot.shape <$> t'.walkNames follow enter' here names
      = Spot.shape <$> t.walkNames follow enter here names := by
  obtain ⟨answer', hcourse', hsame⟩ :=
    h.exists_course henter (course_walkNames t follow enter here names)
  rw [hcourse'.walkNames_eq]
  exact hsame

/-- **A search ends at the same place**, whatever is in the files. -/
theorem walk (h : EditsBytes t t') (follow : Bool) (links : Nat) (here : Location)
    (names : List String) :
    Spot.shape <$> t'.walk follow links here names =
      Spot.shape <$> t.walk follow links here names := by
  induction links generalizing here names with
  | zero => exact h.walkNames (fun _ _ => rfl) follow here names
  | succ links ih => exact h.walkNames ih follow here names

end FileTree.EditsBytes

namespace FileSystem

namespace EditsBytes

variable {fs fs' : FileSystem}

theorem resolve (h : EditsBytes fs fs') (follow : Bool) (path : String) :
    Spot.shape <$> fs'.resolve follow path = Spot.shape <$> fs.resolve follow path := by
  have hstart : fs'.start path = fs.start path := by rw [start, start, h.grows.cwd_eq]
  have hnone :
      (fs'.tree.nodeAt (fs.start path)).isNone = (fs.tree.nodeAt (fs.start path)).isNone := by
    rw [← Option.not_isSome, ← Option.not_isSome, h.tree.isSome_nodeAt]
  rw [FileSystem.resolve, FileSystem.resolve, hstart, hnone]
  split
  · rfl
  split
  · rfl
  split
  · rfl
  -- The text is refused for the same reasons; otherwise the searches end in spots of one shape.
  dsimp only
  rcases map_eq_map_iff.1 (h.tree.walk (follow || demandsDirectory path) FileTree.maxLinks
    (fs.start path) (slashNames path)) with
    ⟨e, heq', heq⟩ | ⟨spot', spot, heq', heq, hshape⟩
  · rw [heq, heq']
  · rw [heq, heq']
    rcases Spot.eq_node_or_free hshape with
      ⟨location, node, node', rfl, rfl, hnode⟩ | ⟨_, _, rfl, rfl⟩
    · dsimp only
      rw [Node.isDirectory_of_shape hnode]
      split
      · rfl
      · exact congrArg Except.ok hshape
    · rfl

theorem locate (h : EditsBytes fs fs') (follow : Bool) (path : String) :
    Spot.shape <$> fs'.locate follow path = Spot.shape <$> fs.locate follow path := by
  rw [FileSystem.locate, FileSystem.locate]
  split
  · rfl
  rcases map_eq_map_iff.1 (h.resolve follow path) with
    ⟨e, heq', heq⟩ | ⟨spot', spot, heq', heq, hshape⟩
  · rw [heq, heq']
  · rw [heq, heq']
    exact congrArg Except.ok hshape

/-- The nodes that are found in one place have one shape. -/
theorem nodeOf {path : String} {x x' : Except Fault Spot}
    (h : Spot.shape <$> x' = Spot.shape <$> x) :
    Node.shape <$> (x' >>= nodeOf path) = Node.shape <$> (x >>= nodeOf path) := by
  rcases map_eq_map_iff.1 h with ⟨e, rfl, rfl⟩ | ⟨spot', spot, rfl, rfl, hshape⟩
  · rfl
  · rcases Spot.eq_node_or_free hshape with ⟨_, _, _, rfl, rfl, hnode⟩ | ⟨_, _, rfl, rfl⟩
    · exact congrArg Except.ok hnode
    · rfl

theorem stat (h : EditsBytes fs fs') (path : String) :
    Node.shape <$> fs'.stat path = Node.shape <$> fs.stat path :=
  nodeOf (h.locate true path)

/-- What a path names is the same, but for the bytes of a file. -/
theorem lstat (h : EditsBytes fs fs') (path : String) :
    Node.shape <$> fs'.lstat path = Node.shape <$> fs.lstat path :=
  nodeOf (h.locate false path)

theorem isPresent (h : EditsBytes fs fs') (p : Path) : fs'.isPresent p = fs.isPresent p := by
  rw [FileSystem.isPresent, FileSystem.isPresent, probe, probe]
  rcases map_eq_map_iff.1 (h.stat p.text) with ⟨e, heq', heq⟩ | ⟨node', node, heq', heq, -⟩
  · rw [heq, heq']
  · rw [heq, heq']

/-! ### Real paths -/

theorem followPiece (h : EditsBytes fs fs')
    (enter : KnownLinks → Path → Path → String → Except Fault Trail) (known : KnownLinks)
    (here : Path) (piece : String) :
    fs'.followPiece enter known here piece = fs.followPiece enter known here piece := by
  rw [FileSystem.followPiece, FileSystem.followPiece]
  split
  · rfl
  rcases map_eq_map_iff.1 (h.lstat (here.push piece).text) with
    ⟨e, heq', heq⟩ | ⟨node', node, heq', heq, hshape⟩
  · rw [heq, heq']
  · rw [heq, heq']
    -- Of a file nothing is asked but that it is no link.
    cases node with
    | link target => rw [Node.eq_link_of_shape hshape]
    | directory permissions => rw [Node.eq_directory_of_shape hshape]
    | file permissions bytes =>
      cases node' <;> cases hshape
      rfl

theorem followPieces (h : EditsBytes fs fs')
    (enter : KnownLinks → Path → Path → String → Except Fault Trail) (known : KnownLinks)
    (here : Path) (pieces : List String) :
    fs'.followPieces enter known here pieces = fs.followPieces enter known here pieces := by
  induction pieces generalizing known here with
  | nil => rfl
  | cons piece rest ih =>
    rw [followPieces_cons, followPieces_cons, h.followPiece]
    simp only [ih]

theorem followText (h : EditsBytes fs fs') (depth : Nat) (known : KnownLinks) (here : Path)
    (s : String) : fs'.followText depth known here s = fs.followText depth known here s := by
  induction depth generalizing known here s with
  | zero => exact h.followPieces _ known _ _
  | succ depth ih =>
    rw [FileSystem.followText, FileSystem.followText, h.followPieces]
    simp only [ih]

theorem acceptReal (h : EditsBytes fs fs') (p : Path) : fs'.acceptReal p = fs.acceptReal p := by
  rw [FileSystem.acceptReal, FileSystem.acceptReal]
  rcases map_eq_map_iff.1 (h.stat p.text) with ⟨e, heq', heq⟩ | ⟨node', node, heq', heq, -⟩
  · rw [heq, heq']
  · rw [heq, heq']

/-- **A path has the same real path**, whatever is in the files. -/
theorem realPath (h : EditsBytes fs fs') (p : Path) : fs'.realPath p = fs.realPath p := by
  rw [realPath_eq, realPath_eq, h.grows.maxNesting_eq, h.followText, h.grows.cwd_eq]
  exact bind_congr fun trail => h.acceptReal _

end EditsBytes

/-- **To write over a file** changes nothing but its bytes. -/
theorem editsBytes_place {fs : FileSystem} {name : String} {above : Location}
    {permissions : Permissions} {bytes : Bytes}
    (h : fs.tree.nodeAt (name :: above) = some (.file permissions bytes)) (bytes' : Bytes) :
    EditsBytes fs (fs.place name above (.file permissions bytes')) := by
  have habove := FileTree.isDirectory_of_nodeAt h
  have htop := FileTree.not_isDirectory_of_eq_file h
  refine ⟨rfl, fun l => ?_⟩
  rw [place, FileTree.nodeAt_place_of_not_isDirectory habove htop]
  by_cases heq : l = name :: above
  · rw [if_pos heq, heq, h]
    rfl
  · rw [if_neg heq]

end FileSystem

end ConvertOnce
