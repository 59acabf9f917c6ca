import ConvertOnce.Proofs.FileSystem.Changes
import ConvertOnce.Proofs.FileSystem.Holder

/-!
# Making directories again

A directory that was made is there (`FileSystem.isDirectoryAt_of_ensureDirectory`), and where it is
there, making it changes nothing (`FileSystem.ensureDirectory_of_isDirectoryAt`).  Where it could
not be made, the attempt has made all the directories above it that can be made, so that another
attempt fails and makes none (`FileSystem.ensureDirectory_again`).
-/

namespace ConvertOnce.FileSystem

variable {fs fs' : FileSystem} {p : Path} {l here : Location} {node : Node} {spot : Spot}
  {permissions : Permissions} {follow : Bool} {fault : Fault} {levels : Nat}
  {answer : Except Fault Unit × FileSystem}

theorem isDirectoryAt_eq_ok_true_iff :
    fs.isDirectoryAt p = .ok true ↔
      ∃ permissions, fs.stat p.text = .ok (.directory permissions) := by
  constructor
  · intro h
    obtain ⟨node, hstat, hnode⟩ := exists_stat_of_probe h
    cases node with
    | directory permissions => exact ⟨permissions, hstat⟩
    | file | link => cases hnode
  · rintro ⟨permissions, hstat⟩
    rw [isDirectoryAt, probe, hstat]
    rfl

/-- **What is above something that is there is a directory.** -/
theorem isDirectoryAt_of_isAbove {q : Path} {test : Node → Bool} (hq : q.IsAbove p) (hne : q ≠ p)
    (hparts : q.parts ≠ []) (h : fs.probe test p = .ok true) : fs.isDirectoryAt q = .ok true := by
  obtain ⟨node, hstat, -⟩ := exists_stat_of_probe h
  obtain ⟨rest, hrest⟩ := hq.isPrefix
  have hrestNe : rest ≠ [] := by
    rintro rfl
    rw [List.append_nil] at hrest
    exact hne (Path.ext_parts hq.anchor_eq hrest)
  have hpartsBelow : p.parts ≠ [] := by
    rw [← hrest]
    simp [hparts]
  obtain ⟨haccepts, l, hleads, -⟩ := (stat_text_eq_ok_iff hpartsBelow).1 hstat
  obtain ⟨l', n, hleads', hwalks⟩ := hleads.split hq.anchor_eq hrest
  -- The next name of the path was looked up there.
  obtain ⟨name, names, rfl⟩ := List.exists_cons_of_ne_nil hrestNe
  obtain ⟨permissions, hnode, -⟩ := hwalks.searchable
  rw [isDirectoryAt_eq_ok_true_iff]
  exact ⟨permissions, (stat_text_eq_ok_iff hparts).2 ⟨haccepts.of_isAbove hq, l', hleads', hnode⟩⟩

/-- What was found is found in files that have grown. -/
theorem Grows.locate {path : String} (hgrows : Grows fs fs')
    (h : fs.locate true path = .ok (.node l node)) :
    ∃ node', fs'.locate true path = .ok (.node l node') ∧ node'.shape = node.shape := by
  have hnul := not_hasNul_of_locate h
  simp only [locate_eq_mapError hnul, mapError_eq_ok_iff] at h ⊢
  obtain ⟨hempty, hlong, hstart, hwalk, hdirectory⟩ := resolve_eq_ok_node_iff.1 h
  obtain ⟨n, hn, hwalks, hnode⟩ := FileTree.walks_of_walk hwalk
  obtain ⟨node', hnode', hshape⟩ := hgrows.tree.keeps l node hnode
  refine ⟨node', ?_, hshape⟩
  have hsame : fs'.start path = fs.start path := by rw [start, start, hgrows.cwd_eq]
  rw [resolve_eq_ok_node_iff, hsame]
  refine ⟨hempty, hlong, hgrows.tree.isSome_nodeAt hstart,
    FileTree.walk_of_walks (hgrows.tree.walks hwalks) hn hnode', fun hstrict => ?_⟩
  rw [Node.isDirectory_of_shape hshape]
  exact hdirectory hstrict

/-- A directory stays one. -/
theorem Grows.isDirectoryAt (hgrows : Grows fs fs') (h : fs.isDirectoryAt p = .ok true) :
    fs'.isDirectoryAt p = .ok true := by
  obtain ⟨permissions, hstat⟩ := isDirectoryAt_eq_ok_true_iff.1 h
  obtain ⟨spot, hlocate, hspot⟩ := bind_eq_ok_iff.1 hstat
  cases spot with
  | free => cases hspot
  | node l node =>
    obtain rfl : node = .directory permissions := Except.ok.inj hspot
    obtain ⟨node', hlocate', hshape⟩ := hgrows.locate hlocate
    rw [Node.eq_directory_of_shape hshape] at hlocate'
    refine isDirectoryAt_eq_ok_true_iff.2 ⟨permissions, ?_⟩
    rw [stat, hlocate']
    rfl

/-! ### The directory above a path -/

/-- What is above a directory is one, since a name was looked up in it. -/
theorem isDirectoryAt_parent_of_locate (hparts : p.parts ≠ [])
    (h : fs.locate follow p.text = .ok spot) : fs.isDirectoryAt p.parent = .ok true := by
  obtain ⟨here, permissions, hheld⟩ := exists_heldIn_of_locate hparts h
  obtain ⟨haccepts, -⟩ := (locate_text_eq_ok_iff hparts).1 h
  exact isDirectoryAt_eq_ok_true_iff.2 ⟨permissions, hheld.stat_parent haccepts⟩

theorem isDirectoryAt_parent (h : fs.isDirectoryAt p = .ok true) :
    fs.isDirectoryAt p.parent = .ok true := by
  by_cases hparts : p.parts = []
  · have hnil : p.parent.parts = p.parts := by
      show p.parts.dropLast = p.parts
      rw [hparts]
      rfl
    have hparent : p.parent = p := Path.ext_parts rfl hnil
    rwa [hparent]
  · obtain ⟨permissions, hstat⟩ := isDirectoryAt_eq_ok_true_iff.1 h
    obtain ⟨spot, hlocate, -⟩ := bind_eq_ok_iff.1 hstat
    exact isDirectoryAt_parent_of_locate hparts hlocate

theorem isDirectoryAt_parent_of_makeDirectory (h : fs.makeDirectory p.text = .ok fs') :
    fs.isDirectoryAt p.parent = .ok true := by
  obtain ⟨spot, hlocate, -⟩ := bind_eq_ok_iff.1 h
  exact isDirectoryAt_parent_of_locate (fun hparts => makeDirectory_ne_ok hparts h) hlocate

/-! ### A directory that is there -/

/-- What is found through links is found without following the last one. -/
theorem exists_locate_false {path : String} (h : fs.locate true path = .ok (.node l node)) :
    ∃ l node, fs.locate false path = .ok (.node l node) := by
  have hnul := not_hasNul_of_locate h
  simp only [locate_eq_mapError hnul, mapError_eq_ok_iff] at h ⊢
  cases hstrict : demandsDirectory path with
  | true =>
    -- A slash at the end has the last name followed in any case.
    refine ⟨l, node, ?_⟩
    rw [resolve_eq_ok_node_iff, hstrict] at h ⊢
    exact h
  | false =>
    rw [resolve_eq_ok_node_iff, hstrict] at h
    obtain ⟨hempty, hlong, hstart, hwalk, -⟩ := h
    obtain ⟨n, hn, hwalks, hnode⟩ := FileTree.walks_of_walk hwalk
    have hsome : (fs.tree.nodeAt l).isSome = true := by
      rw [hnode]
      rfl
    obtain ⟨l', node', hfound⟩ : ∃ l' node', fs.tree.walk false FileTree.maxLinks (fs.start path)
        (slashNames path) = .ok (.node l' node') := FileTree.exists_walk_of_walks hwalks hn hsome
    refine ⟨l', node', ?_⟩
    rw [resolve_eq_ok_node_iff, hstrict]
    exact ⟨hempty, hlong, hstart, hfound, by simp⟩

/-- Nothing can be made where something is. -/
theorem makeDirectory_of_stat (h : fs.stat p.text = .ok node) :
    fs.makeDirectory p.text = .error (.system .alreadyExists p.text) := by
  obtain ⟨spot, hlocate, hspot⟩ := bind_eq_ok_iff.1 h
  cases spot with
  | free => cases hspot
  | node l node' =>
    obtain ⟨l', node', hfound⟩ := exists_locate_false hlocate
    rw [makeDirectory, hfound]
    rfl

theorem acceptDirectory_of_isDirectoryAt (h : fs.isDirectoryAt p = .ok true)
    (hfault : fault.isSystem = true) : fs.acceptDirectory p fault = (.ok (), fs) := by
  cases fault with
  | system => rw [acceptDirectory, h]
  | _ => cases hfault

theorem ensureWithin_of_isDirectoryAt (h : fs.isDirectoryAt p = .ok true) :
    ensureWithin levels fs p = (.ok (), fs) := by
  obtain ⟨permissions, hstat⟩ := isDirectoryAt_eq_ok_true_iff.1 h
  have hrefused : Making levels fs p _ :=
    .refused (makeDirectory_of_stat hstat) fun path heq => by cases heq
  rw [hrefused.ensureWithin_eq]
  exact acceptDirectory_of_isDirectoryAt h rfl

/-- **A directory that is there is accepted.** -/
theorem ensureDirectory_of_isDirectoryAt (h : fs.isDirectoryAt p = .ok true) :
    fs.ensureDirectory p = (.ok (), fs) :=
  ensureWithin_of_isDirectoryAt h

/-! ### A directory that was made -/

theorem isDirectoryAt_of_makeDirectory (h : fs.makeDirectory p.text = .ok fs') :
    fs'.isDirectoryAt p = .ok true := by
  have hparts : p.parts ≠ [] := fun hparts => makeDirectory_ne_ok hparts h
  obtain ⟨spot, hlocate, -⟩ := bind_eq_ok_iff.1 h
  obtain ⟨haccepts, -⟩ := (locate_text_eq_ok_iff hparts).1 hlocate
  obtain ⟨l, -, hsets, hleads⟩ := exists_sets_of_makeDirectory h
  have hstat := (stat_text_eq_ok_iff hparts).2 ⟨haccepts, l, hleads, hsets.nodeAt_self⟩
  exact isDirectoryAt_eq_ok_true_iff.2 ⟨_, hstat⟩

theorem isDirectoryAt_of_acceptDirectory (h : fs.acceptDirectory p fault = (.ok (), fs')) :
    fs'.isDirectoryAt p = .ok true := by
  unfold acceptDirectory at h
  split at h
  · split at h
    · next hdirectory =>
      cases h
      exact hdirectory
    · cases h
    · cases h
  · cases h

theorem isDirectoryAt_of_ensureLast (h : fs.ensureLast p = (.ok (), fs')) :
    fs'.isDirectoryAt p = .ok true := by
  rw [ensureLast] at h
  split at h
  · next hmake =>
    cases h
    exact isDirectoryAt_of_makeDirectory hmake
  · cases h
  · exact isDirectoryAt_of_acceptDirectory h

theorem Making.isDirectoryAt (h : Making levels fs p answer) (hanswer : answer = (.ok (), fs')) :
    fs'.isDirectoryAt p = .ok true := by
  cases h with
  | made hmake =>
    cases hanswer
    exact isDirectoryAt_of_makeDirectory hmake
  | above => exact isDirectoryAt_of_ensureLast hanswer
  | refused => exact isDirectoryAt_of_acceptDirectory hanswer
  | bare | tooDeep | stuck => cases hanswer

/-- **A directory that was made is there.** -/
theorem isDirectoryAt_of_ensureDirectory (h : fs.ensureDirectory p = (.ok (), fs')) :
    fs'.isDirectoryAt p = .ok true :=
  (making_ensureWithin fs.maxNesting fs p).isDirectoryAt h

/-! ### A directory that could not be made -/

theorem snd_of_ensureLast_error (h : fs.ensureLast p = (.error fault, fs')) : fs' = fs := by
  rw [ensureLast] at h
  split at h
  · cases h
  · exact (congrArg Prod.snd h).symm
  · rw [← acceptDirectory_snd fs p, h]

/-- Under a directory that is there no more than one has to be made. -/
theorem ensureWithin_of_isDirectoryAt_parent (h : fs.isDirectoryAt p.parent = .ok true) :
    ensureWithin (levels + 1) fs p = fs.ensureLast p := by
  have hparent : Making levels fs p.parent (.ok (), fs) :=
    making_of_ensureWithin (ensureWithin_of_isDirectoryAt h)
  have hmaking := making_ensureWithin (levels + 1) fs p
  generalize hanswer : ensureWithin (levels + 1) fs p = answer at hmaking
  -- Whatever way the making takes, it comes to the last directory at once or after a parent that
  -- was there.
  cases hmaking with
  | made hmake | bare _ hmake => rw [ensureLast, hmake]
  | above hlacks | stuck hlacks =>
    rw [← hanswer]
    exact (Making.above hlacks hparent).ensureWithin_eq
  | @refused _ _ _ fault hmake hne =>
    rw [ensureLast, hmake]
    split
    · next heq => cases heq
    · next path heq => exact absurd (Except.error.inj heq) (hne path)
    · next heq => rw [Except.error.inj heq]

/-- Under a directory that cannot be made none can be made. -/
theorem exists_making_of_parent_error (h : Making levels fs p.parent (.error fault, fs))
    (hdeep : fault ≠ .tooDeep) :
    ∃ fault', Making (levels + 1) fs p (.error fault', fs) ∧ fault' ≠ .tooDeep := by
  have hnot : fs.isDirectoryAt p.parent ≠ .ok true := by
    intro hparent
    have hok : ensureWithin levels fs p.parent = (.ok (), fs) :=
      ensureWithin_of_isDirectoryAt hparent
    rw [h.ensureWithin_eq] at hok
    cases hok
  have hmaking := making_ensureWithin (levels + 1) fs p
  generalize ensureWithin (levels + 1) fs p = answer at hmaking
  -- Whatever is made or accepted would stand in the parent, and this is no directory.
  cases hmaking with
  | made hmake => exact absurd (isDirectoryAt_parent_of_makeDirectory hmake) hnot
  | bare hparts hmake => exact ⟨_, .bare hparts hmake, fun heq => by cases heq⟩
  | above hlacks | stuck hlacks => exact ⟨fault, .stuck hlacks h, hdeep⟩
  | @refused _ _ _ fault' hmake hne =>
    have hmaking : Making (levels + 1) fs p _ := .refused hmake hne
    have hfault' : fault' ≠ .tooDeep := by
      rintro rfl
      exact makeDirectory_ne_tooDeep hmake
    have haccept : (fs.acceptDirectory p fault').1 ≠ .error .tooDeep :=
      acceptDirectory_ne_tooDeep hfault'
    have hsnd := acceptDirectory_snd fs p fault'
    generalize hanswer : fs.acceptDirectory p fault' = answer at hmaking haccept hsnd
    obtain ⟨outcome, fs'⟩ := answer
    obtain rfl : fs' = fs := hsnd
    cases outcome with
    | ok _ => exact absurd (isDirectoryAt_parent (isDirectoryAt_of_acceptDirectory hanswer)) hnot
    | error worse => exact ⟨worse, hmaking, fun heq => haccept (congrArg Except.error heq)⟩

/-- Where something was made above the path there is a directory to look at, and another attempt
fails without going too deep. -/
theorem Making.again (h : Making levels fs p answer) (hanswer : answer = (.error fault, fs'))
    (hne : fs' ≠ fs) : ∃ fault', Making levels fs' p (.error fault', fs') ∧ fault' ≠ .tooDeep := by
  -- Only where the directory above was made can anything have changed, there or further up.
  induction h with
  | made => cases hanswer
  | bare | tooDeep => exact absurd (congrArg Prod.snd hanswer).symm hne
  | above _ hmaking =>
    obtain rfl := snd_of_ensureLast_error hanswer
    have hparent := hmaking.isDirectoryAt rfl
    refine ⟨fault, making_of_ensureWithin ?_, ?_⟩
    · rw [ensureWithin_of_isDirectoryAt_parent hparent]
      exact hanswer
    · rintro rfl
      exact ensureLast_ne_tooDeep (congrArg Prod.fst hanswer)
  | stuck _ _ ih =>
    cases hanswer
    obtain ⟨fault', hagain, hdeep⟩ := ih rfl hne
    exact exists_making_of_parent_error hagain hdeep
  | @refused _ fs p fault' =>
    have hsnd := acceptDirectory_snd fs p fault'
    rw [hanswer] at hsnd
    exact absurd hsnd hne

/-- **A directory that could not be made cannot be made by trying again**, and is too deep then if
it was before. -/
theorem ensureDirectory_again (h : fs.ensureDirectory p = (.error fault, fs')) :
    ∃ fault', fs'.ensureDirectory p = (.error fault', fs') ∧
      (fault' = .tooDeep ↔ fault = .tooDeep) := by
  -- Where nothing has changed the second attempt is the first one.
  by_cases heq : fs' = fs
  · subst heq
    exact ⟨fault, h, Iff.rfl⟩
  have hgrows := (ensureDirectory_makesWay fs p).grows
  rw [h] at hgrows
  obtain ⟨fault', hagain, hdeep⟩ := (making_of_ensureWithin h).again rfl heq
  refine ⟨fault', ?_, iff_of_false hdeep ?_⟩
  · rw [ensureDirectory, hgrows.maxNesting_eq]
    exact hagain.ensureWithin_eq
  · -- Too deep means that nothing was made.
    rintro rfl
    have hnone := ensureDirectory_of_tooDeep (congrArg Prod.fst h)
    rw [h] at hnone
    exact heq (congrArg Prod.snd hnone)

end ConvertOnce.FileSystem
