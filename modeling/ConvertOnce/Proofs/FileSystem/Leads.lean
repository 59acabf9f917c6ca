import ConvertOnce.Proofs.FileSystem.Making
import ConvertOnce.Proofs.FileTree.Growth

/-!
# Where a path leads

`FileSystem.Leads` is what resolving the text of a path comes to: the parts of the path are walked
from where it starts.  Something is present at a path exactly when the path leads somewhere and its
text is one that the file system accepts (`FileSystem.isPresent_iff`).

Making directories and writing a file make a file system grow.  What is new after the directories on
the way to a path were made are directories to which this path or one above it leads, and did not
lead before (`FileSystem.ensureDirectory_makesWay`); what is new after a file was written is that
file (`FileSystem.write_grows`).
-/

namespace ConvertOnce

/-- A path that leads to an ancestor of what another one leads to, or to the same. -/
structure Path.IsAbove (q p : Path) : Prop where
  anchor_eq : q.anchor = p.anchor
  isPrefix : q.parts <+: p.parts

theorem Path.IsAbove.refl (p : Path) : p.IsAbove p := ⟨rfl, List.prefix_refl _⟩

theorem Path.IsAbove.of_parent {q p : Path} (h : q.IsAbove p.parent) : q.IsAbove p :=
  ⟨h.anchor_eq, h.isPrefix.trans (List.dropLast_prefix p.parts)⟩

namespace FileSystem

variable {fs fs' fs'' : FileSystem} {p q : Path} {l l' : Location} {follow : Bool} {node : Node}

/-! ### Resolving a path by its parts -/

/-- The location from which a path is walked. -/
def startOf (fs : FileSystem) (p : Path) : Location :=
  if p.isAbsolute then [] else Location.ofString fs.cwd

/-- The parts of a path lead to a node. -/
def Leads (fs : FileSystem) (p : Path) (l : Location) : Prop :=
  (fs.tree.nodeAt l).isSome = true ∧
    ∃ n ≤ FileTree.maxLinks, fs.tree.Walks (fs.startOf p) p.parts l n

/-- The text of a path is one that the file system accepts. -/
def Accepts (p : Path) : Prop := ¬ HasNul p.text ∧ p.text.utf8ByteSize ≤ maxPathBytes

theorem start_text (fs : FileSystem) (p : Path) : fs.start p.text = fs.startOf p := by
  rw [start, startOf]
  by_cases h : p.isAbsolute = true
  · rw [if_pos h, if_pos ((Path.head?_text_eq_slash_iff p).2 h)]
  · rw [if_neg h, if_neg (mt (Path.head?_text_eq_slash_iff p).1 h)]

theorem not_demandsDirectory_text (hparts : p.parts ≠ []) : demandsDirectory p.text = false := by
  rw [demandsDirectory, decide_eq_false_iff_not]
  exact Path.getLast?_text_ne_slash hparts

/-- **The text of a path is resolved by walking its parts.** -/
theorem resolve_text (hparts : p.parts ≠ []) :
    fs.resolve follow p.text =
      if p.text.utf8ByteSize > maxPathBytes then .error .nameTooLong
      else if (fs.tree.nodeAt (fs.startOf p)).isNone then .error .noEntry
      else fs.tree.walk follow FileTree.maxLinks (fs.startOf p) p.parts := by
  rw [resolve, if_neg p.text_ne_empty, not_demandsDirectory_text hparts, start_text,
    Path.slashNames_text hparts]
  dsimp only
  rw [Bool.or_false]
  congr 2
  generalize fs.tree.walk follow FileTree.maxLinks (fs.startOf p) p.parts = answer
  rcases answer with errno | (⟨location, node⟩ | ⟨directory, name⟩) <;> rfl

/-- When a node is found. -/
theorem resolve_eq_ok_node_iff {path : String} :
    fs.resolve follow path = .ok (.node l node) ↔
      path ≠ "" ∧ ¬ path.utf8ByteSize > maxPathBytes ∧
        (fs.tree.nodeAt (fs.start path)).isSome = true ∧
        fs.tree.walk (follow || demandsDirectory path) FileTree.maxLinks (fs.start path)
          (slashNames path) = .ok (.node l node) ∧
        (demandsDirectory path = true → node.isDirectory = true) := by
  rw [resolve]
  by_cases hempty : path = ""
  · simp [hempty]
  by_cases hlong : path.utf8ByteSize > maxPathBytes
  · simp [hempty, hlong]
  rw [if_neg hempty, if_neg hlong]
  cases hstart : fs.tree.nodeAt (fs.start path) with
  | none => simp
  | some start =>
    dsimp only
    generalize fs.tree.walk (follow || demandsDirectory path) FileTree.maxLinks (fs.start path)
      (slashNames path) = answer
    -- A slash at the end rules out what is no directory, and lets every other answer pass.
    rcases answer with errno | (⟨l', node'⟩ | ⟨directory, name⟩)
    · simp
    · cases hstrict : demandsDirectory path with
      | false => simp [hempty, hlong]
      | true =>
        by_cases hsame : node' = node
        · subst hsame
          cases hdirectory : node'.isDirectory <;> simp [hempty, hlong, hdirectory]
        · dsimp only
          cases node'.isDirectory <;> simp [hsame]
    · simp

theorem locate_text_eq_ok_iff (hparts : p.parts ≠ []) {spot : Spot} :
    fs.locate follow p.text = .ok spot ↔
      Accepts p ∧ (fs.tree.nodeAt (fs.startOf p)).isSome = true ∧
        fs.tree.walk follow FileTree.maxLinks (fs.startOf p) p.parts = .ok spot := by
  by_cases hnul : HasNul p.text
  · rw [locate_of_hasNul hnul]
    constructor
    · intro h
      cases h
    · rintro ⟨⟨hnot, -⟩, -⟩
      exact absurd hnul hnot
  · rw [locate_of_not_hasNul hnul, resolve_text hparts]
    by_cases hlong : p.text.utf8ByteSize > maxPathBytes
    · have hnot : ¬ Accepts p := fun h => Nat.not_lt.2 h.2 hlong
      simp [hlong, hnot]
    · have haccepts : Accepts p := ⟨hnul, Nat.not_lt.1 hlong⟩
      cases hstart : fs.tree.nodeAt (fs.startOf p) with
      | none => simp [hlong]
      | some node =>
        cases hwalk : fs.tree.walk follow FileTree.maxLinks (fs.startOf p) p.parts with
        | error errno => simp [hlong]
        | ok spot' => simp [hlong, haccepts]

/-- Nothing but the slashes of an anchor leads to the root. -/
theorem locate_anchor (fs : FileSystem) (follow : Bool) {a : Anchor} (h : a ≠ .relative) :
    fs.locate follow a.text = .ok (.node [] (.directory fs.tree.root)) := by
  -- All that the search asks of the text is settled for the two roots.
  have hfacts : a.text ≠ "" ∧ ¬ a.text.utf8ByteSize > maxPathBytes ∧ slashNames a.text = [] ∧
      demandsDirectory a.text = true ∧ a.text.toList.head? = some '/' := by
    cases a with
    | relative => exact absurd rfl h
    | root | doubleRoot => decide
  obtain ⟨hne, hsize, hnames, hdemands, hhead⟩ := hfacts
  have hroot : fs.tree.nodeAt [] = some (.directory fs.tree.root) := rfl
  have hresolve : fs.resolve follow a.text = .ok (.node [] (.directory fs.tree.root)) := by
    rw [resolve, if_neg hne, if_neg hsize, start, if_pos hhead, hroot, hnames, hdemands]
    dsimp only
    rw [FileTree.walk_nil, hroot]
    rfl
  have hnul : ¬ HasNul a.text := by
    unfold HasNul
    cases a <;> decide
  rw [locate_of_not_hasNul hnul, hresolve]

/-- The text `.` leads to where one stands. -/
theorem resolve_dot (fs : FileSystem) (follow : Bool) :
    fs.resolve follow "." =
      if (fs.tree.nodeAt (.ofString fs.cwd)).isNone then .error .noEntry
      else fs.tree.walk follow FileTree.maxLinks (.ofString fs.cwd) ["."] := by
  have hfacts : "." ≠ "" ∧ ¬ ".".utf8ByteSize > maxPathBytes ∧ slashNames "." = ["."] ∧
      demandsDirectory "." = false ∧ ".".toList.head? ≠ some '/' := by decide
  obtain ⟨hne, hsize, hnames, hdemands, hhead⟩ := hfacts
  rw [resolve, if_neg hne, if_neg hsize, start, if_neg hhead, hnames, hdemands]
  dsimp only
  rw [Bool.or_false]
  congr 1
  generalize fs.tree.walk follow FileTree.maxLinks (.ofString fs.cwd) ["."] = answer
  rcases answer with errno | (⟨location, node⟩ | ⟨directory, name⟩) <;> rfl

/-- A path without parts leads to where it starts. -/
theorem locate_text_of_parts_eq_nil {p : Path} (hparts : p.parts = [])
    (hsearch : p.anchor = .relative → fs.tree.Searchable (fs.startOf p))
    (hnode : fs.tree.nodeAt (fs.startOf p) = some node) :
    fs.locate follow p.text = .ok (.node (fs.startOf p) node) := by
  -- Such a path is written `.` or as its anchor.
  by_cases hanchor : p.anchor = .relative
  · have htext : p.text = "." := by rw [Path.text, if_pos ⟨hanchor, hparts⟩]
    have hstart : fs.startOf p = .ofString fs.cwd := by
      rw [startOf, Path.isAbsolute, hanchor]
      rfl
    have hnul : ¬ HasNul "." := by unfold HasNul; decide
    have hsearch := hsearch hanchor
    rw [hstart] at hsearch hnode ⊢
    rw [htext, locate_of_not_hasNul hnul, resolve_dot, hnode, FileTree.walk_dot hsearch,
      FileTree.walk_nil, hnode]
    rfl
  · have htext : p.text = p.anchor.text := by
      rw [Path.text, if_neg fun hblank => hanchor hblank.1, hparts]
      exact String.append_empty
    have habsolute : p.isAbsolute = true := by
      rw [Path.isAbsolute]
      simpa using hanchor
    have hstart : fs.startOf p = [] := if_pos habsolute
    rw [hstart] at hnode ⊢
    have hroot : some (.directory fs.tree.root) = some node := hnode
    rw [htext, locate_anchor fs follow hanchor, Option.some.inj hroot]

/-- A path with a part leads from a directory. -/
theorem Leads.isSome_startOf (hparts : p.parts ≠ []) (h : fs.Leads p l) :
    (fs.tree.nodeAt (fs.startOf p)).isSome = true := by
  obtain ⟨-, n, -, hwalks⟩ := h
  obtain ⟨name, rest, hcons⟩ := List.exists_cons_of_ne_nil hparts
  rw [hcons] at hwalks
  obtain ⟨permissions, hnode, -⟩ := hwalks.searchable
  rw [hnode]
  rfl

/-- A path leads to one location. -/
theorem Leads.unique (h : fs.Leads p l) (h' : fs.Leads p l') : l = l' := by
  obtain ⟨-, n, -, hwalks⟩ := h
  obtain ⟨-, n', -, hwalks'⟩ := h'
  exact hwalks.unique hwalks'

/-- **The node that is asked for is the one to which the path leads.** -/
theorem stat_text_eq_ok_iff (hparts : p.parts ≠ []) :
    fs.stat p.text = .ok node ↔
      Accepts p ∧ ∃ l, fs.Leads p l ∧ fs.tree.nodeAt l = some node := by
  rw [stat, bind_eq_ok_iff]
  constructor
  · rintro ⟨spot, hlocate, hspot⟩
    obtain ⟨haccepts, -, hwalk⟩ := (locate_text_eq_ok_iff hparts).1 hlocate
    cases spot with
    | free directory name => cases hspot
    | node l node' =>
      cases hspot
      obtain ⟨n, hn, hwalks, hnode⟩ := FileTree.walks_of_walk hwalk
      exact ⟨haccepts, l, ⟨by rw [hnode]; rfl, n, hn, hwalks⟩, hnode⟩
  · rintro ⟨haccepts, l, hleads, hnode⟩
    obtain ⟨-, n, hn, hwalks⟩ := id hleads
    refine ⟨.node l node, ?_, rfl⟩
    rw [locate_text_eq_ok_iff hparts]
    exact ⟨haccepts, hleads.isSome_startOf hparts, FileTree.walk_of_walks hwalks hn hnode⟩

/-- Something is present at a path that leads somewhere. -/
theorem isPresent_iff (hparts : p.parts ≠ []) :
    fs.isPresent p = .ok true ↔ Accepts p ∧ ∃ l, fs.Leads p l := by
  have hstat : fs.isPresent p = .ok true ↔ ∃ node, fs.stat p.text = .ok node := by
    rw [isPresent, probe]
    cases fs.stat p.text with
    | ok node => simp
    | error fault => by_cases h : fault.meansAbsent = true <;> simp [h]
  rw [hstat]
  constructor
  · rintro ⟨node, h⟩
    obtain ⟨haccepts, l, hleads, -⟩ := (stat_text_eq_ok_iff hparts).1 h
    exact ⟨haccepts, l, hleads⟩
  · rintro ⟨haccepts, l, hleads⟩
    obtain ⟨node, hnode⟩ := Option.isSome_iff_exists.1 hleads.1
    exact ⟨node, (stat_text_eq_ok_iff hparts).2 ⟨haccepts, l, hleads, hnode⟩⟩

theorem startOf_of_isAbove (h : q.IsAbove p) : fs.startOf q = fs.startOf p := by
  rw [startOf, startOf, Path.isAbsolute, Path.isAbsolute, h.anchor_eq]

/-- **Where a path leads, a path above it leads on the way.** -/
theorem Leads.split {rest : List String} (h : fs.Leads p l) (hanchor : q.anchor = p.anchor)
    (hrest : q.parts ++ rest = p.parts) :
    ∃ l' n, fs.Leads q l' ∧ fs.tree.Walks l' rest l n := by
  obtain ⟨hnode, n, hn, hwalks⟩ := h
  obtain ⟨mid, i, j, hi, hj, rfl⟩ := hwalks.split hrest
  refine ⟨mid, j, ⟨?_, i, by omega, ?_⟩, hj⟩
  · cases rest with
    | nil => cases hj; exact hnode
    | cons name rest =>
      obtain ⟨permissions, hmid, -⟩ := hj.searchable
      rw [hmid]
      rfl
  · rwa [startOf_of_isAbove ⟨hanchor, ⟨rest, hrest⟩⟩]

theorem Leads.of_isAbove (h : fs.Leads p l) (hq : q.IsAbove p) : ∃ l', fs.Leads q l' := by
  obtain ⟨rest, hrest⟩ := hq.isPrefix
  obtain ⟨l', n, hleads, -⟩ := h.split hq.anchor_eq hrest
  exact ⟨l', hleads⟩

/-- A path with one more name leads where the name leads from where the path leads. -/
theorem Leads.of_div {name : String} (hname : IsPart name) (h : fs.Leads (p / name) l) :
    ∃ l' n, fs.Leads p l' ∧ fs.tree.Walks l' [name] l n :=
  h.split (Path.anchor_div_of_isPart hname).symm (Path.parts_div_of_isPart hname).symm

/-! ### Growth -/

/-- The files grow, and the process that looks at them stays what it is. -/
structure Grows (fs fs' : FileSystem) : Prop where
  process_eq : fs'.toProcess = fs.toProcess
  tree : fs.tree.Grows fs'.tree

theorem Grows.refl (fs : FileSystem) : Grows fs fs := ⟨rfl, .refl _⟩

theorem Grows.trans (h : Grows fs fs') (h' : Grows fs' fs'') : Grows fs fs'' :=
  ⟨h'.process_eq.trans h.process_eq, h.tree.trans h'.tree⟩

theorem Grows.cwd_eq (h : Grows fs fs') : fs'.cwd = fs.cwd := congrArg Process.cwd h.process_eq

theorem Grows.maxNesting_eq (h : Grows fs fs') : fs'.maxNesting = fs.maxNesting :=
  congrArg Process.maxNesting h.process_eq

theorem Grows.startOf (h : Grows fs fs') (p : Path) : fs'.startOf p = fs.startOf p := by
  rw [FileSystem.startOf, FileSystem.startOf, h.cwd_eq]

/-- Nothing is different but the bytes of files. -/
structure EditsBytes (fs fs' : FileSystem) : Prop where
  process_eq : fs'.toProcess = fs.toProcess
  tree : fs.tree.EditsBytes fs'.tree

theorem EditsBytes.grows (h : EditsBytes fs fs') : Grows fs fs' := ⟨h.process_eq, h.tree.grows⟩

theorem EditsBytes.executable_eq (h : EditsBytes fs fs') : fs'.executable = fs.executable :=
  congrArg Process.executable h.process_eq

/-- **Where files grow, every path leads where it led.** -/
theorem Grows.leads (h : Grows fs fs') (hleads : fs.Leads p l) : fs'.Leads p l := by
  obtain ⟨hnode, n, hn, hwalks⟩ := hleads
  refine ⟨h.tree.isSome_nodeAt hnode, n, hn, ?_⟩
  rw [h.startOf]
  exact h.tree.walks hwalks

/-! ### Placing a node under a free name -/

/-- What comes of placing a node where the walk of a path has found a free name. -/
structure Places (fs : FileSystem) (p : Path) (fs' : FileSystem) : Prop where
  grows : Grows fs fs'
  new : ∀ l, fs.tree.IsNew fs'.tree l → fs'.Leads p l
  free : ∀ l, ¬ fs.Leads p l
  leads : ∃ l, fs'.Leads p l

theorem isDirectory_of_canAddTo {directory : Location} (h : fs.canAddTo directory = true) :
    IsDirectory (fs.tree.nodeAt directory) := by
  rw [canAddTo] at h
  split at h
  · next permissions hnode => exact ⟨permissions, hnode⟩
  · cases h

theorem places_of_free {directory : Location} {name : String}
    (hfree : fs.tree.walk follow FileTree.maxLinks (fs.startOf p) p.parts
      = .ok (.free directory name))
    (hadd : fs.canAddTo directory = true) (hlink : node.isLink = false) :
    Places fs p (fs.place name directory node) := by
  have hdirectory := isDirectory_of_canAddTo hadd
  -- The name was free, so nothing is replaced, and it is the only new one.
  have hnone := FileTree.nodeAt_of_walk_free hfree
  have hnot := FileTree.not_isDirectory_of_eq_none hnone
  have hgrows : Grows fs (fs.place name directory node) := by
    refine ⟨rfl, FileTree.grows_place hdirectory hlink hnot fun old hold => ?_⟩
    cases hnone.symm.trans hold
  have hnode : (fs.place name directory node).tree.nodeAt (name :: directory) = some node := by
    show (fs.tree.place name directory node).nodeAt (name :: directory) = some node
    rw [FileTree.nodeAt_place_of_not_isDirectory hdirectory hnot, if_pos rfl]
  have hleads : (fs.place name directory node).Leads p (name :: directory) := by
    obtain ⟨n, hn, hwalks⟩ := FileTree.walks_of_free hgrows.tree hnode hlink hfree
    exact ⟨by rw [hnode]; rfl, n, hn, hwalks⟩
  refine ⟨hgrows, fun l hnew => ?_, ?_, name :: directory, hleads⟩
  · rw [FileTree.isNew_place hdirectory hnot hnew]
    exact hleads
  · rintro l ⟨-, n, -, hwalks⟩
    exact FileTree.not_walks_of_walk_free hfree hwalks

/-! ### Making directories -/

theorem resolve_ne_free {path : String} {directory : Location} {name : String}
    (hnames : ∀ name ∈ slashNames path, name = ".") :
    fs.resolve follow path ≠ .ok (.free directory name) := by
  intro h
  unfold resolve at h
  split at h
  · cases h
  split at h
  · cases h
  split at h
  · cases h
  dsimp only at h
  split at h
  · split at h <;> cases h
  · exact FileTree.walk_dots_ne_free hnames h

/-- A path without parts is not free. -/
theorem makeDirectory_ne_ok (hparts : p.parts = []) : fs.makeDirectory p.text ≠ .ok fs' := by
  intro h
  obtain ⟨spot, hlocate, hspot⟩ := bind_eq_ok_iff.1 h
  have hnul := not_hasNul_of_locate hlocate
  cases spot with
  | node location node => cases hspot
  | free directory name =>
    -- There is no name in the text to be made but `.`, and that is never free.
    have hdots : ∀ name ∈ slashNames p.text, name = "." := by
      rw [Path.text, hparts]
      cases p.anchor <;> decide
    rw [locate_of_not_hasNul hnul] at hlocate
    cases hresolve : fs.resolve false p.text with
    | error errno => rw [hresolve] at hlocate; cases hlocate
    | ok spot =>
      rw [hresolve] at hlocate
      cases hlocate
      exact resolve_ne_free hdots hresolve

theorem places_of_makeDirectory (h : fs.makeDirectory p.text = .ok fs') : Places fs p fs' := by
  have hparts : p.parts ≠ [] := fun hparts => makeDirectory_ne_ok hparts h
  obtain ⟨spot, hlocate, hspot⟩ := bind_eq_ok_iff.1 h
  obtain ⟨-, -, hwalk⟩ := (locate_text_eq_ok_iff hparts).1 hlocate
  cases spot with
  | node location node => cases hspot
  | free directory name =>
    simp only at hspot
    split at hspot
    · next hadd =>
      cases hspot
      exact places_of_free hwalk hadd rfl
    · cases hspot

theorem acceptDirectory_snd (fs : FileSystem) (p : Path) (fault : Fault) :
    (fs.acceptDirectory p fault).2 = fs := by
  unfold acceptDirectory
  split
  · split <;> rfl
  · rfl

section EnsureDirectory

variable {r : FileSystem → FileSystem → Prop}

theorem ensureLast_induction (hrefl : ∀ fs, r fs fs)
    (hmake : ∀ fs fs', fs.makeDirectory p.text = .ok fs' → r fs fs') (fs : FileSystem) :
    r fs (fs.ensureLast p).2 := by
  rw [ensureLast]
  split
  · next h => exact hmake fs _ h
  · exact hrefl fs
  · rw [acceptDirectory_snd]
    exact hrefl fs

theorem Making.induction {levels : Nat} {answer : Except Fault Unit × FileSystem}
    (hrefl : ∀ fs, r fs fs) (htrans : ∀ fs fs' fs'', r fs fs' → r fs' fs'' → r fs fs'')
    (hmake : ∀ q : Path, q.IsAbove p → ∀ fs fs', fs.makeDirectory q.text = .ok fs' → r fs fs')
    (h : Making levels fs p answer) : r fs answer.2 := by
  induction h with
  | made hmade => exact hmake _ (.refl _) _ _ hmade
  | bare | tooDeep => exact hrefl _
  | above _ _ ih =>
    have hway := ih fun q hq => hmake q hq.of_parent
    exact htrans _ _ _ hway (ensureLast_induction hrefl (hmake _ (.refl _)) _)
  | stuck _ _ ih => exact ih fun q hq => hmake q hq.of_parent
  | refused =>
    rw [acceptDirectory_snd]
    exact hrefl _

/-- **Making the directories on the way to a path** does what making one of them does, again and
again. -/
theorem ensureDirectory_induction (hrefl : ∀ fs, r fs fs)
    (htrans : ∀ fs fs' fs'', r fs fs' → r fs' fs'' → r fs fs'')
    (hmake : ∀ q : Path, q.IsAbove p → ∀ fs fs', fs.makeDirectory q.text = .ok fs' → r fs fs')
    (fs : FileSystem) : r fs (fs.ensureDirectory p).2 :=
  (making_ensureWithin fs.maxNesting fs p).induction hrefl htrans hmake

end EnsureDirectory

/-- What is new are directories to which the path or one above it leads, and did not lead. -/
structure MakesWay (fs : FileSystem) (p : Path) (fs' : FileSystem) : Prop where
  grows : Grows fs fs'
  new : ∀ l, fs.tree.IsNew fs'.tree l →
    ∃ q : Path, q.IsAbove p ∧ fs'.Leads q l ∧ ∀ l', ¬ fs.Leads q l'

namespace MakesWay

theorem refl (fs : FileSystem) (p : Path) : MakesWay fs p fs where
  grows := .refl fs
  new l h := by
    obtain ⟨hnone, hsome⟩ := h
    rw [hnone] at hsome
    cases hsome

theorem trans (h : MakesWay fs p fs') (h' : MakesWay fs' p fs'') : MakesWay fs p fs'' where
  grows := h.grows.trans h'.grows
  new l hnew := by
    by_cases hmid : (fs'.tree.nodeAt l).isSome = true
    · obtain ⟨q, hq, hleads, hnot⟩ := h.new l ⟨hnew.1, hmid⟩
      exact ⟨q, hq, h'.grows.leads hleads, hnot⟩
    · have hnone : fs'.tree.nodeAt l = none := by simpa using hmid
      obtain ⟨q, hq, hleads, hnot⟩ := h'.new l ⟨hnone, hnew.2⟩
      exact ⟨q, hq, hleads, fun l' hl' => hnot l' (h.grows.leads hl')⟩

end MakesWay

/-- To make the directory of a path above makes way for the path. -/
theorem Places.makesWay (hq : q.IsAbove p) (h : Places fs q fs') : MakesWay fs p fs' :=
  ⟨h.grows, fun l hnew => ⟨q, hq, h.new l hnew, h.free⟩⟩

/-- **Making the directories on the way to a path** adds directories to which the path or one above
it leads. -/
theorem ensureDirectory_makesWay (fs : FileSystem) (p : Path) :
    MakesWay fs p (fs.ensureDirectory p).2 :=
  ensureDirectory_induction (fun fs => .refl fs p) (fun _ _ _ h h' => h.trans h')
    (fun _ hq _ _ hmake => (places_of_makeDirectory hmake).makesWay hq) fs

/-! ### Writing -/

/-- What comes of writing a file: it is there, and nothing else is new. -/
structure Writes (fs : FileSystem) (p : Path) (fs' : FileSystem) : Prop where
  grows : Grows fs fs'
  accepts : Accepts p
  leads : ∃ l, fs'.Leads p l
  new : ∀ l, fs.tree.IsNew fs'.tree l → fs'.Leads p l

theorem writes_of_write {bytes : Bytes} (hparts : p.parts ≠ [])
    (h : fs.write p.text bytes = .ok fs') : Writes fs p fs' := by
  obtain ⟨spot, hlocate, hspot⟩ := bind_eq_ok_iff.1 h
  obtain ⟨haccepts, -, hwalk⟩ := (locate_text_eq_ok_iff hparts).1 hlocate
  -- The bytes are put under a free name, or in a file that stays where it is.
  split at hspot
  · next directory name =>
    split at hspot
    · next hadd =>
      cases hspot
      have hplaces : Places fs p (fs.place name directory (.file .newFile bytes)) :=
        places_of_free hwalk hadd rfl
      exact ⟨hplaces.grows, haccepts, hplaces.leads, hplaces.new⟩
    · cases hspot
  · next name directory permissions old =>
    split at hspot
    · cases hspot
      obtain ⟨n, hn, hwalks, hnode⟩ := FileTree.walks_of_walk hwalk
      have hdirectory := FileTree.isDirectory_of_nodeAt hnode
      have hnot := FileTree.not_isDirectory_of_eq_file hnode
      have hgrows : Grows fs (fs.place name directory (.file permissions bytes)) := by
        refine ⟨rfl, FileTree.grows_place hdirectory rfl hnot fun node hold => ?_⟩
        cases hnode.symm.trans hold
        rfl
      have hleads := hgrows.leads ⟨by rw [hnode]; rfl, n, hn, hwalks⟩
      refine ⟨hgrows, haccepts, ⟨_, hleads⟩, fun l hnew => ?_⟩
      rw [FileTree.isNew_place hdirectory hnot hnew]
      exact hleads
    · cases hspot
  · cases hspot

end FileSystem

end ConvertOnce
