import ConvertOnce.Proofs.FileTree.Walks

/-!
# Walks in a tree with one more file

A file that is put where there was a file or nothing (`FileTree.PutsFile`) is found by the walks
that found what was there before, and every other walk ends where it ended: `FileTree.After`
compares the two ends of a walk, and `FileTree.after_walk` says that no walk ends in another way.
-/

namespace ConvertOnce

theorem Node.isLink_of_isFile {node : Node} (h : node.isFile = true) : node.isLink = false := by
  cases node <;> cases h
  rfl

theorem Node.isDirectory_of_isFile {node : Node} (h : node.isFile = true) :
    node.isDirectory = false := by
  cases node <;> cases h
  rfl

namespace FileTree

variable {t t' : FileTree} {l k here : Location} {file node : Node} {follow : Bool} {links : Nat}
  {names : List String}

/-- The second tree has a file at the location, where the first has a file or nothing.  There is no
other difference. -/
structure PutsFile (t : FileTree) (l : Location) (file : Node) (t' : FileTree) : Prop where
  isFile : file.isFile = true
  old : ∀ node, t.nodeAt l = some node → node.isFile = true
  nodeAt_eq : ∀ k, t'.nodeAt k = if k = l then some file else t.nodeAt k

/-- How a walk ends in a tree with a file put at the location, given how it ended before. -/
inductive After {ε : Type} (l : Location) (file : Node) : Except ε Spot → Except ε Spot → Prop
  /-- It is refused as before, though maybe for another reason. -/
  | refused (reason reason' : ε) : After l file (.error reason) (.error reason')
  /-- It leads to the location, where the file is now. -/
  | replaced (node : Node) : After l file (.ok (.node l node)) (.ok (.node l file))
  /-- It leads to the location, where there was nothing. -/
  | made {name : String} {directory : Location} (here : name :: directory = l) :
      After l file (.ok (.free directory name)) (.ok (.node l file))
  /-- It leads to another node. -/
  | other {k : Location} (ne : k ≠ l) (node : Node) :
      After l file (.ok (.node k node)) (.ok (.node k node))
  /-- It leads to another free name. -/
  | free {name : String} {directory : Location} (ne : name :: directory ≠ l) :
      After l file (.ok (.free directory name)) (.ok (.free directory name))

/-- What the reasons for a refusal are does not matter. -/
theorem After.mapError {ε ε' : Type} {x y : Except ε Spot} (h : After l file x y)
    (report : ε → ε') :
    After l file (x.mapError report) (y.mapError report) := by
  cases h with
  | refused => exact .refused _ _
  | replaced node => exact .replaced node
  | made here => exact .made here
  | other ne node => exact .other ne node
  | free ne => exact .free ne

namespace PutsFile

/-- What is no file is where it was. -/
theorem nodeAt_of_not_isFile (h : PutsFile t l file t') (hnode : t.nodeAt k = some node)
    (hfile : node.isFile = false) : t'.nodeAt k = some node := by
  have hne : k ≠ l := by
    rintro rfl
    rw [h.old node hnode] at hfile
    cases hfile
  rw [h.nodeAt_eq, if_neg hne]
  exact hnode

/-- Where there was a node other than a link there is one. -/
theorem exists_of_not_isLink (h : PutsFile t l file t') (hnode : t.nodeAt k = some node)
    (hlink : node.isLink = false) : ∃ node', t'.nodeAt k = some node' ∧ node'.isLink = false := by
  rw [h.nodeAt_eq]
  by_cases heq : k = l
  · rw [if_pos heq]
    exact ⟨file, rfl, Node.isLink_of_isFile h.isFile⟩
  · rw [if_neg heq]
    exact ⟨node, hnode, hlink⟩

theorem isSome_nodeAt (h : PutsFile t l file t') (hnode : (t.nodeAt k).isSome = true) :
    (t'.nodeAt k).isSome = true := by
  rw [h.nodeAt_eq]
  by_cases heq : k = l
  · rw [if_pos heq]
    rfl
  · rw [if_neg heq]
    exact hnode

/-- Where there was no directory there is none. -/
theorem not_isDirectory (h : PutsFile t l file t') (hnot : ¬ IsDirectory (t.nodeAt k)) :
    ¬ IsDirectory (t'.nodeAt k) := by
  rw [h.nodeAt_eq]
  by_cases heq : k = l
  · rw [if_pos heq]
    rintro ⟨permissions, hfile⟩
    have hfile' := h.isFile
    rw [Option.some.inj hfile] at hfile'
    cases hfile'
  · rw [if_neg heq]
    exact hnot

end PutsFile

/-! ### One name of a walk -/

variable {name : String} {rest : List String}
  {enter enter' : Location → List String → Except Errno Spot}

/-- No name is looked up but in a directory. -/
theorem walkNames_of_not_isDirectory (hnot : ¬ IsDirectory (t.nodeAt here)) :
    ∃ errno, t.walkNames follow enter here (name :: rest) = .error errno := by
  cases hnode : t.nodeAt here with
  | none => exact ⟨.noEntry, by rw [walkNames, hnode]⟩
  | some node =>
    cases node with
    | directory permissions => exact absurd ⟨permissions, hnode⟩ hnot
    | file | link => exact ⟨.notDirectory, by rw [walkNames, hnode]⟩

theorem walk_of_not_isDirectory (hnot : ¬ IsDirectory (t.nodeAt here)) :
    ∃ errno, t.walk follow links here (name :: rest) = .error errno := by
  cases links <;> exact walkNames_of_not_isDirectory hnot

theorem isSome_nodeAt_tail (h : (t.nodeAt here).isSome = true) :
    (t.nodeAt here.tail).isSome = true := by
  cases here with
  | nil => exact h
  | cons name above =>
    obtain ⟨permissions, hnode⟩ := t.isDirectory_above name above h
    show (nodeIn t.root t.nodes above).isSome = true
    rw [hnode]
    rfl

theorem isSome_nodeAt_targetStart (h : (t.nodeAt here).isSome = true) (target : String) :
    (t.nodeAt (targetStart here target)).isSome = true := by
  rw [targetStart]
  split
  · rfl
  · exact h

/-! ### Turns of a walk -/

section Turns

variable {answer : Except Errno Spot}

/-- A walk in the second tree ends as `After` says, given how one in the first tree ends. -/
def EndsAfter (l : Location) (file : Node) (t' : FileTree) (follow : Bool)
    (enter' : Location → List String → Except Errno Spot) (here : Location) (names : List String)
    (answer : Except Errno Spot) : Prop :=
  ∃ answer', Course t' follow enter' here names answer' ∧ After l file answer answer'

namespace PutsFile

theorem searchable (h : PutsFile t l file t') (hsearch : t.Searchable here) :
    t'.Searchable here := by
  obtain ⟨permissions, hnode, hcan⟩ := hsearch
  exact ⟨permissions, h.nodeAt_of_not_isFile hnode rfl, hcan⟩

/-- The end of a walk: a node stays what it is, but where the file was put. -/
theorem endsAfter_nil (h : PutsFile t l file t') (hnode : t.nodeAt here = some node) :
    EndsAfter l file t' follow enter' here [] (.ok (.node here node)) := by
  by_cases heq : here = l
  · subst heq
    have hnode' : t'.nodeAt here = some file := by rw [h.nodeAt_eq, if_pos rfl]
    exact ⟨_, .arrived hnode', .replaced node⟩
  · have hnode' : t'.nodeAt here = some node := by rw [h.nodeAt_eq, if_neg heq, hnode]
    exact ⟨_, .arrived hnode', .other heq node⟩

/-- A last name that was free is so still, or that of the file. -/
theorem endsAfter_free (h : PutsFile t l file t') (hsearch : t.Searchable here)
    (hname : IsName name) (hfree : t.nodeAt (name :: here) = none) :
    EndsAfter l file t' follow enter' here [name] (.ok (.free here name)) := by
  by_cases heq : name :: here = l
  · have hnode' : t'.nodeAt (name :: here) = some file := by rw [h.nodeAt_eq, if_pos heq]
    have harrived : Course t' follow enter' (name :: here) [] _ := .arrived hnode'
    have hlink := Node.isLink_of_isFile h.isFile
    refine ⟨_, .step (h.searchable hsearch) hname hnode' hlink harrived, ?_⟩
    rw [heq]
    exact .made heq
  · have hnode' : t'.nodeAt (name :: here) = none := by rw [h.nodeAt_eq, if_neg heq, hfree]
    exact ⟨_, .free (h.searchable hsearch) hname hnode', .free heq⟩

/-- A free name before the last leads nowhere still: no other name is looked up in the file. -/
theorem endsAfter_missing (h : PutsFile t l file t') (hsearch : t.Searchable here)
    (hname : IsName name) (hfree : t.nodeAt (name :: here) = none) (hrest : rest ≠ []) :
    EndsAfter l file t' follow enter' here (name :: rest) (.error .noEntry) := by
  by_cases heq : name :: here = l
  · have hnode' : t'.nodeAt (name :: here) = some file := by rw [h.nodeAt_eq, if_pos heq]
    obtain ⟨next, rest, rfl⟩ := List.exists_cons_of_ne_nil hrest
    have hblocked : Course t' follow enter' (name :: here) (next :: rest) _ :=
      .blocked hnode' (Node.isDirectory_of_isFile h.isFile)
    have hlink := Node.isLink_of_isFile h.isFile
    exact ⟨_, .step (h.searchable hsearch) hname hnode' hlink hblocked, .refused _ _⟩
  · have hnode' : t'.nodeAt (name :: here) = none := by rw [h.nodeAt_eq, if_neg heq, hfree]
    exact ⟨_, .missing (h.searchable hsearch) hname hnode' hrest, .refused _ _⟩

/-- A link that is not followed is where it was. -/
theorem endsAfter_kept {target : String} (h : PutsFile t l file t') (hsearch : t.Searchable here)
    (hname : IsName name) (hlink : t.nodeAt (name :: here) = some (.link target))
    (hfollow : follow = false) :
    EndsAfter l file t' follow enter' here [name] (.ok (.node (name :: here) (.link target))) := by
  have hne : name :: here ≠ l := by
    rintro rfl
    cases h.old _ hlink
  have hlink' := h.nodeAt_of_not_isFile hlink rfl
  exact ⟨_, .kept (h.searchable hsearch) hname hlink' hfollow, .other hne _⟩

/-- What is no directory is none with the file. -/
theorem endsAfter_blocked (h : PutsFile t l file t') (hnode : t.nodeAt here = some node)
    (hdirectory : node.isDirectory = false) :
    EndsAfter l file t' follow enter' here (name :: rest) (.error .notDirectory) := by
  by_cases heq : here = l
  · have hnode' : t'.nodeAt here = some file := by rw [h.nodeAt_eq, if_pos heq]
    exact ⟨_, .blocked hnode' (Node.isDirectory_of_isFile h.isFile), .refused _ _⟩
  · have hnode' : t'.nodeAt here = some node := by rw [h.nodeAt_eq, if_neg heq, hnode]
    exact ⟨_, .blocked hnode' hdirectory, .refused _ _⟩

/-- Both walks take the same turn at each name, but where the name is that of the location. -/
theorem endsAfter (h : PutsFile t l file t')
    (henter : ∀ here names, (t.nodeAt here).isSome = true →
      After l file (enter here names) (enter' here names))
    (hhere : (t.nodeAt here).isSome = true) (hcourse : Course t follow enter here names answer) :
    EndsAfter l file t' follow enter' here names answer := by
  -- By induction on the course in the first tree: each turn of it is one of the second tree too,
  -- and the turns that meet the file have lemmas of their own.
  induction hcourse with
  | arrived hnode => exact h.endsAfter_nil hnode
  | lost hnode =>
    rw [hnode] at hhere
    cases hhere
  | blocked hnode hdirectory => exact h.endsAfter_blocked hnode hdirectory
  | closed hnode hcan =>
    exact ⟨_, .closed (h.nodeAt_of_not_isFile hnode rfl) hcan, .refused _ _⟩
  | dot hsearch _ ih =>
    obtain ⟨answer', hanswer', hafter⟩ := ih hhere
    exact ⟨answer', .dot (h.searchable hsearch) hanswer', hafter⟩
  | up hsearch _ ih =>
    obtain ⟨answer', hanswer', hafter⟩ := ih (isSome_nodeAt_tail hhere)
    exact ⟨answer', .up (h.searchable hsearch) hanswer', hafter⟩
  | tooLong hsearch hdot hup hlong =>
    exact ⟨_, .tooLong (h.searchable hsearch) hdot hup hlong, .refused _ _⟩
  | free hsearch hname hfree => exact h.endsAfter_free hsearch hname hfree
  | missing hsearch hname hfree hrest => exact h.endsAfter_missing hsearch hname hfree hrest
  | kept hsearch hname hlink hfollow => exact h.endsAfter_kept hsearch hname hlink hfollow
  | @link _ _ target _ hsearch hname hlink hfollowed =>
    have hlink' := h.nodeAt_of_not_isFile hlink rfl
    exact ⟨_, .link (h.searchable hsearch) hname hlink' hfollowed,
      henter _ _ (isSome_nodeAt_targetStart hhere target)⟩
  | step hsearch hname hnext hlink _ ih =>
    obtain ⟨next', hnext', hlink'⟩ := h.exists_of_not_isLink hnext hlink
    obtain ⟨answer', hanswer', hafter⟩ := ih (by rw [hnext]; rfl)
    exact ⟨answer', .step (h.searchable hsearch) hname hnext' hlink' hanswer', hafter⟩

end PutsFile

end Turns

theorem after_walkNames (h : PutsFile t l file t')
    (henter : ∀ here names, (t.nodeAt here).isSome = true →
      After l file (enter here names) (enter' here names))
    (hhere : (t.nodeAt here).isSome = true) :
    After l file (t.walkNames follow enter here names) (t'.walkNames follow enter' here names) := by
  obtain ⟨answer', hanswer', hafter⟩ :=
    h.endsAfter henter hhere (course_walkNames t follow enter here names)
  rw [hanswer'.walkNames_eq]
  exact hafter

/-- **A file that is put into a tree is found by the walks that found what it replaces**, and no
other walk ends elsewhere than before. -/
theorem after_walk (h : PutsFile t l file t') (hhere : (t.nodeAt here).isSome = true) :
    After l file (t.walk follow links here names) (t'.walk follow links here names) := by
  induction links generalizing here names with
  | zero => exact after_walkNames h (fun _ _ _ => .refused _ _) hhere
  | succ links ih => exact after_walkNames h (fun _ _ hhere => ih hhere) hhere

end FileTree

end ConvertOnce
