import ConvertOnce.FileSystem.Probe
import ConvertOnce.Proofs.Except
import ConvertOnce.Proofs.FileTree.Walks
import ConvertOnce.Proofs.Path.Text
import Mathlib.Data.List.Infix

/-!
# How a call can be refused

A path with U+0000 in it is refused by every call, whatever the files are; any other path is refused
by the file system or not at all.  `FileSystem.probe_error` narrows this down for a question about a
path, where a missing permission and a name that is too long are all that remain.
-/

namespace ConvertOnce

/-! ### Paths with U+0000 -/

/-- The text has the character U+0000 in it. -/
def HasNul (s : String) : Prop := '\x00' ∈ s.toList

theorem hasNul_append {s t : String} : HasNul (s ++ t) ↔ HasNul s ∨ HasNul t := by
  rw [HasNul, String.toList_append, List.mem_append]
  rfl

theorem hasNul_slashJoin {parts : List String} :
    HasNul (slashJoin parts) ↔ ∃ s ∈ parts, HasNul s := by
  have hslash : ¬ HasNul "/" := by unfold HasNul; decide
  induction parts with
  | nil => simp [slashJoin, HasNul]
  | cons first rest ih =>
    cases rest with
    | nil => simp [slashJoin]
    | cons next rest =>
      have hjoin : slashJoin (first :: next :: rest) = first ++ "/" ++ slashJoin (next :: rest) :=
        String.intercalate_cons_cons
      simp [hjoin, hasNul_append, hslash, ih]

namespace Path

variable {p : Path}

/-- A path has U+0000 in it exactly when one of its parts has. -/
theorem hasNul_text : HasNul p.text ↔ ∃ s ∈ p.parts, HasNul s := by
  have hdot : ¬ HasNul "." := by unfold HasNul; decide
  have hanchor : ¬ HasNul p.anchor.text := by
    unfold HasNul
    cases p.anchor <;> decide
  rw [text]
  split
  · next h => simp [h.2, hdot]
  · rw [hasNul_append, hasNul_slashJoin]
    simp [hanchor]

theorem hasNul_of_parent (h : HasNul p.parent.text) : HasNul p.text := by
  obtain ⟨s, hs, hnul⟩ := hasNul_text.1 h
  exact hasNul_text.2 ⟨s, List.mem_of_mem_dropLast hs, hnul⟩

theorem hasNul_div_of_isPart {s : String} (h : IsPart s) :
    HasNul (p / s).text ↔ HasNul p.text ∨ HasNul s := by
  rw [hasNul_text, hasNul_text, parts_div_of_isPart h]
  simp [or_and_right, exists_or]

/-- What is added to a path can only bring U+0000 with it. -/
theorem hasNul_of_div {s : String} (h : HasNul (p / s).text) : HasNul p.text ∨ HasNul s := by
  obtain ⟨part, hpart, hnul⟩ := hasNul_text.1 h
  have hparts : part ∈ p.parts ∨ part ∈ (ofString s).parts := by
    have hjoin : (p / s).parts = (p.join (ofString s)).parts := rfl
    rw [hjoin, join] at hpart
    split at hpart
    · exact List.mem_append.1 hpart
    · exact Or.inr hpart
  rcases hparts with hpart | hpart
  · exact Or.inl (hasNul_text.2 ⟨part, hpart, hnul⟩)
  · obtain ⟨hpiece, -⟩ := List.mem_filter.1 hpart
    exact Or.inr (mem_of_mem_slashPieces hpiece hnul)

end Path

/-! ### Faults of a single call -/

namespace Fault

/-- The file system refused a call. -/
def isSystem : Fault → Bool
  | system .. => true
  | _ => false

end Fault

/-- The refusals that a resolution can end with. -/
def Errno.endsResolution : Errno → Bool
  | noEntry | accessDenied | notDirectory | nameTooLong | tooManyLinks => true
  | alreadyExists | isDirectory => false

namespace FileTree

theorem walkNames_error {t : FileTree} {follow : Bool}
    {enter : Location → List String → Except Errno Spot}
    (henter : ∀ here names errno, enter here names = .error errno → errno.endsResolution = true)
    {here : Location} {names : List String} {errno : Errno}
    (h : t.walkNames follow enter here names = .error errno) : errno.endsResolution = true := by
  have hcourse := course_of_walkNames h
  generalize hanswer : Except.error errno = answer at hcourse
  clear h
  induction hcourse with
  | dot _ _ ih | up _ _ ih | step _ _ _ _ _ ih => exact ih hanswer
  | link => exact henter _ _ _ hanswer.symm
  | lost | blocked | closed | tooLong | missing => cases hanswer; rfl
  | arrived | free | kept => cases hanswer

theorem walk_error {t : FileTree} {follow : Bool} {links : Nat} {here : Location}
    {names : List String} {errno : Errno} (h : t.walk follow links here names = .error errno) :
    errno.endsResolution = true := by
  induction links generalizing here names errno with
  | zero =>
    refine walkNames_error (fun _ _ errno h => ?_) h
    cases h
    rfl
  | succ links ih => exact walkNames_error (fun here names errno h => ih h) h

end FileTree

namespace FileSystem

variable {fs : FileSystem} {path : String} {follow : Bool} {fault : Fault} {p : Path}

/-- The refusals of a call that is given the text of a path. -/
inductive Refuses (path : String) : Fault → Prop
  | nul (hasNul : HasNul path) : Refuses path .nulCharacter
  | system (hasNul : ¬ HasNul path) (errno : Errno) : Refuses path (.system errno path)

theorem Refuses.eq_nulCharacter (h : Refuses path fault) (hnul : HasNul path) :
    fault = .nulCharacter := by
  cases h with
  | nul => rfl
  | system hnot => exact absurd hnul hnot

theorem Refuses.isSystem (h : Refuses path fault) (hnul : ¬ HasNul path) :
    fault.isSystem = true := by
  cases h with
  | nul hasNul => exact absurd hasNul hnul
  | system => rfl

/-- A refusal of the file system carries the whole text. -/
theorem Refuses.eq_path {errno : Errno} {place : String}
    (h : Refuses path (.system errno place)) : place = path := by
  cases h
  rfl

theorem resolve_error {errno : Errno} (h : fs.resolve follow path = .error errno) :
    errno.endsResolution = true := by
  unfold resolve at h
  split at h
  · cases h; rfl
  split at h
  · cases h; rfl
  split at h
  · cases h; rfl
  simp only at h
  split at h
  · split at h
    · cases h; rfl
    · cases h
  · next hwalk => exact FileTree.walk_error h

theorem locate_of_hasNul (h : HasNul path) : fs.locate follow path = .error .nulCharacter := by
  have hcontains : path.toList.contains '\x00' = true := List.contains_iff_mem.2 h
  rw [locate, hcontains, if_pos rfl]

theorem locate_of_not_hasNul (h : ¬ HasNul path) :
    fs.locate follow path =
      match fs.resolve follow path with
      | .ok spot => .ok spot
      | .error errno => .error (.system errno path) := by
  have hcontains : path.toList.contains '\x00' = false := by
    rw [Bool.eq_false_iff]
    exact fun hc => h (List.contains_iff_mem.1 hc)
  rw [locate, hcontains]
  rfl

/-- A refusal to resolve a path is reported with the path. -/
theorem locate_eq_mapError (h : ¬ HasNul path) :
    fs.locate follow path = (fs.resolve follow path).mapError fun errno => .system errno path := by
  rw [locate_of_not_hasNul h]
  cases fs.resolve follow path <;> rfl

theorem locate_error (h : fs.locate follow path = .error fault) : Refuses path fault := by
  by_cases hnul : HasNul path
  · rw [locate_of_hasNul hnul] at h
    cases h
    exact .nul hnul
  · rw [locate_of_not_hasNul hnul] at h
    cases hresolve : fs.resolve follow path with
    | ok spot => rw [hresolve] at h; cases h
    | error errno =>
      rw [hresolve] at h
      cases h
      exact .system hnul errno

theorem not_hasNul_of_locate {spot : Spot} (h : fs.locate follow path = .ok spot) :
    ¬ HasNul path := by
  intro hnul
  rw [locate_of_hasNul hnul] at h
  cases h

theorem stat_of_hasNul (h : HasNul path) : fs.stat path = .error .nulCharacter := by
  rw [stat, locate_of_hasNul h]
  rfl

/-- Asking for a node is refused as resolving its path is, or because nothing is there. -/
theorem stat_error (h : fs.stat path = .error fault) :
    Refuses path fault ∧ ∀ errno, fault = .system errno path → errno.endsResolution = true := by
  -- A refusal comes from following the path, or from what it leads to being free.
  rcases bind_eq_error_iff.1 h with hlocate | ⟨spot, hlocate, hnode⟩
  · refine ⟨locate_error hlocate, ?_⟩
    rintro errno rfl
    by_cases hnul : HasNul path
    · cases (locate_error hlocate).eq_nulCharacter hnul
    · rw [locate_of_not_hasNul hnul] at hlocate
      cases hresolve : fs.resolve true path with
      | ok spot => rw [hresolve] at hlocate; cases hlocate
      | error errno' =>
        rw [hresolve] at hlocate
        cases hlocate
        exact resolve_error hresolve
  · cases spot with
    | node location node => cases hnode
    | free directory name =>
      cases hnode
      refine ⟨.system (not_hasNul_of_locate hlocate) _, ?_⟩
      rintro errno heq
      cases heq
      rfl

/-- What can be asked for has no U+0000 in its path. -/
theorem not_hasNul_of_stat {node : Node} (h : fs.stat path = .ok node) : ¬ HasNul path := by
  intro hnul
  rw [stat_of_hasNul hnul] at h
  cases h

theorem leadsSomewhere_iff : fs.leadsSomewhere path = true ↔ ∃ node, fs.stat path = .ok node := by
  rw [leadsSomewhere]
  cases fs.stat path <;> simp [Except.isOk, Except.toBool]

theorem read_of_hasNul (h : HasNul path) : fs.read path = .error .nulCharacter := by
  rw [read, stat_of_hasNul h]
  rfl

theorem read_error (h : fs.read path = .error fault) : Refuses path fault := by
  rcases bind_eq_error_iff.1 h with hstat | ⟨node, hstat, hnode⟩
  · exact (stat_error hstat).1
  · have hnul := not_hasNul_of_stat hstat
    cases node with
    | file permissions bytes =>
      simp only at hnode
      split at hnode
      · cases hnode
      · cases hnode
        exact .system hnul _
    | directory permissions => cases hnode; exact .system hnul _
    | link target => cases hnode; exact .system hnul _

theorem makeDirectory_error (h : fs.makeDirectory path = .error fault) : Refuses path fault := by
  rcases bind_eq_error_iff.1 h with hlocate | ⟨spot, hlocate, hspot⟩
  · exact locate_error hlocate
  · have hnul := not_hasNul_of_locate hlocate
    cases spot with
    | node location node => cases hspot; exact .system hnul _
    | free directory name =>
      simp only at hspot
      split at hspot
      · cases hspot
      · cases hspot; exact .system hnul _

theorem write_error {bytes : Bytes} (h : fs.write path bytes = .error fault) :
    Refuses path fault := by
  rcases bind_eq_error_iff.1 h with hlocate | ⟨spot, hlocate, hspot⟩
  · exact locate_error hlocate
  · have hnul := not_hasNul_of_locate hlocate
    split at hspot
    · split at hspot
      · cases hspot
      · cases hspot; exact .system hnul _
    · split at hspot
      · cases hspot
      · cases hspot; exact .system hnul _
    · cases hspot; exact .system hnul _

theorem canWrite_error (h : fs.canWrite path = .error fault) : HasNul path := by
  rw [canWrite] at h
  cases hstat : fs.stat path with
  | ok node => rw [hstat] at h; cases h
  | error fault' =>
    cases (stat_error hstat).1 with
    | nul hnul => exact hnul
    | system hnul errno => rw [hstat] at h; cases h

/-! ### Questions about paths -/

/-- **How a question about a path can be refused**: a permission is missing on the way, or a name
or the whole path is too long. -/
theorem probe_eq_error_iff {test : Node → Bool} :
    fs.probe test p = .error fault ↔
      fs.stat p.text = .error fault ∧
        (fault = .system .accessDenied p.text ∨ fault = .system .nameTooLong p.text) := by
  rw [probe]
  cases hstat : fs.stat p.text with
  | ok node => simp
  | error fault' =>
    obtain ⟨hrefuses, hends⟩ := stat_error hstat
    cases hrefuses with
    | nul hnul => simp [Fault.meansAbsent]; rintro rfl; simp
    | system hnul errno =>
      have hend := hends errno rfl
      -- Of the refusals of a resolution only these two do not count as an answer.
      cases errno <;> simp_all [Fault.meansAbsent, Errno.endsResolution]
      all_goals rintro rfl; simp

theorem probe_error {test : Node → Bool} (h : fs.probe test p = .error fault) :
    fault.isSystem = true := by
  rcases (probe_eq_error_iff.1 h).2 with rfl | rfl <;> rfl

/-- A path that passes a test leads to a node that does. -/
theorem exists_stat_of_probe {test : Node → Bool} (h : fs.probe test p = .ok true) :
    ∃ node, fs.stat p.text = .ok node ∧ test node = true := by
  rw [probe] at h
  cases hstat : fs.stat p.text with
  | ok node =>
    rw [hstat] at h
    exact ⟨node, rfl, Except.ok.inj h⟩
  | error fault =>
    rw [hstat] at h
    dsimp only at h
    split at h <;> cases h

theorem not_hasNul_of_probe {test : Node → Bool} (h : fs.probe test p = .ok true) :
    ¬ HasNul p.text := by
  obtain ⟨node, hstat, -⟩ := exists_stat_of_probe h
  exact not_hasNul_of_stat hstat

/-! ### Making directories -/

theorem acceptDirectory_error (hfault : fault.isSystem = true) {fault' : Fault}
    (h : (fs.acceptDirectory p fault).1 = .error fault') : fault'.isSystem = true := by
  cases fault with
  | system errno path =>
    rw [acceptDirectory] at h
    cases hdirectory : fs.isDirectoryAt p with
    | error worse =>
      rw [hdirectory] at h
      cases h
      exact probe_error hdirectory
    | ok isDirectory =>
      rw [hdirectory] at h
      cases isDirectory <;> cases h
      rfl
  | _ => cases hfault

theorem acceptDirectory_of_not_isSystem (h : fault.isSystem = false) :
    fs.acceptDirectory p fault = (.error fault, fs) := by
  cases fault with
  | system => cases h
  | _ => rfl

theorem ensureLast_error (hnul : ¬ HasNul p.text) (h : (fs.ensureLast p).1 = .error fault) :
    fault.isSystem = true := by
  rw [ensureLast] at h
  split at h
  · cases h
  · cases h; rfl
  · next hmake =>
    exact acceptDirectory_error ((makeDirectory_error hmake).isSystem hnul) h

end FileSystem

end ConvertOnce
