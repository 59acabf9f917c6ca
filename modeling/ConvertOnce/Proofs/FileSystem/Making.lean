import ConvertOnce.Proofs.FileSystem.Refusals

/-!
# How directories are made

`FileSystem.Making` has a constructor for each way in which the making of a directory can end, with
the files that are reached, and `FileSystem.making_ensureWithin` says that it ends in one of them.
From this come the failures: a refusal of the file system, or too many directories that are missing
one above the other (`FileSystem.ensureDirectory_error`,
`FileSystem.ensureDirectory_eq_tooDeep_iff`).
-/

namespace ConvertOnce

/-- A way outwards that is not longer than the path leads past paths with a part. -/
theorem Path.lt_length_of_outward {p : Path} {n : Nat}
    (h : ∀ q ∈ outward (n + 1) p, q.parts ≠ []) : n < p.parts.length := by
  induction n generalizing p with
  | zero => exact List.length_pos_of_ne_nil (h p List.mem_cons_self)
  | succ n ih =>
    have hparent : n < p.parts.dropLast.length := ih fun q hq => h q (List.mem_cons_of_mem _ hq)
    rw [List.length_dropLast] at hparent
    omega

namespace FileSystem

variable {fs fs' : FileSystem} {p : Path} {levels : Nat} {fault : Fault}
  {answer : Except Fault Unit × FileSystem}

/-- The directory of a path cannot be made, since the one above it is missing. -/
structure Lacks (fs : FileSystem) (p : Path) : Prop where
  parts_ne_nil : p.parts ≠ []
  makeDirectory_eq : fs.makeDirectory p.text = .error (.system .noEntry p.text)

/-- The making of a directory, with so many directories above it at most that are missing one above
the other, ends with an answer and files. -/
inductive Making : Nat → FileSystem → Path → Except Fault Unit × FileSystem → Prop
  /-- It is made right away. -/
  | made {levels : Nat} {fs fs' : FileSystem} {p : Path}
      (makeDirectory_eq : fs.makeDirectory p.text = .ok fs') : Making levels fs p (.ok (), fs')
  /-- There is nothing above a bare path. -/
  | bare {levels : Nat} {fs : FileSystem} {p : Path} (parts_eq : p.parts = [])
      (makeDirectory_eq : fs.makeDirectory p.text = .error (.system .noEntry p.text)) :
      Making levels fs p (.error (.system .noEntry p.text), fs)
  /-- One more directory is missing than can be asked for. -/
  | tooDeep {fs : FileSystem} {p : Path} (lacks : fs.Lacks p) : Making 0 fs p (.error .tooDeep, fs)
  /-- The directory above it was made, and then it is tried once more. -/
  | above {levels : Nat} {fs fs' : FileSystem} {p : Path} (lacks : fs.Lacks p)
      (making : Making levels fs p.parent (.ok (), fs')) :
      Making (levels + 1) fs p (fs'.ensureLast p)
  /-- The directory above it could not be made. -/
  | stuck {levels : Nat} {fs fs' : FileSystem} {p : Path} {fault : Fault} (lacks : fs.Lacks p)
      (making : Making levels fs p.parent (.error fault, fs')) :
      Making (levels + 1) fs p (.error fault, fs')
  /-- It is refused for another reason, and may be there. -/
  | refused {levels : Nat} {fs : FileSystem} {p : Path} {fault : Fault}
      (makeDirectory_eq : fs.makeDirectory p.text = .error fault)
      (ne_noEntry : ∀ path, fault ≠ .system .noEntry path) :
      Making levels fs p (fs.acceptDirectory p fault)

/-- **A directory is made in one of these ways.** -/
theorem making_ensureWithin (levels : Nat) (fs : FileSystem) (p : Path) :
    Making levels fs p (ensureWithin levels fs p) := by
  -- By induction on the levels that are left, along the parents of the path.
  induction levels generalizing p with
  | zero =>
    rw [ensureWithin]
    split
    · next hmake => exact .made hmake
    · next path hmake =>
      obtain rfl := (makeDirectory_error hmake).eq_path
      split
      · next hbare => exact .bare hbare hmake
      · next hparts => exact .tooDeep ⟨hparts, hmake⟩
    · next hne hmake => exact .refused hmake hne
  | succ levels ih =>
    rw [ensureWithin]
    split
    · next hmake => exact .made hmake
    · next path hmake =>
      obtain rfl := (makeDirectory_error hmake).eq_path
      split
      · next hbare => exact .bare hbare hmake
      · next hparts =>
        have hparent := ih p.parent
        generalize ensureWithin levels fs p.parent = reached at hparent ⊢
        rcases reached with ⟨fault | _, fs'⟩
        · exact .stuck ⟨hparts, hmake⟩ hparent
        · exact .above ⟨hparts, hmake⟩ hparent
    · next hne hmake => exact .refused hmake hne

theorem making_of_ensureWithin (h : ensureWithin levels fs p = answer) :
    Making levels fs p answer := by
  rw [← h]
  exact making_ensureWithin levels fs p

theorem Making.ensureWithin_eq (h : Making levels fs p answer) :
    ensureWithin levels fs p = answer := by
  -- Both cases of the recursion agree until it comes to the parent.
  induction h with
  | @made levels _ _ _ hmake => cases levels <;> rw [ensureWithin, hmake]
  | @bare levels _ _ hparts hmake =>
    cases levels <;> rw [ensureWithin, hmake] <;> exact if_pos hparts
  | tooDeep hlacks =>
    rw [ensureWithin, hlacks.makeDirectory_eq]
    exact if_neg hlacks.parts_ne_nil
  | above hlacks _ ih | stuck hlacks _ ih =>
    rw [ensureWithin, hlacks.makeDirectory_eq]
    dsimp only
    rw [if_neg hlacks.parts_ne_nil, ih]
  | @refused levels _ _ fault hmake hne =>
    cases fault with
    | system errno path =>
      cases errno with
      | noEntry => exact absurd rfl (hne path)
      | _ => cases levels <;> rw [ensureWithin, hmake]
    | _ => cases levels <;> rw [ensureWithin, hmake]

/-! ### Directories that cannot be made -/

theorem Making.error (h : Making levels fs p answer) (hnul : ¬ HasNul p.text)
    (herror : answer.1 = .error fault) : fault.isSystem = true ∨ fault = .tooDeep := by
  induction h with
  | made => cases herror
  | bare => cases herror; exact Or.inl rfl
  | tooDeep => cases herror; exact Or.inr rfl
  | above => exact Or.inl (ensureLast_error hnul herror)
  | stuck _ _ ih => exact ih (fun hnul' => hnul (Path.hasNul_of_parent hnul')) herror
  | refused hmake _ =>
    exact Or.inl (acceptDirectory_error ((makeDirectory_error hmake).isSystem hnul) herror)

/-- **The making of directories is refused by the file system**, unless there is U+0000 in the path
or the process cannot go as deep. -/
theorem ensureDirectory_error (hnul : ¬ HasNul p.text)
    (h : (fs.ensureDirectory p).1 = .error fault) : fault.isSystem = true ∨ fault = .tooDeep :=
  (making_ensureWithin fs.maxNesting fs p).error hnul h

theorem ensureDirectory_of_hasNul (h : HasNul p.text) :
    fs.ensureDirectory p = (.error .nulCharacter, fs) := by
  have hmake : fs.makeDirectory p.text = .error .nulCharacter := by
    rw [makeDirectory, locate_of_hasNul h]
    rfl
  exact (Making.refused hmake fun path heq => by cases heq).ensureWithin_eq

theorem ensureWithin_of_lacks (h : ∀ q ∈ Path.outward (levels + 1) p, fs.Lacks q) :
    ensureWithin levels fs p = (.error .tooDeep, fs) := by
  refine Making.ensureWithin_eq ?_
  induction levels generalizing p with
  | zero => exact .tooDeep (h p List.mem_cons_self)
  | succ levels ih =>
    exact .stuck (h p List.mem_cons_self) (ih fun q hq => h q (List.mem_cons_of_mem _ hq))

theorem acceptDirectory_ne_tooDeep (h : fault ≠ .tooDeep) :
    (fs.acceptDirectory p fault).1 ≠ .error .tooDeep := by
  intro hdeep
  cases hsystem : fault.isSystem with
  | true => cases acceptDirectory_error hsystem hdeep
  | false =>
    rw [acceptDirectory_of_not_isSystem hsystem] at hdeep
    exact h (Except.error.inj hdeep)

theorem makeDirectory_ne_tooDeep : fs.makeDirectory p.text ≠ .error .tooDeep := fun h => by
  cases makeDirectory_error h

theorem ensureLast_ne_tooDeep : (fs.ensureLast p).1 ≠ .error .tooDeep := by
  intro hdeep
  rw [ensureLast] at hdeep
  split at hdeep
  · cases hdeep
  · cases hdeep
  · next hmake =>
    refine acceptDirectory_ne_tooDeep ?_ hdeep
    rintro rfl
    exact makeDirectory_ne_tooDeep hmake

theorem Making.lacks (h : Making levels fs p answer) (herror : answer.1 = .error .tooDeep) :
    ∀ q ∈ Path.outward (levels + 1) p, fs.Lacks q := by
  -- Only a making that has gone up at every level can end so, and it has found nothing on its way.
  induction h with
  | made | bare => cases herror
  | tooDeep hlacks =>
    intro q hq
    obtain rfl := List.mem_singleton.1 hq
    exact hlacks
  | above => exact absurd herror ensureLast_ne_tooDeep
  | stuck hlacks _ ih =>
    intro q hq
    rcases List.mem_cons.1 hq with rfl | hq
    · exact hlacks
    · exact ih herror q hq
  | refused hmake =>
    refine absurd herror (acceptDirectory_ne_tooDeep ?_)
    rintro rfl
    exact makeDirectory_ne_tooDeep hmake

/-- **A directory is too deep** when more directories are missing one above the other than the
process can ask for; nothing has been made then. -/
theorem ensureDirectory_eq_tooDeep_iff :
    (fs.ensureDirectory p).1 = .error .tooDeep ↔
      ∀ q ∈ Path.outward (fs.maxNesting + 1) p, fs.Lacks q := by
  constructor
  · intro h
    exact (making_ensureWithin fs.maxNesting fs p).lacks h
  · intro h
    rw [ensureDirectory, ensureWithin_of_lacks h]

theorem ensureDirectory_of_tooDeep (h : (fs.ensureDirectory p).1 = .error .tooDeep) :
    fs.ensureDirectory p = (.error .tooDeep, fs) :=
  ensureWithin_of_lacks (ensureDirectory_eq_tooDeep_iff.1 h)

/-- A path with no more parts than the process can go deep is not too deep. -/
theorem ensureDirectory_ne_tooDeep (h : p.parts.length ≤ fs.maxNesting) :
    (fs.ensureDirectory p).1 ≠ .error .tooDeep := by
  intro hdeep
  have hlength := Path.lt_length_of_outward fun q hq =>
    (ensureDirectory_eq_tooDeep_iff.1 hdeep q hq).parts_ne_nil
  omega

end FileSystem

end ConvertOnce
