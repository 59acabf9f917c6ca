import ConvertOnce.FileSystem.RealPath
import ConvertOnce.Proofs.FileSystem.Refusals
import ConvertOnce.Proofs.FileSystem.SeenFrom

/-!
# Real paths

Three facts about `FileSystem.realPath`, each by recursion on the links that are busy and on the
pieces still to go.  It fails by links that lead back to themselves, by links that lead into one
another for too long or by U+0000, and in no other way (`FileSystem.realPath_error`); a real path is
absolute (`FileSystem.isAbsolute_of_realPath`); and an absolute path has the same real path from
every directory (`FileSystem.realPath_seenFrom`).
-/

namespace ConvertOnce

/-- Every link that is known to lead somewhere leads to an absolute path. -/
def KnownLinks.AreAbsolute (known : KnownLinks) : Prop :=
  ∀ link there, known.get? link = some (some there) → there.isAbsolute = true

/-- The path that was reached, and all that is known, is absolute. -/
def Trail.IsAbsolute : Trail → Prop
  | .followed p known => p.isAbsolute = true ∧ KnownLinks.AreAbsolute known
  | .looped p => p.isAbsolute = true

namespace Trail

/-- The path that a trail has come to. -/
def path : Trail → Path
  | .followed p _ => p
  | .looped p => p

theorem IsAbsolute.path {trail : Trail} (h : trail.IsAbsolute) : trail.path.isAbsolute = true := by
  cases trail with
  | followed p known => exact h.1
  | looped p => exact h

end Trail

namespace KnownLinks

theorem areAbsolute_empty : AreAbsolute .empty := by
  intro link there h
  rw [Table.get?_empty] at h
  cases h

/-- A link that becomes busy is not known to lead anywhere. -/
theorem AreAbsolute.insert_busy {known : KnownLinks} (h : AreAbsolute known) (new : Path) :
    AreAbsolute (Table.insert known new none) := by
  intro link there hlink
  rw [Table.get?_insert] at hlink
  split at hlink
  · cases hlink
  · exact h link there hlink

theorem AreAbsolute.insert_followed {known : KnownLinks} {target : Path} (h : AreAbsolute known)
    (new : Path) (htarget : target.isAbsolute = true) :
    AreAbsolute (Table.insert known new (some target)) := by
  intro link there hlink
  rw [Table.get?_insert] at hlink
  split at hlink
  · obtain rfl : target = there := Option.some.inj (Option.some.inj hlink)
    exact htarget
  · exact h link there hlink

end KnownLinks

namespace FileSystem

variable {fs : FileSystem} {cwd s : String} {p q here : Path} {known : KnownLinks} {trail : Trail}
  {fault : Fault} {enter enter' : KnownLinks → Path → Path → String → Except Fault Trail}

theorem isAbsolute_push (h : p.isAbsolute = true) (piece : String) :
    (p.push piece).isAbsolute = true := by
  rwa [Path.isAbsolute_push]

theorem isAbsolute_keepRest (h : p.isAbsolute = true) (pieces : List String) :
    (keepRest p pieces).isAbsolute = true :=
  Path.isAbsolute_div h _

theorem isAbsolute_followStart (h : here.isAbsolute = true) (s : String) :
    (followStart here s).isAbsolute = true := by
  rw [followStart]
  split
  · rfl
  · exact h

theorem followStart_of_isAbsoluteText (h : IsAbsoluteText s) : followStart here s = .bare .root :=
  if_pos h

/-! ### One piece -/

/-- Goes on by one piece: what is reached, or the busy link at which the search ends. -/
def followPiece (fs : FileSystem)
    (enter : KnownLinks → Path → Path → String → Except Fault Trail)
    (known : KnownLinks) (here : Path) (piece : String) : Except Fault Trail :=
  let next := here.push piece
  if piece = ".." ∨ ¬IsPart piece then .ok (.followed next known)
  else
    match fs.lstat next.text with
    | .ok (.link target) =>
      match known.get? next with
      | some (some there) => .ok (.followed there known)
      | some none => .ok (.looped next)
      | none =>
        match enter (known.insert next none) here next target with
        | .ok (.followed there known) => .ok (.followed there (known.insert next (some there)))
        | .ok (.looped there) => .ok (.looped there)
        | .error fault => .error fault
    | .error .nulCharacter => .error .nulCharacter
    | _ => .ok (.followed next known)

/-- What is left is followed from where one piece has led. -/
theorem followPieces_cons (fs : FileSystem) (known : KnownLinks) (here : Path) (piece : String)
    (rest : List String) :
    fs.followPieces enter known here (piece :: rest) =
      match fs.followPiece enter known here piece with
      | .ok (.followed there known) => fs.followPieces enter known there rest
      | .ok (.looped there) => .ok (.looped (keepRest there rest))
      | .error fault => .error fault := by
  rw [followPieces, followPiece]
  split
  · rfl
  cases fs.lstat (here.push piece).text with
  | error fault => cases fault <;> rfl
  | ok node =>
    cases node with
    | directory permissions => rfl
    | file permissions bytes => rfl
    | link target =>
      -- A link has not been met yet, is being followed, or has been followed.
      rcases Table.get? known (here.push piece) with _ | _ | there
      · dsimp only
        cases enter (Table.insert known (here.push piece) none) here (here.push piece) target with
        | error fault => rfl
        | ok trail => cases trail <;> rfl
      · rfl
      · rfl

/-- One piece leads from an absolute path to one, if following a link does. -/
theorem isAbsolute_of_followPiece
    (henter : ∀ known holder link target trail, known.AreAbsolute → holder.isAbsolute = true →
      link.isAbsolute = true → enter known holder link target = .ok trail → trail.IsAbsolute)
    {piece : String} (hknown : known.AreAbsolute) (hhere : here.isAbsolute = true)
    (h : fs.followPiece enter known here piece = .ok trail) : trail.IsAbsolute := by
  have hnext := isAbsolute_push hhere piece
  have hbusy := hknown.insert_busy (here.push piece)
  rw [followPiece] at h
  split at h
  · obtain rfl := Except.ok.inj h
    exact ⟨hnext, hknown⟩
  split at h
  · split at h
    · -- The link was followed before.
      next there hget =>
      obtain rfl := Except.ok.inj h
      exact ⟨hknown _ there hget, hknown⟩
    · -- The link is busy: the search ends at it.
      obtain rfl := Except.ok.inj h
      exact hnext
    · split at h
      · -- Its target was followed now, with the link busy.
        next there known' hlink =>
        obtain rfl := Except.ok.inj h
        obtain ⟨hthere, hknown'⟩ := henter _ _ _ _ _ hbusy hhere hnext hlink
        exact ⟨hthere, hknown'.insert_followed _ hthere⟩
      · next hlink =>
        obtain rfl := Except.ok.inj h
        exact henter _ _ _ _ _ hbusy hhere hnext hlink
      · cases h
  · cases h
  · obtain rfl := Except.ok.inj h
    exact ⟨hnext, hknown⟩

/-- One piece leads from an absolute path to the same place from everywhere, if following a link
does. -/
theorem followPiece_seenFrom
    (henter : ∀ known holder link target, known.AreAbsolute → holder.isAbsolute = true →
      enter' known holder link target = enter known holder link target)
    (hknown : known.AreAbsolute) (hhere : here.isAbsolute = true) (piece : String) :
    (fs.seenFrom cwd).followPiece enter' known here piece
      = fs.followPiece enter known here piece := by
  have hbusy := hknown.insert_busy (here.push piece)
  have hnext := Path.isAbsoluteText_text (isAbsolute_push hhere piece)
  rw [followPiece, followPiece, lstat_seenFrom hnext]
  simp only [henter _ _ _ _ hbusy hhere]

/-- The failures of following pieces. -/
inductive FailsToFollow : Fault → Prop
  | nul : FailsToFollow .nulCharacter
  | tooDeep : FailsToFollow .tooDeep

/-- One piece fails as following a link does, or by U+0000. -/
theorem followPiece_error
    (henter : ∀ known holder link target fault, enter known holder link target = .error fault →
      FailsToFollow fault)
    {piece : String} (h : fs.followPiece enter known here piece = .error fault) :
    FailsToFollow fault := by
  -- Whatever else the system refuses is taken for a file, so only U+0000 is left beside the links.
  rw [followPiece] at h
  split at h
  · cases h
  split at h
  · split at h
    · cases h
    · cases h
    · split at h
      · cases h
      · cases h
      · next hlink =>
        obtain rfl := Except.error.inj h
        exact henter _ _ _ _ _ hlink
  · cases h
    exact .nul
  · cases h

/-! ### All pieces -/

theorem isAbsolute_of_followPieces
    (henter : ∀ known holder link target trail, known.AreAbsolute → holder.isAbsolute = true →
      link.isAbsolute = true → enter known holder link target = .ok trail → trail.IsAbsolute)
    {pieces : List String} (hknown : known.AreAbsolute) (hhere : here.isAbsolute = true)
    (h : fs.followPieces enter known here pieces = .ok trail) : trail.IsAbsolute := by
  -- By induction on the pieces. The invariant is that the place and all places known so far are
  -- absolute.
  induction pieces generalizing known here with
  | nil =>
    obtain rfl := Except.ok.inj h
    exact ⟨hhere, hknown⟩
  | cons piece rest ih =>
    rw [followPieces_cons] at h
    split at h
    · next hpiece =>
      obtain ⟨hthere, hknown'⟩ := isAbsolute_of_followPiece henter hknown hhere hpiece
      exact ih hknown' hthere h
    · next hpiece =>
      have hthere := isAbsolute_of_followPiece henter hknown hhere hpiece
      obtain rfl := Except.ok.inj h
      exact isAbsolute_keepRest hthere rest
    · cases h

theorem followPieces_seenFrom
    (habsolute : ∀ known holder link target trail, known.AreAbsolute → holder.isAbsolute = true →
      link.isAbsolute = true → enter known holder link target = .ok trail → trail.IsAbsolute)
    (henter : ∀ known holder link target, known.AreAbsolute → holder.isAbsolute = true →
      enter' known holder link target = enter known holder link target)
    (pieces : List String) (hknown : known.AreAbsolute) (hhere : here.isAbsolute = true) :
    (fs.seenFrom cwd).followPieces enter' known here pieces
      = fs.followPieces enter known here pieces := by
  induction pieces generalizing known here with
  | nil => rfl
  | cons piece rest ih =>
    rw [followPieces_cons, followPieces_cons, followPiece_seenFrom henter hknown hhere]
    split
    · next hpiece =>
      obtain ⟨hthere, hknown'⟩ := isAbsolute_of_followPiece habsolute hknown hhere hpiece
      exact ih hknown' hthere
    · rfl
    · rfl

theorem followPieces_error
    (henter : ∀ known holder link target fault, enter known holder link target = .error fault →
      FailsToFollow fault)
    {pieces : List String} (h : fs.followPieces enter known here pieces = .error fault) :
    FailsToFollow fault := by
  induction pieces generalizing known here with
  | nil => cases h
  | cons piece rest ih =>
    rw [followPieces_cons] at h
    split at h
    · exact ih h
    · cases h
    · next hpiece =>
      obtain rfl := Except.error.inj h
      exact followPiece_error henter hpiece

/-! ### Through links -/

-- By induction on the number of targets that can still be followed within one another, with
-- everything else generalized: a target is followed from the directory that holds its link.
theorem isAbsolute_of_followText (levels : Nat) (hknown : known.AreAbsolute)
    (hstart : (followStart here s).isAbsolute = true)
    (h : fs.followText levels known here s = .ok trail) : trail.IsAbsolute := by
  induction levels generalizing known here s trail with
  | zero =>
    refine isAbsolute_of_followPieces ?_ hknown hstart h
    intro known holder link target trail _ _ _ htrail
    cases htrail
  | succ levels ih =>
    refine isAbsolute_of_followPieces ?_ hknown hstart h
    intro known holder link target trail hknown hholder _ htrail
    exact ih hknown (isAbsolute_followStart hholder target) htrail

theorem followText_seenFrom (levels : Nat) (hknown : known.AreAbsolute)
    (hstart : (followStart here s).isAbsolute = true) :
    (fs.seenFrom cwd).followText levels known here s = fs.followText levels known here s := by
  -- By induction on the targets that can still be followed within one another: at an absolute place
  -- the current directory is never asked for.
  induction levels generalizing known here s with
  | zero =>
    refine followPieces_seenFrom ?_ ?_ _ hknown hstart
    · intro known holder link target trail _ _ _ htrail
      cases htrail
    · intro known holder link target _ _
      rfl
  | succ levels ih =>
    refine followPieces_seenFrom ?_ ?_ _ hknown hstart
    · intro known holder link target trail hknown hholder _ htrail
      exact isAbsolute_of_followText levels hknown (isAbsolute_followStart hholder target) htrail
    · intro known holder link target hknown hholder
      exact ih hknown (isAbsolute_followStart hholder target)

theorem followText_error (levels : Nat) (h : fs.followText levels known here s = .error fault) :
    FailsToFollow fault := by
  induction levels generalizing known here s fault with
  | zero =>
    refine followPieces_error ?_ h
    intro known holder link target fault hlink
    cases hlink
    exact .tooDeep
  | succ levels ih =>
    refine followPieces_error ?_ h
    intro known holder link target fault hlink
    exact ih hlink

/-! ### Real paths -/

/-- The path that following a text has come to is its real path, unless asking for it runs into
too many links. -/
def acceptReal (fs : FileSystem) (real : Path) : Except Fault Path :=
  match fs.stat real.text with
  | .error (.system .tooManyLinks _) => .error (.linkLoop real.text)
  | .error .nulCharacter => .error .nulCharacter
  | _ => .ok real

theorem realPath_eq (fs : FileSystem) (p : Path) :
    fs.realPath p =
      fs.followText fs.maxNesting .empty (.bare .relative) p.text >>= fun trail =>
        fs.acceptReal (trail.path.absolute fs.cwd) := by
  rw [realPath]
  refine bind_congr fun trail => ?_
  cases trail with
  | followed q known | looped q =>
    simp only [pure_bind, Trail.path]
    unfold acceptReal
    generalize fs.stat (q.absolute fs.cwd).text = answer
    rfl

/-- A path has no real path only if its links lead back to themselves or into one another for too
long, or if there is a U+0000. -/
theorem realPath_error (h : fs.realPath p = .error fault) :
    FailsToFollow fault ∨ ∃ path, fault = .linkLoop path := by
  rw [realPath_eq] at h
  rcases bind_eq_error_iff.1 h with h | ⟨trail, -, h⟩
  · exact Or.inl (followText_error _ h)
  · rw [acceptReal] at h
    split at h
    · exact Or.inr ⟨_, (Except.error.inj h).symm⟩
    · cases h
      exact Or.inl .nul
    · cases h

theorem eq_of_acceptReal {real : Path} (h : fs.acceptReal p = .ok real) : real = p := by
  rw [acceptReal] at h
  split at h
  · cases h
  · cases h
  · exact (Except.ok.inj h).symm

theorem isAbsolute_followStart_text (h : p.isAbsolute = true) :
    (followStart (.bare .relative) p.text).isAbsolute = true := by
  rw [followStart_of_isAbsoluteText (Path.isAbsoluteText_text h)]
  rfl

/-- The real path of an absolute path is absolute. -/
theorem isAbsolute_of_realPath {real : Path} (h : p.isAbsolute = true)
    (hreal : fs.realPath p = .ok real) : real.isAbsolute = true := by
  rw [realPath_eq] at hreal
  obtain ⟨trail, htrail, hreal⟩ := bind_eq_ok_iff.1 hreal
  have habsolute := isAbsolute_of_followText _ KnownLinks.areAbsolute_empty
    (isAbsolute_followStart_text h) htrail
  rw [eq_of_acceptReal hreal, Path.absolute_of_isAbsolute _ habsolute.path]
  exact Path.isAbsolute_canonical habsolute.path

/-- **An absolute path has the same real path from everywhere.** -/
theorem realPath_seenFrom (h : p.isAbsolute = true) :
    (fs.seenFrom cwd).realPath p = fs.realPath p := by
  have hnesting : (fs.seenFrom cwd).maxNesting = fs.maxNesting := rfl
  have hstart := isAbsolute_followStart_text h
  -- The same pieces are followed, and where they lead nothing is asked of the current directory.
  rw [realPath_eq, realPath_eq, hnesting,
    followText_seenFrom _ KnownLinks.areAbsolute_empty hstart]
  refine bind_congr_of_ok fun trail htrail => ?_
  have habsolute := (isAbsolute_of_followText _ KnownLinks.areAbsolute_empty hstart htrail).path
  have hstat : (fs.seenFrom cwd).stat trail.path.canonical.text
      = fs.stat trail.path.canonical.text :=
    stat_seenFrom (Path.isAbsoluteText_text (Path.isAbsolute_canonical habsolute))
  rw [Path.absolute_of_isAbsolute _ habsolute, Path.absolute_of_isAbsolute _ habsolute, acceptReal,
    acceptReal, hstat]

end FileSystem

end ConvertOnce
