import ConvertOnce.Proofs.FileSystem.Directories
import ConvertOnce.Proofs.Guard.Recording

/-!
# Builds that race to record

Two builds that convert the same tree may both come to record a conversion, and one records in the
files that the other has changed.  Their markers are in one directory, so whoever is first makes it,
or finds that it cannot be made (`FileSystem.ensureDirectory_again`).  What is left is to write two
files, of which neither is in the way of the other (`FileSystem.Leaves.writesAt_iff`).  So the order
does not matter, and to record twice is to record once (`Guard.record_commutes`).
-/

namespace ConvertOnce

namespace FileSystem

variable {fs fs' fs'' fs₁ fs₂ : FileSystem} {p q directory : Path} {l : Location}
  {permissions permissions' : Permissions} {written written' : Bool}

/-- The same nodes are at the same locations, seen by the same process. -/
structure SameFiles (fs fs' : FileSystem) : Prop where
  process_eq : fs'.toProcess = fs.toProcess
  nodeAt_eq : ∀ l, fs'.tree.nodeAt l = fs.tree.nodeAt l

theorem SameFiles.refl (fs : FileSystem) : SameFiles fs fs := ⟨rfl, fun _ => rfl⟩

/-! ### Leaving an empty file -/

/-- What comes of leaving an empty file at a path. -/
inductive Leaves (p : Path) (fs : FileSystem) : Bool → FileSystem → Prop
  /-- It was written. -/
  | written {l : Location} {permissions : Permissions} {fs' : FileSystem}
      (writesAt : fs.WritesAt p l permissions) (sets : fs.Sets l (.file permissions []) fs') :
      Leaves p fs true fs'
  /-- It cannot be written. -/
  | refused (not_writesAt : ∀ l permissions, ¬ fs.WritesAt p l permissions) : Leaves p fs false fs

namespace Leaves

theorem process_eq (h : Leaves p fs written fs') : fs'.toProcess = fs.toProcess := by
  cases h with
  | written _ hsets => exact hsets.process_eq
  | refused => rfl

theorem grows (h : Leaves p fs written fs') : Grows fs fs' := by
  cases h with
  | written hwrites hsets => exact hwrites.grows hsets
  | refused => exact .refl fs

/-- The file is written exactly where it can be. -/
theorem eq_true_iff (h : Leaves p fs written fs') :
    written = true ↔ ∃ l permissions, fs.WritesAt p l permissions := by
  cases h with
  | written hwrites => exact ⟨fun _ => ⟨_, _, hwrites⟩, fun _ => rfl⟩
  | refused hnot =>
    constructor
    · intro h
      cases h
    · rintro ⟨l, permissions, hwrites⟩
      exact absurd hwrites (hnot l permissions)

/-- **What can be written is the same as before.** -/
theorem writesAt_iff (h : Leaves p fs written fs') :
    fs'.WritesAt q l permissions ↔ fs.WritesAt q l permissions := by
  cases h with
  | written hwrites hsets => exact hwrites.iff_of_sets hsets
  | refused => exact Iff.rfl

/-- The file is where it can be written. -/
theorem nodeAt_of_writesAt (h : Leaves p fs written fs') (hl : fs.WritesAt p l permissions) :
    fs'.tree.nodeAt l = some (.file permissions []) := by
  cases h with
  | written hwrites hsets =>
    obtain ⟨rfl, rfl⟩ := hwrites.unique hl
    exact hsets.nodeAt_self
  | refused hnot => exact absurd hl (hnot l permissions)

/-- Everything else is as it was. -/
theorem nodeAt_of_not_writesAt (h : Leaves p fs written fs')
    (hl : ∀ permissions, ¬ fs.WritesAt p l permissions) : fs'.tree.nodeAt l = fs.tree.nodeAt l := by
  cases h with
  | written hwrites hsets =>
    apply hsets.nodeAt_of_ne
    rintro rfl
    exact hl _ hwrites
  | refused => rfl

/-- A file can be left after another one exactly if it can be left alone. -/
theorem answer_eq {alone : Bool} {fs₁ fs₂ : FileSystem} (hp : Leaves p fs written fs')
    (hafter : Leaves q fs' written' fs₁) (halone : Leaves q fs alone fs₂) : written' = alone := by
  rw [Bool.eq_iff_iff, hafter.eq_true_iff, halone.eq_true_iff]
  constructor
  · rintro ⟨l, permissions, hwrites⟩
    exact ⟨l, permissions, hp.writesAt_iff.1 hwrites⟩
  · rintro ⟨l, permissions, hwrites⟩
    exact ⟨l, permissions, hp.writesAt_iff.2 hwrites⟩

/-- **Two files are left in either order.** -/
theorem comm {pw qw pw' qw' : Bool} {fsp fspq fsq fsqp : FileSystem} (hp : Leaves p fs pw fsp)
    (hpq : Leaves q fsp qw fspq) (hq : Leaves q fs qw' fsq) (hqp : Leaves p fsq pw' fsqp) :
    SameFiles fspq fsqp := by
  refine ⟨by rw [hqp.process_eq, hq.process_eq, hpq.process_eq, hp.process_eq], fun l => ?_⟩
  have hpq_not (hno : ∀ permissions, ¬ fs.WritesAt q l permissions) :
      fspq.tree.nodeAt l = fsp.tree.nodeAt l :=
    hpq.nodeAt_of_not_writesAt fun permissions hwrites =>
      hno permissions (hp.writesAt_iff.1 hwrites)
  have hqp_not (hno : ∀ permissions, ¬ fs.WritesAt p l permissions) :
      fsqp.tree.nodeAt l = fsq.tree.nodeAt l :=
    hqp.nodeAt_of_not_writesAt fun permissions hwrites =>
      hno permissions (hq.writesAt_iff.1 hwrites)
  -- What is at a location is settled by which of the two paths can be written there.
  by_cases hlp : ∃ permissions, fs.WritesAt p l permissions
  · obtain ⟨permissions, hlp⟩ := hlp
    rw [hqp.nodeAt_of_writesAt (hq.writesAt_iff.2 hlp)]
    by_cases hlq : ∃ permissions, fs.WritesAt q l permissions
    · -- Both paths lead there, so the file has the same permissions in either order.
      obtain ⟨permissions', hlq⟩ := hlq
      rw [hpq.nodeAt_of_writesAt (hp.writesAt_iff.2 hlq), hlp.permissions_eq hlq]
    · rw [hpq_not (not_exists.1 hlq), hp.nodeAt_of_writesAt hlp]
  · rw [hqp_not (not_exists.1 hlp)]
    by_cases hlq : ∃ permissions, fs.WritesAt q l permissions
    · obtain ⟨permissions, hlq⟩ := hlq
      rw [hpq.nodeAt_of_writesAt (hp.writesAt_iff.2 hlq), hq.nodeAt_of_writesAt hlq]
    · rw [hpq_not (not_exists.1 hlq), hp.nodeAt_of_not_writesAt (not_exists.1 hlp),
        hq.nodeAt_of_not_writesAt (not_exists.1 hlq)]

/-- A file is left twice as it is left once. -/
theorem twice (hp : Leaves p fs written fs') (hagain : Leaves p fs' written' fs'') :
    SameFiles fs' fs'' := by
  refine ⟨hagain.process_eq, fun l => ?_⟩
  by_cases hl : ∃ permissions, fs.WritesAt p l permissions
  · obtain ⟨permissions, hl⟩ := hl
    rw [hagain.nodeAt_of_writesAt (hp.writesAt_iff.2 hl), hp.nodeAt_of_writesAt hl]
  · apply hagain.nodeAt_of_not_writesAt
    intro permissions hwrites
    exact hl ⟨permissions, hp.writesAt_iff.1 hwrites⟩

end Leaves

end FileSystem

/-! ### Recording in one directory -/

/-- The worlds are the same, with the same nodes at the same locations. -/
structure World.Same (w w' : World) : Prop where
  files : w.files.SameFiles w'.files
  rest : w' = { w with files := w'.files }

namespace Decision

open FileSystem (Leaves)

variable {d : Decision} {directory marker : Path} {fs fs' way : FileSystem} {fault : Fault}

/-- The decision is to convert the tree and to leave a marker in the directory. -/
structure MarksIn (directory : Path) (d : Decision) : Prop where
  verdict_eq : d.verdict = .run
  marker_eq : ∃ digest : InputDigest, d.marker = some (directory / digest.markerFile)

/-- The decision is to convert the tree and to leave this marker in the directory. -/
structure Marks (directory marker : Path) (d : Decision) : Prop where
  verdict_eq : d.verdict = .run
  marker_eq : d.marker = some marker
  parent_eq : marker.parent = directory
  not_hasNul : ¬ HasNul marker.text

theorem MarksIn.exists_marks (h : d.MarksIn directory) (hnul : ¬ HasNul directory.text) :
    ∃ marker, d.Marks directory marker := by
  obtain ⟨hrun, digest, hmarker⟩ := h
  refine ⟨_, hrun, hmarker, Path.parent_div_of_isPart digest.isPart_markerFile, ?_⟩
  rw [Path.hasNul_div_of_isPart digest.isPart_markerFile]
  rintro (h | h)
  · exact hnul h
  · exact digest.nul_not_mem_markerFile h

namespace Marks

/-- Recording is answered where the directory can be made, or is refused by the file system. -/
theorem answered (h : d.Marks directory marker)
    (hshallow : (fs.ensureDirectory directory).1 ≠ .error .tooDeep) :
    ∃ written, (d.record fs).1 = .ok written := by
  cases hrecord : (d.record fs).1 with
  | ok written => exact ⟨written, rfl⟩
  | error fault =>
    obtain ⟨marker', -, hmarker', hcause⟩ := record_error hrecord
    obtain rfl : marker = marker' := Option.some.inj (h.marker_eq.symm.trans hmarker')
    rw [h.parent_eq] at hcause
    exact absurd hcause (not_or.2 ⟨h.not_hasNul, hshallow⟩)

/-- A directory that is too deep is the same failure for every marker in it. -/
theorem record_of_tooDeep (h : d.Marks directory marker)
    (hdeep : (fs.ensureDirectory directory).1 = .error .tooDeep) :
    d.record fs = (.error .tooDeep, fs) := by
  rw [← h.parent_eq] at hdeep
  exact Decision.record_of_tooDeep h.verdict_eq h.marker_eq hdeep

/-- Where the directory is refused no marker is left. -/
theorem record_of_error (h : d.Marks directory marker)
    (hensured : fs.ensureDirectory directory = (.error fault, way)) (hshallow : fault ≠ .tooDeep) :
    d.record fs = (.ok false, way) := by
  obtain ⟨hrun, hmarker, rfl, hnul⟩ := h
  have hattempt : Attempt marker fs (d.record fs).1 (d.record fs).2 := attempt_record hrun hmarker
  generalize d.record fs = answer at hattempt
  obtain ⟨outcome, files⟩ := answer
  -- Of the ways for an attempt to end only one begins with such a refusal.
  cases hattempt with
  | written hok | unwritable hok => cases hensured.symm.trans hok
  | obstructed herror =>
    cases hensured.symm.trans herror
    rfl
  | tooDeep herror =>
    cases hensured.symm.trans herror
    exact absurd rfl hshallow
  | malformed _ hmarkerNul => exact absurd hmarkerNul hnul

/-- Where the directory cannot be made, whoever records next ends in the same way, and changes
nothing more. -/
theorem exists_outcome_of_error (h : d.Marks directory marker)
    (hensured : fs.ensureDirectory directory = (.error fault, way)) :
    ∃ outcome, d.record fs = (outcome, way) ∧ d.record way = (outcome, way) := by
  obtain ⟨fault', hagain, hdeep⟩ := FileSystem.ensureDirectory_again hensured
  by_cases hfault : fault = .tooDeep
  · have hfirst := h.record_of_tooDeep ((congrArg Prod.fst hensured).trans (by rw [hfault]))
    have hsecond := h.record_of_tooDeep ((congrArg Prod.fst hagain).trans (by rw [hdeep.2 hfault]))
    have hsame : fs = way := by
      rw [hfault] at hensured
      have htooDeep := FileSystem.ensureDirectory_of_tooDeep (congrArg Prod.fst hensured)
      exact congrArg Prod.snd (htooDeep.symm.trans hensured)
    rw [← hsame] at hsecond ⊢
    exact ⟨_, hfirst, hsecond⟩
  · exact ⟨_, h.record_of_error hensured hfault, h.record_of_error hagain (mt hdeep.1 hfault)⟩

/-- Where the directory is made the marker is left in it, if it can be. -/
theorem exists_leaves (h : d.Marks directory marker)
    (hensured : fs.ensureDirectory directory = (.ok (), way)) :
    ∃ written fs', d.record fs = (.ok written, fs') ∧ Leaves marker way written fs' ∧
      fs'.ensureDirectory directory = (.ok (), fs') := by
  have hdirectory := FileSystem.isDirectoryAt_of_ensureDirectory hensured
  -- The directory that was made is there however the attempt ends.
  suffices hleaves : ∃ written fs', d.record fs = (.ok written, fs') ∧
      Leaves marker way written fs' by
    obtain ⟨written, fs', hrecord, hleaves⟩ := hleaves
    have hstays := hleaves.grows.isDirectoryAt hdirectory
    exact ⟨written, fs', hrecord, hleaves, FileSystem.ensureDirectory_of_isDirectoryAt hstays⟩
  obtain ⟨hrun, hmarker, rfl, hnul⟩ := h
  have hattempt : Attempt marker fs (d.record fs).1 (d.record fs).2 := attempt_record hrun hmarker
  generalize d.record fs = answer at hattempt
  obtain ⟨outcome, files⟩ := answer
  cases hattempt with
  | written hok hwrites hsets =>
    cases hensured.symm.trans hok
    exact ⟨true, files, rfl, .written hwrites hsets⟩
  | unwritable hok hnot =>
    cases hensured.symm.trans hok
    exact ⟨false, files, rfl, .refused hnot⟩
  | obstructed herror | tooDeep herror => cases hensured.symm.trans herror
  | malformed _ hmarkerNul => exact absurd hmarkerNul hnul

end Marks

/-! ### The order does not matter -/

/-- What comes of recording two decisions one after the other. -/
structure Commute (a b : Decision) (fs : FileSystem) : Prop where
  /-- The first one is answered after the other as it is alone. -/
  fst_eq : (a.record (b.record fs).2).1 = (a.record fs).1
  /-- So is the other one. -/
  snd_eq : (b.record (a.record fs).2).1 = (b.record fs).1
  /-- The files are the same in either order. -/
  files : (b.record (a.record fs).2).2.SameFiles (a.record (b.record fs).2).2
  /-- The files are the same if the first is recorded again. -/
  again : (a.record fs).2.SameFiles (a.record (a.record fs).2).2

variable {a b : Decision} {p q : Path}

/-- Where the directory cannot be made there is no marker, and nothing more changes. -/
theorem commute_of_error (ha : a.Marks directory p) (hb : b.Marks directory q)
    (hensured : fs.ensureDirectory directory = (.error fault, way)) : Commute a b fs := by
  obtain ⟨outcome, hfirst, hfirst'⟩ := ha.exists_outcome_of_error hensured
  obtain ⟨outcome', hsecond, hsecond'⟩ := hb.exists_outcome_of_error hensured
  exact {
    fst_eq := by rw [hsecond, hfirst', hfirst]
    snd_eq := by rw [hfirst, hsecond', hsecond]
    files := by
      rw [hfirst, hsecond, hfirst', hsecond']
      exact .refl way
    again := by
      rw [hfirst, hfirst']
      exact .refl way }

/-- Where the directory is made two markers are left in it. -/
theorem commute_of_ok (ha : a.Marks directory p) (hb : b.Marks directory q)
    (hensured : fs.ensureDirectory directory = (.ok (), way)) : Commute a b fs := by
  obtain ⟨pw, fsp, hfirst, hp, hpready⟩ := ha.exists_leaves hensured
  obtain ⟨qw, fsq, hsecond, hq, hqready⟩ := hb.exists_leaves hensured
  -- The directory is there now, so whoever is second finds it, and makes nothing more.
  obtain ⟨qw', fspq, hsecond', hpq, -⟩ := hb.exists_leaves hpready
  obtain ⟨pw', fsqp, hfirst', hqp, -⟩ := ha.exists_leaves hqready
  obtain ⟨pw'', fspp, hfirst'', hpp, -⟩ := ha.exists_leaves hpready
  exact {
    fst_eq := by rw [hsecond, hfirst', hfirst, hq.answer_eq hqp hp]
    snd_eq := by rw [hfirst, hsecond', hsecond, hp.answer_eq hpq hq]
    files := by
      rw [hfirst, hsecond, hfirst', hsecond']
      exact hp.comm hpq hq hqp
    again := by
      rw [hfirst, hfirst'']
      exact hp.twice hpp }

theorem commute (ha : a.Marks directory p) (hb : b.Marks directory q) (fs : FileSystem) :
    Commute a b fs := by
  rcases hensured : fs.ensureDirectory directory with ⟨fault | _, way⟩
  · exact commute_of_error ha hb hensured
  · exact commute_of_ok ha hb hensured

end Decision

namespace Guard

open Decision (MarksIn)

variable {directory : Path} {a b : Decision}

/-- What is promised of builds that record two decisions in the same world. -/
structure Commutes (a b : Decision) (w : World) : Prop where
  /-- Both are answered, unless the directory is too deep for either. -/
  answered :
    ((∃ written, (record a w).1 = .ok written) ∧ ∃ written, (record b w).1 = .ok written) ∨
      (record a w).1 = .error .tooDeep ∧ (record b w).1 = .error .tooDeep
  /-- The first one is answered alike in either order. -/
  fst_eq : (record a (record b w).2).1 = (record a w).1
  /-- So is the second one. -/
  snd_eq : (record b (record a w).2).1 = (record b w).1
  /-- The world is the same in either order. -/
  same : (record b (record a w).2).2.Same (record a (record b w).2).2
  /-- The first one is answered alike if it is recorded again. -/
  again_eq : (record a (record a w).2).1 = (record a w).1
  /-- The world is the same if it is recorded again. -/
  again : (record a w).2.Same (record a (record a w).2).2

/-- **Builds that race to record do so in either order, and once is enough.** -/
theorem record_commutes (hnul : ¬ HasNul directory.text) (ha : a.MarksIn directory)
    (hb : b.MarksIn directory) (w : World) : Commutes a b w := by
  obtain ⟨p, hp⟩ := ha.exists_marks hnul
  obtain ⟨q, hq⟩ := hb.exists_marks hnul
  have hcommute := Decision.commute hp hq w.files
  exact {
    answered := by
      by_cases hdeep : (w.files.ensureDirectory directory).1 = .error .tooDeep
      · rw [record_fst, record_fst, hp.record_of_tooDeep hdeep, hq.record_of_tooDeep hdeep]
        exact Or.inr ⟨rfl, rfl⟩
      · exact Or.inl ⟨hp.answered hdeep, hq.answered hdeep⟩
    fst_eq := hcommute.fst_eq
    snd_eq := hcommute.snd_eq
    same := ⟨hcommute.files, rfl⟩
    again_eq := (Decision.commute hp hp w.files).fst_eq
    again := ⟨hcommute.again, rfl⟩ }

/-- The directory of the markers of a project. -/
def racingDirectory : Path := .ofString "/p/node_modules/markers"

/-- A decision to convert the tree of the project from the inputs of a digest. -/
def racingDecision (digest : InputDigest) : Decision :=
  ⟨.run, .markerAbsent, some digest, some (racingDirectory / digest.markerFile)⟩

/-- The project keeps its markers elsewhere. -/
def racingWorld : World := .ofFiles {
  tree := .putAll .empty [⟨"/p/cache/markers", .directory .newDirectory⟩,
    ⟨"/p/node_modules/markers", .link "../cache/markers"⟩]
  cwd := "/p"
  executable := "/usr/bin/python3" }

/-- Two builds of the project record, and both markers are left. -/
theorem record_commutes_racing :
    ¬ HasNul racingDirectory.text ∧ (racingDecision ⟨[1]⟩).MarksIn racingDirectory ∧
      (racingDecision ⟨[2]⟩).MarksIn racingDirectory ∧
      (record (racingDecision ⟨[1]⟩) racingWorld).1 = .ok true ∧
      (record (racingDecision ⟨[2]⟩) racingWorld).1 = .ok true ∧
      Commutes (racingDecision ⟨[1]⟩) (racingDecision ⟨[2]⟩) racingWorld := by
  have hnul : ¬ HasNul racingDirectory.text := by unfold HasNul; decide
  have hmarks (digest : InputDigest) : (racingDecision digest).MarksIn racingDirectory :=
    ⟨rfl, digest, rfl⟩
  refine ⟨hnul, hmarks _, hmarks _, ?_, ?_, record_commutes hnul (hmarks _) (hmarks _) racingWorld⟩
  · decide +kernel
  · decide +kernel

end Guard

end ConvertOnce
