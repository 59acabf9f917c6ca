import ConvertOnce.Proofs.FileSystem.Leads
import ConvertOnce.Proofs.Guard.Staleness

/-!
# Builds that share a tree

Any number of builds guard one dependency tree with one directory of markers.  Each decides,
converts and records, and the steps of different builds come in any order (`Step`, `Run`), over
files that all of them share and whose bytes anyone may edit at any time.

The invariant (`Inv`) accounts for every node with the name of a marker: either a conversion of
these inputs has succeeded, or the node is the tree or the directory of markers itself, which may be
so named.  From it `Run.convertsOnce` says that a marker is there only after a conversion of its
inputs, that it stays there once a build has written it, and that no build converts these inputs
again.
-/

namespace ConvertOnce

/-! ### The directory of markers -/

namespace Path

variable {p q : Path} {name : String}

/-- A name without a slash adds itself to a path, or nothing. -/
theorem div_eq_self_or_isPart (h : '/' ∉ name.toList) : p / name = p ∨ IsPart name := by
  by_cases hempty : name = ""
  · subst hempty
    exact Or.inl (ext_parts rfl (List.append_nil _))
  by_cases hdot : name = "."
  · subst hdot
    exact Or.inl (ext_parts rfl (List.append_nil _))
  · exact Or.inr ⟨hempty, hdot, h⟩

/-- What is above a path is the path itself or above its parent. -/
theorem IsAbove.eq_or_parent (h : q.IsAbove p) : q = p ∨ q.IsAbove p.parent := by
  obtain ⟨hanchor, hprefix⟩ := h
  rcases List.eq_nil_or_concat' p.parts with hnil | ⟨init, last, hconcat⟩
  · rw [hnil] at hprefix
    exact Or.inl (ext_parts hanchor ((List.prefix_nil.1 hprefix).trans hnil.symm))
  · rw [hconcat] at hprefix
    rcases List.prefix_concat_iff.1 hprefix with heq | hinit
    · exact Or.inl (ext_parts hanchor (heq.trans hconcat.symm))
    · refine Or.inr ⟨hanchor, ?_⟩
      show q.parts <+: p.parts.dropLast
      rwa [hconcat, List.dropLast_concat]

/-- What is above a path with one more name is that path or above the path. -/
theorem IsAbove.eq_or_of_div (hname : '/' ∉ name.toList) (h : q.IsAbove (p / name)) :
    q = p / name ∨ q.IsAbove p := by
  rcases div_eq_self_or_isPart (p := p) hname with heq | hpart
  · rw [heq] at h
    exact Or.inr h
  · have hcases := h.eq_or_parent
    rwa [parent_div_of_isPart hpart] at hcases

end Path

/-! ### Where markers are -/

namespace FileSystem

variable {start fs fs' : FileSystem} {root directory : Path} {name : String} {l above : Location}
  {digest : InputDigest}

/-- Nothing has the name of a marker. -/
def NoMarkers (fs : FileSystem) : Prop :=
  ∀ digest : InputDigest, digest.IsFull → ∀ above : Location,
    fs.tree.nodeAt (digest.markerFile :: above) = none

/-- No marker is a link, since links are as old as the tree. -/
theorem NoMarkers.ne_link (hstart : NoMarkers start) (hgrows : Grows start fs)
    (hfull : digest.IsFull)
    (target : String) : fs.tree.nodeAt (digest.markerFile :: above) ≠ some (.link target) := by
  intro hlink
  have hold := hgrows.tree.link _ _ hlink
  rw [hstart digest hfull above] at hold
  cases hold

/-- **The path of a marker leads to the marker in the directory to which its parent leads.** -/
theorem NoMarkers.leads_marker (hstart : NoMarkers start) (hgrows : Grows start fs)
    (hfull : digest.IsFull) (h : fs.Leads (directory / digest.markerFile) l) :
    ∃ above, fs.Leads directory above ∧ l = digest.markerFile :: above := by
  have hpart := digest.isPart_markerFile
  obtain ⟨above, n, hleads, hwalks⟩ := h.of_div hpart
  refine ⟨above, hleads, ?_⟩
  exact hwalks.eq_cons_of_singleton hpart.2.1 digest.markerFile_ne_up (hstart.ne_link hgrows hfull)

/-- The tree itself is not a marker in the directory of markers. -/
theorem NoMarkers.not_leads (hstart : NoMarkers start) (hgrows : Grows start fs)
    (hfull : digest.IsFull) (hname : '/' ∉ name.toList) (hup : name ≠ "..")
    (h : fs.Leads (root / name) above) : ¬ fs.Leads root (digest.markerFile :: above) := by
  intro hroot
  rcases Path.div_eq_self_or_isPart (p := root) hname with heq | hpart
  · rw [heq] at h
    exact List.cons_ne_self _ _ (hroot.unique h)
  · obtain ⟨l, n, hl, hwalks⟩ := h.of_div hpart
    obtain rfl := hl.unique hroot
    -- A link below the marker would be as old as the tree, and so would the marker.
    have hlink : ∀ target,
        fs.tree.nodeAt (name :: digest.markerFile :: above) ≠ some (.link target) := by
      intro target hlink
      have hold := hgrows.tree.link _ _ hlink
      exact FileTree.not_isDirectory_of_eq_none (hstart digest hfull above)
        (FileTree.isDirectory_of_nodeAt hold)
    have hcons := hwalks.eq_cons_of_singleton hpart.2.1 hup hlink
    have hlength := congrArg List.length hcons
    simp at hlength
    omega

end FileSystem

/-! ### Recording -/

namespace Decision

variable {d : Decision} {fs : FileSystem} {directory : Path} {digest : InputDigest}

/-- What writing a marker leaves: the way to it, and then the marker or nothing. -/
theorem writeMarker_makesWay (fs : FileSystem) (directory : Path) (digest : InputDigest) :
    ∃ way, fs.MakesWay directory way ∧
      ((writeMarker (directory / digest.markerFile) fs).2 = way ∧
          (writeMarker (directory / digest.markerFile) fs).1 ≠ .ok () ∨
        way.Writes (directory / digest.markerFile)
          (writeMarker (directory / digest.markerFile) fs).2) := by
  have hparts : (directory / digest.markerFile).parts ≠ [] := by
    rw [Path.parts_div_of_isPart digest.isPart_markerFile]
    simp
  have hway := FileSystem.ensureDirectory_makesWay fs directory
  rw [writeMarker, Path.parent_div_of_isPart digest.isPart_markerFile]
  -- The directories are made in any case, and the marker is only written where that succeeds.
  rcases hensure : fs.ensureDirectory directory with ⟨fault | _, way⟩
  · rw [hensure] at hway
    exact ⟨way, hway, Or.inl ⟨rfl, nofun⟩⟩
  · rw [hensure] at hway
    refine ⟨way, hway, ?_⟩
    dsimp only
    cases hwrite : way.write (directory / digest.markerFile).text [] with
    | error fault => exact Or.inl ⟨rfl, nofun⟩
    | ok written => exact Or.inr (FileSystem.writes_of_write hparts hwrite)

/-- Recording leaves what writing the marker leaves. -/
theorem record_makesWay (hrun : d.verdict = .run)
    (hmarker : d.marker = some (directory / digest.markerFile)) :
    ∃ way, fs.MakesWay directory way ∧
      ((d.record fs).2 = way ∧ (d.record fs).1 ≠ .ok true ∨
        way.Writes (directory / digest.markerFile) (d.record fs).2) := by
  rw [record_snd hrun hmarker, Ne, record_fst_eq_ok_true_iff hrun hmarker]
  exact writeMarker_makesWay fs directory digest

end Decision

namespace Guard

/-! ### Steps -/

/-- Where a build stands. -/
inductive Stage where
  /-- It has not begun, or it has ended. -/
  | ready
  /-- It has decided to convert the tree. -/
  | decided (d : Decision)
  /-- It has converted the tree. -/
  | converted (d : Decision)

namespace Stage

/-- Where a build stands that has decided.  One that leaves the tree alone, or fails, ends. -/
def afterDecision : Except Fault Decision → Stage
  | .ok d => if d.isRun then .decided d else .ready
  | .error _ => .ready

/-- Where a build stands whose conversion has ended. -/
def afterConversion (d : Decision) : Except Fault Unit → Stage
  | .ok () => .converted d
  | .error _ => .ready

variable {d d' : Decision} {answer : Except Fault Decision} {outcome : Except Fault Unit}

theorem of_afterDecision_eq_decided (h : afterDecision answer = .decided d) :
    answer = .ok d ∧ d.isRun = true := by
  cases answer with
  | error fault => cases h
  | ok d' =>
    rw [afterDecision] at h
    cases hrun : d'.isRun with
    | false => rw [hrun] at h; cases h
    | true =>
      rw [hrun] at h
      cases h
      exact ⟨rfl, hrun⟩

theorem afterDecision_ne_converted : afterDecision answer ≠ .converted d := by
  cases answer with
  | error fault => nofun
  | ok d' => rw [afterDecision]; split <;> nofun

theorem of_afterConversion_eq_converted (h : afterConversion d outcome = .converted d') :
    outcome = .ok () ∧ d' = d := by
  cases outcome <;> cases h
  exact ⟨rfl, rfl⟩

theorem afterConversion_ne_decided : afterConversion d outcome ≠ .decided d' := by
  cases outcome <;> nofun

end Stage

/-- The files that builds share, and where each of them stands. -/
structure Shared (ι : Type) where
  /-- The files. -/
  files : FileSystem
  /-- Where each build stands. -/
  stage : ι → Stage

/-- What happens: a step of a build in a world, with its outcome, or an edit by someone else. -/
inductive Deed (ι : Type) where
  /-- A build decides. -/
  | decide (build : ι) (w : World) (answer : Except Fault Decision)
  /-- A build converts the tree, as it has decided. -/
  | convert (build : ι) (d : Decision) (w : World) (outcome : Except Fault Unit)
  /-- A build records its conversion. -/
  | record (build : ι) (d : Decision) (w : World) (written : Except Fault Bool)
  /-- Someone edits files. -/
  | edit

variable {ι : Type}

/-- One step of one build, or an edit.  The world in which a build takes a step has the shared
files; all else in it is the build's own.  Children and others edit no more than the bytes of
files. -/
inductive Step [DecidableEq ι] (builds : ι → Guard) : Shared ι → Deed ι → Shared ι → Prop
  | decide {s : Shared ι} {i : ι} {w : World} (stage_eq : s.stage i = .ready)
      (files_eq : w.files = s.files) :
      Step builds s (.decide i w ((builds i).decide w).1)
        ⟨s.files, Function.update s.stage i (.afterDecision ((builds i).decide w).1)⟩
  | convert {s : Shared ι} {i : ι} {d : Decision} {w : World} (stage_eq : s.stage i = .decided d)
      (files_eq : w.files = s.files) (edits : s.files.EditsBytes ((builds i).convert d w).2.files) :
      Step builds s (.convert i d w ((builds i).convert d w).1)
        ⟨((builds i).convert d w).2.files,
          Function.update s.stage i (.afterConversion d ((builds i).convert d w).1)⟩
  | record {s : Shared ι} {i : ι} {d : Decision} {w : World} (stage_eq : s.stage i = .converted d)
      (files_eq : w.files = s.files) :
      Step builds s (.record i d w (Guard.record d w).1)
        ⟨(Guard.record d w).2.files, Function.update s.stage i .ready⟩
  | edit {s : Shared ι} {files : FileSystem} (edits : s.files.EditsBytes files) :
      Step builds s .edit ⟨files, s.stage⟩

/-- The builds before any of them has begun. -/
def Shared.start (files : FileSystem) : Shared ι := ⟨files, fun _ => .ready⟩

/-- Steps in any number and order. -/
inductive Run [DecidableEq ι] (builds : ι → Guard) (start : Shared ι) :
    List (Deed ι) → Shared ι → Prop
  | start : Run builds start [] start
  | step {deeds : List (Deed ι)} {deed : Deed ι} {s s' : Shared ι}
      (earlier : Run builds start deeds s)
      (step : Step builds s deed s') : Run builds start (deeds ++ [deed]) s'

/-- The builds guard one tree, with one directory of markers in it. -/
structure GuardOneTree (builds : ι → Guard) (root : Path) (name : String) : Prop where
  dependencyRoot_eq : ∀ i, (builds i).dependencyRoot = some root
  markerDirectory_eq : ∀ i, (builds i).settings.markerDirectory = name
  slash_not_mem : '/' ∉ name.toList
  ne_up : name ≠ ".."

/-- A build has converted the tree from inputs with the digest: it had decided so, and its child was
started and exited with status zero. -/
def Earned (builds : ι → Guard) (deeds : List (Deed ι)) (digest : InputDigest) : Prop :=
  ∃ i d w, .convert i d w (.ok ()) ∈ deeds ∧ d.isRun = true ∧ d.digest = some digest ∧
    w.nextChild.outcome = .exited 0 ∧
    ∃ arguments, ((builds i).convert d w).2.events = w.events ++ [.child arguments]

/-! ### The invariant -/

/-- What is known of a decision to convert the tree until the conversion is recorded. -/
inductive Pending (root : Path) (name : String) (fs : FileSystem) (d : Decision) : Prop
  | unmarked (verdict_eq : d.verdict = .run) (digest_eq : d.digest = none)
      (marker_eq : d.marker = none)
  | marked {digest : InputDigest} {l : Location} (full : digest.IsFull)
      (verdict_eq : d.verdict = .run)
      (digest_eq : d.digest = some digest)
      (marker_eq : d.marker = some (root / name / digest.markerFile))
      (leads : fs.Leads root.parent l)

/-- What holds of the files and of the builds at every moment. -/
structure Inv (builds : ι → Guard) (root : Path) (name : String) (start : FileSystem)
    (deeds : List (Deed ι)) (s : Shared ι) : Prop where
  grows : start.Grows s.files
  earned : ∀ digest : InputDigest, digest.IsFull → ∀ above : Location,
    (s.files.tree.nodeAt (digest.markerFile :: above)).isSome = true →
      Earned builds deeds digest ∨ s.files.Leads root (digest.markerFile :: above) ∨
        s.files.Leads (root / name) (digest.markerFile :: above)
  pending : ∀ i d, s.stage i = .decided d ∨ s.stage i = .converted d → Pending root name s.files d
  converted : ∀ i d digest, s.stage i = .converted d → d.digest = some digest →
    Earned builds deeds digest

variable {builds : ι → Guard} {root : Path} {name : String} {start fs fs' : FileSystem}
  {deeds : List (Deed ι)} {deed : Deed ι} {s s' : Shared ι} {g : Guard} {w : World} {d : Decision}
  {i : ι} {digest : InputDigest} {inputs : BuildInputs} {above : Location}

theorem Earned.mono (h : Earned builds deeds digest) (more : List (Deed ι)) :
    Earned builds (deeds ++ more) digest := by
  obtain ⟨i, d, w, hmem, hrest⟩ := h
  exact ⟨i, d, w, List.mem_append_left more hmem, hrest⟩

theorem Pending.mono (h : Pending root name fs d) (hgrows : fs.Grows fs') :
    Pending root name fs' d := by
  cases h with
  | unmarked hverdict hdigest hmarker => exact .unmarked hverdict hdigest hmarker
  | marked hfull hverdict hdigest hmarker hleads =>
    exact .marked hfull hverdict hdigest hmarker (hgrows.leads hleads)

theorem Pending.verdict_eq (h : Pending root name fs d) : d.verdict = .run := by
  cases h with
  | unmarked hverdict | marked _ hverdict => exact hverdict

/-- Inputs that are read stand in a directory to which the parent of the tree leads. -/
theorem exists_leads_parent (h : (g.sourcesOf root).read fs = .ok inputs) :
    ∃ l, fs.Leads root.parent l := by
  obtain ⟨-, -, hlock, -⟩ := InputSources.read_eq_ok_iff.1 h
  obtain ⟨lockName, hname, hpath, hread⟩ := FileSystem.firstLockFile_eq_ok hlock
  have hpart := isPart_of_mem_lockFileNames hname
  rw [hpath] at hread
  obtain ⟨node, hstat, -⟩ := bind_eq_ok_iff.1 hread
  have hparts : (root.parent / lockName).parts ≠ [] := by
    rw [Path.parts_div_of_isPart hpart]
    simp
  obtain ⟨-, l, hleads, -⟩ := (FileSystem.stat_text_eq_ok_iff hparts).1 hstat
  obtain ⟨l', n, hleads', -⟩ := hleads.of_div hpart
  exact ⟨l', hleads'⟩

/-- A decision to convert the tree is pending. -/
theorem pending_of_decide (hroot : g.dependencyRoot = some root)
    (hname : g.settings.markerDirectory = name) (h : (g.decide w).1 = .ok d)
    (hrun : d.isRun = true) : Pending root name w.files d := by
  have hdecided := decided_decide g w
  rw [h] at hdecided
  cases hdecided with
  | noTree | sandboxed | readOnly | present => cases hrun
  | unknown => exact .unmarked rfl rfl rfl
  | @absent root' _ hreaches hdigest =>
    obtain rfl : root = root' := Option.some.inj (hroot.symm.trans hreaches.root_eq)
    obtain ⟨inputs, hread, rfl⟩ := InputSources.digest_eq_ok_iff.1 hdigest
    obtain ⟨l, hleads⟩ := exists_leads_parent hread
    refine .marked inputs.isFull_digest rfl rfl ?_ hleads
    rw [markerOf, hname]

/-- A conversion that ends well has run a child that ended well. -/
theorem convert_ok (hrun : d.verdict = .run) (h : (g.convert d w).1 = .ok ()) :
    w.nextChild.outcome = .exited 0 ∧
      ∃ arguments, (g.convert d w).2.events = w.events ++ [.child arguments] := by
  cases hroot : g.dependencyRoot with
  | none => rw [convert, hrun, hroot] at h; cases h
  | some root =>
    cases hmain : g.settings.converterMain with
    | none => rw [convert, hrun, hroot, hmain] at h; cases h
    | some main =>
      have hdue : g.IsDue d root main := ⟨hrun, hroot, hmain⟩
      rw [hdue.convert_eq] at h ⊢
      exact ⟨(World.verdictFor_eq_ok_iff.1 h).2, g.argumentsFor root main, rfl⟩

theorem inv_start (hstart : start.NoMarkers) : Inv builds root name start [] (.start start) where
  grows := .refl start
  earned digest hfull above hnode := by
    have hnone :
        (Shared.start start : Shared ι).files.tree.nodeAt (digest.markerFile :: above) = none :=
      hstart digest hfull above
    rw [hnone] at hnode
    cases hnode
  pending i d h := by rcases h with h | h <;> cases h
  converted i d digest h := by cases h

/-! ### Markers that are there -/

theorem parts_marker_ne_nil (directory : Path) (digest : InputDigest) :
    (directory / digest.markerFile).parts ≠ [] := by
  rw [Path.parts_div_of_isPart digest.isPart_markerFile]
  simp

theorem isPresent_mono (hgrows : fs.Grows fs')
    (h : fs.isPresent (root / name / digest.markerFile) = .ok true) :
    fs'.isPresent (root / name / digest.markerFile) = .ok true := by
  have hparts := parts_marker_ne_nil (root / name) digest
  obtain ⟨haccepts, l, hleads⟩ := (FileSystem.isPresent_iff hparts).1 h
  exact (FileSystem.isPresent_iff hparts).2 ⟨haccepts, l, hgrows.leads hleads⟩

/-- A marker that is there has been earned. -/
theorem Inv.earned_of_isPresent (hinv : Inv builds root name start deeds s)
    (hbuilds : GuardOneTree builds root name) (hstart : start.NoMarkers) (hfull : digest.IsFull)
    (h : s.files.isPresent (root / name / digest.markerFile) = .ok true) :
    Earned builds deeds digest := by
  have hparts := parts_marker_ne_nil (root / name) digest
  obtain ⟨-, l, hleads⟩ := (FileSystem.isPresent_iff hparts).1 h
  obtain ⟨above, hdirectory, rfl⟩ := hstart.leads_marker hinv.grows hfull hleads
  rcases hinv.earned digest hfull above hleads.1 with hearned | hroot | hsame
  · exact hearned
  · exact absurd hroot
      (hstart.not_leads hinv.grows hfull hbuilds.slash_not_mem hbuilds.ne_up hdirectory)
  · exact absurd (hsame.unique hdirectory) (List.cons_ne_self _ _)

/-! ### One step -/

variable {files : FileSystem} {stage : Stage}

/-- Where nothing is new, every node with the name of a marker is accounted for. -/
theorem Inv.earned_of_editsBytes (hinv : Inv builds root name start deeds s)
    (hedits : s.files.EditsBytes files) (hfull : digest.IsFull)
    (hnode : (files.tree.nodeAt (digest.markerFile :: above)).isSome = true) :
    Earned builds (deeds ++ [deed]) digest ∨ files.Leads root (digest.markerFile :: above) ∨
      files.Leads (root / name) (digest.markerFile :: above) := by
  rw [hedits.tree.isSome_nodeAt] at hnode
  rcases hinv.earned digest hfull above hnode with h | h | h
  · exact Or.inl (h.mono [deed])
  · exact Or.inr (Or.inl (hedits.grows.leads h))
  · exact Or.inr (Or.inr (hedits.grows.leads h))

/-- What a recording leaves, of a conversion from inputs with a known digest. -/
structure Recorded (root : Path) (name : String) (fs : FileSystem) (d : Decision)
    (digest : InputDigest) (way : FileSystem) : Prop where
  full : digest.IsFull
  digest_eq : d.digest = some digest
  exists_leads : ∃ l, fs.Leads root.parent l
  makesWay : fs.MakesWay (root / name) way
  left : (d.record fs).2 = way ∧ (d.record fs).1 ≠ .ok true ∨
    way.Writes (root / name / digest.markerFile) (d.record fs).2

/-- A recording leaves nothing, or what it leaves is known. -/
theorem Pending.record (h : Pending root name fs d) :
    d.record fs = (.ok false, fs) ∨ ∃ digest way, Recorded root name fs d digest way := by
  cases h with
  | unmarked hverdict hdigest hmarker => exact Or.inl (Decision.record_of_unmarked hmarker)
  | @marked digest l hfull hverdict hdigest hmarker hleads =>
    obtain ⟨way, hway, hleft⟩ := Decision.record_makesWay hverdict hmarker
    exact Or.inr ⟨digest, way, hfull, hdigest, ⟨l, hleads⟩, hway, hleft⟩

namespace Recorded

variable {way : FileSystem}

theorem grows_way (h : Recorded root name fs d digest way) : way.Grows (d.record fs).2 := by
  rcases h.left with ⟨heq, -⟩ | hwrites
  · rw [heq]
    exact .refl way
  · exact hwrites.grows

theorem grows (h : Recorded root name fs d digest way) : fs.Grows (d.record fs).2 :=
  h.makesWay.grows.trans h.grows_way

/-- A new node on the way to the marker is the tree or the directory of markers. -/
theorem leads_of_isNew_way {l : Location} (h : Recorded root name fs d digest way)
    (hname : '/' ∉ name.toList) (hnew : fs.tree.IsNew way.tree l) :
    way.Leads root l ∨ way.Leads (root / name) l := by
  obtain ⟨q, hq, hleads, hfree⟩ := h.makesWay.new l hnew
  rcases hq.eq_or_of_div hname with rfl | hq
  · exact Or.inr hleads
  rcases hq.eq_or_parent with rfl | hq
  · exact Or.inl hleads
  -- The parent of the tree was there before, and so was all that is above it.
  · obtain ⟨l', hl'⟩ := h.exists_leads
    obtain ⟨l'', hl''⟩ := hl'.of_isAbove hq
    exact absurd hl'' (hfree l'')

/-- A new node beyond it is the marker. -/
theorem eq_of_isNew {other : InputDigest} (h : Recorded root name fs d digest way)
    (hstart : start.NoMarkers) (hgrows : start.Grows fs)
    (hnew : way.tree.IsNew (d.record fs).2.tree (other.markerFile :: above)) : other = digest := by
  rcases h.left with ⟨heq, -⟩ | hwrites
  · obtain ⟨hnone, hsome⟩ := hnew
    rw [heq, hnone] at hsome
    cases hsome
  · obtain ⟨l, -, heq⟩ := hstart.leads_marker (hgrows.trans h.grows) h.full (hwrites.new _ hnew)
    exact InputDigest.markerFile_injective (List.cons.inj heq).1

end Recorded

/-- What is new after a recording is accounted for. -/
theorem Inv.earned_of_recorded {way : FileSystem} {other : InputDigest}
    (hinv : Inv builds root name start deeds s)
    (hrecorded : Recorded root name s.files d digest way)
    (hname : '/' ∉ name.toList) (hstart : start.NoMarkers) (hearned : Earned builds deeds digest)
    (hfull : other.IsFull)
    (hnode : ((d.record s.files).2.tree.nodeAt (other.markerFile :: above)).isSome = true) :
    Earned builds (deeds ++ [deed]) other ∨
      (d.record s.files).2.Leads root (other.markerFile :: above) ∨
      (d.record s.files).2.Leads (root / name) (other.markerFile :: above) := by
  -- A node was there before, was added with the directories, or is the marker itself.
  by_cases hold : (s.files.tree.nodeAt (other.markerFile :: above)).isSome = true
  · rcases hinv.earned other hfull above hold with h | h | h
    · exact Or.inl (h.mono [deed])
    · exact Or.inr (Or.inl (hrecorded.grows.leads h))
    · exact Or.inr (Or.inr (hrecorded.grows.leads h))
  have hold : s.files.tree.nodeAt (other.markerFile :: above) = none := by simpa using hold
  by_cases hway : (way.tree.nodeAt (other.markerFile :: above)).isSome = true
  · refine Or.inr ?_
    exact (hrecorded.leads_of_isNew_way hname ⟨hold, hway⟩).imp hrecorded.grows_way.leads
      hrecorded.grows_way.leads
  have hway : way.tree.nodeAt (other.markerFile :: above) = none := by simpa using hway
  rw [hrecorded.eq_of_isNew hstart hinv.grows ⟨hway, hnode⟩]
  exact Or.inl (hearned.mono [deed])

variable [DecidableEq ι]

/-- A step of one build keeps the invariant if it does so for that build and for the files. -/
theorem Inv.advance (hinv : Inv builds root name start deeds s) (hgrows : s.files.Grows files)
    (hearned : ∀ digest : InputDigest, digest.IsFull → ∀ above : Location,
      (files.tree.nodeAt (digest.markerFile :: above)).isSome = true →
        Earned builds (deeds ++ [deed]) digest ∨ files.Leads root (digest.markerFile :: above) ∨
          files.Leads (root / name) (digest.markerFile :: above))
    (hpending : ∀ d, stage = .decided d ∨ stage = .converted d → Pending root name files d)
    (hconverted : ∀ d digest, stage = .converted d → d.digest = some digest →
      Earned builds (deeds ++ [deed]) digest) :
    Inv builds root name start (deeds ++ [deed]) ⟨files, Function.update s.stage i stage⟩ where
  grows := hinv.grows.trans hgrows
  earned := hearned
  pending j d hstage := by
    -- The other builds are where they were.
    dsimp only at hstage
    rw [Function.update_apply] at hstage
    split at hstage
    · exact hpending d hstage
    · exact (hinv.pending j d hstage).mono hgrows
  converted j d digest hstage hdigest := by
    dsimp only at hstage
    rw [Function.update_apply] at hstage
    split at hstage
    · exact hconverted d digest hstage hdigest
    · exact (hinv.converted j d digest hstage hdigest).mono [deed]

/-- **Every step keeps the invariant.** -/
theorem Inv.step (hinv : Inv builds root name start deeds s)
    (hbuilds : GuardOneTree builds root name) (hstart : start.NoMarkers)
    (hstep : Step builds s deed s') :
    Inv builds root name start (deeds ++ [deed]) s' ∧ s.files.Grows s'.files := by
  -- A decision and an edit leave every marker as it was. Only a build that has converted earns one,
  -- and only its recording puts one there.
  cases hstep with
  | @decide i w hstage hfiles =>
    refine ⟨hinv.advance (.refl _) ?_ ?_ ?_, .refl _⟩
    · intro digest hfull above hnode
      exact (hinv.earned digest hfull above hnode).imp_left fun h => h.mono _
    · rintro d (h | h)
      · obtain ⟨hanswer, hrun⟩ := Stage.of_afterDecision_eq_decided h
        rw [← hfiles]
        exact pending_of_decide (hbuilds.dependencyRoot_eq i) (hbuilds.markerDirectory_eq i) hanswer
          hrun
      · exact absurd h Stage.afterDecision_ne_converted
    · intro d digest h
      exact absurd h Stage.afterDecision_ne_converted
  | @convert i d w hstage hfiles hedits =>
    have hpending := hinv.pending i d (Or.inl hstage)
    refine ⟨hinv.advance hedits.grows ?_ ?_ ?_, hedits.grows⟩
    · intro digest hfull above hnode
      exact hinv.earned_of_editsBytes hedits hfull hnode
    · rintro d' (h | h)
      · exact absurd h Stage.afterConversion_ne_decided
      · obtain ⟨-, rfl⟩ := Stage.of_afterConversion_eq_converted h
        exact hpending.mono hedits.grows
    · intro d' digest h hdigest
      obtain ⟨houtcome, rfl⟩ := Stage.of_afterConversion_eq_converted h
      obtain ⟨hchild, hevents⟩ := convert_ok hpending.verdict_eq houtcome
      refine ⟨i, d', w, ?_, ?_, hdigest, hchild, hevents⟩
      · rw [houtcome]
        simp
      · rw [Decision.isRun, hpending.verdict_eq]
        rfl
  | @record i d w hstage hfiles =>
    have hpending : ∀ d', Stage.ready = .decided d' ∨ Stage.ready = .converted d' →
        Pending root name (d.record s.files).2 d' := by
      rintro d' (h | h) <;> cases h
    rw [files_record, hfiles]
    -- With no marker to record all is left as it was.
    rcases (hinv.pending i d (Or.inr hstage)).record with hnothing | ⟨digest', way, hrecorded⟩
    · rw [hnothing] at hpending ⊢
      refine ⟨hinv.advance (.refl _) ?_ hpending fun _ _ h => ?_, .refl _⟩
      · intro digest hfull above hnode
        exact (hinv.earned digest hfull above hnode).imp_left fun h => h.mono _
      · cases h
    · have hearned := hinv.converted i d digest' hstage hrecorded.digest_eq
      refine ⟨hinv.advance hrecorded.grows ?_ hpending fun _ _ h => ?_, hrecorded.grows⟩
      · intro other hfull above hnode
        exact hinv.earned_of_recorded hrecorded hbuilds.slash_not_mem hstart hearned hfull hnode
      · cases h
  | @edit files hedits =>
    refine ⟨⟨hinv.grows.trans hedits.grows, ?_, ?_, ?_⟩, hedits.grows⟩
    · intro digest hfull above hnode
      exact hinv.earned_of_editsBytes hedits hfull hnode
    · intro i d hstage
      exact (hinv.pending i d hstage).mono hedits.grows
    · intro i d digest hstage hdigest
      exact (hinv.converted i d digest hstage hdigest).mono _

/-! ### Whole runs -/

theorem Run.of_concat {s₀ : Shared ι} (h : Run builds s₀ (deeds ++ [deed]) s') :
    ∃ s, Run builds s₀ deeds s ∧ Step builds s deed s' := by
  generalize hall : deeds ++ [deed] = all at h
  cases h with
  | start => simp at hall
  | step earlier step =>
    obtain ⟨rfl, hdeed⟩ := List.append_inj' hall rfl
    obtain rfl := List.singleton_inj.1 hdeed
    exact ⟨_, earlier, step⟩

/-- A run can be taken up anywhere. -/
theorem Run.split {s₀ : Shared ι} {before after : List (Deed ι)}
    (h : Run builds s₀ (before ++ after) s') :
    ∃ s, Run builds s₀ before s ∧ Run builds s after s' := by
  -- By induction on what comes after, from its end: the last deed is the last step of the run.
  induction after using List.reverseRecOn generalizing s' with
  | nil =>
    rw [List.append_nil] at h
    exact ⟨s', h, .start⟩
  | append_singleton after deed ih =>
    rw [← List.append_assoc] at h
    obtain ⟨last, hearlier, hstep⟩ := h.of_concat
    obtain ⟨s, hbefore, hafter⟩ := ih hearlier
    exact ⟨s, hbefore, hafter.step hstep⟩

/-- The state in which a deed was done and the one that it led to. -/
theorem Run.split_cons {s₀ : Shared ι} {before after : List (Deed ι)}
    (h : Run builds s₀ (before ++ deed :: after) s') :
    ∃ s t, Run builds s₀ before s ∧ Step builds s deed t ∧ Run builds t after s' := by
  rw [← List.singleton_append, ← List.append_assoc] at h
  obtain ⟨t, hbefore, hafter⟩ := h.split
  obtain ⟨s, hearlier, hstep⟩ := hbefore.of_concat
  exact ⟨s, t, hearlier, hstep, hafter⟩

/-- **Every run keeps the invariant**, and its files grow. -/
theorem Inv.run (hinv : Inv builds root name start deeds s)
    (hbuilds : GuardOneTree builds root name) (hstart : start.NoMarkers) {more : List (Deed ι)}
    (hrun : Run builds s more s') :
    Inv builds root name start (deeds ++ more) s' ∧ s.files.Grows s'.files := by
  induction hrun with
  | start =>
    rw [List.append_nil]
    exact ⟨hinv, .refl _⟩
  | step earlier step ih =>
    obtain ⟨hmid, hgrows⟩ := ih
    obtain ⟨hlast, hgrows'⟩ := hmid.step hbuilds hstart step
    rw [← List.append_assoc]
    exact ⟨hlast, hgrows.trans hgrows'⟩

/-- A build that is ready converts nothing until it has decided again. -/
theorem Run.quiet {quiet : List (Deed ι)} (hrun : Run builds s quiet s')
    (hready : s.stage i = .ready)
    (hquiet : ∀ w answer, .decide i w answer ∉ quiet) :
    s'.stage i = .ready ∧ ∀ d w outcome, .convert i d w outcome ∉ quiet := by
  induction hrun with
  | start => exact ⟨hready, fun _ _ _ h => nomatch h⟩
  | @step deeds deed s s' earlier step ih =>
    obtain ⟨hstage, hnone⟩ := ih fun w answer h => hquiet w answer (List.mem_append_left _ h)
    -- The step is not one of the build: it is ready, so it could only decide, and does not.
    have hlast : s'.stage i = .ready ∧ ∀ d w outcome, .convert i d w outcome ≠ deed := by
      cases step with
      | @decide i' w' hready' hfiles =>
        have hne : i ≠ i' := by
          rintro rfl
          exact hquiet _ _ (List.mem_append_right _ (List.mem_singleton.2 rfl))
        exact ⟨(Function.update_of_ne hne _ _).trans hstage, fun _ _ _ => nofun⟩
      | @convert i' d' w' hdecided hfiles hedits =>
        have hne : i ≠ i' := by
          rintro rfl
          cases hdecided.symm.trans hstage
        refine ⟨(Function.update_of_ne hne _ _).trans hstage, fun d w outcome heq => ?_⟩
        injection heq with hi
        exact hne hi
      | @record i' d' w' hconverted hfiles =>
        have hne : i ≠ i' := by
          rintro rfl
          cases hconverted.symm.trans hstage
        exact ⟨(Function.update_of_ne hne _ _).trans hstage, fun _ _ _ => nofun⟩
      | edit => exact ⟨hstage, fun _ _ _ => nofun⟩
    refine ⟨hlast.1, fun d w outcome h => ?_⟩
    rcases List.mem_append.1 h with h | h
    · exact hnone d w outcome h
    · exact hlast.2 d w outcome (List.mem_singleton.1 h)

/-! ### What the deeds tell of the markers -/

/-- The conclusion of `Run.convertsOnce`: what the deeds of builds that share a tree tell of the
markers in its files, and the markers of what the builds decide. -/
structure ConvertsOnce (builds : ι → Guard) (root : Path) (name : String) (deeds : List (Deed ι))
    (files : FileSystem) : Prop where
  /-- A marker is there only after a conversion of its inputs. -/
  earned : ∀ digest : InputDigest, digest.IsFull →
    files.isPresent (root / name / digest.markerFile) = .ok true → Earned builds deeds digest
  /-- A marker is there from the moment it was recorded. -/
  stays : ∀ {before after i d w digest}, deeds = before ++ .record i d w (.ok true) :: after →
    d.digest = some digest → files.isPresent (root / name / digest.markerFile) = .ok true
  /-- From that moment a build that comes to ask for it leaves the tree alone, and converts nothing
  until it decides again. -/
  skips : ∀ {before between after i d w j w' answer digest},
    deeds = before ++ .record i d w (.ok true) :: (between ++ .decide j w' answer :: after) →
    d.digest = some digest → (builds j).ReachesInputs root w' →
    ((builds j).sourcesOf root).digest w'.files = .ok digest →
      answer = .ok ⟨.skip, .markerPresent, some digest, some (root / name / digest.markerFile)⟩ ∧
        ∀ {quiet rest}, after = quiet ++ rest → (∀ w answer, .decide j w answer ∉ quiet) →
          ∀ d w outcome, .convert j d w outcome ∉ quiet

/-- A marker is there once it has been recorded. -/
theorem Inv.isPresent_of_record (hinv : Inv builds root name start deeds s)
    (hstep : Step builds s (.record i d w (.ok true)) s') (hdigest : d.digest = some digest) :
    s'.files.isPresent (root / name / digest.markerFile) = .ok true := by
  generalize hdeed : Deed.record i d w (.ok true) = deed at hstep
  cases hstep with
  | decide | convert | edit => cases hdeed
  | @record i' d' w' hstage hfiles =>
    obtain ⟨-, rfl, -, hwritten⟩ := Deed.record.inj hdeed
    rw [record_fst, hfiles] at hwritten
    rw [files_record, hfiles]
    rcases (hinv.pending i' d (Or.inr hstage)).record with hnothing | ⟨digest', way, hrecorded⟩
    · rw [hnothing] at hwritten
      cases hwritten
    · obtain rfl := Option.some.inj (hdigest.symm.trans hrecorded.digest_eq)
      rcases hrecorded.left with ⟨-, hnot⟩ | hwrites
      · exact absurd hwritten.symm hnot
      · exact (FileSystem.isPresent_iff (parts_marker_ne_nil _ _)).2
          ⟨hwrites.accepts, hwrites.leads⟩

/-- **Builds that share a tree convert it once**: in every run from files without markers, a marker
is there only after a conversion of its inputs, it stays once it has been recorded, and no build
converts these inputs again. -/
theorem Run.convertsOnce (hbuilds : GuardOneTree builds root name) (hstart : start.NoMarkers)
    (hrun : Run builds (.start start) deeds s) :
    ConvertsOnce builds root name deeds s.files := by
  -- A marker that was recorded is there at the end, since the files only grow.
  have hrecorded {before after : List (Deed ι)} {i : ι} {d : Decision} {w : World}
      {digest : InputDigest} {s : Shared ι} (hdigest : d.digest = some digest)
      (hrun : Run builds (.start start) (before ++ .record i d w (.ok true) :: after) s) :
      s.files.isPresent (root / name / digest.markerFile) = .ok true := by
    obtain ⟨s₁, s₂, hbefore, hstep, hafter⟩ := hrun.split_cons
    obtain ⟨hinv, -⟩ := (inv_start hstart).run hbuilds hstart hbefore
    obtain ⟨hinv', -⟩ := hinv.step hbuilds hstart hstep
    obtain ⟨-, hgrows⟩ := hinv'.run hbuilds hstart hafter
    exact isPresent_mono hgrows (hinv.isPresent_of_record hstep hdigest)
  refine ⟨fun digest hfull h => ?_, ?_, ?_⟩
  · obtain ⟨hinv, -⟩ := (inv_start hstart).run hbuilds hstart hrun
    exact hinv.earned_of_isPresent hbuilds hstart hfull h
  · rintro before after i d w digest rfl hdigest
    exact hrecorded hdigest hrun
  · rintro before between after i d w j w' answer digest rfl hdigest hreaches hread
    rw [← List.cons_append, ← List.append_assoc] at hrun
    obtain ⟨s₁, s₂, hbefore, hstep, hafter⟩ := hrun.split_cons
    have hpresent := hrecorded hdigest hbefore
    generalize hdeed : Deed.decide j w' answer = deed at hstep
    cases hstep with
    | convert | record | edit => cases hdeed
    | @decide j' w'' hstage hfiles =>
      obtain ⟨rfl, rfl, hanswer⟩ := Deed.decide.inj hdeed
      have hmarker : (builds j).markerOf root digest = root / name / digest.markerFile := by
        rw [markerOf, hbuilds.markerDirectory_eq]
      rw [← hfiles, ← hmarker] at hpresent
      have hskip := hreaches.decide_of_present hread hpresent
      rw [hmarker] at hskip
      refine ⟨hanswer.trans hskip, ?_⟩
      rintro quiet rest rfl hquiet
      obtain ⟨s₃, hcalm, -⟩ := hafter.split
      refine (hcalm.quiet ?_ hquiet).2
      dsimp only
      rw [Function.update_self, hskip]
      rfl

/-! ### Two builds -/

/-- Where every name has a character that no marker has, there are no markers. -/
theorem noMarkers_of_entries
    (h : ∀ e ∈ fs.tree.nodes.entries, ∀ name ∈ e.1.location.head?,
      name.toList.all (· ∈ Hex.digits ++ ['.', 'l', 'o', 'c', 'k']) = false) : fs.NoMarkers := by
  intro digest hfull above
  by_contra hsome
  obtain ⟨node, hnode⟩ := Option.ne_none_iff_exists'.1 hsome
  have hall := h _ (Table.get?_eq_some_iff.1 hnode) digest.markerFile rfl
  rw [List.all_eq_false] at hall
  obtain ⟨c, hc, hnot⟩ := hall
  exact hnot (decide_eq_true (InputDigest.mem_markerFile hc))

theorem noMarkers_sampleFiles : sampleFiles.NoMarkers := by
  refine noMarkers_of_entries ?_
  decide +kernel

/-- Two builds both decide to convert the tree, and the first of them does. -/
def sampleDeeds : List (Deed Bool) :=
  [.decide false (.ofFiles sampleFiles) (.ok sampleDecision),
    .decide true (.ofFiles sampleFiles) (.ok sampleDecision),
    .convert false sampleDecision (.ofFiles sampleFiles) (.ok ()),
    .record false sampleDecision (.ofFiles sampleFiles) (.ok true)]

section

variable (stages : Bool → Stage)

/-- A build of the two that is ready decides to convert the tree. -/
theorem step_decide_sample (i : Bool) (hready : stages i = .ready) :
    Step (fun _ => sample) ⟨sampleFiles, stages⟩
      (.decide i (.ofFiles sampleFiles) (.ok sampleDecision))
      ⟨sampleFiles, Function.update stages i (.decided sampleDecision)⟩ := by
  have hanswer : (sample.decide (.ofFiles sampleFiles)).1 = .ok sampleDecision :=
    congrArg Prod.fst decide_sampleFiles
  have hstage : Stage.afterDecision (.ok sampleDecision) = .decided sampleDecision := rfl
  have hworld : (World.ofFiles sampleFiles).files = sampleFiles := rfl
  have hstep : Step (fun _ : Bool => sample) ⟨sampleFiles, stages⟩ _ _ := .decide hready hworld
  rwa [hanswer, hstage] at hstep

/-- One that has decided converts it, and its child leaves the files alone. -/
theorem step_convert_sample (i : Bool) (hdecided : stages i = .decided sampleDecision) :
    Step (fun _ => sample) ⟨sampleFiles, stages⟩
      (.convert i sampleDecision (.ofFiles sampleFiles) (.ok ()))
      ⟨sampleFiles, Function.update stages i (.converted sampleDecision)⟩ := by
  obtain ⟨-, -, -, hconvert, -⟩ := sampleFiles_facts
  have hedits :
      sampleFiles.EditsBytes (sample.convert sampleDecision (.ofFiles sampleFiles)).2.files := by
    rw [files_convert_sample]
    exact ⟨rfl, fun _ => rfl⟩
  have hworld : (World.ofFiles sampleFiles).files = sampleFiles := rfl
  have hstep : Step (fun _ : Bool => sample) ⟨sampleFiles, stages⟩ _ _ :=
    .convert hdecided hworld hedits
  rwa [hconvert, files_convert_sample, Stage.afterConversion] at hstep

/-- One that has converted it records that. -/
theorem step_record_sample (i : Bool) (hconverted : stages i = .converted sampleDecision) :
    Step (fun _ => sample) ⟨sampleFiles, stages⟩
      (.record i sampleDecision (.ofFiles sampleFiles) (.ok true))
      ⟨recordedFiles, Function.update stages i .ready⟩ := by
  obtain ⟨-, -, -, -, hrecord⟩ := sampleFiles_facts
  rw [record_fst, files_convert_sample] at hrecord
  have hworld : (World.ofFiles sampleFiles).files = sampleFiles := rfl
  have hstep : Step (fun _ : Bool => sample) ⟨sampleFiles, stages⟩ _ _ := .record hconverted hworld
  rwa [record_fst, files_record, hworld, hrecord, ← recordedFiles] at hstep

end

theorem run_sample :
    ∃ stages, Run (fun _ => sample) (.start sampleFiles) sampleDeeds
      ⟨recordedFiles, stages⟩ := by
  have hfirst := Run.start.step (step_decide_sample (fun _ => .ready) false rfl)
  have hboth := hfirst.step (step_decide_sample _ true (Function.update_of_ne (by decide) _ _))
  have hconverted := hboth.step (step_convert_sample _ false (by
    rw [Function.update_of_ne (by decide), Function.update_self]))
  exact ⟨_, hconverted.step (step_record_sample _ false (Function.update_self _ _ _))⟩

/-- The marker of the two builds is there in the end. -/
theorem convertsOnce_sample :
    recordedFiles.isPresent
      (Path.ofString "/p/node_modules" / ".cli-ngcc" / sampleInputs.digest.markerFile) =
      .ok true := by
  obtain ⟨stages, hrun⟩ := run_sample
  have hbuilds : GuardOneTree (fun _ : Bool => sample) (.ofString "/p/node_modules") ".cli-ngcc" :=
    ⟨fun _ => rfl, fun _ => rfl, by decide, by decide⟩
  have hdeeds : sampleDeeds = sampleDeeds.take 3 ++
      .record false sampleDecision (.ofFiles sampleFiles) (.ok true) :: [] := rfl
  have hdigest : sampleDecision.digest = some sampleInputs.digest := rfl
  have hconverts := hrun.convertsOnce hbuilds noMarkers_sampleFiles
  have hstays := hconverts.stays hdeeds hdigest
  dsimp only at hstays
  exact hstays

end Guard

end ConvertOnce
