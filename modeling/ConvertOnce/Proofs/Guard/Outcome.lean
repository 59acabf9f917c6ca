import ConvertOnce.Guard.Basic
import ConvertOnce.Proofs.BuildInputs.Marker
import ConvertOnce.Proofs.World.Measuring

/-!
# What comes of a guard

`Guard.Decided` lists the ways in which a decision can be taken or fail, each with what was found
on the way, and `Guard.decided_decide` says that there is no other; a decision changes no file
(`Guard.files_decide`).  `Guard.Ensured` does the same for the three steps of `Guard.ensure`.
-/

namespace ConvertOnce

namespace Fault

/-- The refusals that make the inputs of a conversion unknown: those of the file system and those
that are reported to a build. -/
def makesUnknown : Fault → Bool
  | system .. | build _ => true
  | _ => false

end Fault

namespace Decision

variable {d : Decision} {marker : Path} {fs : FileSystem}

/-- What recording a conversion with a marker amounts to. -/
theorem record_eq (hrun : d.verdict = .run) (hmarker : d.marker = some marker) :
    d.record fs =
      match writeMarker marker fs with
      | (.ok (), fs) => (.ok true, fs)
      | (.error (.build (.markerUnwritten _)), fs) => (.ok false, fs)
      | (.error fault, fs) => (.error fault, fs) := by
  obtain ⟨verdict, reason, digest, given⟩ := d
  obtain rfl : verdict = .run := hrun
  obtain rfl : given = some marker := hmarker
  rfl

theorem record_of_unmarked (hmarker : d.marker = none) : d.record fs = (.ok false, fs) := by
  unfold record
  rw [hmarker]
  cases d.verdict <;> rfl

theorem record_of_skip (hskip : d.verdict = .skip) : d.record fs = (.ok false, fs) := by
  unfold record
  rw [hskip]

theorem record_snd (hrun : d.verdict = .run) (hmarker : d.marker = some marker) :
    (d.record fs).2 = (writeMarker marker fs).2 := by
  rw [record_eq hrun hmarker]
  rcases writeMarker marker fs with ⟨fault | _, fs'⟩
  · cases fault with
    | build error => cases error <;> rfl
    | _ => rfl
  · rfl

/-- A marker is recorded exactly when it was written. -/
theorem record_fst_eq_ok_true_iff (hrun : d.verdict = .run) (hmarker : d.marker = some marker) :
    (d.record fs).1 = .ok true ↔ (writeMarker marker fs).1 = .ok () := by
  rw [record_eq hrun hmarker]
  rcases writeMarker marker fs with ⟨fault | _, fs'⟩
  · cases fault with
    | build error => cases error <;> simp
    | _ => simp
  · simp

end Decision

namespace Guard

/-- The decision comes to the inputs of the tree: the tree is there, the build is not sandboxed,
which the environment can tell, and the manifest of the probed package, if one is found, may be
written. -/
structure ReachesInputs (g : Guard) (root : Path) (w : World) : Prop where
  /-- There is a dependency tree. -/
  root_eq : g.dependencyRoot = some root
  /-- The environment can be asked whether the build is sandboxed. -/
  asks : g.asksInVain = false
  /-- The build is not sandboxed. -/
  not_sandboxed : g.isSandboxed w = false
  /-- The manifest of the probed package may be written. -/
  not_readOnly : ∀ manifest,
    (g.finder.manifest? g.settings.probePackage root.text w).1 = some manifest →
      w.files.isProtectedPackage manifest = .ok false

/-- The ways in which a decision can be taken, or fail. -/
inductive Decided (g : Guard) (w : World) : Except Fault Decision → Prop
  /-- There is no tree. -/
  | noTree (rootless : g.dependencyRoot = none) :
      Decided g w (.ok { verdict := .skip, reason := .noDependencyRoot })
  /-- The environment cannot be asked whether the build is sandboxed. -/
  | unasked {root : Path} (root_eq : g.dependencyRoot = some root)
      (asksInVain : g.asksInVain = true) : Decided g w (.error .nulCharacter)
  /-- The build is sandboxed. -/
  | sandboxed {root : Path} (root_eq : g.dependencyRoot = some root)
      (sandboxed : g.isSandboxed w = true) :
      Decided g w (.ok { verdict := .skip, reason := .sandboxed })
  /-- The probed package may not be written. -/
  | readOnly {root : Path} {manifest : String} (root_eq : g.dependencyRoot = some root)
      (not_sandboxed : g.isSandboxed w = false)
      (found : (g.finder.manifest? g.settings.probePackage root.text w).1 = some manifest)
      (isProtected : w.files.isProtectedPackage manifest = .ok true) :
      Decided g w (.ok { verdict := .skip, reason := .readOnly })
  /-- It cannot be told whether the probed package may be written. -/
  | unprobed {root : Path} {manifest : String} {fault : Fault}
      (root_eq : g.dependencyRoot = some root) (not_sandboxed : g.isSandboxed w = false)
      (found : (g.finder.manifest? g.settings.probePackage root.text w).1 = some manifest)
      (refusal : w.files.isProtectedPackage manifest = .error fault) : Decided g w (.error fault)
  /-- The inputs cannot be read, so that a conversion is needed. -/
  | unknown {root : Path} {fault : Fault} (reaches : g.ReachesInputs root w)
      (refusal : (g.sourcesOf root).digest w.files = .error fault)
      (makesUnknown : fault.makesUnknown = true) :
      Decided g w (.ok { verdict := .run, reason := .inputsUnknown })
  /-- The inputs cannot be read for a reason that is not provided for. -/
  | unread {root : Path} {fault : Fault} (reaches : g.ReachesInputs root w)
      (refusal : (g.sourcesOf root).digest w.files = .error fault)
      (makesUnknown : fault.makesUnknown = false) : Decided g w (.error fault)
  /-- The marker of the inputs is there. -/
  | present {root : Path} {digest : InputDigest} (reaches : g.ReachesInputs root w)
      (read : (g.sourcesOf root).digest w.files = .ok digest)
      (isPresent : w.files.isPresent (g.markerOf root digest) = .ok true) :
      Decided g w (.ok ⟨.skip, .markerPresent, some digest, some (g.markerOf root digest)⟩)
  /-- The marker of the inputs is not there. -/
  | absent {root : Path} {digest : InputDigest} (reaches : g.ReachesInputs root w)
      (read : (g.sourcesOf root).digest w.files = .ok digest)
      (isPresent : w.files.isPresent (g.markerOf root digest) = .ok false) :
      Decided g w (.ok ⟨.run, .markerAbsent, some digest, some (g.markerOf root digest)⟩)
  /-- It cannot be told whether the marker of the inputs is there. -/
  | unseen {root : Path} {digest : InputDigest} {fault : Fault} (reaches : g.ReachesInputs root w)
      (read : (g.sourcesOf root).digest w.files = .ok digest)
      (refusal : w.files.isPresent (g.markerOf root digest) = .error fault) :
      Decided g w (.error fault)

/-! ### Every decision is one of these -/

variable {g : Guard} {root : Path} {w : World}

theorem decideByMarker_eq (g : Guard) (root : Path) (fs : FileSystem) (digest : InputDigest) :
    g.decideByMarker root fs digest =
      match fs.isPresent (g.markerOf root digest) with
      | .ok true => .ok ⟨.skip, .markerPresent, some digest, some (g.markerOf root digest)⟩
      | .ok false => .ok ⟨.run, .markerAbsent, some digest, some (g.markerOf root digest)⟩
      | .error fault => .error fault := by
  rw [decideByMarker]
  cases fs.isPresent (g.markerOf root digest) with
  | error fault => rfl
  | ok present => cases present <;> rfl

theorem decideByInputs_eq (g : Guard) (root : Path) (fs : FileSystem) :
    g.decideByInputs root fs =
      match (g.sourcesOf root).digest fs with
      | .ok digest => g.decideByMarker root fs digest
      | .error fault =>
        if fault.makesUnknown then .ok { verdict := .run, reason := .inputsUnknown }
        else .error fault := by
  unfold decideByInputs
  cases (g.sourcesOf root).digest fs with
  | error fault => cases fault <;> simp [Fault.makesUnknown]
  | ok digest => rfl

theorem decideByProbe_none (g : Guard) (root : Path) (fs : FileSystem) :
    g.decideByProbe root fs none = g.decideByInputs root fs := by
  unfold decideByProbe
  rfl

theorem decideByProbe_some (g : Guard) (root : Path) (fs : FileSystem) (manifest : String) :
    g.decideByProbe root fs (some manifest) =
      match fs.isProtectedPackage manifest with
      | .ok true => .ok { verdict := .skip, reason := .readOnly }
      | .ok false => g.decideByInputs root fs
      | .error fault => .error fault := by
  unfold decideByProbe
  generalize g.decideByInputs root fs = otherwise
  dsimp only
  cases fs.isProtectedPackage manifest with
  | error fault => rfl
  | ok isProtected => cases isProtected <;> rfl

/-- A tree of which it cannot be asked whether the build is sandboxed gets no decision. -/
theorem decide_of_asksInVain (root_eq : g.dependencyRoot = some root)
    (asksInVain : g.asksInVain = true) : g.decide w = (.error .nulCharacter, w) := by
  simp only [Guard.decide, root_eq, asksInVain, if_true]

/-- Where a decision is taken about a tree the environment was asked. -/
theorem asks_of_decide {d : Decision} (root_eq : g.dependencyRoot = some root)
    (h : (g.decide w).1 = .ok d) : g.asksInVain = false := by
  refine Bool.eq_false_iff.2 fun asksInVain => ?_
  rw [decide_of_asksInVain root_eq asksInVain] at h
  cases h

theorem decide_of_sandboxed (root_eq : g.dependencyRoot = some root) (asks : g.asksInVain = false)
    (sandboxed : g.isSandboxed w = true) :
    g.decide w = (.ok { verdict := .skip, reason := .sandboxed }, w) := by
  simp only [Guard.decide, root_eq, asks, sandboxed, Bool.false_eq_true, if_false, if_true]

/-- What is asked where there is a tree and the build is not sandboxed. -/
theorem decide_eq (root_eq : g.dependencyRoot = some root) (asks : g.asksInVain = false)
    (not_sandboxed : g.isSandboxed w = false) :
    g.decide w =
      (g.decideByProbe root w.files (g.finder.manifest? g.settings.probePackage root.text w).1,
        (g.finder.manifest? g.settings.probePackage root.text w).2) := by
  simp only [Guard.decide, root_eq, asks, not_sandboxed, Bool.false_eq_true, if_false,
    Finder.files_manifest?]

/-- A decision that comes to the inputs is taken by them. -/
theorem ReachesInputs.decided (h : g.ReachesInputs root w) :
    Decided g w (g.decideByInputs root w.files) := by
  rw [decideByInputs_eq]
  cases hdigest : (g.sourcesOf root).digest w.files with
  | error fault =>
    show Decided g w (if fault.makesUnknown then _ else _)
    cases hfault : fault.makesUnknown with
    | true => exact .unknown h hdigest hfault
    | false => exact .unread h hdigest hfault
  | ok digest =>
    show Decided g w (g.decideByMarker root w.files digest)
    rw [decideByMarker_eq]
    cases hpresent : w.files.isPresent (g.markerOf root digest) with
    | error fault => exact .unseen h hdigest hpresent
    | ok present =>
      cases present with
      | true => exact .present h hdigest hpresent
      | false => exact .absent h hdigest hpresent

/-- The manifest of the probed package decides, or else the inputs do. -/
theorem decided_decideByProbe (root_eq : g.dependencyRoot = some root) (asks : g.asksInVain = false)
    (not_sandboxed : g.isSandboxed w = false) :
    Decided g w (g.decideByProbe root w.files
      (g.finder.manifest? g.settings.probePackage root.text w).1) := by
  cases hfind : (g.finder.manifest? g.settings.probePackage root.text w).1 with
  | none =>
    rw [decideByProbe_none]
    exact ReachesInputs.decided ⟨root_eq, asks, not_sandboxed, by simp [hfind]⟩
  | some manifest =>
    rw [decideByProbe_some]
    cases hprotected : w.files.isProtectedPackage manifest with
    | error fault => exact .unprobed root_eq not_sandboxed hfind hprotected
    | ok isProtected =>
      cases isProtected with
      | true => exact .readOnly root_eq not_sandboxed hfind hprotected
      | false =>
        refine ReachesInputs.decided ⟨root_eq, asks, not_sandboxed, ?_⟩
        simpa [hfind] using hprotected

/-- **Every decision is taken in one of these ways.** -/
theorem decided_decide (g : Guard) (w : World) : Decided g w (g.decide w).1 := by
  -- The questions are asked in this order, and each but the last can settle the matter.
  cases hroot : g.dependencyRoot with
  | none =>
    rw [Guard.decide, hroot]
    exact .noTree hroot
  | some root =>
    cases hasks : g.asksInVain with
    | true =>
      rw [decide_of_asksInVain hroot hasks]
      exact .unasked hroot hasks
    | false =>
      cases hsandboxed : g.isSandboxed w with
      | true =>
        rw [decide_of_sandboxed hroot hasks hsandboxed]
        exact .sandboxed hroot hsandboxed
      | false =>
        rw [decide_eq hroot hasks hsandboxed]
        exact decided_decideByProbe hroot hasks hsandboxed

/-- A decision that comes to the inputs depends on nothing else. -/
theorem ReachesInputs.decide_fst (h : g.ReachesInputs root w) :
    (g.decide w).1 = g.decideByInputs root w.files := by
  rw [decide_eq h.root_eq h.asks h.not_sandboxed]
  cases hfind : (g.finder.manifest? g.settings.probePackage root.text w).1 with
  | none => rw [decideByProbe_none]
  | some manifest => rw [decideByProbe_some, h.not_readOnly manifest hfind]

/-- Known inputs whose marker is there are left alone. -/
theorem ReachesInputs.decide_of_present {digest : InputDigest} (h : g.ReachesInputs root w)
    (hread : (g.sourcesOf root).digest w.files = .ok digest)
    (hpresent : w.files.isPresent (g.markerOf root digest) = .ok true) :
    (g.decide w).1 = .ok ⟨.skip, .markerPresent, some digest, some (g.markerOf root digest)⟩ := by
  rw [h.decide_fst, decideByInputs_eq, hread]
  dsimp only
  rw [decideByMarker_eq, hpresent]

/-- Known inputs whose marker is not there are converted. -/
theorem ReachesInputs.decide_of_absent {digest : InputDigest} (h : g.ReachesInputs root w)
    (hread : (g.sourcesOf root).digest w.files = .ok digest)
    (hpresent : w.files.isPresent (g.markerOf root digest) = .ok false) :
    (g.decide w).1 = .ok ⟨.run, .markerAbsent, some digest, some (g.markerOf root digest)⟩ := by
  rw [h.decide_fst, decideByInputs_eq, hread]
  dsimp only
  rw [decideByMarker_eq, hpresent]

/-- A marker that cannot be asked for is a failure. -/
theorem ReachesInputs.decide_of_unseen {digest : InputDigest} {fault : Fault}
    (h : g.ReachesInputs root w) (hread : (g.sourcesOf root).digest w.files = .ok digest)
    (hpresent : w.files.isPresent (g.markerOf root digest) = .error fault) :
    (g.decide w).1 = .error fault := by
  rw [h.decide_fst, decideByInputs_eq, hread]
  dsimp only
  rw [decideByMarker_eq, hpresent]

/-! ### What becomes of the files -/

/-- A decision at most asks the finder. -/
theorem decide_snd (g : Guard) (w : World) :
    (g.decide w).2 = w ∨
      ∃ root, (g.decide w).2 = (g.finder.manifest? g.settings.probePackage root w).2 := by
  cases hroot : g.dependencyRoot with
  | none =>
    rw [Guard.decide, hroot]
    exact Or.inl rfl
  | some root =>
    cases hasks : g.asksInVain with
    | true =>
      rw [decide_of_asksInVain hroot hasks]
      exact Or.inl rfl
    | false =>
      cases hsandboxed : g.isSandboxed w with
      | true =>
        rw [decide_of_sandboxed hroot hasks hsandboxed]
        exact Or.inl rfl
      | false =>
        rw [decide_eq hroot hasks hsandboxed]
        exact Or.inr ⟨root.text, rfl⟩

/-- A decision leaves nothing but a question. -/
theorem onlyAsked_decide (g : Guard) (w : World) : w.OnlyAsked (g.decide w).2 := by
  rcases decide_snd g w with h | ⟨root, h⟩
  · rw [h]
    exact .refl w
  · rw [h]
    exact g.finder.onlyAsked_manifest? _ _ w

/-- The marker of a decision is that of a digest of the inputs of the tree. -/
theorem exists_digest_of_marker {d : Decision} {marker : Path} (h : (g.decide w).1 = .ok d)
    (hmarker : d.marker = some marker) :
    ∃ root digest, g.dependencyRoot = some root ∧ marker = g.markerOf root digest := by
  have hdecided := decided_decide g w
  rw [h] at hdecided
  cases hdecided with
  | noTree | sandboxed | readOnly | unknown => cases hmarker
  | present reaches | absent reaches =>
    exact ⟨_, _, reaches.root_eq, (Option.some.inj hmarker).symm⟩

@[simp] theorem files_decide (g : Guard) (w : World) : (g.decide w).2.files = w.files := by
  rcases decide_snd g w with h | ⟨root, h⟩
  · rw [h]
  · rw [h, Finder.files_manifest?]

theorem record_fst (d : Decision) (w : World) : (record d w).1 = (d.record w.files).1 := rfl

theorem files_record (d : Decision) (w : World) :
    (record d w).2.files = (d.record w.files).2 := rfl

/-! ### A conversion that is due -/

/-- The decision calls for a conversion, and there are a tree and an entry point. -/
structure IsDue (g : Guard) (d : Decision) (root main : Path) : Prop where
  verdict_eq : d.verdict = .run
  root_eq : g.dependencyRoot = some root
  main_eq : g.settings.converterMain = some main

/-- What a conversion that is due leaves: what the attempt to run its child leaves, and a line
behind the output where the build is profiled. -/
theorem IsDue.convert_eq {d : Decision} {main : Path} (h : g.IsDue d root main) (w : World) :
    g.convert d w = (w.verdictFor (g.argumentsFor root main),
      { w with
        files := { w.files with
          tree := w.files.tree.putAll (w.putsFor (g.argumentsFor root main)) }
        children := w.children.tail
        events := w.events ++ [.child (g.argumentsFor root main)]
        clock := w.laterClock
        errorText := w.errorText ++ w.outputFor (g.argumentsFor root main)
          ++ w.timing "RunGate.execute" }) := by
  rw [convert, h.verdict_eq, h.root_eq, h.main_eq]
  exact World.measured_convertTree_eq _ _ w

/-- A tree that is to be converted is there. -/
theorem exists_root_of_isRun {d : Decision} (h : (g.decide w).1 = .ok d) (hrun : d.isRun = true) :
    ∃ root, g.dependencyRoot = some root := by
  cases hroot : g.dependencyRoot with
  | some root => exact ⟨root, rfl⟩
  | none =>
    rw [Guard.decide, hroot] at h
    cases h
    cases hrun

theorem IsDue.isRun {d : Decision} {main : Path} (h : g.IsDue d root main) : d.isRun = true :=
  decide_eq_true h.verdict_eq

theorem isDue_of_isRun {d : Decision} {main : Path} (hrun : d.isRun = true)
    (hroot : g.dependencyRoot = some root) (hmain : g.settings.converterMain = some main) :
    g.IsDue d root main := ⟨of_decide_eq_true hrun, hroot, hmain⟩

/-- Without an entry point no child is started. -/
theorem convert_of_noConverter {d : Decision} (hrun : d.isRun = true)
    (hroot : g.dependencyRoot = some root)
    (hmain : g.settings.converterMain = none) :
    g.convert d w
      = (.error (.build (.badSettings SettingsProblem.noConverter.message none)), w) := by
  have hverdict : d.verdict = .run := of_decide_eq_true hrun
  rw [convert, hverdict, hroot, hmain]
  rfl

/-- The ways in which deciding, converting and recording can end. -/
inductive Ensured (g : Guard) (w : World) : Except Fault Decision × World → Prop
  | undecided {fault : Fault} {w₁ : World} (decided : g.decide w = (.error fault, w₁)) :
      Ensured g w (.error fault, w₁)
  | spared {d : Decision} {w₁ : World} (decided : g.decide w = (.ok d, w₁))
      (isRun : d.isRun = false) : Ensured g w (.ok d, w₁)
  | unconverted {d : Decision} {fault : Fault} {w₁ w₂ : World} (decided : g.decide w = (.ok d, w₁))
      (isRun : d.isRun = true) (converted : g.convert d w₁ = (.error fault, w₂)) :
      Ensured g w (.error fault, w₂)
  | unrecorded {d : Decision} {fault : Fault} {w₁ w₂ w₃ : World}
      (decided : g.decide w = (.ok d, w₁)) (isRun : d.isRun = true)
      (converted : g.convert d w₁ = (.ok (), w₂)) (recorded : record d w₂ = (.error fault, w₃)) :
      Ensured g w (.error fault, w₃)
  | recorded {d : Decision} {written : Bool} {w₁ w₂ w₃ : World}
      (decided : g.decide w = (.ok d, w₁)) (isRun : d.isRun = true)
      (converted : g.convert d w₁ = (.ok (), w₂)) (recorded : record d w₂ = (.ok written, w₃)) :
      Ensured g w (.ok d, w₃)

/-- **The three steps end in one of these ways.** -/
theorem ensured_ensure (g : Guard) (w : World) : Ensured g w (g.ensure w) := by
  -- Each step can end the call; where it does not, the next one starts in the world that it has
  -- left.
  rcases hdecide : g.decide w with ⟨fault | d, w₁⟩
  · rw [ensure, Action.bind_of_error hdecide]
    exact .undecided hdecide
  rw [ensure, Action.bind_of_ok hdecide]
  cases hrun : d.isRun with
  | false => exact .spared hdecide hrun
  | true =>
    rw [if_pos rfl]
    rcases hconvert : g.convert d w₁ with ⟨fault | _, w₂⟩
    · rw [Action.bind_of_error hconvert]
      exact .unconverted hdecide hrun hconvert
    rw [Action.bind_of_ok hconvert]
    rcases hrecord : record d w₂ with ⟨fault | written, w₃⟩
    · rw [Action.bind_of_error hrecord]
      exact .unrecorded hdecide hrun hconvert hrecord
    · rw [Action.bind_of_ok hrecord]
      exact .recorded hdecide hrun hconvert hrecord

/-- A call that decides to leave the tree alone does nothing more. -/
theorem ensure_of_skip {d : Decision} (h : (g.decide w).1 = .ok d) (hrun : d.isRun = false) :
    g.ensure w = (.ok d, (g.decide w).2) := by
  have hdecide : g.decide w = (.ok d, (g.decide w).2) := by rw [← h]
  rw [ensure, Action.bind_of_ok hdecide, hrun]
  rfl

/-- A call ends with a conversion that fails. -/
theorem ensure_of_convert_error {d : Decision} {fault : Fault} (hdecide : (g.decide w).1 = .ok d)
    (hrun : d.isRun = true) (hconvert : (g.convert d (g.decide w).2).1 = .error fault) :
    g.ensure w = (.error fault, (g.convert d (g.decide w).2).2) := by
  have hdecide' : g.decide w = (.ok d, (g.decide w).2) := Prod.ext hdecide rfl
  have hconvert' : g.convert d (g.decide w).2 = (.error fault, (g.convert d (g.decide w).2).2) :=
    Prod.ext hconvert rfl
  rw [ensure, Action.bind_of_ok hdecide', if_pos hrun, Action.bind_of_error hconvert']

/-- A call that converts the tree leaves what recording that leaves. -/
theorem files_ensure_of_convert {d : Decision} {w₁ : World} (hdecide : g.decide w = (.ok d, w₁))
    (hrun : d.isRun = true) (hconvert : (g.convert d w₁).1 = .ok ()) :
    (g.ensure w).2.files = (d.record (g.convert d w₁).2.files).2 := by
  have hconvert : g.convert d w₁ = (.ok (), (g.convert d w₁).2) := Prod.ext hconvert rfl
  rw [ensure, Action.bind_of_ok hdecide, if_pos hrun, Action.bind_of_ok hconvert, ← files_record]
  rcases hrecord : record d (g.convert d w₁).2 with ⟨fault | written, w₃⟩
  · rw [Action.bind_of_error hrecord]
  · rw [Action.bind_of_ok hrecord]
    rfl

end Guard

end ConvertOnce
