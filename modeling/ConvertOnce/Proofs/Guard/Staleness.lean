import ConvertOnce.Proofs.BuildInputs.Stream
import ConvertOnce.Proofs.Guard.Outcome

/-!
# How far a skip can be trusted

A guard skips the conversion when it finds the marker of the present inputs.  The marker was left by
an earlier call, and what the two calls have in common is the digest, hence the stream of the
inputs, as long as SHA-256 tells apart the streams that are met (`Guard.CollisionFree`).  One stream
does not make the inputs the same: `Guard.skip_current_iff` says exactly when they are, and
`Guard.not_neverStale` is a session in which a byte that moved from one settings file to the other
goes unnoticed.
-/

namespace ConvertOnce

namespace Guard

variable {g : Guard} {root : Path} {w : World} {marker : Path}

/-! ### What a call reads, writes and answers -/

/-- The inputs that a guard reads in a world. -/
def Reads (g : Guard) (w : World) (inputs : BuildInputs) : Prop :=
  ∃ root, g.dependencyRoot = some root ∧ (g.sourcesOf root).read w.files = .ok inputs

/-- A call that begins in the world decides to convert the tree, converts it, and leaves the
marker. -/
def Writes (g : Guard) (w : World) (marker : Path) : Prop :=
  ∃ d w', (g.decide w).1 = .ok d ∧ d.isRun = true ∧ d.marker = some marker ∧
    g.convert d (g.decide w).2 = (.ok (), w') ∧ (record d w').1 = .ok true

/-- A call that begins in the world answers that the marker is present. -/
def SkipsBy (g : Guard) (w : World) (marker : Path) : Prop :=
  ∃ d, (g.ensure w).1 = .ok d ∧ d.reason = .markerPresent ∧ d.marker = some marker

/-- The streams that a guard reads in the given worlds are told apart by their digests. -/
def CollisionFree (g : Guard) (session : List World) : Prop :=
  ∀ v ∈ session, ∀ w ∈ session, ∀ a b, g.Reads v a → g.Reads w b →
    a.digest = b.digest → a.stream = b.stream

/-- A world has one reading. -/
theorem Reads.unique {a b : BuildInputs} (ha : g.Reads w a) (hb : g.Reads w b) : a = b := by
  obtain ⟨root, hroot, ha⟩ := ha
  obtain ⟨root', hroot', hb⟩ := hb
  obtain rfl : root = root' := Option.some.inj (hroot.symm.trans hroot')
  exact Except.ok.inj (ha.symm.trans hb)

/-- A reading has the path of a lock file next to the tree. -/
theorem Reads.isLockPath {a : BuildInputs} (ha : g.Reads w a)
    (hroot : g.dependencyRoot = some root) :
    IsLockPath root.parent a.lock.path := by
  obtain ⟨root', hroot', ha⟩ := ha
  obtain rfl : root = root' := Option.some.inj (hroot.symm.trans hroot')
  exact InputSources.isLockPath_of_read ha

/-- What a call answers is what it decided. -/
theorem decide_of_ensure {d : Decision} (h : (g.ensure w).1 = .ok d) : (g.decide w).1 = .ok d := by
  have hensured := ensured_ensure g w
  generalize g.ensure w = answer at h hensured
  cases hensured with
  | undecided hdecide => cases h
  | unconverted hdecide hrun hconvert => cases h
  | unrecorded hdecide hrun hconvert hrecord => cases h
  | spared hdecide hrun => rw [hdecide, h]
  | recorded hdecide hrun hconvert hrecord => rw [hdecide, h]

/-- The marker of a decision is that of the inputs which were read. -/
theorem reads_of_decide {d : Decision} (h : (g.decide w).1 = .ok d)
    (hmarker : d.marker = some marker) :
    ∃ root inputs, g.dependencyRoot = some root ∧ g.Reads w inputs ∧
      marker = g.markerOf root inputs.digest := by
  have hdecided := decided_decide g w
  rw [h] at hdecided
  cases hdecided with
  | noTree | sandboxed | readOnly | unknown => cases hmarker
  | present hreaches hread hpresent | absent hreaches hread hpresent =>
    obtain ⟨inputs, hinputs, rfl⟩ := InputSources.digest_eq_ok_iff.1 hread
    exact ⟨_, inputs, hreaches.root_eq, ⟨_, hreaches.root_eq, hinputs⟩,
      (Option.some.inj hmarker).symm⟩

/-- Each digest has a marker of its own. -/
theorem markerOf_injective (g : Guard) (root : Path) : Function.Injective (g.markerOf root) := by
  intro a b h
  have hparts := congrArg Path.parts h
  rw [markerOf, markerOf, Path.parts_div_of_isPart a.isPart_markerFile,
    Path.parts_div_of_isPart b.isPart_markerFile] at hparts
  have hname := List.append_cancel_left hparts
  exact InputDigest.markerFile_injective (List.singleton_inj.1 hname)

/-! ### When a skip is current -/

/-- **A skip is current exactly when three lengths are unchanged**: where a call of a session skips
by the marker that an earlier call wrote, both have read inputs with one stream, and the inputs are
the same exactly when the lock file and the two settings files are as long as they were. -/
theorem skip_current_iff {session before between after : List World} {w₁ w₂ : World}
    (hsession : session = before ++ w₁ :: between ++ w₂ :: after) (hfree : g.CollisionFree session)
    (hwrites : g.Writes w₁ marker) (hskips : g.SkipsBy w₂ marker) :
    ∃ a b, g.Reads w₁ a ∧ g.Reads w₂ b ∧ a.stream = b.stream ∧
      (a = b ↔ BuildInputs.SameLengths a b) := by
  obtain ⟨d₁, w', hdecide₁, -, hmarker₁, -⟩ := hwrites
  obtain ⟨d₂, hensure₂, -, hmarker₂⟩ := hskips
  obtain ⟨root, a, hroot, ha, rfl⟩ := reads_of_decide hdecide₁ hmarker₁
  obtain ⟨root', b, hroot', hb, hmarkers⟩ := reads_of_decide (decide_of_ensure hensure₂) hmarker₂
  obtain rfl : root = root' := Option.some.inj (hroot.symm.trans hroot')
  -- The marker that was found is the one that was written, so the digests agree, and without a
  -- collision the streams do.
  have hdigest : a.digest = b.digest := markerOf_injective g root hmarkers
  have hstream : a.stream = b.stream :=
    hfree w₁ (by simp [hsession]) w₂ (by simp [hsession]) a b ha hb hdigest
  refine ⟨a, b, ha, hb, hstream, ?_⟩
  exact BuildInputs.eq_iff_of_stream_eq (ha.isLockPath hroot) (hb.isLockPath hroot) hstream

/-! ### A skip that is not current -/

/-- What is done to a file between two calls. -/
inductive Edit where
  /-- It gets these bytes, and is created if need be. -/
  | write (path : String) (bytes : Bytes)
  /-- It is deleted. -/
  | delete (path : String)

/-- The path of the file that is edited. -/
def Edit.path : Edit → String
  | .write path _ => path
  | .delete path => path

/-- The tree after an edit. -/
def Edit.apply (t : FileTree) : Edit → FileTree
  | .write path bytes => t.putAll [⟨path, .file .newFile bytes⟩]
  | .delete path => t.remove (Location.ofString path)

/-- The paths of the files that hold the inputs. -/
def inputPaths (g : Guard) (root : Path) : List String :=
  (g.sourcesOf root).tsconfig.text ::
    ((g.sourcesOf root).toolConfigName :: lockFileNames).map fun name => (root.parent / name).text

/-- A call that begins in `w` comes after one that began in `v`: it finds the files as that one left
them, but for edits of the inputs. -/
structure Follows (g : Guard) (v w : World) : Prop where
  environment_eq : w.environment = v.environment
  cwd_eq : w.files.cwd = (g.ensure v).2.files.cwd
  edits : ∃ edits : List Edit,
    (∀ edit ∈ edits, ∃ root, g.dependencyRoot = some root ∧ edit.path ∈ g.inputPaths root) ∧
      w.files.tree = edits.foldl Edit.apply (g.ensure v).2.files.tree

/-- Every skip by a marker that an earlier call wrote is current, where each call follows the one
before it. -/
def NeverStale (g : Guard) : Prop :=
  ∀ (session before between after : List World) (w₁ w₂ : World) (marker : Path),
    session.IsChain g.Follows → session = before ++ w₁ :: between ++ w₂ :: after →
    g.CollisionFree session → g.Writes w₁ marker → g.SkipsBy w₂ marker →
      ∃ inputs, g.Reads w₁ inputs ∧ g.Reads w₂ inputs

/-- The guard of the tree of a project in `/p`. -/
def sample : Guard where
  settings :=
    { tsconfig := .ofString "/p/tsconfig.json"
      runtime := "/usr/bin/python3"
      converterMain := some (.ofString "/main") }
  dependencyRoot := some (.ofString "/p/node_modules")
  finder := .usual

/-- The project before the first call. -/
def sampleFiles : FileSystem where
  tree := .putAll .empty [⟨"/p/node_modules", .directory .newDirectory⟩,
    ⟨"/p/yarn.lock", .file .newFile [1]⟩, ⟨"/p/ngcc.config.js", .file .newFile [2, 3]⟩,
    ⟨"/p/tsconfig.json", .file .newFile [4]⟩]
  cwd := "/"
  executable := "/usr/bin/python3"

/-- What the first call reads. -/
def sampleInputs : BuildInputs where
  lock := ⟨.ofString "/p/yarn.lock", [1]⟩
  toolConfig := [2, 3]
  tsconfig := [4]
  tsconfigPath := .ofString "tsconfig.json"

/-- What the second call reads: a byte has moved from one settings file to the other. -/
def movedInputs : BuildInputs := { sampleInputs with toolConfig := [2], tsconfig := [3, 4] }

/-- The marker that the first call writes. -/
def sampleMarker : Path := sample.markerOf (.ofString "/p/node_modules") sampleInputs.digest

/-- What the first call decides. -/
def sampleDecision : Decision :=
  ⟨.run, .markerAbsent, some sampleInputs.digest, some sampleMarker⟩

/-- The project after the first call. -/
def recordedFiles : FileSystem := (sampleDecision.record sampleFiles).2

/-- How the byte moves. -/
def moves : List Edit := [.write "/p/ngcc.config.js" [2], .write "/p/tsconfig.json" [3, 4]]

/-- The project before the second call. -/
def movedFiles : FileSystem :=
  { recordedFiles with tree := moves.foldl Edit.apply recordedFiles.tree }

/-- What the first call meets. -/
theorem sampleFiles_facts :
    (sample.finder.manifest? sample.settings.probePackage (Path.ofString "/p/node_modules").text
      (World.ofFiles sampleFiles)).1 = none ∧
    (sample.sourcesOf (.ofString "/p/node_modules")).read sampleFiles = .ok sampleInputs ∧
    sampleFiles.isPresent sampleMarker = .ok false ∧
    (sample.convert sampleDecision (World.ofFiles sampleFiles)).1 = .ok () ∧
    (record sampleDecision (sample.convert sampleDecision (World.ofFiles sampleFiles)).2).1
      = .ok true := by
  decide +kernel

/-- What the second call meets. -/
theorem movedFiles_facts :
    (sample.finder.manifest? sample.settings.probePackage (Path.ofString "/p/node_modules").text
      (World.ofFiles movedFiles)).1 = none ∧
    (sample.sourcesOf (.ofString "/p/node_modules")).read movedFiles = .ok movedInputs ∧
    movedFiles.isPresent sampleMarker = .ok true := by
  decide +kernel

theorem reachesInputs_sample {files : FileSystem}
    (h : (sample.finder.manifest? sample.settings.probePackage
      (Path.ofString "/p/node_modules").text (World.ofFiles files)).1 = none) :
    sample.ReachesInputs (.ofString "/p/node_modules") (World.ofFiles files) where
  root_eq := rfl
  asks := rfl
  not_sandboxed := rfl
  not_readOnly manifest hfound := by
    rw [h] at hfound
    cases hfound

theorem decide_sampleFiles :
    sample.decide (.ofFiles sampleFiles) = (.ok sampleDecision, .ofFiles sampleFiles) := by
  obtain ⟨hprobe, hread, hpresent, -⟩ := sampleFiles_facts
  have hreaches := reachesInputs_sample hprobe
  have hworld : (sample.decide (World.ofFiles sampleFiles)).2 = World.ofFiles sampleFiles := by
    rw [decide_eq hreaches.root_eq hreaches.asks hreaches.not_sandboxed, Finder.manifest?_snd]
    rfl
  have hanswer := hreaches.decide_of_absent
    (InputSources.digest_eq_ok_iff.2 ⟨sampleInputs, hread, rfl⟩) hpresent
  exact Prod.ext hanswer hworld

theorem writes_sampleFiles : sample.Writes (World.ofFiles sampleFiles) sampleMarker := by
  obtain ⟨-, -, -, hconvert, hrecord⟩ := sampleFiles_facts
  refine ⟨sampleDecision, _, ?_, rfl, rfl, ?_, hrecord⟩
  · rw [decide_sampleFiles]
  · rw [decide_sampleFiles, ← hconvert]

theorem files_convert_sample :
    (sample.convert sampleDecision (.ofFiles sampleFiles)).2.files = sampleFiles := by
  have hdue : sample.IsDue sampleDecision (.ofString "/p/node_modules") (.ofString "/main") :=
    ⟨rfl, rfl, rfl⟩
  have hputs : (World.ofFiles sampleFiles).putsFor
      (sample.argumentsFor (.ofString "/p/node_modules") (.ofString "/main")) = [] :=
    World.putsFor_of_puts_eq_nil rfl _
  rw [hdue.convert_eq, hputs]
  rfl

theorem follows_movedFiles :
    sample.Follows (World.ofFiles sampleFiles) (World.ofFiles movedFiles) := by
  obtain ⟨-, -, -, hconvert, -⟩ := sampleFiles_facts
  have hleft : (sample.ensure (.ofFiles sampleFiles)).2.files = recordedFiles := by
    rw [files_ensure_of_convert decide_sampleFiles rfl hconvert, files_convert_sample,
      recordedFiles]
  refine ⟨?_, ?_, moves, ?_, ?_⟩
  · rw [World.environment_ofFiles, World.environment_ofFiles]
  · rw [hleft, World.files_ofFiles, movedFiles]
  · have hpaths : ∀ edit ∈ moves, edit.path ∈ sample.inputPaths (.ofString "/p/node_modules") := by
      decide +kernel
    exact fun edit hedit => ⟨_, rfl, hpaths edit hedit⟩
  · rw [hleft, World.files_ofFiles, movedFiles]

theorem stream_movedInputs : movedInputs.stream = sampleInputs.stream := by decide +kernel

theorem skipsBy_movedFiles : sample.SkipsBy (World.ofFiles movedFiles) sampleMarker := by
  obtain ⟨hprobe, hread, hpresent⟩ := movedFiles_facts
  have hreaches := reachesInputs_sample hprobe
  have hdigest : movedInputs.digest = sampleInputs.digest := by
    rw [BuildInputs.digest, BuildInputs.digest, stream_movedInputs]
  have hskip := hreaches.decide_of_present
    (InputSources.digest_eq_ok_iff.2 ⟨_, hread, hdigest⟩) hpresent
  refine ⟨⟨.skip, .markerPresent, some sampleInputs.digest, some sampleMarker⟩, ?_, rfl, rfl⟩
  rw [ensure_of_skip hskip rfl]
  rfl

theorem reads_sampleFiles : sample.Reads (World.ofFiles sampleFiles) sampleInputs :=
  ⟨_, rfl, sampleFiles_facts.2.1⟩

theorem reads_movedFiles : sample.Reads (World.ofFiles movedFiles) movedInputs :=
  ⟨_, rfl, movedFiles_facts.2.1⟩

/-- Both calls read the same stream. -/
theorem stream_of_reads {a : BuildInputs}
    (hw : w ∈ [World.ofFiles sampleFiles, World.ofFiles movedFiles]) (ha : sample.Reads w a) :
    a.stream = sampleInputs.stream := by
  rcases List.mem_cons.1 hw with rfl | hw
  · rw [ha.unique reads_sampleFiles]
  · obtain rfl := List.mem_singleton.1 hw
    rw [ha.unique reads_movedFiles, stream_movedInputs]

theorem collisionFree_sample :
    sample.CollisionFree [World.ofFiles sampleFiles, World.ofFiles movedFiles] := by
  intro v hv w hw a b ha hb _
  rw [stream_of_reads hv ha, stream_of_reads hw hb]

/-- The iff at a session of two calls, between which a byte moves. -/
theorem skip_current_iff_sample :
    ∃ a b, sample.Reads (World.ofFiles sampleFiles) a ∧ sample.Reads (World.ofFiles movedFiles) b ∧
      a.stream = b.stream ∧ (a = b ↔ BuildInputs.SameLengths a b) :=
  have hsession : [World.ofFiles sampleFiles, World.ofFiles movedFiles]
      = [] ++ World.ofFiles sampleFiles :: [] ++ World.ofFiles movedFiles :: [] := rfl
  skip_current_iff hsession collisionFree_sample writes_sampleFiles skipsBy_movedFiles

/-- **A skip can be stale.** -/
theorem not_neverStale : ¬ sample.NeverStale := by
  intro h
  obtain ⟨inputs, hfirst, hsecond⟩ :=
    h [World.ofFiles sampleFiles, World.ofFiles movedFiles] [] [] []
    (World.ofFiles sampleFiles) (World.ofFiles movedFiles) sampleMarker
    (.cons_cons follows_movedFiles (.singleton _)) rfl collisionFree_sample writes_sampleFiles
    skipsBy_movedFiles
  have hsame : sampleInputs = movedInputs := by
    rw [reads_sampleFiles.unique hfirst, reads_movedFiles.unique hsecond]
  exact absurd hsame (by decide +kernel)

end Guard

end ConvertOnce
