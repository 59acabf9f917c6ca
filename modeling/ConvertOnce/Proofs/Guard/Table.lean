import ConvertOnce.Proofs.Guard.Traces

/-!
# The table of decisions

A guard asks one question after the other, and the first one that has an answer decides:

* there is no tree: it is left alone;
* the variable of a sandbox is set: the tree is left alone, whatever the files are;
* the manifest of the probed package may not be written: the tree is left alone;
* the inputs are refused: the tree is converted;
* the marker of the inputs is there, or it is not: the tree is left alone or converted.

`Guard.decide_table` says that a decision that is taken is the one of its row, which digest and
which marker go with it, and that taking it changes nothing.
-/

namespace ConvertOnce

/-- A digest is written in lowercase digits. -/
theorem InputDigest.mem_of_mem_hex {digest : InputDigest} {c : Char} (h : c ∈ digest.hex.toList) :
    c ∈ "0123456789abcdef".toList := by
  have hdigits : Hex.digits = "0123456789abcdef".toList := by decide
  rw [← hdigits]
  exact Hex.mem_digits_of_mem_encode h

/-- What a decision says to do, and why. -/
def Decision.Gives (d : Decision) (verdict : Verdict) (reason : Reason) : Prop :=
  d.verdict = verdict ∧ d.reason = reason

/-- A set variable has a value with something in it. -/
theorem Environment.isSet_iff {environment : Environment} {name : String} :
    environment.isSet name = true ↔ ∃ value, environment.get? name = some value ∧ value ≠ "" := by
  rw [isSet, Option.any_eq_true]
  simp

namespace Guard

variable {g : Guard} {w : World} {root : Path} {d : Decision}

/-! ### The questions -/

/-- The variable of a sandbox has a value with something in it, in the environment that the guard
was given, or else in that of the process. -/
def InSandbox (g : Guard) (w : World) : Prop :=
  ∃ value, value ≠ "" ∧
    match g.environment with
    | some given => given.get? g.settings.skipVariable = some value
    | none => w.environment.get? g.settings.skipVariable = some value

/-- The probed package has a manifest, as seen from the tree, and it may not be written. -/
def ProbeIsReadOnly (g : Guard) (root : Path) (w : World) : Prop :=
  ∃ manifest, (g.finder.manifest? g.settings.probePackage root.text w).1 = some manifest ∧
    w.files.isProtectedPackage manifest = .ok true

/-- The digest of the inputs that are found in a world. -/
def digestIn (g : Guard) (w : World) : Except Fault InputDigest := do
  (← g.sources).digest w.files

/-- The inputs are refused by the file system, or with a failure that is reported to a build. -/
def InputsRefused (g : Guard) (w : World) : Prop :=
  (∃ errno path, g.digestIn w = .error (.system errno path)) ∨
    ∃ error, g.digestIn w = .error (.build error)

theorem isSandboxed_iff : g.isSandboxed w = true ↔ g.InSandbox w := by
  rw [isSandboxed, environmentIn, Environment.isSet_iff, InSandbox]
  cases g.environment with
  | none => exact exists_congr fun value => and_comm
  | some given => exact exists_congr fun value => and_comm

theorem isSandboxed_eq_false_iff : g.isSandboxed w = false ↔ ¬ g.InSandbox w := by
  rw [Bool.eq_false_iff, Ne, isSandboxed_iff]

theorem ReachesInputs.not_probeIsReadOnly (h : g.ReachesInputs root w) :
    ¬ g.ProbeIsReadOnly root w := by
  rintro ⟨manifest, hfound, hprotected⟩
  cases (h.not_readOnly manifest hfound).symm.trans hprotected

theorem ReachesInputs.digestIn_eq (h : g.ReachesInputs root w) :
    g.digestIn w = (g.sourcesOf root).digest w.files := by
  rw [digestIn, sources, h.root_eq]
  rfl

theorem inputsRefused_of_makesUnknown {fault : Fault} (h : g.digestIn w = .error fault)
    (hfault : fault.makesUnknown = true) : g.InputsRefused w := by
  cases fault with
  | system errno path => exact Or.inl ⟨errno, path, h⟩
  | build error => exact Or.inr ⟨error, h⟩
  | _ => cases hfault

/-! ### The rows -/

/-- The tree is asked for its inputs: it is there, not sandboxed, and not found read-only. -/
structure AsksForInputs (g : Guard) (root : Path) (w : World) : Prop where
  root_eq : g.dependencyRoot = some root
  not_inSandbox : ¬ g.InSandbox w
  not_probeIsReadOnly : ¬ g.ProbeIsReadOnly root w

/-- The marker of a digest leads somewhere, or it does not. -/
def MarkerIs (g : Guard) (root : Path) (digest : InputDigest) (w : World) (present : Bool) : Prop :=
  w.files.leadsSomewhere (g.markerOf root digest).text = present

/-- The condition of each row: its own question is answered by yes and those before it by no. -/
def Row (g : Guard) (w : World) : Verdict → Reason → Prop
  | .skip, .noDependencyRoot => g.dependencyRoot = none
  | .skip, .sandboxed => (∃ root, g.dependencyRoot = some root) ∧ g.InSandbox w
  | .skip, .readOnly =>
    ∃ root, g.dependencyRoot = some root ∧ ¬ g.InSandbox w ∧ g.ProbeIsReadOnly root w
  | .run, .inputsUnknown => ∃ root, g.AsksForInputs root w ∧ g.InputsRefused w
  | .skip, .markerPresent =>
    ∃ root digest,
      g.AsksForInputs root w ∧ g.digestIn w = .ok digest ∧ g.MarkerIs root digest w true
  | .run, .markerAbsent =>
    ∃ root digest,
      g.AsksForInputs root w ∧ g.digestIn w = .ok digest ∧ g.MarkerIs root digest w false
  | _, _ => False

theorem ReachesInputs.asksForInputs (h : g.ReachesInputs root w) : g.AsksForInputs root w :=
  ⟨h.root_eq, isSandboxed_eq_false_iff.1 h.not_sandboxed, h.not_probeIsReadOnly⟩

/-- A question about a path that is answered says whether the path leads somewhere. -/
theorem leadsSomewhere_of_isPresent {fs : FileSystem} {p : Path} {present : Bool}
    (h : fs.isPresent p = .ok present) : fs.leadsSomewhere p.text = present := by
  rw [FileSystem.isPresent, FileSystem.probe] at h
  rw [FileSystem.leadsSomewhere]
  cases hstat : fs.stat p.text with
  | ok node =>
    rw [hstat] at h
    exact Except.ok.inj h
  | error fault =>
    rw [hstat] at h
    dsimp only at h
    split at h
    · exact Except.ok.inj h
    · cases h

/-- **A decision that is taken has the condition of its row.** -/
theorem row_of_decide (h : (g.decide w).1 = .ok d) : g.Row w d.verdict d.reason := by
  have hdecided := decided_decide g w
  rw [h] at hdecided
  cases hdecided with
  | noTree hroot => exact hroot
  | sandboxed hroot hsandboxed => exact ⟨⟨_, hroot⟩, isSandboxed_iff.1 hsandboxed⟩
  | readOnly hroot hsandboxed hfound hprotected =>
    exact ⟨_, hroot, isSandboxed_eq_false_iff.1 hsandboxed, _, hfound, hprotected⟩
  | unknown hreaches hrefusal hunknown =>
    rw [← hreaches.digestIn_eq] at hrefusal
    exact ⟨_, hreaches.asksForInputs, inputsRefused_of_makesUnknown hrefusal hunknown⟩
  | present hreaches hdigest hpresent | absent hreaches hdigest hpresent =>
    rw [← hreaches.digestIn_eq] at hdigest
    exact ⟨_, _, hreaches.asksForInputs, hdigest, leadsSomewhere_of_isPresent hpresent⟩

/-- A decision that is taken comes to the inputs where all questions before them are answered by
no. -/
theorem AsksForInputs.reachesInputs (hasks : g.AsksForInputs root w) (h : (g.decide w).1 = .ok d) :
    g.ReachesInputs root w := by
  obtain ⟨hroot, hsandbox, hprobe⟩ := hasks
  have hsandboxed := isSandboxed_eq_false_iff.2 hsandbox
  have hasked := asks_of_decide hroot h
  refine ⟨hroot, hasked, hsandboxed, ?_⟩
  intro manifest hfound
  cases hprotected : w.files.isProtectedPackage manifest with
  | ok isProtected =>
    cases isProtected with
    | true => exact absurd ⟨manifest, hfound, hprotected⟩ hprobe
    | false => rfl
  | error fault =>
    -- Then no decision would be taken.
    rw [decide_eq hroot hasked hsandboxed, hfound, decideByProbe_some, hprotected] at h
    cases h

/-- The marker of inputs that are known has been asked for. -/
theorem isPresent_of_markerIs {digest : InputDigest} {present : Bool}
    (hreaches : g.ReachesInputs root w) (hdigest : (g.sourcesOf root).digest w.files = .ok digest)
    (hmarker : g.MarkerIs root digest w present) (h : (g.decide w).1 = .ok d) :
    w.files.isPresent (g.markerOf root digest) = .ok present := by
  cases hpresent : w.files.isPresent (g.markerOf root digest) with
  | ok answer => rw [← hmarker, leadsSomewhere_of_isPresent hpresent]
  | error fault => cases (hreaches.decide_of_unseen hdigest hpresent).symm.trans h

/-- **The row whose condition holds is the one by which a decision is taken.** -/
theorem gives_of_row {verdict : Verdict} {reason : Reason} (h : (g.decide w).1 = .ok d)
    (hrow : g.Row w verdict reason) : d.Gives verdict reason := by
  -- Six rows have a condition. In each the decision is computed from it and compared with the one
  -- that is taken.
  cases verdict <;> cases reason <;> try exact hrow.elim
  case skip.noDependencyRoot =>
    have hroot : g.dependencyRoot = none := hrow
    rw [Guard.decide, hroot] at h
    cases h
    exact ⟨rfl, rfl⟩
  case skip.sandboxed =>
    obtain ⟨⟨root, hroot⟩, hsandbox⟩ := hrow
    have hasked := asks_of_decide hroot h
    rw [decide_of_sandboxed hroot hasked (isSandboxed_iff.2 hsandbox)] at h
    cases h
    exact ⟨rfl, rfl⟩
  case skip.readOnly =>
    obtain ⟨root, hroot, hsandbox, manifest, hfound, hprotected⟩ := hrow
    have hsandboxed := isSandboxed_eq_false_iff.2 hsandbox
    have hasked := asks_of_decide hroot h
    rw [decide_eq hroot hasked hsandboxed, hfound, decideByProbe_some, hprotected] at h
    cases h
    exact ⟨rfl, rfl⟩
  case run.inputsUnknown =>
    obtain ⟨root, hasks, hrefused⟩ := hrow
    have hreaches := hasks.reachesInputs h
    rw [InputsRefused, hreaches.digestIn_eq] at hrefused
    rw [hreaches.decide_fst, decideByInputs_eq] at h
    rcases hrefused with ⟨errno, path, hrefused⟩ | ⟨error, hrefused⟩
    · rw [hrefused] at h
      cases h
      exact ⟨rfl, rfl⟩
    · rw [hrefused] at h
      cases h
      exact ⟨rfl, rfl⟩
  case skip.markerPresent =>
    obtain ⟨root, digest, hasks, hdigest, hmarker⟩ := hrow
    have hreaches := hasks.reachesInputs h
    rw [hreaches.digestIn_eq] at hdigest
    have hpresent := isPresent_of_markerIs hreaches hdigest hmarker h
    cases (hreaches.decide_of_present hdigest hpresent).symm.trans h
    exact ⟨rfl, rfl⟩
  case run.markerAbsent =>
    obtain ⟨root, digest, hasks, hdigest, hmarker⟩ := hrow
    have hreaches := hasks.reachesInputs h
    rw [hreaches.digestIn_eq] at hdigest
    have hpresent := isPresent_of_markerIs hreaches hdigest hmarker h
    cases (hreaches.decide_of_absent hdigest hpresent).symm.trans h
    exact ⟨rfl, rfl⟩

/-! ### The whole table -/

/-- What a table of decisions promises of a decision that is taken in a world. -/
structure FollowsTable (g : Guard) (w : World) (d : Decision) : Prop where
  /-- The decision is the one of the row whose condition holds. -/
  gives_iff : ∀ verdict reason, d.Gives verdict reason ↔ g.Row w verdict reason
  /-- In a sandbox the files do not matter. -/
  sandboxed : (∃ root, g.dependencyRoot = some root) → g.InSandbox w →
    ∀ files, (g.decide { w with files }).1 = .ok { verdict := .skip, reason := .sandboxed }
  /-- A digest goes with the decision when the marker has been asked for. -/
  isSome_digest_iff :
    d.digest.isSome = true ↔ d.reason = .markerPresent ∨ d.reason = .markerAbsent
  /-- So does a marker. -/
  isSome_marker_iff :
    d.marker.isSome = true ↔ d.reason = .markerPresent ∨ d.reason = .markerAbsent
  /-- The digest is that of the inputs. -/
  digestIn_eq : ∀ digest, d.digest = some digest → g.digestIn w = .ok digest
  /-- The marker is in its directory, named by the digest. -/
  marker_eq : ∀ digest marker, d.digest = some digest → d.marker = some marker →
    ∃ root, g.dependencyRoot = some root ∧
      marker = root / g.settings.markerDirectory / (digest.hex ++ ".lock")
  /-- That name is written in lowercase hexadecimal digits, from which the digest can be read. -/
  hex : ∀ digest, d.digest = some digest →
    (∀ c ∈ digest.hex.toList, c ∈ "0123456789abcdef".toList) ∧
      InputDigest.ofHex digest.hex = .ok digest
  /-- Deciding changes neither the files nor anything else. -/
  onlyAsked : w.OnlyAsked (g.decide w).2

/-- A sandboxed tree is left alone whatever the files are: none of them is looked at. -/
theorem decide_of_inSandbox (hroot : g.dependencyRoot = some root) (hasked : g.asksInVain = false)
    (h : g.InSandbox w) (files : FileSystem) :
    (g.decide { w with files }).1 = .ok { verdict := .skip, reason := .sandboxed } := by
  have hsandboxed : g.isSandboxed { w with files } = true := isSandboxed_iff.2 h
  rw [decide_of_sandboxed hroot hasked hsandboxed]

/-- Which digest and which marker go with a decision. -/
theorem accompanied_of_decide (h : (g.decide w).1 = .ok d) :
    (d.reason ≠ .markerPresent ∧ d.reason ≠ .markerAbsent ∧ d.digest = none ∧ d.marker = none) ∨
      ∃ root digest, (d.reason = .markerPresent ∨ d.reason = .markerAbsent) ∧
        g.dependencyRoot = some root ∧ g.digestIn w = .ok digest ∧ d.digest = some digest ∧
        d.marker = some (g.markerOf root digest) := by
  -- The four early ways to decide ask for no marker.
  have hdecided := decided_decide g w
  rw [h] at hdecided
  cases hdecided with
  | noTree | sandboxed | readOnly | unknown => exact Or.inl ⟨by decide, by decide, rfl, rfl⟩
  | present hreaches hdigest =>
    rw [← hreaches.digestIn_eq] at hdigest
    exact Or.inr ⟨_, _, Or.inl rfl, hreaches.root_eq, hdigest, rfl, rfl⟩
  | absent hreaches hdigest =>
    rw [← hreaches.digestIn_eq] at hdigest
    exact Or.inr ⟨_, _, Or.inr rfl, hreaches.root_eq, hdigest, rfl, rfl⟩

/-- **A decision that is taken follows the table.** -/
theorem decide_table (h : (g.decide w).1 = .ok d) : g.FollowsTable w d where
  gives_iff := by
    intro verdict reason
    constructor
    · rintro ⟨rfl, rfl⟩
      exact row_of_decide h
    · exact gives_of_row h
  sandboxed := by
    rintro ⟨root, hroot⟩ hsandbox files
    exact decide_of_inSandbox hroot (asks_of_decide hroot h) hsandbox files
  isSome_digest_iff := by
    -- A digest and a marker go together, with a decision that has asked for the marker.
    rcases accompanied_of_decide h with ⟨hpresent, habsent, hdigest, -⟩ |
      ⟨root, digest, hreason, -, -, hdigest, -⟩
    · simp [hpresent, habsent, hdigest]
    · simp [hreason, hdigest]
  isSome_marker_iff := by
    rcases accompanied_of_decide h with ⟨hpresent, habsent, -, hmarker⟩ |
      ⟨root, digest, hreason, -, -, -, hmarker⟩
    · simp [hpresent, habsent, hmarker]
    · simp [hreason, hmarker]
  digestIn_eq := by
    intro digest hsome
    rcases accompanied_of_decide h with ⟨-, -, hdigest, -⟩ | ⟨root, read, -, -, hread, hdigest, -⟩
    · cases hdigest.symm.trans hsome
    · cases hdigest.symm.trans hsome
      exact hread
  marker_eq := by
    intro digest marker hsome hplace
    rcases accompanied_of_decide h with ⟨-, -, hdigest, -⟩ |
      ⟨root, read, -, hroot, -, hdigest, hmarker⟩
    · cases hdigest.symm.trans hsome
    · cases hdigest.symm.trans hsome
      cases hmarker.symm.trans hplace
      exact ⟨root, hroot, rfl⟩
  hex := fun digest _ => ⟨fun _ => InputDigest.mem_of_mem_hex, digest.ofHex_hex⟩
  onlyAsked := onlyAsked_decide g w

/-- A guard that was given an environment in which nothing is set. -/
def unsandboxed : Guard where
  settings := { tsconfig := .ofString "/p/tsconfig.json", runtime := "/usr/bin/python3" }
  dependencyRoot := some (.ofString "/p/node_modules")
  finder := .usual
  environment := some .empty

/-- A sandboxed process, and a project without a lock file. -/
def sandboxWorld : World where
  files :=
    { tree := .putAll .empty [⟨"/p/node_modules", .directory .newDirectory⟩]
      cwd := "/"
      executable := "/usr/bin/python3" }
  environment := Table.insert .empty "BAZEL_TARGET" "//app"
  clock := []
  title := ""
  children := []
  conversions := []
  events := []
  errorText := ""

/-- The environment that a guard was given stands before that of the process. -/
theorem decide_table_unsandboxed :
    (unsandboxed.decide sandboxWorld).1 = .ok { verdict := .run, reason := .inputsUnknown } ∧
      unsandboxed.FollowsTable sandboxWorld { verdict := .run, reason := .inputsUnknown } := by
  have hdecide :
      (unsandboxed.decide sandboxWorld).1 = .ok { verdict := .run, reason := .inputsUnknown } := by
    decide +kernel
  exact ⟨hdecide, decide_table hdecide⟩

end Guard

end ConvertOnce
