import ConvertOnce.Proofs.Build.Session
import ConvertOnce.Proofs.Guard.SeenFrom
import ConvertOnce.Proofs.OnDemand.SeenFrom
import ConvertOnce.Proofs.Settings.SeenFrom

/-!
# A build started in several directories

A build that is named by an absolute base directory, and is given absolute file names, does not
depend on the current directory (`Build.session_seenFrom`): the same build is made, every call gets
the same answer or the same fault, and what the calls leave behind is the same but for the current
directory itself.  That directory need not exist.
-/

namespace ConvertOnce.Build

variable {b : Build} {base : Path} {settings : Option Settings} {fs : FileSystem} {cwd : String}
  {calls : List Call}

/-! ### Making the build -/

theorem forProject_eq (fs : FileSystem) (base : Path) (settings : Option Settings)
    (finder : Finder) :
    forProject fs base settings finder =
      (settings.elim (Settings.load fs base none []) .ok >>= fun chosen =>
        (ofParts chosen · finder) <$> fs.dependencyRoot? base dependencyDirectory) := by
  cases settings <;> rfl

/-- The settings of a build name the compiler's settings file by an absolute path. -/
theorem isAbsolute_of_forProject (hbase : base.isAbsolute = true)
    (hsettings : ∀ given, settings = some given → given.tsconfig.isAbsolute = true)
    (h : forProject fs base settings .usual = .ok b) :
    b.guard.IsAbsolute ∧ b.onDemand.finder = .usual := by
  rw [forProject_eq] at h
  obtain ⟨chosen, hchosen, h⟩ := bind_eq_ok_iff.1 h
  obtain ⟨root?, hroot, rfl⟩ := map_eq_ok_iff.1 h
  -- The settings are those that were given, or loaded from the base.
  have htsconfig : chosen.tsconfig.isAbsolute = true := by
    cases settings with
    | some given =>
      obtain rfl := Except.ok.inj hchosen
      exact hsettings given rfl
    | none =>
      refine Settings.isAbsolute_tsconfig_of_load hbase ?_ hchosen
      intro file hfile
      cases hfile
  refine ⟨⟨?_, htsconfig, dependencyDirectory, rfl⟩, rfl⟩
  rintro root rfl
  exact FileSystem.isAbsolute_of_dependencyRoot? hbase hroot

/-- The same build is made from everywhere. -/
theorem forProject_seenFrom (hbase : base.isAbsolute = true) (finder : Finder) :
    forProject (fs.seenFrom cwd) base settings finder = forProject fs base settings finder := by
  have hload : Settings.load (fs.seenFrom cwd) base none [] = Settings.load fs base none [] := by
    refine Settings.load_seenFrom hbase ?_
    intro file hfile
    cases hfile
  rw [forProject_eq, forProject_eq, hload, FileSystem.dependencyRoot?_seenFrom hbase]

/-! ### Calls -/

/-- A call is answered the same from everywhere, if a file that it offers has an absolute path. -/
theorem perform_ignores (hguard : b.guard.IsAbsolute) (hfinder : b.onDemand.finder = .usual)
    {call : Call}
    (hcall : ∀ moduleName file, call = .onDemand (.offer moduleName (some file)) →
      IsAbsoluteText file) :
    (b.perform call).Ignores (·.seenFrom cwd) := by
  intro s
  show b.perform call (s.seenFrom cwd) = _
  cases call with
  | ensure =>
    have hensure : b.guard.ensure (s.world.seenFrom cwd)
        = Prod.map id (·.seenFrom cwd) (b.guard.ensure s.world) :=
      Guard.ensure_ignores hguard s.world
    have hworld : (s.seenFrom cwd).world = s.world.seenFrom cwd := rfl
    rw [perform_ensure, perform_ensure, hworld, hensure]
    rfl
  -- The files of these two calls are compared as texts, relative or not.
  | isSettled file => rfl
  | onDemand call =>
    cases call with
    | changed file => rfl
    | offer moduleName file =>
      have hoffer : b.onDemand.offer moduleName file (s.seenFrom cwd)
          = Prod.map id (·.seenFrom cwd) (b.onDemand.offer moduleName file s) := by
        refine OnDemand.offer_ignores hfinder ?_ s
        rintro path rfl
        exact hcall moduleName path rfl
      rw [perform_onDemand, perform_onDemand, OnDemand.perform, hoffer]
      rfl

/-- **The current directory does not matter.**  It changes neither the build that is made, nor what
any call is answered, nor what the calls cause and leave behind. -/
theorem session_seenFrom (hbase : base.isAbsolute = true)
    (hsettings : ∀ given, settings = some given → given.tsconfig.isAbsolute = true)
    (hcalls : ∀ moduleName file, .onDemand (.offer moduleName (some file)) ∈ calls →
      IsAbsoluteText file) (s : BuildState) (cwd : String) :
    forProject (s.seenFrom cwd).world.files base settings .usual
        = forProject s.world.files base settings .usual ∧
      ∀ b, forProject s.world.files base settings .usual = .ok b →
        b.performAll calls (s.seenFrom cwd)
          = Prod.map id (·.seenFrom cwd) (b.performAll calls s) := by
  refine ⟨forProject_seenFrom hbase .usual, fun b hb => ?_⟩
  obtain ⟨hguard, hfinder⟩ := isAbsolute_of_forProject hbase hsettings hb
  -- No single call asks for the current directory, so no sequence of calls does.
  refine performAll_of_ignores (·.seenFrom cwd) (fun call hcall => ?_) s
  refine perform_ignores hguard hfinder fun moduleName file hoffer => ?_
  rw [hoffer] at hcall
  exact hcalls moduleName file hcall

/-! A project whose build is made in a directory that has been removed. -/

/-- A project with a lock file, a package and nothing converted yet. -/
def sampleProject : BuildState where
  world := .ofFiles
    { tree := .putAll .empty [⟨"/p/yarn.lock", .file .newFile [1]⟩,
        ⟨"/p/tsconfig.json", .file .newFile [2]⟩,
        ⟨"/p/node_modules/a/package.json", .file .newFile []⟩]
      cwd := "/p"
      executable := "/usr/bin/python3" }
  cache := .empty
  report := {}
  settled := []

/-- The whole tree, one package, and what has come of it. -/
def sampleCalls : List Call :=
  [.ensure, .onDemand (.offer "a" (some "/p/node_modules/a/i.js")),
    .isSettled "/p/node_modules/a/i.js"]

theorem exists_build_sampleProject :
    ∃ b, forProject sampleProject.world.files (.ofString "/p") none .usual = .ok b := by
  have hmade : (forProject sampleProject.world.files (.ofString "/p") none .usual).isOk = true := by
    decide +kernel
  revert hmade
  generalize forProject sampleProject.world.files (.ofString "/p") none .usual = made
  intro hmade
  cases made with
  | error fault => cases hmade
  | ok b => exact ⟨b, rfl⟩

/-- From a directory that is gone the same build is made and lives through the same. -/
theorem session_seenFrom_removed :
    ∃ b, forProject sampleProject.world.files (.ofString "/p") none .usual = .ok b ∧
      forProject (sampleProject.seenFrom "/gone").world.files (.ofString "/p") none .usual = .ok b ∧
      b.performAll sampleCalls (sampleProject.seenFrom "/gone")
        = Prod.map id (·.seenFrom "/gone") (b.performAll sampleCalls sampleProject) := by
  have hbase : (Path.ofString "/p").isAbsolute = true := by decide +kernel
  have hsettings : ∀ given, (none : Option Settings) = some given →
      given.tsconfig.isAbsolute = true := by
    intro given hgiven
    cases hgiven
  have hcalls : ∀ moduleName file, .onDemand (.offer moduleName (some file)) ∈ sampleCalls →
      IsAbsoluteText file := by
    intro moduleName file hcall
    obtain ⟨-, rfl⟩ : moduleName = "a" ∧ file = "/p/node_modules/a/i.js" := by
      simpa [sampleCalls] using hcall
    decide +kernel
  obtain ⟨b, hb⟩ := exists_build_sampleProject
  obtain ⟨hsame, hrun⟩ := session_seenFrom hbase hsettings hcalls sampleProject "/gone"
  exact ⟨b, hb, hsame.trans hb, hrun b hb⟩

end ConvertOnce.Build
