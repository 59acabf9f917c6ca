import ConvertOnce.Proofs.FileSystem.RealPath
import ConvertOnce.Settings.Load

/-!
# Settings files that cannot be used

Whatever a settings file holds, loading it is to end with settings or with a problem that names the
file.  `Settings.reports_load_iff` says for which contents it does: those that are UTF-8 text
without an integer too long to be read or brackets nested too deep (`Settings.IsLegible`).  Every
malformed text and every wrong field is covered; what is not covered leaves as a fault of the
decoder that names no file, and `Settings.not_alwaysReports` is such a file of one byte.
-/

namespace ConvertOnce.Settings

variable {α β : Type} {fs : FileSystem} {base path directory : Path} {asked : Option Path}
  {bytes : Bytes}

/-! ### Problems that name the file -/

/-- An attempt ends well, or with a problem of the settings file at a path. -/
inductive Reports (path : Path) : Except Fault α → Prop
  | done (a : α) : Reports path (.ok a)
  | problem (message : String) :
      Reports path (.error (.build (.badSettings message (some path.text))))

/-- Two steps end well or with a problem of the file when the first one does, and then the
second. -/
theorem reports_bind_iff {x : Except Fault α} {f : α → Except Fault β} :
    Reports path (x >>= f) ↔ Reports path x ∧ ∀ a, x = .ok a → Reports path (f a) := by
  cases x with
  | error fault =>
    constructor
    · intro h
      cases h
      refine ⟨.problem _, fun a ha => ?_⟩
      cases ha
    · rintro ⟨h, -⟩
      cases h
      exact .problem _
  | ok a =>
    constructor
    · intro h
      refine ⟨.done a, fun a' ha => ?_⟩
      rwa [← Except.ok.inj ha]
    · rintro ⟨-, h⟩
      exact h a rfl

/-- What is wrong with the settings in a file is a problem of that file. -/
theorem reports_mapError_problemAt (path : Path) (x : Except SettingsProblem α) :
    Reports path (x.mapError (problemAt path)) := by
  cases x with
  | error problem => exact .problem problem.message
  | ok a => exact .done a

/-! ### The text of the file -/

/-- The bytes are UTF-8 text, and reading it comes across no integer that is too long and no array
or object that is nested more than `levels` deep. -/
def IsLegible (levels : Nat) (bytes : Bytes) : Prop :=
  ∃ chars, Utf8.decodeChars bytes = some chars ∧
    Json.read levels (normalizeLines chars) ≠ .error .tooDeep ∧
    ∀ digits, Json.read levels (normalizeLines chars) ≠ .error (.hugeInteger digits)

theorem readText_of_read (hread : fs.read path.text = .ok bytes) :
    readText fs path =
      match Utf8.decodeChars bytes with
      | some chars => .ok (normalizeLines chars)
      | none => .error .undecodable := by
  rw [readText, hread]
  rfl

/-- The members of a file are read, or a problem of the file is found, when it is legible. -/
theorem reports_fileMembers_iff (hread : fs.read path.text = .ok bytes) :
    Reports path (fileMembers fs path) ↔ IsLegible fs.maxNesting bytes := by
  rw [fileMembers, readText_of_read hread, IsLegible]
  -- A file that is no text stops the reader before any JSON is looked at.
  cases Utf8.decodeChars bytes with
  | none =>
    constructor
    · intro h
      cases h
    · rintro ⟨chars, hchars, -⟩
      cases hchars
  | some chars =>
    simp only [Option.some.injEq, exists_eq_left']
    rw [ok_bind]
    cases Json.read fs.maxNesting (normalizeLines chars) with
    | ok value =>
      have hmembers := reports_mapError_problemAt path (SettingsFile.members value)
      exact ⟨fun _ => ⟨nofun, nofun⟩, fun _ => hmembers⟩
    | error failure =>
      -- Of the three failures of the reader only the first is a problem of the file.
      cases failure with
      | malformed complaint position => exact ⟨fun _ => ⟨nofun, nofun⟩, fun _ => .problem _⟩
      | hugeInteger digits =>
        constructor
        · intro h
          cases h
        · rintro ⟨-, hdigits⟩
          exact absurd rfl (hdigits digits)
      | tooDeep =>
        constructor
        · intro h
          cases h
        · rintro ⟨hdeep, -⟩
          exact absurd rfl hdeep

/-! ### Loading -/

/-- Settings are changed by a file, or a problem of the file is found, when it is legible. -/
theorem reports_applyFile_iff (hread : fs.read path.text = .ok bytes)
    (hdirectory : fs.realPath path.parent = .ok directory) (settings : Settings) :
    Reports path (applyFile fs settings path) ↔ IsLegible fs.maxNesting bytes := by
  rw [applyFile, reports_bind_iff, reports_fileMembers_iff hread, hdirectory]
  refine and_iff_left fun members _ => ?_
  have hfields := reports_mapError_problemAt path (SettingsFile.ofMembers members)
  refine reports_bind_iff.2 ⟨.done directory, fun base _ => ?_⟩
  exact reports_bind_iff.2 ⟨hfields, fun file _ => .done _⟩

/-- The defaults are a matter of the real path of the base directory. -/
theorem reports_ofBase_iff :
    Reports path (ofBase fs base) ↔ ∃ real, fs.realPath base = .ok real := by
  rw [ofBase]
  cases hreal : fs.realPath base with
  | ok real => exact ⟨fun _ => ⟨real, rfl⟩, fun _ => .done _⟩
  | error fault =>
    constructor
    · intro h
      -- A path without a real path is no problem of a settings file.
      rcases FileSystem.realPath_error hreal with (_ | _) | ⟨loop, rfl⟩ <;> cases h
    · rintro ⟨real, hok⟩
      cases hok

theorem isPresent_of_read (hread : fs.read path.text = .ok bytes) :
    fs.isPresent path = .ok true := by
  obtain ⟨node, hstat, -⟩ := bind_eq_ok_iff.1 hread
  rw [FileSystem.isPresent, FileSystem.probe, hstat]

/-- A file that is there is applied to the defaults; without overrides that is all. -/
theorem load_of_isPresent (hpath : path = asked.getD (base / SettingsFile.defaultName))
    (hpresent : fs.isPresent path = .ok true) :
    load fs base asked [] = ofBase fs base >>= fun start => applyFile fs start path := by
  rw [load, ← hpath]
  refine bind_congr fun start => ?_
  dsimp only
  rw [hpresent]
  show (applyFile fs start path >>= fun settings => .ok settings) = _
  exact bind_pure _

/-- **Loading ends with settings or with a problem of the settings file exactly when the file is
legible**, where the base directory has a real path at all. -/
theorem reports_load_iff (hpath : path = asked.getD (base / SettingsFile.defaultName))
    (hread : fs.read path.text = .ok bytes) (hdirectory : fs.realPath path.parent = .ok directory) :
    Reports path (load fs base asked []) ↔
      (∃ real, fs.realPath base = .ok real) ∧ IsLegible fs.maxNesting bytes := by
  rw [load_of_isPresent hpath (isPresent_of_read hread), reports_bind_iff, reports_ofBase_iff]
  -- Whether the file is applied well does not depend on the settings that it is applied to.
  simp only [reports_applyFile_iff hread hdirectory]
  refine and_congr_right fun ⟨real, hreal⟩ => ?_
  have hbase : ofBase fs base = .ok (defaults fs real) := by
    rw [ofBase, hreal]
    rfl
  exact ⟨fun h => h _ hbase, fun h _ _ => h⟩

/-- A project with a settings file of the given bytes. -/
def filesWith (bytes : Bytes) : FileSystem where
  tree := .putAll .empty [⟨"/p/ngcc-gate.json", .file .newFile bytes⟩]
  cwd := "/"
  executable := "/usr/bin/python3"

/-- A file with an opening bracket and nothing else is reported. -/
theorem reports_load_iff_unclosed :
    Reports (.ofString "/p/ngcc-gate.json") (load (filesWith [0x7b]) (.ofString "/p") none []) := by
  have hpath : Path.ofString "/p/ngcc-gate.json"
      = none.getD (Path.ofString "/p" / SettingsFile.defaultName) := by decide +kernel
  have hread : (filesWith [0x7b]).read (Path.ofString "/p/ngcc-gate.json").text = .ok [0x7b] := by
    decide +kernel
  have hbase : (filesWith [0x7b]).realPath (.ofString "/p") = .ok (.ofString "/p") := by
    decide +kernel
  have hjson : Json.read 950 ['\x7b'] = .error (.malformed .expectedName 1) := by rfl
  refine (reports_load_iff hpath hread hbase).2 ⟨⟨_, hbase⟩, ['\x7b'], by decide +kernel, ?_, ?_⟩
  · intro h
    cases hjson.symm.trans h
  · intro digits h
    cases hjson.symm.trans h

/-- Loading a readable settings file in a directory with a real path always ends with settings or
with a problem of that file. -/
def AlwaysReports : Prop :=
  ∀ (fs : FileSystem) (base : Path) (asked : Option Path) (path directory : Path) (bytes : Bytes),
    path = asked.getD (base / SettingsFile.defaultName) → fs.read path.text = .ok bytes →
    fs.realPath path.parent = .ok directory → Reports path (load fs base asked [])

/-- **Loading can end in another way**: with a file of one byte that is no text. -/
theorem not_alwaysReports : ¬AlwaysReports := by
  intro h
  have hreports := h (filesWith [0xff]) (.ofString "/p") none (.ofString "/p/ngcc-gate.json")
    (.ofString "/p") [0xff] (by decide +kernel) (by decide +kernel) (by decide +kernel)
  have hload : load (filesWith [0xff]) (.ofString "/p") none [] = .error .undecodable := by
    decide +kernel
  rw [hload] at hreports
  cases hreports

end ConvertOnce.Settings
