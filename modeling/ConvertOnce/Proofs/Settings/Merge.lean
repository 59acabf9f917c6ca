import ConvertOnce.Proofs.Settings.Format
import ConvertOnce.Proofs.Settings.Malformed

/-!
# What loading accepts, and where each setting comes from

A settings file that holds a JSON value gets loading past itself when the value is of the format,
whatever the overrides are; then loading ends well when each override is one of a setting, and every
setting has the value that the last of the three layers gives it (`Settings.load_layers`).
-/

namespace ConvertOnce

namespace SettingsFile

/-- Reads a settings file from the value that it holds. -/
def ofValue (value : Json) : Except SettingsProblem SettingsFile := members value >>= ofMembers

theorem ofValue_eq_ok_iff {value : Json} {file : SettingsFile} :
    ofValue value = .ok file ↔
      ∃ members, value = .object members ∧ IsFormat members ∧ AreTyped members ∧
        file = Members.file members := by
  rw [ofValue, bind_eq_ok_iff]
  refine exists_congr fun members => ?_
  rw [members_eq_ok_iff, ofMembers_eq_ok_iff, and_assoc]

theorem isAccepted_iff {value : Json} : IsAccepted value ↔ ∃ file, ofValue value = .ok file := by
  simp only [ofValue_eq_ok_iff]
  constructor
  · rintro ⟨members, hobject, hformat, htyped⟩
    exact ⟨_, members, hobject, hformat, htyped, rfl⟩
  · rintro ⟨file, members, hobject, hformat, htyped, -⟩
    exact ⟨members, hobject, hformat, htyped⟩

end SettingsFile

namespace Settings

variable {fs : FileSystem} {base path real directory : Path} {asked : Option Path} {value : Json}
  {overrides : List Override} {start settings : Settings}

/-- The file at a path can be read, and its text is that of a JSON value. -/
def Holds (fs : FileSystem) (path : Path) (value : Json) : Prop :=
  ∃ bytes chars, fs.read path.text = .ok bytes ∧ Utf8.decodeChars bytes = some chars ∧
    Json.read fs.maxNesting (normalizeLines chars) = .ok value

/-- Loading does not end with a problem of the settings file at a path. -/
def GetsPast (path : Path) (outcome : Except Fault Settings) : Prop :=
  ∀ problem, outcome ≠ .error (problemAt path problem)

theorem Holds.isPresent (h : Holds fs path value) : fs.isPresent path = .ok true := by
  obtain ⟨bytes, chars, hread, -, -⟩ := h
  exact isPresent_of_read hread

theorem fileMembers_of_holds (h : Holds fs path value) :
    fileMembers fs path = (SettingsFile.members value).mapError (problemAt path) := by
  obtain ⟨bytes, chars, hread, hchars, hjson⟩ := h
  rw [fileMembers, readText_of_read hread, hchars]
  dsimp only
  rw [ok_bind, hjson]

/-- A file is applied when its value can be read as a settings file. -/
theorem applyFile_of_holds (h : Holds fs path value)
    (hdirectory : fs.realPath path.parent = .ok directory) (start : Settings) :
    applyFile fs start path =
      match SettingsFile.ofValue value with
      | .ok file => .ok (file.apply directory start)
      | .error problem => .error (problemAt path problem) := by
  rw [applyFile, fileMembers_of_holds h, SettingsFile.ofValue]
  -- The directory is looked up between the two halves of the reading, and its lookup ends well.
  cases SettingsFile.members value with
  | error problem => rfl
  | ok members =>
    have hmembers : (Except.ok members : Except SettingsProblem Members).mapError (problemAt path)
        = .ok members := rfl
    rw [hmembers, ok_bind, ok_bind, hdirectory, ok_bind]
    cases SettingsFile.ofMembers members <;> rfl

/-- The overrides are applied to what the file makes of the defaults. -/
theorem load_of_holds (hbase : fs.realPath base = .ok real)
    (hpath : path = asked.getD (base / SettingsFile.defaultName))
    (hdirectory : fs.realPath path.parent = .ok directory) (hvalue : Holds fs path value) :
    load fs base asked overrides =
      match SettingsFile.ofValue value with
      | .ok file => (Override.applyAll (file.apply directory (defaults fs real)) overrides).mapError
          fun problem => .build (.badSettings problem.message none)
      | .error problem => .error (problemAt path problem) := by
  have hstart : ofBase fs base = .ok (defaults fs real) := by
    rw [ofBase, hbase]
    rfl
  rw [load, hstart, ok_bind, ← hpath]
  dsimp only
  rw [hvalue.isPresent, ok_bind]
  -- The file is there, so nothing is left of the choice between the file and the defaults.
  show (applyFile fs (defaults fs real) path >>= fun settings => _) = _
  rw [applyFile_of_holds hvalue hdirectory]
  cases SettingsFile.ofValue value <;> rfl

/-- **Loading accepts exactly its format and merges the settings one by one.**  It gets past the
file when the value there is of the format, with whatever overrides; then it ends well when each of
them has the name of a setting; and then each setting is the one that is overridden, or else the one
that the file gives, or else the default. -/
theorem load_layers (hbase : fs.realPath base = .ok real)
    (hpath : path = asked.getD (base / SettingsFile.defaultName))
    (hdirectory : fs.realPath path.parent = .ok directory) (hvalue : Holds fs path value)
    (hnames : ∀ o ∈ overrides, o.IsNamed) :
    (GetsPast path (load fs base asked overrides) ↔ SettingsFile.IsAccepted value) ∧
    (SettingsFile.IsAccepted value →
      ((∃ settings, load fs base asked overrides = .ok settings) ↔
        ∀ o ∈ overrides, ∃ x : Setting, o.name = x.overrideName)) ∧
    ∀ members settings, value = .object members → load fs base asked overrides = .ok settings →
      ∀ x, settings.get x =
        ((Override.lastGiven? overrides x).or (Members.said? members directory x)).getD
          ((defaults fs real).get x) := by
  rw [load_of_holds hbase hpath hdirectory hvalue, SettingsFile.isAccepted_iff]
  cases hfile : SettingsFile.ofValue value with
  | error problem =>
    refine ⟨⟨fun h => absurd rfl (h problem), ?_⟩, ?_, ?_⟩
    · rintro ⟨file, hok⟩
      cases hok
    · rintro ⟨file, hok⟩
      cases hok
    · intro members settings _ hok
      cases hok
  | ok file =>
    obtain ⟨members, hobject, -, -, rfl⟩ := SettingsFile.ofValue_eq_ok_iff.1 hfile
    -- What is left are the overrides, and a problem of theirs is none of the file.
    dsimp only
    simp only [GetsPast, ne_eq, mapError_eq_error_iff, mapError_eq_ok_iff,
      Override.applyAll_eq_ok_iff hnames]
    refine ⟨iff_of_true ?_ ⟨_, rfl⟩, fun _ => ?_, ?_⟩
    · rintro problem ⟨problem', -, hproblem⟩
      simp [problemAt] at hproblem
    · rw [exists_and_left, and_iff_left ⟨_, rfl⟩]
    · rintro members' settings hobject' ⟨-, rfl⟩ x
      obtain rfl : members' = members := Json.object.inj (hobject'.symm.trans hobject)
      rw [Override.get_foldl_apply, Members.get_apply_file]
      cases Override.lastGiven? overrides x <;> rfl

/-- A settings file that chooses the compiler's settings file and the runtime. -/
def sampleText : String :=
  "\x7b\"format\":\"ngcc-gate\",\"version\":0,\"tsconfig\":\"b.json\",\"runtime\":\"node\"\x7d"

/-- The members of the sample. -/
def sampleMembers : Members :=
  [("format", .string "ngcc-gate"), ("version", .number (.decimal false 0 0)),
    ("tsconfig", .string "b.json"), ("runtime", .string "node")]

/-- A project with the sample as its settings file. -/
def sampleFiles : FileSystem := filesWith (Utf8.encode sampleText)

set_option maxRecDepth 10000 in
/-- With the runtime overridden, each of the three layers decides about a setting of the sample. -/
theorem load_layers_sample :
    ∃ settings, load sampleFiles (.ofString "/p") none [.runtime "deno"] = .ok settings ∧
      settings.get .runtime = "deno" ∧ settings.get .tsconfig = .ofString "/p/b.json" ∧
      settings.get .markerDirectory = ".cli-ngcc" := by
  have hbase : sampleFiles.realPath (.ofString "/p") = .ok (.ofString "/p") := by decide +kernel
  have hpath : Path.ofString "/p/ngcc-gate.json"
      = none.getD (Path.ofString "/p" / SettingsFile.defaultName) := by decide +kernel
  have hread : sampleFiles.read (Path.ofString "/p/ngcc-gate.json").text
      = .ok (Utf8.encode sampleText) := by decide +kernel
  have hchars : Utf8.decodeChars (Utf8.encode sampleText) = some sampleText.toList := by
    decide +kernel
  have hjson : Json.read sampleFiles.maxNesting (normalizeLines sampleText.toList)
      = .ok (.object sampleMembers) := by decide +kernel
  have hnames : ∀ o ∈ [Override.runtime "deno"], o.IsNamed := by
    simp [Override.IsNamed]
  obtain ⟨-, hends, hlayers⟩ := load_layers hbase hpath hbase ⟨_, _, hread, hchars, hjson⟩ hnames
  have haccepted : SettingsFile.IsAccepted (.object sampleMembers) :=
    SettingsFile.isAccepted_iff.2 ⟨Members.file sampleMembers, by decide +kernel⟩
  obtain ⟨settings, hload⟩ := (hends haccepted).2 fun o ho =>
    ⟨.runtime, congrArg Override.name (List.mem_singleton.1 ho)⟩
  refine ⟨settings, hload, ?_, ?_, ?_⟩
  · rw [hlayers _ settings rfl hload]
    rfl
  · rw [hlayers _ settings rfl hload]
    decide +kernel
  · rw [hlayers _ settings rfl hload]
    decide +kernel

end Settings

end ConvertOnce
