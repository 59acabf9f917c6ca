import ConvertOnce.Proofs.FileSystem.RealPath
import ConvertOnce.Settings.Load

/-!
# Settings loaded from several directories

A build that names its base directory by an absolute path has the same settings from every current
directory (`Settings.load_seenFrom`), and the compiler's settings file is then named by an absolute
path too (`Settings.isAbsolute_tsconfig_of_load`).
-/

namespace ConvertOnce.Settings

variable {fs : FileSystem} {cwd : String} {base path : Path} {asked : Option Path}
  {overrides : List Override} {settings start : Settings}

/-! ### The same settings -/

theorem ofBase_seenFrom (h : base.isAbsolute = true) :
    ofBase (fs.seenFrom cwd) base = ofBase fs base := by
  rw [ofBase, ofBase, FileSystem.realPath_seenFrom h]
  rfl

theorem fileMembers_seenFrom (h : path.isAbsolute = true) :
    fileMembers (fs.seenFrom cwd) path = fileMembers fs path := by
  have hread : (fs.seenFrom cwd).read path.text = fs.read path.text :=
    FileSystem.read_seenFrom (Path.isAbsoluteText_text h)
  rw [fileMembers, fileMembers, readText, readText, hread]
  rfl

theorem applyFile_seenFrom (h : path.isAbsolute = true) :
    applyFile (fs.seenFrom cwd) start path = applyFile fs start path := by
  have hparent := Path.isAbsolute_parent h
  rw [applyFile, applyFile, fileMembers_seenFrom h, FileSystem.realPath_seenFrom hparent]

/-- The settings file of a build is named by an absolute path. -/
theorem isAbsolute_file (hbase : base.isAbsolute = true)
    (hasked : ∀ file, asked = some file → file.isAbsolute = true) :
    (asked.getD (base / SettingsFile.defaultName)).isAbsolute = true := by
  cases asked with
  | none => exact Path.isAbsolute_div hbase _
  | some file => exact hasked file rfl

/-- **An absolute base directory has the same settings from everywhere.** -/
theorem load_seenFrom (hbase : base.isAbsolute = true)
    (hasked : ∀ file, asked = some file → file.isAbsolute = true) :
    load (fs.seenFrom cwd) base asked overrides = load fs base asked overrides := by
  have hfile := isAbsolute_file hbase hasked
  rw [load, load, ofBase_seenFrom hbase]
  refine bind_congr fun start => ?_
  dsimp only
  rw [FileSystem.isPresent_seenFrom hfile, applyFile_seenFrom hfile]

/-! ### The compiler's settings file -/

theorem isAbsolute_tsconfig_of_ofBase (hbase : base.isAbsolute = true)
    (h : ofBase fs base = .ok settings) : settings.tsconfig.isAbsolute = true := by
  obtain ⟨real, hreal, h⟩ := bind_eq_ok_iff.1 h
  obtain rfl := Except.ok.inj h
  exact Path.isAbsolute_div (FileSystem.isAbsolute_of_realPath hbase hreal) _

theorem isAbsolute_tsconfig_of_apply (file : SettingsFile) (hbase : base.isAbsolute = true)
    (hstart : start.tsconfig.isAbsolute = true) :
    (file.apply base start).tsconfig.isAbsolute = true := by
  show ((file.tsconfig.map (base / ·)).getD start.tsconfig).isAbsolute = true
  cases file.tsconfig with
  | none => exact hstart
  | some name => exact Path.isAbsolute_div hbase name

theorem isAbsolute_tsconfig_of_applyFile (hpath : path.isAbsolute = true)
    (hstart : start.tsconfig.isAbsolute = true) (h : applyFile fs start path = .ok settings) :
    settings.tsconfig.isAbsolute = true := by
  obtain ⟨members, -, h⟩ := bind_eq_ok_iff.1 h
  obtain ⟨directory, hdirectory, h⟩ := bind_eq_ok_iff.1 h
  obtain ⟨file, -, h⟩ := bind_eq_ok_iff.1 h
  obtain rfl := Except.ok.inj h
  have habsolute := FileSystem.isAbsolute_of_realPath (Path.isAbsolute_parent hpath) hdirectory
  exact isAbsolute_tsconfig_of_apply file habsolute hstart

/-- Without overrides the compiler's settings file is named by an absolute path. -/
theorem isAbsolute_tsconfig_of_load (hbase : base.isAbsolute = true)
    (hasked : ∀ file, asked = some file → file.isAbsolute = true)
    (h : load fs base asked [] = .ok settings) : settings.tsconfig.isAbsolute = true := by
  obtain ⟨start, hstart, h⟩ := bind_eq_ok_iff.1 h
  have hdefault := isAbsolute_tsconfig_of_ofBase hbase hstart
  obtain ⟨there, -, h⟩ := bind_eq_ok_iff.1 h
  -- Without a file the default is what counts, unless a file was asked for.
  cases there with
  | true =>
    obtain ⟨applied, happlied, h⟩ := bind_eq_ok_iff.1 h
    obtain rfl : applied = settings := Except.ok.inj h
    exact isAbsolute_tsconfig_of_applyFile (isAbsolute_file hbase hasked) hdefault happlied
  | false =>
    cases asked with
    | none =>
      obtain rfl : start = settings := Except.ok.inj h
      exact hdefault
    | some file => cases h

end ConvertOnce.Settings
