import ConvertOnce.Proofs.BuildInputs.Read
import ConvertOnce.Proofs.Path.Text

/-!
# What the stream of the inputs tells apart

The five components of `BuildInputs` follow each other in `BuildInputs.stream` without anything
between them.  The stream therefore keeps them apart only as far as their lengths are known
(`BuildInputs.eq_iff_of_stream_eq`): inputs with one stream are the same inputs exactly when the
lock files, the tool configurations and the compiler's settings are of equal length.  The path of
the lock file takes care of itself, since no name of a lock file begins another one.
-/

namespace ConvertOnce

/-! ### Texts in bytes -/

namespace Utf8

theorem encode_append (s t : String) : encode (s ++ t) = encode s ++ encode t := by
  simp [encode]

/-- The bytes of a text are those that its string is made of. -/
theorem toByteArray_encode (s : String) : (encode s).toByteArray = s.toByteArray :=
  String.utf8Encode_toList

theorem encode_injective : Function.Injective encode := fun s t h =>
  String.toByteArray_inj.1 (by rw [← toByteArray_encode, h, toByteArray_encode])

end Utf8

/-! ### The paths of lock files -/

/-- The text of a path with one more part is some text and that part. -/
theorem Path.text_div_of_isPart (p : Path) :
    ∃ front : String, ∀ s, IsPart s → (p / s).text = front ++ s := by
  refine ⟨p.anchor.text ++ if p.parts = [] then "" else slashJoin p.parts ++ "/", fun s hs => ?_⟩
  rw [text, anchor_div_of_isPart hs, parts_div_of_isPart hs, if_neg (by simp), String.append_assoc]
  by_cases h : p.parts = []
  · simp [h, slashJoin]
  · rw [if_neg h, slashJoin_concat h]

/-- The names of lock files are told apart by their first two bytes. -/
theorem lockFileNames_take_two :
    (∀ a ∈ lockFileNames, 2 ≤ (Utf8.encode a).length) ∧
      ∀ a ∈ lockFileNames, ∀ b ∈ lockFileNames,
        (Utf8.encode a).take 2 = (Utf8.encode b).take 2 → a = b := by
  decide +kernel

theorem isPart_of_mem_lockFileNames {name : String} (h : name ∈ lockFileNames) : IsPart name := by
  have hall : ∀ name ∈ lockFileNames, IsPart name := by decide
  exact hall name h

/-- No name of a lock file begins another one. -/
theorem lockFileName_eq_of_append_eq {a b : String} {x y : Bytes} (ha : a ∈ lockFileNames)
    (hb : b ∈ lockFileNames) (h : Utf8.encode a ++ x = Utf8.encode b ++ y) : a = b := by
  obtain ⟨hlength, htell⟩ := lockFileNames_take_two
  refine htell a ha b hb ?_
  rw [← List.take_append_of_le_length (hlength a ha), h,
    List.take_append_of_le_length (hlength b hb)]

/-- The path is that of a lock file in the directory of a project. -/
def IsLockPath (projectRoot p : Path) : Prop := ∃ name ∈ lockFileNames, p = projectRoot / name

/-- No path of a lock file begins another one of the same project. -/
theorem IsLockPath.eq_of_append_eq {projectRoot p q : Path} {x y : Bytes}
    (hp : IsLockPath projectRoot p) (hq : IsLockPath projectRoot q)
    (h : Utf8.encode p.text ++ x = Utf8.encode q.text ++ y) : p = q := by
  obtain ⟨a, ha, rfl⟩ := hp
  obtain ⟨b, hb, rfl⟩ := hq
  obtain ⟨front, hfront⟩ := projectRoot.text_div_of_isPart
  rw [hfront a (isPart_of_mem_lockFileNames ha), hfront b (isPart_of_mem_lockFileNames hb),
    Utf8.encode_append, Utf8.encode_append, List.append_assoc, List.append_assoc] at h
  rw [lockFileName_eq_of_append_eq ha hb (List.append_cancel_left h)]

/-- The inputs that are read have the path of a lock file. -/
theorem InputSources.isLockPath_of_read {sources : InputSources} {fs : FileSystem}
    {inputs : BuildInputs} (h : sources.read fs = .ok inputs) :
    IsLockPath sources.projectRoot inputs.lock.path := by
  obtain ⟨-, -, hlock, -⟩ := read_eq_ok_iff.1 h
  obtain ⟨name, hname, hpath, -⟩ := FileSystem.firstLockFile_eq_ok hlock
  exact ⟨name, hname, hpath⟩

/-! ### The stream -/

namespace BuildInputs

variable {a b : BuildInputs} {projectRoot : Path}

/-- The parts of two inputs that have to be of equal length for one stream to mean the same. -/
structure SameLengths (a b : BuildInputs) : Prop where
  /-- The lock files. -/
  lock : a.lock.bytes.length = b.lock.bytes.length
  /-- The converter's settings. -/
  toolConfig : a.toolConfig.length = b.toolConfig.length
  /-- The compiler's settings. -/
  tsconfig : a.tsconfig.length = b.tsconfig.length

/-- **What one stream leaves open**: two inputs of a project with the same stream are the same
inputs exactly when three of their parts are of equal length. -/
theorem eq_iff_of_stream_eq (ha : IsLockPath projectRoot a.lock.path)
    (hb : IsLockPath projectRoot b.lock.path) (h : a.stream = b.stream) :
    a = b ↔ SameLengths a b := by
  constructor
  · rintro rfl
    exact ⟨rfl, rfl, rfl⟩
  · intro hlengths
    obtain ⟨⟨lockPath, lockBytes⟩, toolConfig, tsconfig, tsconfigPath⟩ := a
    obtain ⟨⟨lockPath', lockBytes'⟩, toolConfig', tsconfig', tsconfigPath'⟩ := b
    simp only [stream, List.append_assoc] at h
    obtain ⟨hlock, h⟩ := List.append_inj h hlengths.lock
    obtain rfl := ha.eq_of_append_eq hb h
    obtain ⟨htool, h⟩ := List.append_inj (List.append_cancel_left h) hlengths.toolConfig
    obtain ⟨hts, h⟩ := List.append_inj h hlengths.tsconfig
    have hpath := Path.text_injective (Utf8.encode_injective h)
    rw [hlock, htool, hts, hpath]

end BuildInputs

end ConvertOnce
