import ConvertOnce.Proofs.Except
import ConvertOnce.Proofs.Json.Zero
import ConvertOnce.Proofs.Settings.Layers

/-!
# The format of a settings file

`SettingsFile.IsAccepted` says which JSON values are settings files, member by member and in no
order.  The reader finds the members of such a value and of no other
(`SettingsFile.members_eq_ok_iff`, `SettingsFile.ofMembers_eq_ok_iff`), and what it reads of them is
what they say.
-/

namespace ConvertOnce

/-- The value is a text with something in it. -/
def Json.IsProperText (value : Json) : Prop := ∃ s, value = .string s ∧ s ≠ ""

/-- The value is a list, with something in it, of texts with something in them. -/
def Json.IsProperList (value : Json) : Prop :=
  ∃ texts : List String, value = .array (texts.map .string) ∧ texts ≠ [] ∧ ∀ s ∈ texts, s ≠ ""

namespace SettingsFile

variable {members : Members} {name : String}

/-- The members are those of a settings file, by what they are called and what the file is. -/
structure IsFormat (members : Members) : Prop where
  format : members.get? "format" = some (.string "ngcc-gate")
  version : ∃ version, members.get? "version" = some version ∧ version.EqualsZero
  names : ∀ name ∈ members.names,
    name ∈ ["format", "version", "x"] ∨ ∃ x : Setting, name = x.fieldName
  extension : ∀ value, members.get? "x" = some value → ∃ inner, value = .object inner

/-- Every setting that the members name has a value of its type. -/
structure AreTyped (members : Members) : Prop where
  properties : ∀ value, members.get? Setting.properties.fieldName = some value → value.IsProperList
  text : ∀ x ≠ Setting.properties, ∀ value,
    members.get? x.fieldName = some value → value.IsProperText

/-- The JSON values that are settings files. -/
def IsAccepted (value : Json) : Prop :=
  ∃ members, value = .object members ∧ IsFormat members ∧ AreTyped members

/-! ### What the file is -/

theorem bind_string?_eq_some_iff {found : Option Json} {s : String} :
    found.bind Json.string? = some s ↔ found = some (.string s) := by
  cases found with
  | none => simp
  | some value => cases value <;> simp [Json.string?]

theorem any_isZero_iff {found : Option Json} :
    found.any Json.isZero = true ↔ ∃ value, found = some value ∧ value.EqualsZero := by
  cases found with
  | none => simp
  | some value => simp [Json.isZero_eq_true_iff]

theorem isObject_iff {value : Json} : isObject value = true ↔ ∃ inner, value = .object inner := by
  cases value <;> simp [isObject]

theorem mem_fieldNames_iff :
    name ∈ fieldNames ↔ name ∈ ["format", "version", "x"] ∨ ∃ x : Setting, name = x.fieldName := by
  constructor
  · intro h
    simp only [fieldNames, List.mem_cons, List.not_mem_nil, or_false] at h
    rcases h with rfl | rfl | rfl | rfl | rfl | rfl | rfl | rfl | rfl | rfl | rfl
    · exact Or.inl (by decide)
    · exact Or.inl (by decide)
    · exact Or.inr ⟨.properties, rfl⟩
    · exact Or.inr ⟨.tsconfig, rfl⟩
    · exact Or.inr ⟨.toolConfigName, rfl⟩
    · exact Or.inr ⟨.skipVariable, rfl⟩
    · exact Or.inr ⟨.probePackage, rfl⟩
    · exact Or.inr ⟨.markerDirectory, rfl⟩
    · exact Or.inr ⟨.runtime, rfl⟩
    · exact Or.inr ⟨.converterMain, rfl⟩
    · exact Or.inl (by decide)
  · rintro (h | ⟨x, rfl⟩)
    · simp only [List.mem_cons, List.not_mem_nil, or_false] at h
      rcases h with rfl | rfl | rfl <;> decide
    · cases x <;> decide

/-- The reader's four checks in turn are those of the format. -/
theorem isFormat_iff :
    IsFormat members ↔
      (members.get? "format").bind Json.string? = some "ngcc-gate" ∧
      (members.get? "version").any Json.isZero = true ∧
      (∀ name ∈ members.names, name ∈ fieldNames) ∧
      ∀ value, members.get? "x" = some value → isObject value = true := by
  simp only [bind_string?_eq_some_iff, any_isZero_iff, mem_fieldNames_iff, isObject_iff]
  exact ⟨fun ⟨hformat, hversion, hnames, hx⟩ => ⟨hformat, hversion, hnames, hx⟩,
    fun ⟨hformat, hversion, hnames, hx⟩ => ⟨hformat, hversion, hnames, hx⟩⟩

/-- **The members of a value are found when it is an object of the format.** -/
theorem members_eq_ok_iff {value : Json} :
    SettingsFile.members value = .ok members ↔ value = .object members ∧ IsFormat members := by
  cases value with
  | object inner =>
    rw [isFormat_iff, SettingsFile.members]
    simp only [Json.object.injEq]
    constructor
    · intro h
      -- The checks are made one after the other, and the value is accepted when all of them pass.
      split at h
      · cases h
      next hkind =>
      split at h
      · cases h
      next hnames =>
      split at h
      · cases h
      next hx =>
      obtain rfl := Except.ok.inj h
      simp only [Bool.or_eq_true, decide_eq_true_eq, not_or, ne_eq, not_not, Bool.not_eq_true',
        Bool.not_eq_false] at hkind
      refine ⟨rfl, hkind.1, hkind.2, ?_, ?_⟩
      · simpa using hnames
      · simpa [Option.any_eq_true] using hx
    · rintro ⟨rfl, hformat, hversion, hnames, hx⟩
      rw [if_neg (by simp [hformat, hversion]), if_neg (by simpa using hnames),
        if_neg (by simpa [Option.any_eq_true] using hx)]
  | _ => simp [SettingsFile.members]

/-! ### What the fields are -/

variable {found : Option String}

theorem textField_eq_ok_iff :
    textField members name = .ok found ↔
      (∀ value, members.get? name = some value → value.IsProperText) ∧
        found = members.textAt? name := by
  rw [textField, Members.textAt?]
  cases hname : members.get? name with
  | none => simp [eq_comm]
  | some value =>
    cases value with
    | string s =>
      by_cases hs : s = ""
      · simp [hs, Json.IsProperText]
      · simp [hs, Json.IsProperText, Json.string?, eq_comm]
    | _ => simp [Json.IsProperText]

theorem properText?_eq_some_iff {value : Json} {s : String} :
    properText? value = some s ↔ value = .string s ∧ s ≠ "" := by
  rw [properText?, Option.filter_eq_some_iff]
  cases value <;> simp [Json.string?]

-- A list is read element by element, and one that is no proper text makes all of it unreadable.
theorem mapM_properText?_eq_some_iff {elements : List Json} {texts : List String} :
    elements.mapM properText? = some texts ↔
      elements = texts.map .string ∧ ∀ s ∈ texts, s ≠ "" := by
  induction elements generalizing texts with
  | nil => cases texts <;> simp
  | cons value elements ih =>
    simp only [List.mapM_cons, Option.bind_eq_bind, Option.bind_eq_some_iff,
      properText?_eq_some_iff, ih]
    constructor
    · rintro ⟨s, ⟨rfl, hs⟩, rest, ⟨rfl, hrest⟩, htexts⟩
      obtain rfl : s :: rest = texts := Option.some.inj htexts
      exact ⟨rfl, List.forall_mem_cons.2 ⟨hs, hrest⟩⟩
    · rintro ⟨helements, htexts⟩
      cases texts with
      | nil => cases helements
      | cons s rest =>
        obtain ⟨rfl, rfl⟩ := List.cons.inj helements
        obtain ⟨hs, hrest⟩ := List.forall_mem_cons.1 htexts
        exact ⟨s, ⟨rfl, hs⟩, rest, ⟨rfl, hrest⟩, rfl⟩

theorem mapM_string?_map (texts : List String) :
    (texts.map Json.string).mapM Json.string? = some texts := by
  induction texts with
  | nil => rfl
  | cons s texts ih =>
    rw [List.map_cons, List.mapM_cons, ih]
    rfl

theorem propertiesField_eq_ok_iff {found : Option (List String)} :
    propertiesField members = .ok found ↔
      (∀ value, members.get? Setting.properties.fieldName = some value → value.IsProperList) ∧
        found = members.textsAt? Setting.properties.fieldName := by
  show propertiesField members = .ok found ↔
    (∀ value, members.get? "properties" = some value → value.IsProperList) ∧
      found = members.textsAt? "properties"
  rw [propertiesField, Members.textsAt?]
  cases members.get? "properties" with
  | none => simp [eq_comm]
  | some value =>
    cases value with
    | array elements =>
      cases elements with
      | nil => simp [Json.IsProperList]
      | cons first rest =>
        have hlist : (Json.array (first :: rest)).IsProperList ↔
            ∃ texts, (first :: rest).mapM properText? = some texts := by
          simp only [Json.IsProperList, mapM_properText?_eq_some_iff, Json.array.injEq]
          refine exists_congr fun texts => and_congr_right fun helements => ?_
          have htexts : texts ≠ [] := by
            rintro rfl
            cases helements
          exact and_iff_right htexts
        simp only [Option.some.injEq, forall_eq', hlist]
        cases htexts : (first :: rest).mapM properText? with
        | none => simp
        | some texts =>
          -- What is read with the check is what would be read without it.
          obtain ⟨helements, -⟩ := mapM_properText?_eq_some_iff.1 htexts
          have hread : (first :: rest).mapM Json.string? = some texts := by
            rw [helements, mapM_string?_map]
          simp [hread, eq_comm]
    | _ => simp [Json.IsProperList]

/-- **The fields are read when each that is there has a value of its type**, and then they are all
that the members say. -/
theorem ofMembers_eq_ok_iff {file : SettingsFile} :
    ofMembers members = .ok file ↔ AreTyped members ∧ file = members.file := by
  unfold ofMembers
  simp only [bind_eq_ok_iff, propertiesField_eq_ok_iff, textField_eq_ok_iff, pure_eq_ok]
  -- One field is read after the other, and none has a say in another.
  constructor
  · rintro ⟨_, ⟨hproperties, rfl⟩, _, ⟨htsconfig, rfl⟩, _, ⟨hmain, rfl⟩, _, ⟨htool, rfl⟩,
      _, ⟨hskip, rfl⟩, _, ⟨hprobe, rfl⟩, _, ⟨hmarker, rfl⟩, _, ⟨hruntime, rfl⟩, hfile⟩
    refine ⟨⟨hproperties, fun x hx => ?_⟩, (Except.ok.inj hfile).symm⟩
    cases x with
    | properties => exact absurd rfl hx
    | tsconfig => exact htsconfig
    | converterMain => exact hmain
    | toolConfigName => exact htool
    | skipVariable => exact hskip
    | probePackage => exact hprobe
    | markerDirectory => exact hmarker
    | runtime => exact hruntime
  · rintro ⟨⟨hproperties, htext⟩, rfl⟩
    exact ⟨_, ⟨hproperties, rfl⟩, _, ⟨htext .tsconfig (by decide), rfl⟩,
      _, ⟨htext .converterMain (by decide), rfl⟩, _, ⟨htext .toolConfigName (by decide), rfl⟩,
      _, ⟨htext .skipVariable (by decide), rfl⟩, _, ⟨htext .probePackage (by decide), rfl⟩,
      _, ⟨htext .markerDirectory (by decide), rfl⟩, _, ⟨htext .runtime (by decide), rfl⟩, rfl⟩

end SettingsFile

end ConvertOnce
