import ConvertOnce.Proofs.FileSystem.Outline
import ConvertOnce.Proofs.Settings.Merge
import Mathlib.Data.List.Nodup

/-!
# Settings in any order

Loading depends on what the settings file says and on which overrides there are, not on the order in
which either is written (`Settings.load_reordered`).  This is so for settings that are refused too:
the problem that is reported is the first in the order of the checks, and a report of several names
lists them in alphabetical order (`sortedNames_congr`).
-/

namespace ConvertOnce

/-! ### Sorted names -/

theorem nodup_eraseDups (names : List String) : names.eraseDups.Nodup := by
  -- What follows the first name is shorter, since the name is taken out of it.
  induction hlength : names.length using Nat.strongRecOn generalizing names with
  | ind n ih =>
    cases names with
    | nil => simp
    | cons name rest =>
      have hshorter : (rest.filter fun other => !other == name).length < n := by
        rw [← hlength, List.length_cons]
        exact Nat.lt_succ_of_le (List.length_filter_le _ _)
      rw [List.eraseDups_cons, List.nodup_cons]
      refine ⟨?_, ih _ hshorter _ rfl⟩
      rw [List.mem_eraseDups, List.mem_filter]
      simp

theorem sortedNames_perm (names : List String) : (sortedNames names).Perm names.eraseDups :=
  List.mergeSort_perm _ _

theorem pairwise_sortedNames (names : List String) : (sortedNames names).Pairwise (· ≤ ·) := by
  have hpairwise : (sortedNames names).Pairwise fun a b => decide (a ≤ b) = true := by
    refine List.pairwise_mergeSort (fun a b c hab hbc => ?_) (fun a b => ?_) _
    · exact decide_eq_true (String.le_trans (of_decide_eq_true hab) (of_decide_eq_true hbc))
    · simpa using String.le_total a b
  exact hpairwise.imp of_decide_eq_true

/-- Sorted names depend on which names there are. -/
theorem sortedNames_congr {names names' : List String} (h : ∀ name, name ∈ names ↔ name ∈ names') :
    sortedNames names = sortedNames names' := by
  have herased : names.eraseDups.Perm names'.eraseDups := by
    refine (List.perm_ext_iff_of_nodup (nodup_eraseDups _) (nodup_eraseDups _)).2 fun name => ?_
    rw [List.mem_eraseDups, List.mem_eraseDups]
    exact h name
  have hperm : (sortedNames names).Perm (sortedNames names') :=
    (sortedNames_perm names).trans (herased.trans (sortedNames_perm names').symm)
  exact hperm.eq_of_pairwise (fun _ _ _ _ => String.le_antisymm) (pairwise_sortedNames names)
    (pairwise_sortedNames names')

/-! ### Values and members that say the same -/

section Rel

variable {α β : Type} {R : α → α → Prop} {found found' : Option α}

theorem isSome_eq_of_rel (h : Option.Rel R found found') : found.isSome = found'.isSome := by
  cases h <;> rfl

theorem bind_eq_of_rel {f : α → Option β} (hf : ∀ {a a'}, R a a' → f a = f a')
    (h : Option.Rel R found found') : found.bind f = found'.bind f := by
  cases h with
  | none => rfl
  | some hvalue => exact hf hvalue

theorem any_eq_of_rel {f : α → Bool} (hf : ∀ {a a'}, R a a' → f a = f a')
    (h : Option.Rel R found found') : found.any f = found'.any f := by
  cases h with
  | none => rfl
  | some hvalue => exact hf hvalue

end Rel

/-- The values are the same but for the order of members, in them and in what they hold, and for the
spelling of numbers, of which it only counts whether they are zero. -/
inductive Json.Alike : Json → Json → Prop
  | refl (value : Json) : Alike value value
  | number {number number' : Number} (hzero : number.isZero = number'.isZero) :
      Alike (.number number) (.number number')
  | array {elements elements' : List Json} (helements : List.Forall₂ Alike elements elements') :
      Alike (.array elements) (.array elements')
  | object {members members' : Members}
      (hmembers : ∀ name, Option.Rel Alike (members.get? name) (members'.get? name)) :
      Alike (.object members) (.object members')

/-- The members say the same, in whatever order, and of the extension at most that it is an
object. -/
structure Members.Alike (members members' : Members) : Prop where
  /-- Each name has alike values, or none in both. -/
  value : ∀ name ≠ "x", Option.Rel Json.Alike (members.get? name) (members'.get? name)
  /-- The extensions are alike or any two objects. -/
  extension : Option.Rel (fun value value' => value.Alike value' ∨
      SettingsFile.isObject value = true ∧ SettingsFile.isObject value' = true)
    (members.get? "x") (members'.get? "x")

namespace Json.Alike

variable {value value' : Json}

theorem string?_eq (h : Alike value value') : value.string? = value'.string? := by
  cases h <;> rfl

theorem isZero_eq (h : Alike value value') : value.isZero = value'.isZero := by
  cases h with
  | number hzero => exact hzero
  | refl | array | object => rfl

theorem isObject_eq (h : Alike value value') :
    SettingsFile.isObject value = SettingsFile.isObject value' := by
  cases h <;> rfl

theorem properText?_eq (h : Alike value value') :
    SettingsFile.properText? value = SettingsFile.properText? value' := by
  rw [SettingsFile.properText?, SettingsFile.properText?, h.string?_eq]

end Json.Alike

namespace Members

variable {members members' : Members} {name : String}

theorem foldl_get? (members : Members) (name : String) (found : Option Json) :
    members.foldl (fun found m => if m.1 = name then some m.2 else found) found
      = (members.get? name).or found := by
  induction members generalizing found with
  | nil => rfl
  | cons m rest ih =>
    rw [get?, List.foldl_cons, List.foldl_cons, ih, ih, Option.or_assoc]
    split <;> rfl

/-- A later member takes precedence. -/
theorem get?_cons (m : String × Json) (rest : Members) (name : String) :
    get? (m :: rest) name = (get? rest name).or (if m.1 = name then some m.2 else none) :=
  foldl_get? rest name _

theorem isSome_get?_iff : (members.get? name).isSome = true ↔ name ∈ members.names := by
  induction members with
  | nil => simp [get?, names]
  | cons m rest ih =>
    have hnames : names (m :: rest) = m.1 :: names rest := rfl
    rw [get?_cons, hnames, List.mem_cons, Option.isSome_or, Bool.or_eq_true, ih, or_comm]
    by_cases hname : m.1 = name
    · simp [hname]
    · simp [hname, Ne.symm hname]

/-- Where no name occurs twice, a name has the value with which it stands. -/
theorem get?_eq_some_iff {value : Json} (h : members.names.Nodup) :
    members.get? name = some value ↔ (name, value) ∈ members := by
  -- By induction on the members: the last one of a name counts, and here there is only one.
  induction members with
  | nil => simp [get?]
  | cons m rest ih =>
    obtain ⟨hfirst, hrest⟩ := List.nodup_cons.1 h
    rw [get?_cons, List.mem_cons]
    by_cases hname : m.1 = name
    · subst hname
      have hnone : get? rest m.1 = none := by
        rw [← Option.not_isSome_iff_eq_none, isSome_get?_iff]
        exact hfirst
      have hnot : (m.1, value) ∉ rest := by
        rw [← ih hrest, hnone]
        simp
      simp [hnone, hnot, Prod.ext_iff, eq_comm]
    · have hne : (name, value) ≠ m := fun heq => hname (congrArg Prod.fst heq.symm)
      simp [hname, hne, ih hrest]

/-- The order of members does not matter where no name occurs twice. -/
theorem get?_eq_of_perm (hperm : members.Perm members') (h : members.names.Nodup) :
    members.get? name = members'.get? name := by
  have h' : members'.names.Nodup := (hperm.map Prod.fst).nodup_iff.1 h
  refine Option.ext fun value => ?_
  rw [get?_eq_some_iff h, get?_eq_some_iff h', hperm.mem_iff]

namespace Alike

theorem mem_names_iff (h : Alike members members') :
    name ∈ members.names ↔ name ∈ members'.names := by
  rw [← isSome_get?_iff, ← isSome_get?_iff]
  by_cases hname : name = "x"
  · subst hname
    rw [isSome_eq_of_rel h.extension]
  · rw [isSome_eq_of_rel (h.value name hname)]

end Alike

end Members

namespace SettingsFile

variable {members members' : Members}

open Members (Alike)

/-- The checks of what the file is end alike. -/
theorem members_of_alike (h : Alike members members') :
    (∃ problem, SettingsFile.members (.object members) = .error problem ∧
      SettingsFile.members (.object members') = .error problem) ∨
    SettingsFile.members (.object members) = .ok members ∧
      SettingsFile.members (.object members') = .ok members' := by
  -- Each check comes out the same for both, and so do the unknown names that one of them reports.
  have hformat :
      (members.get? "format").bind Json.string? = (members'.get? "format").bind Json.string? :=
    bind_eq_of_rel (fun hvalue => hvalue.string?_eq) (h.value _ (by decide))
  have hversion :
      (members.get? "version").any Json.isZero = (members'.get? "version").any Json.isZero :=
    any_eq_of_rel (fun hvalue => hvalue.isZero_eq) (h.value _ (by decide))
  have hx : (members.get? "x").any (fun value => !isObject value)
      = (members'.get? "x").any (fun value => !isObject value) := by
    refine any_eq_of_rel (fun hvalue => ?_) h.extension
    rcases hvalue with hvalue | ⟨hobject, hobject'⟩
    · rw [hvalue.isObject_eq]
    · rw [hobject, hobject']
  have hunknown : ∀ name, name ∈ members.names.filter (fun name => !fieldNames.contains name) ↔
      name ∈ members'.names.filter (fun name => !fieldNames.contains name) := by
    intro name
    rw [List.mem_filter, List.mem_filter, h.mem_names_iff]
  have hempty : (members.names.filter fun name => !fieldNames.contains name).isEmpty
      = (members'.names.filter fun name => !fieldNames.contains name).isEmpty := by
    rw [Bool.eq_iff_iff, List.isEmpty_iff, List.isEmpty_iff, List.eq_nil_iff_forall_not_mem,
      List.eq_nil_iff_forall_not_mem]
    exact forall_congr' fun name => not_congr (hunknown name)
  rw [SettingsFile.members, SettingsFile.members, hformat, hversion, hempty, hx,
    sortedNames_congr hunknown]
  split
  · exact .inl ⟨_, rfl, rfl⟩
  split
  · exact .inl ⟨_, rfl, rfl⟩
  split
  · exact .inl ⟨_, rfl, rfl⟩
  · exact .inr ⟨rfl, rfl⟩

theorem textField_of_alike (h : Alike members members') {name : String} (hname : name ≠ "x") :
    textField members name = textField members' name := by
  have hvalue := h.value name hname
  rw [textField, textField]
  generalize members.get? name = found at hvalue ⊢
  generalize members'.get? name = found' at hvalue ⊢
  cases hvalue with
  | none => rfl
  | some hvalue => cases hvalue <;> rfl

theorem mapM_properText?_of_alike {elements elements' : List Json}
    (h : List.Forall₂ Json.Alike elements elements') :
    elements.mapM properText? = elements'.mapM properText? := by
  induction h with
  | nil => rfl
  | cons hvalue _ ih => rw [List.mapM_cons, List.mapM_cons, hvalue.properText?_eq, ih]

theorem propertiesField_of_alike (h : Alike members members') :
    propertiesField members = propertiesField members' := by
  have hvalue := h.value "properties" (by decide)
  rw [propertiesField, propertiesField]
  generalize members.get? "properties" = found at hvalue ⊢
  generalize members'.get? "properties" = found' at hvalue ⊢
  -- Values that are alike differ in numbers and objects only, and neither is a property.
  cases hvalue with
  | none => rfl
  | some hvalue =>
    cases hvalue with
    | refl | number | object => rfl
    | array helements =>
      cases helements with
      | nil => rfl
      | cons hfirst hrest =>
        dsimp only
        rw [mapM_properText?_of_alike (.cons hfirst hrest)]

/-- The fields are read alike, with the same problem if there is one. -/
theorem ofMembers_of_alike (h : Alike members members') :
    ofMembers members = ofMembers members' := by
  rw [ofMembers, ofMembers]
  simp (disch := decide) only [propertiesField_of_alike h, textField_of_alike h]

end SettingsFile

/-! ### Overrides -/

theorem Settings.ext_get {settings settings' : Settings}
    (h : ∀ x, settings.get x = settings'.get x) :
    settings = settings' := by
  cases settings
  cases settings'
  rw [Settings.mk.injEq]
  exact ⟨h .tsconfig, h .properties, h .toolConfigName, h .skipVariable, h .probePackage,
    h .markerDirectory, h .runtime, h .converterMain⟩

namespace Override

variable {o o' : Override} {overrides overrides' : List Override}

/-- An override has the name of the setting to which it gives a value. -/
theorem name_eq_of_given? {x : Setting} {value : x.Value} (h : o.given? x = some value) :
    o.name = x.overrideName := by
  cases o <;> cases x <;> first | rfl | cases h

/-- Overrides with different names can change places. -/
theorem apply_comm (h : o.name ≠ o'.name) (settings : Settings) :
    o'.apply (o.apply settings) = o.apply (o'.apply settings) := by
  refine Settings.ext_get fun x => ?_
  rw [get_apply, get_apply, get_apply, get_apply]
  cases hvalue : o.given? x with
  | none => rfl
  | some value =>
    cases hvalue' : o'.given? x with
    | none => rfl
    | some value' =>
      exact absurd ((name_eq_of_given? hvalue).trans (name_eq_of_given? hvalue').symm) h

/-- **Overrides are applied alike in any order**, if no two have the same name. -/
theorem applyAll_perm (h : overrides.Perm overrides') (hnames : (overrides.map name).Nodup)
    (settings : Settings) : applyAll settings overrides = applyAll settings overrides' := by
  have hunknown := h.filterMap unknownName?
  have hfold : overrides.foldl apply settings = overrides'.foldl apply settings := by
    refine h.foldl_eq' (fun o ho o' ho' settings => ?_) settings
    by_cases hname : o.name = o'.name
    · rw [List.inj_on_of_nodup_map hnames ho ho' hname]
    · exact apply_comm hname settings
  rw [applyAll, applyAll, hfold, hunknown.isEmpty_eq,
    sortedNames_congr fun name => hunknown.mem_iff]

end Override

/-! ### Loading -/

namespace Settings

variable {fs fs' : FileSystem} {base path : Path} {asked : Option Path} {members members' : Members}
  {overrides overrides' : List Override}

theorem applyFile_of_alike (hedits : fs.EditsBytes fs') (hmembers : Holds fs path (.object members))
    (hmembers' : Holds fs' path (.object members')) (halike : members.Alike members')
    (settings : Settings) : applyFile fs settings path = applyFile fs' settings path := by
  rw [applyFile, applyFile, fileMembers_of_holds hmembers, fileMembers_of_holds hmembers',
    hedits.realPath]
  rcases SettingsFile.members_of_alike halike with ⟨problem, heq, heq'⟩ | ⟨heq, heq'⟩
  · rw [heq, heq']
  · rw [heq, heq']
    show (fs.realPath path.parent >>= fun base => _) = (fs.realPath path.parent >>= fun base => _)
    rw [SettingsFile.ofMembers_of_alike halike]

/-- **Loading depends on no order.**  Two files that say the same, with the same overrides in any
order, each name given once, come to the same settings or to the same problem, be one thing wrong or
several. -/
theorem load_reordered (hedits : fs.EditsBytes fs')
    (hpath : path = asked.getD (base / SettingsFile.defaultName))
    (hmembers : Holds fs path (.object members)) (hmembers' : Holds fs' path (.object members'))
    (halike : members.Alike members') (hperm : overrides.Perm overrides')
    (hnames : (overrides.map Override.name).Nodup) :
    load fs base asked overrides = load fs' base asked overrides' := by
  -- The first layer is the same, since the two trees differ in the bytes of files only.
  have hstart : ofBase fs' base = ofBase fs base := by
    have hdefaults : defaults fs' = defaults fs := by
      funext real
      rw [defaults, defaults, hedits.executable_eq]
    rw [ofBase, ofBase, hedits.realPath, hdefaults]
  rw [load, load, hstart, ← hpath]
  refine bind_congr fun start => ?_
  dsimp only
  rw [hmembers.isPresent, hmembers'.isPresent, ok_bind, ok_bind]
  show (applyFile fs start path >>= fun settings => _) =
    (applyFile fs' start path >>= fun settings => _)
  rw [applyFile_of_alike hedits hmembers hmembers' halike]
  refine bind_congr fun settings => ?_
  -- The last layer is a matter of the set of overrides.
  rw [Override.applyAll_perm hperm hnames]

/-- A settings file with two unknown fields, an empty extension and a runtime that is no text. -/
def faultyText : String :=
  "\x7b\"format\":\"ngcc-gate\",\"version\":0,\"z\":1,\"y\":[],\"x\":\x7b\x7d,\"runtime\":5\x7d"

/-- The same from back to front, and with another extension. -/
def reversedText : String :=
  "\x7b\"runtime\":5,\"x\":\x7b\"a\":null\x7d,\"y\":[],\"z\":1," ++
    "\"version\":0,\"format\":\"ngcc-gate\"\x7d"

/-- The members of the faulty file, with the given extension. -/
def faultyMembers (extension : Members) : Members :=
  [("format", .string "ngcc-gate"), ("version", .number (.decimal false 0 0)),
    ("z", .number (.decimal false 1 0)), ("y", .array []), ("x", .object extension),
    ("runtime", .number (.decimal false 5 0))]

/-- A project with the faulty file. -/
def faultyFiles : FileSystem := filesWith (Utf8.encode faultyText)

/-- The project with the file written from back to front. -/
def reversedFiles : FileSystem :=
  faultyFiles.place "ngcc-gate.json" ["p"] (.file .newFile (Utf8.encode reversedText))

theorem alike_reverse_faultyMembers (extension extension' : Members) :
    (faultyMembers extension).Alike (faultyMembers extension').reverse := by
  refine ⟨fun name hname => ?_, .some (.inr ⟨rfl, rfl⟩)⟩
  have hextension : Members.get? (faultyMembers extension) name
      = Members.get? (faultyMembers extension') name := by
    simp [faultyMembers, Members.get?, hname.symm]
  have hnames : (Members.names (faultyMembers extension')).Nodup :=
    show ["format", "version", "z", "y", "x", "runtime"].Nodup by decide
  rw [hextension, Members.get?_eq_of_perm (List.reverse_perm _).symm hnames]
  cases Members.get? (faultyMembers extension').reverse name with
  | none => exact .none
  | some value => exact .some (.refl value)

set_option maxRecDepth 10000 in
/-- Of all that is wrong the unknown fields are reported, from back to front too. -/
theorem load_reordered_faulty :
    load faultyFiles (.ofString "/p") none [.unknown "b", .unknown "a"] =
        load reversedFiles (.ofString "/p") none [.unknown "a", .unknown "b"] ∧
      load faultyFiles (.ofString "/p") none [.unknown "b", .unknown "a"] =
        .error (problemAt (.ofString "/p/ngcc-gate.json") (.unknownFields ["y", "z"])) := by
  have hpath : Path.ofString "/p/ngcc-gate.json"
      = none.getD (Path.ofString "/p" / SettingsFile.defaultName) := by decide +kernel
  have hfile : faultyFiles.tree.nodeAt ["ngcc-gate.json", "p"]
      = some (.file .newFile (Utf8.encode faultyText)) := by decide +kernel
  have hedits : faultyFiles.EditsBytes reversedFiles := FileSystem.editsBytes_place hfile _
  have hmembers : Holds faultyFiles (.ofString "/p/ngcc-gate.json") (.object (faultyMembers [])) :=
    ⟨Utf8.encode faultyText, faultyText.toList,
      by decide +kernel, by decide +kernel, by decide +kernel⟩
  have hmembers' : Holds reversedFiles (.ofString "/p/ngcc-gate.json")
      (.object (faultyMembers [("a", .null)]).reverse) :=
    ⟨Utf8.encode reversedText, reversedText.toList,
      by decide +kernel, by decide +kernel, by decide +kernel⟩
  refine ⟨load_reordered hedits hpath hmembers hmembers' (alike_reverse_faultyMembers _ _)
    (.swap _ _ _) (by decide), ?_⟩
  have hbase : faultyFiles.realPath (.ofString "/p") = .ok (.ofString "/p") := by decide +kernel
  have hsorted : sortedNames ["z", "y"] = ["y", "z"] := by
    have hdups : ["z", "y"].eraseDups = ["z", "y"] := by decide +kernel
    rw [sortedNames, hdups]
    simp [List.mergeSort, List.MergeSort.Internal.splitInTwo]
  have hrefused : SettingsFile.ofValue (.object (faultyMembers []))
      = .error (.unknownFields ["y", "z"]) := by
    rw [← hsorted]
    rfl
  rw [load_of_holds hbase hpath hbase hmembers, hrefused]

end Settings

end ConvertOnce
