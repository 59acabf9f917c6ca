import ConvertOnce.Proofs.OnDemand.Conversion
import ConvertOnce.Proofs.OnDemand.History
import Mathlib.Data.List.Nodup
import Mathlib.Data.List.Pairwise

/-!
# How often a package is converted

What is settled is a file, while what the converter is called for is the package of that file.  A
history without a report of a change therefore converts each package at most once exactly when all
files whose offers converted a package are the same file (`History.packagesOnce_iff`).  Two files of
one package are enough for the package to be converted twice (`not_alwaysPackagesOnce`).
-/

namespace ConvertOnce

/-- The directory of the package that the converter was called for. -/
def Event.package? : Event → Option String
  | .conversion request => some request.packagePath
  | _ => none

/-- No package is converted by questions to a finder. -/
theorem AreLookups.packages_eq_nil {events : List Event} (h : AreLookups events) :
    events.filterMap Event.package? = [] := by
  refine List.filterMap_eq_nil_iff.2 fun event hevent => ?_
  obtain ⟨context, request, rfl⟩ := h event hevent
  rfl

namespace OnDemand

variable {c : OnDemand} {t u : Turn} {turns : List Turn} {settled : List String}
  {key package : String}

/-! ### The packages of one turn -/

/-- What an offer causes: questions to a finder, and then at most one call of the converter, which
is on behalf of the file that was offered. -/
theorem Offered.events_eq {moduleName : String} {file : Option String}
    {outcome : Except Fault Unit} {s s' : BuildState}
    (h : Offered c moduleName file s outcome s') :
    ∃ asked, AreLookups asked ∧
      (s'.world.events = s.world.events ++ asked ∨
        ∃ root name request, c.Concerns root moduleName file name ∧
          s'.world.events = s.world.events ++ (asked ++ [.conversion request])) := by
  have hstate : (c.offer moduleName file s).2 = s' := congrArg Prod.snd h.offer_eq
  rcases c.reaches_or_onlyAsked moduleName file s with ⟨root, name, manifest, hreaches⟩ | hasked
  · obtain ⟨asked, hlookups, hevents⟩ := hreaches.calls
    rw [hstate] at hevents
    exact ⟨asked, hlookups,
      Or.inr ⟨root, name, c.requestFor root manifest, hreaches.concerns, hevents⟩⟩
  · obtain ⟨asked, hlookups, hworld⟩ := hasked
    rw [hstate] at hworld
    exact ⟨asked, hlookups, Or.inl (congrArg World.events hworld)⟩

/-- The packages that a turn has converted: those that the converter was called for, if the turn
ended well. -/
def Turn.packages (t : Turn) : List String :=
  match t.outcome with
  | .ok () => (t.after.world.events.drop t.before.world.events.length).filterMap Event.package?
  | .error _ => []

/-- A turn that ended well has converted the packages of what it caused. -/
theorem Turn.packages_of_ok {caused : List Event} (houtcome : t.outcome = .ok ())
    (h : t.after.world.events = t.before.world.events ++ caused) :
    t.packages = caused.filterMap Event.package? := by
  rw [packages, houtcome, h, List.drop_left]

/-- A turn converts one package, on behalf of the file that was offered, or none. -/
theorem packages_of_performed (h : c.perform t.call t.before = (t.outcome, t.after)) :
    t.packages = [] ∨ ∃ key package, t.Converted key ∧ t.packages = [package] := by
  cases houtcome : t.outcome with
  | error fault => exact Or.inl (by rw [Turn.packages, houtcome])
  | ok ended =>
    cases hcall : t.call with
    | changed file =>
      rw [hcall] at h
      have hafter : t.before.unsettle file = t.after := congrArg Prod.snd h
      have hsame : t.after.world.events = t.before.world.events ++ [] := by
        rw [← hafter, List.append_nil]
        rfl
      exact Or.inl (Turn.packages_of_ok houtcome hsame)
    | offer moduleName file =>
      rw [hcall] at h
      have hoffered := offered_offer c moduleName file t.before
      rw [show c.offer moduleName file t.before = (t.outcome, t.after) from h] at hoffered
      -- Questions to a finder name no package.
      obtain ⟨asked, hasked, hevents | ⟨root, name, request, concerns, hevents⟩⟩ :=
        hoffered.events_eq
      · rw [Turn.packages_of_ok houtcome hevents]
        exact Or.inl hasked.packages_eq_nil
      · refine Or.inr ⟨canonicalText name, request.packagePath, ⟨?_, ?_, houtcome⟩, ?_⟩
        · exact ⟨moduleName, name, by rw [hcall, concerns.file_eq], rfl⟩
        · refine ⟨request, ?_⟩
          rw [hevents, List.drop_left]
          simp
        · rw [Turn.packages_of_ok houtcome hevents, List.filterMap_append, hasked.packages_eq_nil]
          rfl

/-- A package is converted on behalf of a file. -/
theorem exists_converted (h : c.perform t.call t.before = (t.outcome, t.after))
    (hpackage : package ∈ t.packages) : ∃ key, t.Converted key := by
  rcases packages_of_performed h with hnil | ⟨key, package', hconverted, -⟩
  · rw [hnil] at hpackage
    cases hpackage
  · exact ⟨key, hconverted⟩

theorem nodup_packages (h : c.perform t.call t.before = (t.outcome, t.after)) :
    t.packages.Nodup := by
  rcases packages_of_performed h with hnil | ⟨key, package, -, hone⟩
  · rw [hnil]
    exact List.nodup_nil
  · rw [hone]
    exact List.nodup_singleton package

/-! ### Many turns -/

/-- No package is converted twice. -/
def PackagesOnce (turns : List Turn) : Prop := (turns.flatMap Turn.packages).Nodup

/-- Two turns that have converted a package were offers of the same file. -/
def OneFileEach (turns : List Turn) : Prop :=
  ∀ t ∈ turns, ∀ u ∈ turns, ∀ package ∈ t.packages, package ∈ u.packages →
    ∃ key, t.IsOfferOf key ∧ u.IsOfferOf key

theorem History.performed (h : History c turns settled) (ht : t ∈ turns) :
    c.perform t.call t.before = (t.outcome, t.after) := by
  obtain ⟨before, after, rfl⟩ := List.append_of_mem ht
  exact (History.upTo before t after h).2

/-- A file that was converted is not converted again before a change to it is reported. -/
theorem History.not_converted {before between after : List Turn}
    (h : History c (before ++ t :: between ++ u :: after) settled)
    (hbetween : ∀ v ∈ between, ¬v.Unsettles key) (ht : t.Converted key) : ¬u.Converted key := by
  intro hu
  have hsettled : key ∈ t.after.settled := by
    have h' := h
    rw [List.append_assoc, List.cons_append] at h'
    exact h'.mem_settled_of_converted ht
  have hperformed := (History.upTo _ u after h).2
  obtain ⟨-, hsame, -⟩ :=
    quiet_of_mem_settled hperformed (h.mem_settled_of_between hbetween hsettled) hu.isOfferOf
  obtain ⟨request, hmem⟩ := hu.converts
  simp [hsame] at hmem

/-- The file that a turn offers. -/
theorem Turn.IsOfferOf.unique {key' : String} (h : t.IsOfferOf key) (h' : t.IsOfferOf key') :
    key = key' := by
  obtain ⟨moduleName, file, hcall, rfl⟩ := h
  obtain ⟨moduleName', file', hcall', rfl⟩ := h'
  rw [hcall] at hcall'
  obtain ⟨-, hfile⟩ := Call.offer.inj hcall'
  rw [Option.some.inj hfile]

/-- One element stands before another. -/
theorem exists_between_of_sublist {α : Type} {a b : α} {xs : List α} (h : [a, b].Sublist xs) :
    ∃ before between after, xs = before ++ a :: between ++ b :: after := by
  obtain ⟨front, back, rfl, ha, hb⟩ := List.cons_sublist_iff.1 h
  obtain ⟨before, middle, rfl⟩ := List.append_of_mem ha
  obtain ⟨middle', after, rfl⟩ := List.append_of_mem (List.singleton_sublist.1 hb)
  exact ⟨before, middle ++ middle', after, by simp⟩

/-- **Without a report of a change each package is converted at most once exactly when no two files
lead to its conversion.** -/
theorem History.packagesOnce_iff (h : History c turns settled)
    (hquiet : ∀ t ∈ turns, ∀ key, ¬t.Unsettles key) : PackagesOnce turns ↔ OneFileEach turns := by
  rw [PackagesOnce, List.nodup_flatMap]
  constructor
  · rintro ⟨-, hdisjoint⟩ t ht u hu package htpackage hupackage
    by_cases htu : t = u
    · obtain ⟨key, hconverted⟩ := exists_converted (h.performed ht) htpackage
      rw [← htu]
      exact ⟨key, hconverted.isOfferOf, hconverted.isOfferOf⟩
    · -- Two turns at different places have no package in common.
      have hsymm : Std.Symm (Function.onFun List.Disjoint Turn.packages) :=
        ⟨fun _ _ h => List.disjoint_symm h⟩
      exact (hdisjoint.forall ht hu htu htpackage hupackage).elim
  · -- Two conversions of one package would be two of one file, which the settled files exclude.
    intro hone
    refine ⟨fun t ht => nodup_packages (h.performed ht), ?_⟩
    refine List.pairwise_iff_forall_sublist.2 fun {t u} hsub => ?_
    intro package htpackage hupackage
    have ht : t ∈ turns := hsub.subset (by simp)
    have hu : u ∈ turns := hsub.subset (by simp)
    obtain ⟨key, htoffer, huoffer⟩ := hone t ht u hu package htpackage hupackage
    -- A turn offers one file, so both conversions are on behalf of the common one.
    obtain ⟨tkey, htconverted⟩ := exists_converted (h.performed ht) htpackage
    obtain ⟨ukey, huconverted⟩ := exists_converted (h.performed hu) hupackage
    obtain rfl := htconverted.isOfferOf.unique htoffer
    obtain rfl := huconverted.isOfferOf.unique huoffer
    obtain ⟨before, between, after, heq⟩ := exists_between_of_sublist hsub
    rw [heq] at h
    have hbetween : ∀ v ∈ between, ¬v.Unsettles ukey := by
      intro v hv
      refine hquiet v ?_ ukey
      rw [heq]
      simp [hv]
    exact h.not_converted hbetween htconverted huconverted

/-! Two files of one package, as one build lives through their offers. -/

/-- The tree of `sampleDemand`, with manifests found by the usual search. -/
def searchingDemand : OnDemand := { sampleDemand with finder := .usual }

/-- The offer of the package's own file. -/
def mainOffer : Turn := .of searchingDemand (.offer "a" (some "/p/node_modules/a/i.js")) sampleState

/-- The offer of another file of the package, by a deep import. -/
def deepOffer : Turn :=
  .of searchingDemand (.offer "a/j" (some "/p/node_modules/a/j.js")) mainOffer.after

theorem history_twoFiles :
    History searchingDemand [mainOffer, deepOffer] deepOffer.after.settled := by
  have hmain : History searchingDemand [mainOffer] mainOffer.after.settled :=
    History.start.next _ rfl
  exact hmain.next _ rfl

theorem quiet_twoFiles : ∀ t ∈ [mainOffer, deepOffer], ∀ key, ¬t.Unsettles key := by
  intro t ht key hunsettles
  obtain ⟨file, hcall, -⟩ := hunsettles
  rcases List.mem_pair.1 ht with rfl | rfl <;> cases hcall

theorem not_packagesOnce_twoFiles : ¬PackagesOnce [mainOffer, deepOffer] := by
  unfold PackagesOnce
  decide +kernel

/-- The two offers convert one package, and they are offers of different files. -/
theorem packagesOnce_iff_twoFiles :
    History searchingDemand [mainOffer, deepOffer] deepOffer.after.settled ∧
      (∀ t ∈ [mainOffer, deepOffer], ∀ key, ¬t.Unsettles key) ∧
      ¬OneFileEach [mainOffer, deepOffer] := by
  refine ⟨history_twoFiles, quiet_twoFiles, fun hone => ?_⟩
  have honce := (history_twoFiles.packagesOnce_iff quiet_twoFiles).2 hone
  exact not_packagesOnce_twoFiles honce

/-- Without a report of a change each package is converted at most once. -/
def AlwaysPackagesOnce : Prop :=
  ∀ (c : OnDemand) (turns : List Turn) (settled : List String), History c turns settled →
    (∀ t ∈ turns, ∀ key, ¬t.Unsettles key) → PackagesOnce turns

/-- **A package can be converted twice.** -/
theorem not_alwaysPackagesOnce : ¬AlwaysPackagesOnce := by
  intro h
  exact not_packagesOnce_twoFiles (h _ _ _ history_twoFiles quiet_twoFiles)

end OnDemand

end ConvertOnce
