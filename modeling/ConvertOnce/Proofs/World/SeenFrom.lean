import ConvertOnce.Proofs.FileSystem.SeenFrom
import ConvertOnce.Proofs.World

/-!
# Actions that do not look at the current directory

An action ignores a change of its state when it commutes with it: the outcome is the same, and the
state that is reached is changed in the same way (`Action.Ignores`).  Actions that ignore a change
can be put one after the other.  Running the converter and measuring ignore a change of the current
directory whatever they are given, and the search for a manifest does from an absolute place.
-/

namespace ConvertOnce

namespace Action

variable {σ α β : Type} {f : σ → σ}

/-- The action does the same in a changed state. -/
def Ignores (x : Action σ α) (f : σ → σ) : Prop := ∀ s, x (f s) = Prod.map id f (x s)

theorem ignores_pure (a : α) : (pure a : Action σ α).Ignores f := fun _ => rfl

theorem ignores_fail (fault : Fault) : (fail fault : Action σ α).Ignores f := fun _ => rfl

/-- The second action needs to ignore the change only for what the first one can end with. -/
theorem Ignores.bind {x : Action σ α} {next : α → Action σ β} (hx : x.Ignores f)
    (hnext : ∀ s a, (x s).1 = .ok a → (next a).Ignores f) : (x >>= next).Ignores f := by
  intro s
  have hchanged := hx s
  rcases hs : x s with ⟨fault | a, s'⟩
  · rw [hs] at hchanged
    have hchanged' : x (f s) = (.error fault, f s') := hchanged
    rw [bind_of_error hs, bind_of_error hchanged']
    rfl
  · rw [hs] at hchanged
    have hchanged' : x (f s) = (.ok a, f s') := hchanged
    rw [bind_of_ok hs, bind_of_ok hchanged']
    exact hnext s a (by rw [hs]) s'

end Action

namespace World

variable {cwd : String}

/-- The same world with another current directory. -/
def seenFrom (w : World) (cwd : String) : World := { w with files := w.files.seenFrom cwd }

/-! ### Running the converter -/

theorem convertTree_ignores (arguments : List String) :
    (convertTree arguments).Ignores (·.seenFrom cwd) := by
  intro w
  show convertTree arguments (w.seenFrom cwd) = _
  rw [convertTree_eq, convertTree_eq]
  rfl

theorem convertPackage_seenFrom (w : World) (threshold : Gravity) (report : Report)
    (request : ConversionRequest) :
    (w.seenFrom cwd).convertPackage threshold report request =
      Prod.map id (Prod.map (·.seenFrom cwd) id) (w.convertPackage threshold report request) := rfl

/-! ### Measuring -/

theorem startWatch_seenFrom (w : World) :
    (w.seenFrom cwd).startWatch = Prod.map id (·.seenFrom cwd) w.startWatch := by
  have hprofiled : (w.seenFrom cwd).isProfiled = w.isProfiled := rfl
  rw [startWatch, startWatch, hprofiled]
  split <;> rfl

theorem stopWatch_seenFrom (w : World) (label : String) (start : Option Float) :
    (w.seenFrom cwd).stopWatch label start = (w.stopWatch label start).seenFrom cwd := by
  cases start <;> rfl

/-- Measuring an action adds nothing that depends on the current directory. -/
theorem measured_ignores {α : Type} (label : String) {action : Action World α}
    (h : action.Ignores (·.seenFrom cwd)) : (measured label action).Ignores (·.seenFrom cwd) := by
  intro w
  have hstart : (w.seenFrom cwd).startWatch = (w.startWatch.1, w.startWatch.2.seenFrom cwd) :=
    startWatch_seenFrom w
  have haction : action (w.startWatch.2.seenFrom cwd)
      = ((action w.startWatch.2).1, (action w.startWatch.2).2.seenFrom cwd) := h w.startWatch.2
  refine Prod.ext ?_ ?_
  · show (measured label action (w.seenFrom cwd)).1 = (measured label action w).1
    rw [measured_fst, measured_fst, hstart, haction]
  · show (measured label action (w.seenFrom cwd)).2 = (measured label action w).2.seenFrom cwd
    rw [measured_snd, measured_snd, hstart, haction, stopWatch_seenFrom]

end World

/-! ### Searching for a manifest -/

namespace Finder

variable {name moduleName context manifest : String} {cwd : String} {w : World}

/-- **From an absolute place the same manifest is found, whatever the current directory.** -/
theorem manifest?_seenFrom (h : IsAbsoluteText context) :
    (search name).manifest? moduleName context (w.seenFrom cwd) =
      Prod.map id (·.seenFrom cwd) ((search name).manifest? moduleName context w) := by
  have hfound : (w.seenFrom cwd).files.findInDependencies name context (packageManifest moduleName)
      = w.files.findInDependencies name context (packageManifest moduleName) :=
    FileSystem.findInDependencies_seenFrom h name _
  have hadjacent : (w.seenFrom cwd).files.adjacentManifest? context
      = w.files.adjacentManifest? context := FileSystem.adjacentManifest?_seenFrom h
  rw [manifest?_search, manifest?_search, hfound, hadjacent]
  rfl

/-- A manifest that is found from an absolute place is named by an absolute path. -/
theorem isAbsoluteText_of_manifest? (h : IsAbsoluteText context)
    (hmanifest : ((search name).manifest? moduleName context w).1 = some manifest) :
    IsAbsoluteText manifest := by
  rcases found_of_manifest? hmanifest with hfound | hadjacent
  · exact FileSystem.isAbsoluteText_of_findInDependencies h hfound
  · exact FileSystem.isAbsoluteText_of_adjacentManifest? h hadjacent

end Finder

end ConvertOnce
