import ConvertOnce.Proofs.Guard.Traces

/-!
# The child of a conversion

A conversion that is due (`Guard.IsDue`) is to run the converter once, as a child process, and to
end as that child does.  `Guard.IsDue.runsOneChild_iff` says when it does: unless an argument with
U+0000 in it keeps the child from being started, which is a failure that names no child
(`Guard.not_alwaysRunsOneChild`).  The arguments of the child tell what the converter is asked for:
the properties stand between five other arguments and six, so that they are found again whatever
texts they are (`Guard.argumentsFor_eq_iff`).

A child may give the process another title.  An action keeps the title (`Action.KeepsTitle`) when it
is the same again afterwards, whether the action has succeeded or not; the steps of a guard do, and
so do calls of guards in any order (`Guard.title_performAll`).
-/

namespace ConvertOnce

/-! ### Actions that keep the title of the process -/

namespace Action

variable {α β : Type}

/-- Whatever its outcome, the action leaves the title of the process as it was. -/
def KeepsTitle (x : Action World α) : Prop := ∀ w, (x w).2.title = w.title

theorem keepsTitle_pure (a : α) : (pure a : Action World α).KeepsTitle := fun _ => rfl

theorem keepsTitle_fail (fault : Fault) : (fail fault : Action World α).KeepsTitle := fun _ => rfl

theorem KeepsTitle.bind {x : Action World α} {next : α → Action World β} (hx : x.KeepsTitle)
    (hnext : ∀ a, (next a).KeepsTitle) : (x >>= next).KeepsTitle := by
  intro w
  have hfirst := hx w
  rcases hstep : x w with ⟨fault | a, v⟩
  · rw [hstep] at hfirst
    rw [bind_of_error hstep]
    exact hfirst
  · rw [hstep] at hfirst
    rw [bind_of_ok hstep, hnext a v]
    exact hfirst

/-- The title that a child gives to the process does not outlast the conversion. -/
theorem keepsTitle_convertTree (label : String) (arguments : List String) :
    (World.measured label (World.convertTree arguments)).KeepsTitle := by
  intro w
  rw [World.measured_convertTree_eq]

end Action

namespace Guard

open ConvertOnce.Action

variable {g g' : Guard} {d d' : Decision} {root root' main main' : Path} {w : World}

/-! ### The steps of a guard -/

theorem keepsTitle_decide (g : Guard) : g.decide.KeepsTitle := fun w =>
  (onlyAsked_decide g w).title_eq

theorem keepsTitle_convert (g : Guard) (d : Decision) : (g.convert d).KeepsTitle := by
  unfold convert
  cases d.verdict with
  | skip => exact keepsTitle_pure ()
  | run =>
    cases g.dependencyRoot with
    | none => exact keepsTitle_fail _
    | some root =>
      cases g.settings.converterMain with
      | none => exact keepsTitle_fail _
      | some main => exact keepsTitle_convertTree _ _

theorem keepsTitle_record (d : Decision) : (record d).KeepsTitle := fun _ => rfl

theorem keepsTitle_ensure (g : Guard) : g.ensure.KeepsTitle := by
  rw [ensure]
  refine (keepsTitle_decide g).bind fun d => ?_
  split
  · refine (keepsTitle_convert g d).bind fun _ => ?_
    exact (keepsTitle_record d).bind fun _ => keepsTitle_pure d
  · exact keepsTitle_pure d

/-- A call of a guard.  What is converted or recorded can be any decision. -/
inductive Operation where
  | decide (g : Guard)
  | convert (g : Guard) (d : Decision)
  | record (d : Decision)
  | ensure (g : Guard)

/-- What a call leaves of the world, be it successful or not. -/
def Operation.perform : Operation → World → World
  | .decide g, w => (g.decide w).2
  | .convert g d, w => (g.convert d w).2
  | .record d, w => (Guard.record d w).2
  | .ensure g, w => (g.ensure w).2

/-- What calls in turn leave of the world. -/
def performAll (operations : List Operation) (w : World) : World :=
  operations.foldl (fun w operation => operation.perform w) w

/-- **One call** leaves the title of the process as it was. -/
theorem Operation.title_perform (operation : Operation) (w : World) :
    (operation.perform w).title = w.title := by
  cases operation with
  | decide g => exact keepsTitle_decide g w
  | convert g d => exact keepsTitle_convert g d w
  | record d => exact keepsTitle_record d w
  | ensure g => exact keepsTitle_ensure g w

/-- Calls in turn leave the title of the process as it was. -/
theorem title_performAll (operations : List Operation) (w : World) :
    (performAll operations w).title = w.title := by
  induction operations generalizing w with
  | nil => rfl
  | cons operation operations ih =>
    exact (ih (operation.perform w)).trans (operation.title_perform w)

/-! ### The arguments of the child -/

/-- Two guards ask the converter for the same, of the trees `root` and `root'` and by the entry
points `main` and `main'`. -/
structure AskAlike (g g' : Guard) (root root' main main' : Path) : Prop where
  runtime : g'.settings.runtime = g.settings.runtime
  main : main'.text = main.text
  source : root'.text = root.text
  properties : g'.settings.properties = g.settings.properties
  tsconfig : g'.settings.tsconfig.text = g.settings.tsconfig.text

/-- **The arguments of a child tell what the converter is asked for**, even where a property is the
same text as one of the arguments around the properties. -/
theorem argumentsFor_eq_iff :
    g'.argumentsFor root' main' = g.argumentsFor root main ↔
      AskAlike g g' root root' main main' := by
  constructor
  · intro h
    rw [argumentsFor, argumentsFor, childArguments, childArguments] at h
    -- Six arguments stand behind the properties and five before them.
    obtain ⟨hfront, hback⟩ := List.append_inj' h rfl
    obtain ⟨hhead, hproperties⟩ := List.append_inj hfront rfl
    simp only [List.cons.injEq, and_true, true_and] at hhead hback
    obtain ⟨hruntime, hmain, hsource⟩ := hhead
    exact ⟨hruntime, hmain, hsource, hproperties, hback⟩
  · intro h
    rw [argumentsFor, argumentsFor, childArguments, childArguments, h.runtime, h.main, h.source,
      h.properties, h.tsconfig]

/-! ### A conversion that is due -/

/-- The conversion asks for one child, with the given arguments, and causes nothing else. -/
def StartsChild (g : Guard) (d : Decision) (w : World) (arguments : List String) : Prop :=
  (g.convert d w).2.events = w.events ++ [.child arguments]

theorem IsDue.startsChild_iff (h : g.IsDue d root main) {arguments : List String} :
    g.StartsChild d w arguments ↔ arguments = g.argumentsFor root main := by
  rw [StartsChild, h.convert_eq]
  simp [eq_comm]

/-- What a conversion that is due is to do. -/
structure RunsOneChild (g : Guard) (d : Decision) (root main : Path) (w : World) : Prop where
  /-- It asks for exactly one child. -/
  startsChild : g.StartsChild d w (g.argumentsFor root main)
  /-- No other conversion asks for a child with the same arguments, unless it asks for the same. -/
  askAlike : ∀ g' d' root' main' w' arguments, IsDue g' d' root' main' →
    g.StartsChild d w arguments → g'.StartsChild d' w' arguments →
    AskAlike g g' root root' main main'
  /-- It succeeds exactly if the child was started and ended with status zero. -/
  ok_iff : (g.convert d w).1 = .ok () ↔ w.nextChild.outcome = .exited 0
  /-- Any other status is that of the failure. -/
  exited : ∀ status, w.nextChild.outcome = .exited status → status ≠ 0 →
    (g.convert d w).1 = .error (.build (.treeFailed "ngcc failed." (some status)))
  /-- The reason why no child could be started stands at the front of the failure, which has no
  status. -/
  notStarted : ∀ reason, w.nextChild.outcome = .notStarted reason →
    ∃ rest, (g.convert d w).1 = .error (.build (.treeFailed (reason ++ rest) none))

/-- A conversion whose arguments are taken runs the child, and ends as it does. -/
theorem IsDue.runsOneChild (h : g.IsDue d root main)
    (htaken : w.refuses (g.argumentsFor root main) = false) : g.RunsOneChild d root main w := by
  have hverdict : (g.convert d w).1 = World.childVerdict w.nextChild.outcome := by
    rw [h.convert_fst, World.verdictFor, htaken]
    rfl
  refine ⟨h.startsChild_iff.2 rfl, ?_, ?_, ?_, ?_⟩
  · intro g' d' root' main' w' arguments h' hstarts hstarts'
    rw [h.startsChild_iff] at hstarts
    rw [h'.startsChild_iff, hstarts] at hstarts'
    exact argumentsFor_eq_iff.1 hstarts'.symm
  · rw [hverdict, World.childVerdict_eq_ok_iff]
  · intro status houtcome hstatus
    rw [hverdict, houtcome, World.childVerdict_exited hstatus]
  · intro reason houtcome
    refine ⟨"\nngcc failed, see above.", ?_⟩
    rw [hverdict, houtcome, World.childVerdict]

/-- A conversion whose arguments are not taken is a failure of another kind. -/
theorem IsDue.convert_of_refuses (h : g.IsDue d root main)
    (hrefuses : w.refuses (g.argumentsFor root main) = true) :
    (g.convert d w).1 = .error .nulCharacter := by
  rw [h.convert_fst]
  exact if_pos hrefuses

/-- Whatever the child would have done, a failure of another kind is not what a conversion is to end
with. -/
theorem RunsOneChild.convert_ne (h : g.RunsOneChild d root main w) :
    (g.convert d w).1 ≠ .error .nulCharacter := by
  intro hconvert
  cases houtcome : w.nextChild.outcome with
  | notStarted reason =>
    obtain ⟨rest, hfailed⟩ := h.notStarted reason houtcome
    cases hconvert.symm.trans hfailed
  | exited status =>
    by_cases hstatus : status = 0
    · subst hstatus
      cases hconvert.symm.trans (h.ok_iff.2 houtcome)
    · cases hconvert.symm.trans (h.exited status houtcome hstatus)

/-- **A conversion that is due runs the converter once and ends as it does exactly if no argument
has U+0000 in it**, or arguments are not checked; otherwise it fails without a child.  The title of
the process stays what it was, in this and in any other course of calls. -/
theorem IsDue.runsOneChild_iff (h : g.IsDue d root main) (w : World) :
    (g.RunsOneChild d root main w ↔
      (w.checksArguments = true → ∀ argument ∈ g.argumentsFor root main, ¬ HasNul argument)) ∧
    (w.refuses (g.argumentsFor root main) = true → (g.convert d w).1 = .error .nulCharacter) ∧
    ∀ operations start, (performAll operations start).title = start.title := by
  refine ⟨⟨fun hruns hchecks argument hargument hnul => ?_, fun htaken => ?_⟩,
    h.convert_of_refuses, title_performAll⟩
  · have hrefuses := World.refuses_iff.2 ⟨hchecks, argument, hargument, hnul⟩
    exact hruns.convert_ne (h.convert_of_refuses hrefuses)
  · refine h.runsOneChild (Bool.eq_false_iff.2 fun hrefuses => ?_)
    obtain ⟨hchecks, argument, hargument, hnul⟩ := World.refuses_iff.1 hrefuses
    exact htaken hchecks argument hargument hnul

/-- A guard with a tree and an entry point, and with a property that looks like an argument. -/
def equipped : Guard where
  settings :=
    { tsconfig := .ofString "/p/tsconfig.json"
      properties := ["--first-only", ""]
      runtime := "/usr/bin/python3"
      converterMain := some (.ofString "/p/ngcc.js") }
  dependencyRoot := some (.ofString "/p/node_modules")
  finder := .usual

/-- The next child gives the process another title and is killed, and the one after it cannot be
started. -/
def killedWorld : World :=
  { World.ofFiles { tree := .empty, cwd := "/", executable := "/usr/bin/python3" } with
    title := "build"
    children := [{ title := some "ngcc", outcome := .exited (-9) },
      { title := some "ngcc", outcome := .notStarted "no such file" }] }

/-- The child has changed the title, and the conversion fails with its status; after this and
another conversion the title is the old one. -/
theorem runsOneChild_iff_killed :
    equipped.IsDue { verdict := .run, reason := .inputsUnknown } (.ofString "/p/node_modules")
        (.ofString "/p/ngcc.js") ∧
      (World.runChild [] killedWorld).2.title = "ngcc" ∧
      (equipped.convert { verdict := .run, reason := .inputsUnknown } killedWorld).1
        = .error (.build (.treeFailed "ngcc failed." (some (-9)))) ∧
      (performAll
        [.convert equipped { verdict := .run, reason := .inputsUnknown }, .ensure equipped]
        killedWorld).title = "build" := by
  have hdue : equipped.IsDue { verdict := .run, reason := .inputsUnknown }
      (.ofString "/p/node_modules") (.ofString "/p/ngcc.js") := ⟨rfl, rfl, rfl⟩
  have htaken : ∀ argument ∈ equipped.argumentsFor (.ofString "/p/node_modules")
      (.ofString "/p/ngcc.js"), ¬ HasNul argument := by
    unfold HasNul
    decide +kernel
  obtain ⟨hiff, -, htitle⟩ := hdue.runsOneChild_iff killedWorld
  have hruns := hiff.2 fun _ => htaken
  exact ⟨hdue, rfl, hruns.exited (-9) rfl (by decide), htitle _ killedWorld⟩

/-- Every conversion that is due runs the converter once and ends as it does, where arguments are
checked as they are by every system. -/
def AlwaysRunsOneChild : Prop :=
  ∀ (g : Guard) (d : Decision) (root main : Path) (w : World), w.checksArguments = true →
    g.IsDue d root main → g.RunsOneChild d root main w

/-- The same guard with U+0000 in a property. -/
def interrupted : Guard :=
  { equipped with settings := { equipped.settings with properties := ["a\x00b"] } }

/-- **A conversion can fail without a child**: a property with U+0000 in it is an argument that is
not taken. -/
theorem not_alwaysRunsOneChild : ¬ AlwaysRunsOneChild := by
  intro h
  have hdue : interrupted.IsDue { verdict := .run, reason := .inputsUnknown }
      (.ofString "/p/node_modules") (.ofString "/p/ngcc.js") := ⟨rfl, rfl, rfl⟩
  have hruns := h interrupted _ _ _ (.ofFiles killedWorld.files) rfl hdue
  exact hruns.convert_ne (hdue.convert_of_refuses (by decide +kernel))

end Guard

end ConvertOnce
