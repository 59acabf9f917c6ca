import ConvertOnce.Proofs.OnDemand.Conversion
import ConvertOnce.Proofs.OnDemand.History
import ConvertOnce.Proofs.Report

/-!
# What conversions log

`Logged` keeps account of the conversions between two states of a build: which scripts they
followed, what was collected from the calls of the log in those scripts, and what was written.  An
offer that calls the converter adds its one script to the account, and every other call adds nothing
(`OnDemand.logged_perform`).
-/

namespace ConvertOnce

/-- The scripts that the next conversions follow. -/
def upcoming : Nat → List ConversionScript → List ConversionScript
  | 0, _ => []
  | n + 1, scripts => scripts.head?.getD {} :: upcoming n scripts.tail

theorem upcoming_add (m n : Nat) (scripts : List ConversionScript) :
    upcoming (m + n) scripts = upcoming m scripts ++ upcoming n (scripts.drop m) := by
  induction m generalizing scripts with
  | zero => rw [Nat.zero_add, List.drop_zero, upcoming, List.nil_append]
  | succ m ih =>
    have hdrop : scripts.drop (m + 1) = scripts.tail.drop m := by
      rw [List.drop_tail]
    rw [Nat.add_right_comm, upcoming, upcoming, ih, hdrop]
    rfl

/-- What a measurement leaves on the error stream: a line, if the build is profiled at all. -/
def IsTiming (isProfiled : Bool) (line : String) : Prop :=
  if isProfiled then ∃ label start stop, line = World.timingLine label start stop else line = ""

theorem World.isTiming_timing (w : World) (label : String) :
    IsTiming w.isProfiled (w.timing label) := by
  rw [timing, IsTiming]
  cases w.isProfiled with
  | true => exact ⟨label, _, _, rfl⟩
  | false => rfl

/-- All that was written by conversions: the progress of each, and the line of its measurement. -/
def writtenBy (threshold : Gravity) (pieces : List (ConversionScript × String)) : String :=
  String.join (pieces.map fun piece =>
    framed (messagesAbove threshold .info piece.1.calls) ++ piece.2)

/-- Between two states there was one conversion for each of the pieces, which are the scripts that
were followed with the lines of the measurements. -/
structure Logged (threshold : Gravity) (s s' : BuildState)
    (pieces : List (ConversionScript × String)) : Prop where
  scripts : pieces.map Prod.fst = upcoming pieces.length s.world.conversions
  left : s'.world.conversions = s.world.conversions.drop pieces.length
  isProfiled : s'.world.isProfiled = s.world.isProfiled
  lines : ∀ piece ∈ pieces, IsTiming s.world.isProfiled piece.2
  report : s'.report = (s.report.collected threshold (pieces.flatMap (·.1.calls))).1
  wrote : ∃ runs, runs.length = pieces.length ∧
    s.world.Wrote s'.world runs (writtenBy threshold pieces)

namespace Logged

variable {threshold : Gravity} {s s' s'' : BuildState}
  {pieces pieces' : List (ConversionScript × String)}

theorem collected_nil (r : Report) : r.collected threshold [] = (r, "") := by
  simp [Report.collected, messagesAbove, messages, framed]

/-- Where the finder was asked and nothing else happened, nothing was logged. -/
theorem of_onlyAsked (hworld : s.world.OnlyAsked s'.world) (hreport : s'.report = s.report) :
    Logged threshold s s' [] := by
  have hwrote := hworld.wrote
  obtain ⟨asked, -, hworld⟩ := hworld
  refine ⟨rfl, ?_, ?_, ?_, ?_, [], rfl, hwrote⟩
  · rw [hworld]
    rfl
  · rw [hworld]
    rfl
  · intro piece hpiece
    cases hpiece
  · rw [List.flatMap_nil, collected_nil, hreport]

theorem refl (threshold : Gravity) (s : BuildState) : Logged threshold s s [] :=
  of_onlyAsked (.refl s.world) rfl

theorem trans (h : Logged threshold s s' pieces) (h' : Logged threshold s' s'' pieces') :
    Logged threshold s s'' (pieces ++ pieces') := by
  obtain ⟨runs, hruns, hwrote⟩ := h.wrote
  obtain ⟨runs', hruns', hwrote'⟩ := h'.wrote
  -- Scripts, lines and pieces of text are appended, and what is left is what is left of the rest.
  refine ⟨?_, ?_, ?_, ?_, ?_, runs ++ runs', ?_, ?_⟩
  · rw [List.map_append, List.length_append, upcoming_add, h.scripts, h'.scripts, h.left]
  · rw [h'.left, h.left, List.drop_drop, List.length_append]
  · rw [h'.isProfiled, h.isProfiled]
  · intro piece hpiece
    rcases List.mem_append.1 hpiece with hpiece | hpiece
    · exact h.lines piece hpiece
    · rw [← h.isProfiled]
      exact h'.lines piece hpiece
  · rw [h'.report, h.report, List.flatMap_append, Report.collected_append]
  · rw [List.length_append, List.length_append, hruns, hruns']
  · have hall := hwrote.trans hwrote'
    rwa [writtenBy, writtenBy, ← String.join_append, ← List.map_append] at hall

/-- Which files are settled or remembered does not matter. -/
theorem congr_right (h : Logged threshold s s' pieces) (hworld : s''.world = s'.world)
    (hreport : s''.report = s'.report) : Logged threshold s s'' pieces := by
  obtain ⟨hscripts, hleft, hprofiled, hlines, hcollected, hwrote⟩ := h
  rw [← hworld] at hleft hprofiled hwrote
  rw [← hreport] at hcollected
  exact ⟨hscripts, hleft, hprofiled, hlines, hcollected, hwrote⟩

end Logged

namespace OnDemand

variable {c : OnDemand} {s : BuildState}

/-- A conversion logs what its script says. -/
theorem logged_convert (c : OnDemand) (root : Path) (moduleName manifest : String)
    (s : BuildState) :
    Logged c.threshold s (c.convert root moduleName manifest s).2
      [(s.world.nextConversion, s.world.timing (timingLabel moduleName))] := by
  have hwrote := wrote_convert c root moduleName manifest s
  rw [Report.logAll_eq] at hwrote
  refine ⟨rfl, ?_, ?_, ?_, ?_, [.conversion (c.requestFor root manifest)], rfl, ?_⟩
  · rw [convert_eq, List.length_singleton, List.drop_one]
    rfl
  · rw [convert_eq]
    rfl
  · intro piece hpiece
    obtain rfl := List.mem_singleton.1 hpiece
    exact s.world.isTiming_timing _
  · rw [convert_eq, Report.logAll_eq, List.flatMap_singleton]
  · rw [writtenBy, List.map_singleton, String.join_cons, String.join_nil, String.append_empty]
    exact hwrote

theorem report_settle (s : BuildState) (key : String) : (s.settle key).report = s.report := by
  rw [BuildState.settle]
  split <;> rfl

/-- **An offer logs what the converter logs**, if it calls the converter, and else nothing. -/
theorem logged_offer (c : OnDemand) (moduleName : String) (file : Option String) (s : BuildState) :
    ∃ pieces, Logged c.threshold s (c.offer moduleName file s).2 pieces := by
  have hasked : ∀ {name manifest world},
      c.finder.manifest? moduleName name s.world = (manifest, world) →
        Logged c.threshold s { s with world } [] := by
    intro name manifest world hfound
    exact .of_onlyAsked (onlyAsked_of_found hfound) rfl
  have hoffered := offered_offer c moduleName file s
  generalize (c.offer moduleName file s).1 = outcome at hoffered
  generalize (c.offer moduleName file s).2 = after at hoffered ⊢
  -- Before the converter is called only the finder is asked, and it writes nothing.
  cases hoffered with
  | unneeded | known => exact ⟨[], .refl _ s⟩
  | missed _ _ found _ =>
    exact ⟨[], (hasked found).congr_right (BuildState.world_settle _ _) (report_settle _ _)⟩
  | refused _ _ found _ => exact ⟨[], hasked found⟩
  | @failed root name manifest world fault s' _ _ found _ failure =>
    have hconverted := logged_convert c root moduleName manifest { s with world }
    rw [failure] at hconverted
    exact ⟨_, (hasked found).trans hconverted⟩
  | @converted root name manifest world s' _ _ found _ success =>
    have hconverted := logged_convert c root moduleName manifest { s with world }
    rw [success] at hconverted
    have hall := (hasked found).trans hconverted
    exact ⟨_, hall.congr_right (BuildState.world_settle _ _) (report_settle _ _)⟩

theorem logged_perform (c : OnDemand) (call : Call) (s : BuildState) :
    ∃ pieces, Logged c.threshold s (c.perform call s).2 pieces := by
  cases call with
  | offer moduleName file => exact logged_offer c moduleName file s
  | changed file => exact ⟨[], (Logged.refl _ s).congr_right rfl rfl⟩

end OnDemand

end ConvertOnce
