import ConvertOnce.Proofs.Build.Session
import ConvertOnce.Proofs.OnDemand.Logged

/-!
# The diagnostics of a run

Over any run of calls about single packages the report of a build grows by what the converter has
logged, call by call of the log and in that order, and the error stream by the progress
(`Build.performAll_logged`).  A call that does not reach the converter adds nothing to either.
-/

namespace ConvertOnce

variable {s s' : BuildState}

/-- Without a run of the converter nothing is logged. -/
theorem Logged.eq_of_no_run {threshold : Gravity} {pieces : List (ConversionScript × String)}
    (h : Logged threshold s s' pieces)
    (hruns : s'.world.events.filter Event.runsConverter
      = s.world.events.filter Event.runsConverter) :
    s'.report = s.report ∧ s'.world.errorText = s.world.errorText := by
  obtain ⟨runs, hlength, ⟨new, hnew, hfilter⟩, htext⟩ := h.wrote
  have hcollected := h.report
  have hnone : runs = [] := by
    rw [hnew, List.filter_append, hfilter] at hruns
    exact List.append_right_eq_self.1 hruns
  rw [hnone] at hlength
  obtain rfl : pieces = [] := List.eq_nil_of_length_eq_zero hlength.symm
  rw [List.flatMap_nil, Logged.collected_nil] at hcollected
  refine ⟨hcollected, ?_⟩
  rw [htext, writtenBy, List.map_nil, String.join_nil, String.append_empty]

namespace Build

/-- A run logs what its turns log. -/
theorem logged_performAll (b : Build) (calls : List OnDemand.Call) (s : BuildState) :
    ∃ pieces, Logged b.onDemand.threshold s
      (b.performAll (calls.map Call.onDemand) s).2 pieces := by
  induction calls generalizing s with
  | nil => exact ⟨[], .refl _ s⟩
  | cons call calls ih =>
    obtain ⟨first, hfirst⟩ := b.onDemand.logged_perform call s
    obtain ⟨rest, hrest⟩ := ih (b.onDemand.perform call s).2
    rw [List.map_cons, performAll_cons]
    exact ⟨first ++ rest, hfirst.trans hrest⟩

/-- Each turn of a run is one of its calls, made in some state. -/
theorem logged_of_mem_turns {b : Build} {calls : List OnDemand.Call} {t : Turn}
    (h : t ∈ b.turns (calls.map Call.onDemand) s) :
    ∃ pieces, Logged b.onDemand.threshold t.before t.after pieces := by
  induction calls generalizing s with
  | nil => cases h
  | cons call calls ih =>
    rw [List.map_cons, turns] at h
    rcases List.mem_cons.1 h with rfl | h
    · exact b.onDemand.logged_perform call s
    · exact ih h

/-- **No diagnostic is lost, doubled or moved.**  After any calls about single packages the report
holds what it held before, then every warning and every error that the converter has logged, and the
progress was written out, all in the order of the calls of the log; a call during which no converter
ran adds nothing; and a log on its own, of whatever threshold, collects in the same way. -/
theorem performAll_logged (settings : Settings) (root : Option Path) (finder : Finder)
    (calls : List OnDemand.Call) (s : BuildState) :
    let b := ofParts settings root finder
    let after := (b.performAll (calls.map .onDemand) s).2
    (∃ pieces, Logged .info s after pieces ∧
      after.report.warnings
        = s.report.warnings ++ messages .warn (pieces.flatMap (·.1.calls)) ∧
      after.report.errors
        = s.report.errors ++ (messages .error (pieces.flatMap (·.1.calls))).map Finding.ofMessage ∧
      after.world.errorText
        = s.world.errorText ++ String.join (pieces.map fun piece =>
            framed (messages .info piece.1.calls) ++ piece.2)) ∧
    (∀ t ∈ b.turns (calls.map .onDemand) s,
      t.after.world.events.filter Event.runsConverter
          = t.before.world.events.filter Event.runsConverter →
        t.after.report = t.before.report ∧ t.after.world.errorText = t.before.world.errorText) ∧
    ∀ threshold r log, Report.logAll threshold r log = Report.collected threshold r log := by
  intro b after
  refine ⟨?_, ?_, Report.logAll_eq⟩
  · obtain ⟨pieces, hlogged⟩ := b.logged_performAll calls s
    have hlogged : Logged .info s after pieces := hlogged
    -- The threshold of a build's own log lets progress and warnings through.
    have hreport : after.report =
        { warnings := s.report.warnings ++ messages .warn (pieces.flatMap (·.1.calls))
          errors := s.report.errors
            ++ (messages .error (pieces.flatMap (·.1.calls))).map Finding.ofMessage } :=
      hlogged.report
    obtain ⟨runs, -, hwrote⟩ := hlogged.wrote
    exact ⟨pieces, hlogged, by rw [hreport], by rw [hreport], hwrote.errorText⟩
  · intro t ht hruns
    obtain ⟨pieces, hlogged⟩ := logged_of_mem_turns ht
    exact hlogged.eq_of_no_run hruns

end Build

end ConvertOnce
