import ConvertOnce.Proofs.Guard.Traces
import ConvertOnce.Proofs.World.Profiled

/-!
# A guard with and without profiling

Deciding and recording write nothing and look at nothing that tells mirrored worlds apart, provided
that the variable of a sandboxed build is another one than that of the profiling; what is measured
is the conversion in between (`Guard.ensure_transparent`).
-/

namespace ConvertOnce.Guard

open World

variable {g : Guard} {w w' : World}

/-- The label of the measured conversions of a tree. -/
def timingLabel : String := "RunGate.execute"

theorem isSandboxed_mirrored (hskip : g.settings.skipVariable ≠ profilingVariable)
    (h : w.Mirrors w') : g.isSandboxed w' = g.isSandboxed w := by
  rw [isSandboxed, isSandboxed, environmentIn, environmentIn]
  cases g.environment with
  | none => exact h.isSet_eq hskip
  | some environment => rfl

/-- The same is decided with profiling and without. -/
theorem decide_transparent (hskip : g.settings.skipVariable ≠ profilingVariable)
    (hfinder : g.finder.IgnoresProfiling) : g.decide.Transparent timingLabel := by
  intro w w' h
  have hasked := (onlyAsked_decide g w).wrote
  have hasked' := (onlyAsked_decide g w').wrote
  have hsame := isSandboxed_mirrored hskip h
  rw [← and_assoc]
  refine ⟨?_, writtenAlike_of_quiet hasked hasked'⟩
  -- Neither variable is the other, so both guards see the same sandbox and ask the finder alike.
  rw [decide, decide]
  cases g.dependencyRoot with
  | none => exact ⟨rfl, h⟩
  | some root =>
    dsimp only
    rw [hsame]
    split
    · exact ⟨rfl, h⟩
    split
    · exact ⟨rfl, h⟩
    · obtain ⟨hmanifest, hworlds⟩ := hfinder.manifest? h g.settings.probePackage root.text
      dsimp only
      refine ⟨?_, hworlds⟩
      rw [hmanifest, hworlds.files]

/-- A conversion is measured, if there is one. -/
theorem convert_transparent (g : Guard) (d : Decision) : (g.convert d).Transparent timingLabel := by
  unfold convert
  cases d.verdict with
  | skip => exact Action.transparent_pure ()
  | run =>
    cases g.dependencyRoot with
    | none => exact Action.transparent_fail _
    | some root =>
      cases g.settings.converterMain with
      | none => exact Action.transparent_fail _
      | some main => exact transparent_convertTree timingLabel _

theorem wrote_record (d : Decision) (w : World) : w.Wrote (record d w).2 [] "" :=
  ⟨⟨[], (List.append_nil _).symm, rfl⟩, String.append_empty.symm⟩

theorem record_transparent (d : Decision) : (record d).Transparent timingLabel := by
  intro w w' h
  rw [← and_assoc]
  refine ⟨?_, writtenAlike_of_quiet (wrote_record d w) (wrote_record d w')⟩
  rw [record, record, h.files]
  exact ⟨rfl, h.withFiles _⟩

/-- **A call decides, converts and records the same with profiling and without**, and the line of
the measurement is all that is written besides. -/
theorem ensure_transparent (hskip : g.settings.skipVariable ≠ profilingVariable)
    (hfinder : g.finder.IgnoresProfiling) : g.ensure.Transparent timingLabel := by
  rw [ensure]
  refine (decide_transparent hskip hfinder).bind fun d => ?_
  split
  · refine (convert_transparent g d).bind fun _ => ?_
    exact (record_transparent d).bind fun _ => Action.transparent_pure d
  · exact Action.transparent_pure d

end ConvertOnce.Guard
