import ConvertOnce.Proofs.Build.SeenFrom
import ConvertOnce.Proofs.Guard.Profiled
import ConvertOnce.Proofs.OnDemand.Profiled

/-!
# A build with and without profiling

The same calls are made twice, once without profiling and once with it.  The two runs go turn by
turn side by side (`Build.performAll_profiled`): every call is answered the same, mirrored states
are reached, and the only thing that the profiled run has more is one line on the error stream
behind the output of every run of the converter, be it a child process or not and whether it fails
or not.
-/

namespace ConvertOnce

namespace BuildState

end BuildState

namespace Build

open World

variable {b : Build} {s s' : BuildState}

/-- The label of what is measured during a call. -/
def Call.timingLabel : Call → String
  | .ensure => Guard.timingLabel
  | .onDemand (.offer moduleName _) => OnDemand.timingLabel moduleName
  | .onDemand (.changed _) | .isSettled _ => ""

/-- The second turn is the first one with profiling: the call and the answer are the same, the
states mirror one another, and behind the output of each run of the converter there is one line
more. -/
structure Turn.Mirrors (t t' : Turn) : Prop where
  call : t'.call = t.call
  answer : t'.answer = t.answer
  before : t.before.Mirrors t'.before
  after : t.after.Mirrors t'.after
  text : WrittenAlike t.call.timingLabel t.before.world t.after.world t'.before.world
    t'.after.world

/-- No part of the build looks at whether it is profiled. -/
structure IgnoresProfiling (b : Build) : Prop where
  skipVariable : b.guard.settings.skipVariable ≠ profilingVariable
  guardFinder : b.guard.finder.IgnoresProfiling
  onDemandFinder : b.onDemand.finder.IgnoresProfiling

/-- **One turn.**  From mirrored states a call leads to mirrored states. -/
theorem IgnoresProfiling.turn (hb : b.IgnoresProfiling) (h : s.Mirrors s') (call : Call) :
    (b.turn call s).Mirrors (b.turn call s') := by
  -- Only two kinds of calls come to a converter, and each of these has a lemma of its own.
  cases call with
  | ensure =>
    obtain ⟨houtcome, hworlds, htext⟩ :=
      Guard.ensure_transparent hb.skipVariable hb.guardFinder _ _ h.world
    exact ⟨rfl, congrArg (Answer.decided <$> ·) houtcome, h, h.withWorld hworlds, htext⟩
  | isSettled file =>
    have hanswer : s'.isSettled file = s.isSettled file := h.isSettled_eq file
    refine ⟨rfl, ?_, h, h, .refl _ _⟩
    show Except.ok (Answer.settled (s'.isSettled file)) = .ok (.settled (s.isSettled file))
    rw [hanswer]
  | onDemand call =>
    cases call with
    | changed file =>
      exact ⟨rfl, rfl, h, h.unsettle file, .refl _ _⟩
    | offer moduleName file =>
      obtain ⟨houtcome, hstates, htext⟩ :=
        OnDemand.offer_mirrored hb.onDemandFinder moduleName file h
      exact ⟨rfl, congrArg ((fun _ => Answer.done) <$> ·) houtcome, h, hstates, htext⟩

/-- The turns of two runs from mirrored states go side by side. -/
theorem IgnoresProfiling.turns (hb : b.IgnoresProfiling) (h : s.Mirrors s') (calls : List Call) :
    List.Forall₂ Turn.Mirrors (b.turns calls s) (b.turns calls s') ∧
      (b.performAll calls s).2.Mirrors (b.performAll calls s').2 := by
  -- On the calls: what one turn reaches is where the next one starts.
  induction calls generalizing s s' with
  | nil => exact ⟨.nil, h⟩
  | cons call calls ih =>
    have hturn := hb.turn h call
    obtain ⟨hturns, hlast⟩ := ih hturn.after
    exact ⟨.cons hturn hturns, hlast⟩

end Build

end ConvertOnce
