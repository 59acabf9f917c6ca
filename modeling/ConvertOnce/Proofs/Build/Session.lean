import ConvertOnce.Build
import ConvertOnce.Proofs.OnDemand.History
import ConvertOnce.Proofs.World.SeenFrom

/-!
# What a host asks of a build

A `Build.Call` is one of the things that a host can ask of a build once it has been made: to convert
the whole tree, to look at one resolved module, to take note of a change, or to tell whether a file
is settled.  `Build.performAll` is a run of such calls, in which a failed call does not end the run.
What every call ignores the run ignores (`Build.performAll_of_ignores`).  Where it matters what a
single call of a run has done, the run is taken apart into its turns (`Build.turns`).
-/

namespace ConvertOnce.Build

/-- What a host asks of a build. -/
inductive Call where
  /-- Convert the whole tree, if that is due. -/
  | ensure
  /-- Something about single packages. -/
  | onDemand (call : OnDemand.Call)
  /-- Tell whether a file is settled. -/
  | isSettled (file : String)

/-- What a call that ended well is answered with. -/
inductive Answer where
  /-- What was decided about the whole tree. -/
  | decided (d : Decision)
  | done
  | settled (isSettled : Bool)
  deriving DecidableEq

/-- Carries out one call. -/
def perform (b : Build) : Call → Action BuildState Answer
  | .ensure => fun s =>
    let (outcome, world) := b.guard.ensure s.world
    (.decided <$> outcome, { s with world })
  | .onDemand call => fun s =>
    let (outcome, s) := b.onDemand.perform call s
    ((fun _ => .done) <$> outcome, s)
  | .isSettled file => fun s => (.ok (.settled (s.isSettled file)), s)

theorem perform_ensure (b : Build) (s : BuildState) :
    b.perform .ensure s =
      (.decided <$> (b.guard.ensure s.world).1,
        { s with world := (b.guard.ensure s.world).2 }) := rfl

theorem perform_onDemand (b : Build) (call : OnDemand.Call) (s : BuildState) :
    b.perform (.onDemand call) s =
      ((fun _ => .done) <$> (b.onDemand.perform call s).1, (b.onDemand.perform call s).2) := rfl

/-- Carries out one call after the other, and gathers what came of each. -/
def performAll (b : Build) : List Call → BuildState → List (Except Fault Answer) × BuildState
  | [], s => ([], s)
  | call :: calls, s =>
    let (answer, s) := b.perform call s
    let (answers, s) := b.performAll calls s
    (answer :: answers, s)

/-- A run of calls that ignore a change of the state comes to the same answers. -/
theorem performAll_of_ignores {b : Build} {calls : List Call} (f : BuildState → BuildState)
    (h : ∀ call ∈ calls, (b.perform call).Ignores f) (s : BuildState) :
    b.performAll calls (f s) = Prod.map id f (b.performAll calls s) := by
  -- On the calls, for every state: each call starts from where the one before has led.
  induction calls generalizing s with
  | nil => rfl
  | cons call calls ih =>
    have hfirst : b.perform call (f s) = Prod.map id f (b.perform call s) :=
      h call List.mem_cons_self s
    have hrest : ∀ s, b.performAll calls (f s) = Prod.map id f (b.performAll calls s) :=
      ih fun later hlater => h later (List.mem_cons_of_mem call hlater)
    rw [performAll, performAll, hfirst]
    dsimp only [Prod.map, id]
    rw [hrest]
    rfl

/-! ### Turn by turn -/

/-- A call of a run, with its answer and the states before and after it. -/
structure Turn where
  call : Call
  answer : Except Fault Answer
  before : BuildState
  after : BuildState

/-- The turn of a call that is made in a state. -/
def turn (b : Build) (call : Call) (s : BuildState) : Turn where
  call
  answer := (b.perform call s).1
  before := s
  after := (b.perform call s).2

/-- The turns of a run: each one starts in the state in which the one before has ended. -/
def turns (b : Build) : List Call → BuildState → List Turn
  | [], _ => []
  | call :: calls, s => b.turn call s :: b.turns calls (b.turn call s).after

theorem performAll_cons (b : Build) (call : Call) (calls : List Call) (s : BuildState) :
    b.performAll (call :: calls) s =
      ((b.turn call s).answer :: (b.performAll calls (b.turn call s).after).1,
        (b.performAll calls (b.turn call s).after).2) := rfl

end ConvertOnce.Build
