import ConvertOnce.Fault

/-!
# Actions

An `Action` works on a state and ends with a value or a fault.  The state that it has reached is
kept either way, since a step that fails may have changed something before.
-/

namespace ConvertOnce

/-- A step on a state, with its outcome and the state that it reaches. -/
def Action (σ α : Type) : Type := σ → Except Fault α × σ

namespace Action

variable {σ α β : Type}

instance : Monad (Action σ) where
  pure a := fun s => (.ok a, s)
  bind x f := fun s =>
    match x s with
    | (.ok a, s') => f a s'
    | (.error fault, s') => (.error fault, s')

/-- Fails and changes nothing. -/
def fail (fault : Fault) : Action σ α := fun s => (.error fault, s)

/-- Asks a question about the state. -/
def query (question : σ → Except Fault α) : Action σ α := fun s => (question s, s)

theorem bind_of_ok {x : Action σ α} {f : α → Action σ β} {s s' : σ} {a : α}
    (h : x s = (.ok a, s')) : (x >>= f) s = f a s' := by
  simp [Bind.bind, h]

theorem bind_of_error {x : Action σ α} {f : α → Action σ β} {s s' : σ} {fault : Fault}
    (h : x s = (.error fault, s')) : (x >>= f) s = (.error fault, s') := by
  simp [Bind.bind, h]

end Action

end ConvertOnce
