import Mathlib.Logic.Basic

/-!
# Steps that can fail

When a step after a step ends well, or fails, and which element of a list a search with steps that
can fail ends at.
-/

namespace ConvertOnce

variable {ε α β : Type}

theorem pure_eq_ok (a : α) : (pure a : Except ε α) = .ok a := rfl

theorem ok_bind (a : α) (f : α → Except ε β) : (Except.ok a >>= f) = f a := rfl

/-- Two steps end well when both do. -/
theorem bind_eq_ok_iff {x : Except ε α} {f : α → Except ε β} {b : β} :
    (x >>= f) = .ok b ↔ ∃ a, x = .ok a ∧ f a = .ok b := by
  cases x with
  | error e => simp [bind, Except.bind]
  | ok a => simp [bind, Except.bind]

/-- What comes second matters only for what the first step can end with. -/
theorem bind_congr_of_ok {x : Except ε α} {f g : α → Except ε β}
    (h : ∀ a, x = .ok a → f a = g a) : x >>= f = x >>= g := by
  cases x with
  | error e => rfl
  | ok a => exact h a rfl

/-- Two steps fail when the first one does, or else the second. -/
theorem bind_eq_error_iff {x : Except ε α} {f : α → Except ε β} {e : ε} :
    (x >>= f) = .error e ↔ x = .error e ∨ ∃ a, x = .ok a ∧ f a = .error e := by
  cases x with
  | error e => simp [bind, Except.bind]
  | ok a => simp [bind, Except.bind]

theorem map_eq_ok_iff {x : Except ε α} {f : α → β} {b : β} :
    f <$> x = .ok b ↔ ∃ a, x = .ok a ∧ f a = b := by
  cases x with
  | error e => simp [Functor.map, Except.map]
  | ok a => simp [Functor.map, Except.map]

theorem map_eq_error_iff {x : Except ε α} {f : α → β} {e : ε} :
    f <$> x = .error e ↔ x = .error e := by
  cases x with
  | error e => simp [Functor.map, Except.map]
  | ok a => simp [Functor.map, Except.map]

/-- Two steps end alike under a function when both fail alike, or both end well and alike under
it. -/
theorem map_eq_map_iff {x y : Except ε α} {f : α → β} :
    f <$> x = f <$> y ↔
      (∃ e, x = .error e ∧ y = .error e) ∨ ∃ a b, x = .ok a ∧ y = .ok b ∧ f a = f b := by
  cases x <;> cases y <;> simp [Functor.map, Except.map, eq_comm]

/-- An error under another name is still an error. -/
theorem mapError_eq_ok_iff {ε' : Type} {x : Except ε α} {f : ε → ε'} {a : α} :
    x.mapError f = .ok a ↔ x = .ok a := by
  cases x with
  | error e =>
    constructor
    · intro h
      cases h
    · intro h
      cases h
  | ok a =>
    constructor
    · intro h
      cases h
      rfl
    · intro h
      cases h
      rfl

theorem mapError_eq_error_iff {ε' : Type} {x : Except ε α} {f : ε → ε'} {e' : ε'} :
    x.mapError f = .error e' ↔ ∃ e, x = .error e ∧ f e = e' := by
  cases x with
  | error e =>
    have hrenamed : (Except.error e : Except ε α).mapError f = .error (f e) := rfl
    rw [hrenamed]
    simp
  | ok a =>
    constructor
    · intro h
      cases h
    · rintro ⟨e, h, -⟩
      cases h

/-- The first success in a list: what comes before it was passed over. -/
theorem findSomeM?_eq_ok_some_iff {f : α → Except ε (Option β)} {xs : List α} {b : β} :
    xs.findSomeM? f = .ok (some b) ↔
      ∃ before a after, xs = before ++ a :: after ∧ f a = .ok (some b) ∧
        ∀ x ∈ before, f x = .ok none := by
  -- By induction on the list: its head succeeds, or is passed over and belongs to what comes
  -- before.
  induction xs with
  | nil => simp [pure_eq_ok]
  | cons x xs ih =>
    rw [List.findSomeM?_cons, bind_eq_ok_iff]
    constructor
    · rintro ⟨found, hx, h⟩
      cases found with
      | none =>
        obtain ⟨before, a, after, rfl, ha, hbefore⟩ := ih.1 h
        refine ⟨x :: before, a, after, rfl, ha, fun y hy => ?_⟩
        rcases List.mem_cons.1 hy with rfl | hy
        · exact hx
        · exact hbefore y hy
      | some found =>
        obtain rfl : found = b := by simpa [pure_eq_ok] using h
        exact ⟨[], x, xs, rfl, hx, by simp⟩
    · rintro ⟨before, a, after, heq, ha, hbefore⟩
      cases before with
      | nil =>
        obtain ⟨rfl, -⟩ := List.cons.inj heq
        exact ⟨some b, ha, rfl⟩
      | cons y before =>
        obtain ⟨rfl, rfl⟩ := List.cons.inj heq
        exact ⟨none, hbefore x (by simp),
          ih.2 ⟨before, a, after, rfl, ha, fun z hz => hbefore z (by simp [hz])⟩⟩

/-- A search without success has passed over everything. -/
theorem findSomeM?_eq_ok_none_iff {f : α → Except ε (Option β)} {xs : List α} :
    xs.findSomeM? f = .ok none ↔ ∀ x ∈ xs, f x = .ok none := by
  induction xs with
  | nil => simp [pure_eq_ok]
  | cons x xs ih =>
    rw [List.findSomeM?_cons, bind_eq_ok_iff, List.forall_mem_cons]
    constructor
    · rintro ⟨found, hx, h⟩
      cases found with
      | none => exact ⟨hx, ih.1 h⟩
      | some found => cases h
    · rintro ⟨hx, hrest⟩
      exact ⟨none, hx, ih.2 hrest⟩

/-- A search fails at some element. -/
theorem exists_of_findSomeM?_eq_error {f : α → Except ε (Option β)} {xs : List α} {e : ε}
    (h : xs.findSomeM? f = .error e) : ∃ x ∈ xs, f x = .error e := by
  induction xs with
  | nil => cases h
  | cons x xs ih =>
    rw [List.findSomeM?_cons] at h
    rcases bind_eq_error_iff.1 h with hx | ⟨found, -, h⟩
    · exact ⟨x, by simp, hx⟩
    · cases found with
      | some found => cases h
      | none =>
        obtain ⟨y, hy, hfails⟩ := ih h
        exact ⟨y, by simp [hy], hfails⟩

/-- A search depends on what is done with the elements of the list only. -/
theorem findSomeM?_congr {f g : α → Except ε (Option β)} {xs : List α} (h : ∀ x ∈ xs, f x = g x) :
    xs.findSomeM? f = xs.findSomeM? g := by
  induction xs with
  | nil => rfl
  | cons x xs ih =>
    have htail : xs.findSomeM? f = xs.findSomeM? g := ih fun y hy => h y (by simp [hy])
    rw [List.findSomeM?_cons, List.findSomeM?_cons, h x (by simp), htail]

end ConvertOnce
