import ConvertOnce.Path.Canonical
import ConvertOnce.Proofs.Except
import ConvertOnce.Proofs.Path.Text
import Mathlib.Data.Nat.Find

/-!
# Searching outwards

The ancestors of a path are its absolute form with ever fewer parts, so the directory that settles a
search outwards is known by the number of its parts.  `Path.IsNearest` says for which number that
is, given what passes a directory over: the greatest one whose directory is not passed over.  A
search ends with what its step makes of that directory (`Path.IsNearest.findSomeM?_ancestors`), and
finds nothing where every directory is passed over (`Path.findSomeM?_ancestors_eq_none_iff`).
-/

namespace ConvertOnce.Path

variable {p q whole start : Path} {cwd : String} {n k : Nat} {passes passes' : Path → Prop}

/-! ### The first parts of a path -/

theorem take_length_parts (p : Path) : p.take p.parts.length = p :=
  ext_parts rfl (List.take_length)

theorem take_length_sub_one (p : Path) : p.take (p.parts.length - 1) = p.parent :=
  ext_parts rfl List.dropLast_eq_take.symm

/-- What is above a directory has one part less. -/
theorem parent_take_succ (h : n + 1 ≤ p.parts.length) : (p.take (n + 1)).parent = p.take n := by
  refine ext_parts rfl ?_
  show (p.parts.take (n + 1)).dropLast = p.parts.take n
  have hlength : (p.parts.take (n + 1)).length = n + 1 := by
    rw [List.length_take]
    omega
  rw [List.dropLast_eq_take, hlength, List.take_take]
  congr 1
  omega

/-- The way outwards from the first parts of a path begins with them and goes on with one less. -/
theorem outward_take_succ (h : n + 1 ≤ p.parts.length) :
    outward (n + 1) (p.take (n + 1)) = p.take (n + 1) :: outward n (p.take n) := by
  rw [outward, parent_take_succ h]

theorem ancestors_eq_outward_take (start : Path) (cwd : String) :
    start.ancestors cwd = outward (start.absolute cwd).parts.length
      ((start.absolute cwd).take (start.absolute cwd).parts.length) := by
  rw [take_length_parts, ancestors]

theorem mem_outward_take (hk : k ≤ p.parts.length) :
    q ∈ outward k (p.take k) ↔ ∃ n, 0 < n ∧ n ≤ k ∧ q = p.take n := by
  -- By induction on the number of parts: one more directory is met before those for fewer parts.
  induction k with
  | zero =>
    constructor
    · intro h
      cases h
    · rintro ⟨n, hpos, hle, -⟩
      omega
  | succ k ih =>
    rw [outward_take_succ hk, List.mem_cons, ih (by omega)]
    constructor
    · rintro (rfl | ⟨n, hpos, hle, rfl⟩)
      · exact ⟨k + 1, by omega, Nat.le_refl _, rfl⟩
      · exact ⟨n, hpos, by omega, rfl⟩
    · rintro ⟨n, hpos, hle, rfl⟩
      rcases Nat.lt_or_eq_of_le hle with hlt | rfl
      · exact Or.inr ⟨n, hpos, by omega, rfl⟩
      · exact Or.inl rfl

/-- **The ancestors of a path** have its first parts, one or more of them. -/
theorem mem_ancestors_iff :
    q ∈ start.ancestors cwd ↔
      ∃ n, 0 < n ∧ n ≤ (start.absolute cwd).parts.length ∧ q = (start.absolute cwd).take n := by
  rw [ancestors_eq_outward_take]
  exact mem_outward_take (Nat.le_refl _)

/-! ### The nearest directory -/

/-- The first `n` parts of a path are those of the innermost directory, at or above it, that is not
passed over.  The bare root is none of the directories. -/
structure IsNearest (passes : Path → Prop) (whole : Path) (n : Nat) : Prop where
  /-- It is not the bare root. -/
  pos : 0 < n
  /-- It is at the path or above it. -/
  le : n ≤ whole.parts.length
  /-- It is not passed over. -/
  not_passed : ¬ passes (whole.take n)
  /-- All that lie further in are. -/
  passed : ∀ m, n < m → m ≤ whole.parts.length → passes (whole.take m)

/-- Two ways to pass directories over have the same nearest one if they agree up to it. -/
theorem IsNearest.congr (h : IsNearest passes whole n)
    (hsame : ∀ m, n ≤ m → m ≤ whole.parts.length →
      (passes' (whole.take m) ↔ passes (whole.take m))) :
    IsNearest passes' whole n where
  pos := h.pos
  le := h.le
  not_passed := by
    rw [hsame n (Nat.le_refl n) h.le]
    exact h.not_passed
  passed m hm hle := by
    rw [hsame m (Nat.le_of_lt hm) hle]
    exact h.passed m hm hle

/-- Either there is a nearest directory or all are passed over. -/
theorem exists_isNearest_or (passes : Path → Prop) (whole : Path) :
    (∃ n, IsNearest passes whole n) ∨
      ∀ n, 0 < n → n ≤ whole.parts.length → passes (whole.take n) := by
  classical
  by_cases hall : ∀ n, 0 < n → n ≤ whole.parts.length → passes (whole.take n)
  · exact Or.inr hall
  · push Not at hall
    obtain ⟨n, hpos, hle, hnot⟩ := hall
    -- The greatest number of parts with a directory that is not passed over.
    let candidate : Nat → Prop := fun n => 0 < n ∧ ¬ passes (whole.take n)
    have hspec : candidate (Nat.findGreatest candidate whole.parts.length) :=
      Nat.findGreatest_spec hle ⟨hpos, hnot⟩
    refine Or.inl ⟨Nat.findGreatest candidate whole.parts.length, hspec.1,
      Nat.findGreatest_le _, hspec.2, ?_⟩
    intro m hm hmle
    have hmnot : ¬ candidate m := Nat.findGreatest_is_greatest hm hmle
    by_contra hpass
    exact hmnot ⟨by omega, hpass⟩

/-! ### Searches -/

variable {ε β : Type} {step : Path → Except ε (Option β)}

/-- A search outwards ends with what its step makes of the nearest directory. -/
theorem findSomeM?_outward_take (hpos : 0 < n) (hn : n ≤ k) (hk : k ≤ whole.parts.length)
    (hstep : step (whole.take n) ≠ .ok none)
    (hpassed : ∀ m, n < m → m ≤ k → step (whole.take m) = .ok none) :
    (outward k (whole.take k)).findSomeM? step = step (whole.take n) := by
  -- By induction on the number of parts: a directory with more of them than the nearest is passed
  -- over.
  induction k with
  | zero => omega
  | succ k ih =>
    rw [outward_take_succ hk, List.findSomeM?_cons]
    by_cases hlast : n = k + 1
    · subst hlast
      cases hfound : step (whole.take (k + 1)) with
      | error e => rfl
      | ok found =>
        cases found with
        | none => exact absurd hfound hstep
        | some b => rfl
    · have hnone : step (whole.take (k + 1)) = .ok none := by
        apply hpassed <;> omega
      rw [hnone, ok_bind]
      apply ih
      · omega
      · omega
      · intro m hm hmk
        apply hpassed <;> omega

/-- **The nearest directory settles the search**, whatever lies further out. -/
theorem IsNearest.findSomeM?_ancestors
    (h : IsNearest (fun d => step d = .ok none) (start.absolute cwd) n) :
    (start.ancestors cwd).findSomeM? step = step ((start.absolute cwd).take n) := by
  rw [ancestors_eq_outward_take]
  exact findSomeM?_outward_take h.pos h.le (Nat.le_refl _) h.not_passed h.passed

/-- A search outwards finds nothing exactly where every directory is passed over. -/
theorem findSomeM?_ancestors_eq_none_iff :
    (start.ancestors cwd).findSomeM? step = .ok none ↔
      ∀ n, 0 < n → n ≤ (start.absolute cwd).parts.length →
        step ((start.absolute cwd).take n) = .ok none := by
  rw [findSomeM?_eq_ok_none_iff]
  constructor
  · intro h n hpos hle
    exact h _ (mem_ancestors_iff.2 ⟨n, hpos, hle, rfl⟩)
  · intro h directory hmem
    obtain ⟨n, hpos, hle, rfl⟩ := mem_ancestors_iff.1 hmem
    exact h n hpos hle

end ConvertOnce.Path
