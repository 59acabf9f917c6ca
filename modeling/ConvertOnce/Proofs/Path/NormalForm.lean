import ConvertOnce.Proofs.Path.Text
import Mathlib.Data.List.Induction

/-!
# The normal form of a path

`Path.IsCanonical` says what a canonical path looks like, without saying how one is found: every
`..` stands in front, and there is none behind a root.  `Path.canonical` reaches this form
(`Path.isCanonical_canonical`) and leaves it alone (`Path.canonical_eq_self`).  For texts this
means that the canonical spellings are exactly those that `canonicalText` keeps
(`isCanonicalText_iff`).
-/

namespace ConvertOnce

namespace Path

/-- The parts of a path in normal form: a block of `..`, which is empty behind a root, and then
parts that are not `..`. -/
def AreCanonical (rooted : Bool) (parts : List String) : Prop :=
  ∃ n rest, parts = List.replicate n ".." ++ rest ∧ ".." ∉ rest ∧ (rooted = true → n = 0)

/-- A path with no `..` left that could be cancelled. -/
def IsCanonical (p : Path) : Prop := AreCanonical p.isAbsolute p.parts

/-! ### What one part does -/

theorem areCanonical_nil (rooted : Bool) : AreCanonical rooted [] := ⟨0, [], by simp⟩

/-- Adding a part other than `..` keeps the normal form. -/
theorem AreCanonical.concat {rooted : Bool} {parts : List String} {part : String}
    (h : AreCanonical rooted parts) (hpart : part ≠ "..") :
    AreCanonical rooted (parts ++ [part]) := by
  obtain ⟨n, rest, rfl, hrest, hn⟩ := h
  refine ⟨n, rest ++ [part], by simp, ?_, hn⟩
  simp only [List.mem_append, List.mem_singleton, not_or]
  exact ⟨hrest, Ne.symm hpart⟩

/-- Without a root, stepping up from nothing but `..` gives one more of them. -/
theorem stepUp_replicate (n : Nat) :
    stepUp false (List.replicate n "..") = List.replicate (n + 1) ".." := by
  cases n with
  | zero => rfl
  | succ n => simp [stepUp, List.replicate_succ]

/-- Stepping up keeps the normal form. -/
theorem AreCanonical.stepUp {rooted : Bool} {parts : List String} (h : AreCanonical rooted parts) :
    AreCanonical rooted (stepUp rooted parts.reverse).reverse := by
  obtain ⟨n, rest, rfl, hrest, hn⟩ := h
  rcases List.eq_nil_or_concat' rest with rfl | ⟨init, last, rfl⟩
  · -- Nothing but `..`: one more of them, unless a root swallows it.
    cases rooted with
    | true => rw [hn rfl]; exact areCanonical_nil true
    | false =>
      refine ⟨n + 1, [], ?_, by simp, by simp⟩
      rw [List.append_nil, List.append_nil, List.reverse_replicate, stepUp_replicate,
        List.reverse_replicate]
  · have hlast : last ≠ ".." := fun hl => hrest (by simp [hl])
    refine ⟨n, init, ?_, fun hi => hrest (by simp [hi]), hn⟩
    simp [Path.stepUp, hlast]

@[simp] theorem anchor_push (p : Path) (piece : String) : (p.push piece).anchor = p.anchor := by
  rw [push]
  split
  · rfl
  · split <;> rfl

theorem parts_push_up (p : Path) :
    (p.push "..").parts = (stepUp p.isAbsolute p.parts.reverse).reverse := by
  rw [push, if_pos rfl]

theorem parts_push_of_ne {p : Path} {piece : String} (h : IsPart piece) (hne : piece ≠ "..") :
    (p.push piece).parts = p.parts ++ [piece] := by
  rw [push, if_neg hne, dif_pos h]

theorem isAbsolute_push (p : Path) (piece : String) :
    (p.push piece).isAbsolute = p.isAbsolute := by
  rw [isAbsolute, anchor_push, isAbsolute]

/-- One more piece keeps the normal form. -/
theorem IsCanonical.push {p : Path} (h : p.IsCanonical) (piece : String) :
    (p.push piece).IsCanonical := by
  rw [IsCanonical, isAbsolute_push]
  by_cases hup : piece = ".."
  · rw [hup, parts_push_up]
    exact AreCanonical.stepUp h
  · by_cases hpart : IsPart piece
    · rw [parts_push_of_ne hpart hup]
      exact AreCanonical.concat h hup
    · rwa [Path.push, if_neg hup, dif_neg hpart]

/-! ### What all parts do -/

theorem isCanonical_foldl_push (pieces : List String) :
    ∀ {p : Path}, p.IsCanonical → (pieces.foldl push p).IsCanonical := by
  induction pieces with
  | nil => intro p h; exact h
  | cons piece pieces ih => intro p h; exact ih (h.push piece)

theorem anchor_foldl_push (pieces : List String) :
    ∀ p : Path, (pieces.foldl push p).anchor = p.anchor := by
  induction pieces with
  | nil => intro p; rfl
  | cons piece pieces ih => intro p; rw [List.foldl_cons, ih, anchor_push]

@[simp] theorem anchor_canonical (p : Path) : p.canonical.anchor = p.anchor :=
  anchor_foldl_push p.parts (bare p.anchor)

/-- The canonical form of a path is canonical. -/
theorem isCanonical_canonical (p : Path) : p.canonical.IsCanonical :=
  isCanonical_foldl_push p.parts (areCanonical_nil _)

/-- The parts before the last one of a normal form are in normal form, and a `..` at the end has
nothing but `..` before it and no root. -/
theorem AreCanonical.of_concat {rooted : Bool} {parts : List String} {part : String}
    (h : AreCanonical rooted (parts ++ [part])) :
    AreCanonical rooted parts ∧
      (part = ".." → rooted = false ∧ ∃ n, parts = List.replicate n "..") := by
  obtain ⟨n, rest, heq, hrest, hn⟩ := h
  -- The last part is the last of the names or, where there are none, the last `..`.
  rcases List.eq_nil_or_concat' rest with rfl | ⟨init, last, rfl⟩
  · cases n with
    | zero => simp at heq
    | succ n =>
      rw [List.append_nil, List.replicate_succ'] at heq
      obtain ⟨hparts, hpart⟩ := List.append_inj' heq rfl
      have hfalse : rooted = false := by
        cases rooted with
        | true => exact absurd (hn rfl) (by simp)
        | false => rfl
      refine ⟨⟨n, [], by simp [hparts], by simp, by simp [hfalse]⟩, fun _ => ⟨hfalse, n, hparts⟩⟩
  · rw [← List.append_assoc] at heq
    obtain ⟨hparts, hpart⟩ := List.append_inj' heq rfl
    obtain rfl : part = last := by simpa using hpart
    refine ⟨⟨n, init, hparts, fun hi => hrest (by simp [hi]), hn⟩, fun hup => ?_⟩
    exact absurd (by simp [hup]) hrest

/-- Pushing the parts of a normal form in turn gives these parts. -/
theorem parts_foldl_push_of_areCanonical (a : Anchor) (parts : List String) :
    AreCanonical (bare a).isAbsolute parts → (∀ s ∈ parts, IsPart s) →
      (parts.foldl push (bare a)).parts = parts := by
  -- From the right: the last part meets a path that is made of the parts before it.
  induction parts using List.reverseRecOn with
  | nil => intros; rfl
  | append_singleton parts part ih =>
    intro h hpart
    obtain ⟨hinit, hup⟩ := h.of_concat
    have hrec := ih hinit fun s hs => hpart s (by simp [hs])
    have habs : (parts.foldl push (bare a)).isAbsolute = (bare a).isAbsolute := by
      rw [isAbsolute, anchor_foldl_push, isAbsolute]
    rw [List.foldl_append, List.foldl_cons, List.foldl_nil]
    by_cases hdd : part = ".."
    · obtain ⟨hrooted, n, hn⟩ := hup hdd
      rw [hdd, parts_push_up, hrec, habs, hrooted, hn, List.reverse_replicate, stepUp_replicate,
        List.reverse_replicate, List.replicate_succ']
    · rw [parts_push_of_ne (hpart part (by simp)) hdd, hrec]

/-- A canonical path is its own canonical form. -/
theorem canonical_eq_self {p : Path} (h : p.IsCanonical) : p.canonical = p :=
  ext_parts (anchor_canonical p)
    (parts_foldl_push_of_areCanonical p.anchor p.parts h p.isPart_of_mem)

/-- The canonical form takes in what is added to a path. -/
theorem canonical_div_of_isPart {p : Path} {part : String} (h : IsPart part) :
    (p / part).canonical = p.canonical.push part := by
  rw [canonical, anchor_div_of_isPart h, parts_div_of_isPart h, List.foldl_append]
  rfl

end Path

/-! ### Texts -/

/-- The text of a canonical path. -/
def IsCanonicalText (s : String) : Prop := ∃ p : Path, p.IsCanonical ∧ p.text = s

theorem isCanonicalText_canonicalText (s : String) : IsCanonicalText (canonicalText s) :=
  ⟨_, Path.isCanonical_canonical _, rfl⟩

/-- The canonical texts are those that are their own canonical spelling. -/
theorem isCanonicalText_iff {s : String} : IsCanonicalText s ↔ canonicalText s = s := by
  constructor
  · rintro ⟨p, hp, rfl⟩
    rw [canonicalText, Path.ofString_text, Path.canonical_eq_self hp]
  · intro h
    rw [← h]
    exact isCanonicalText_canonicalText s

end ConvertOnce
