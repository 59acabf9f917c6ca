import ConvertOnce.Path.Canonical
import ConvertOnce.Proofs.Path.NormalForm
import Mathlib.Data.List.TakeWhile

/-!
# Absolute paths stay absolute

What is built from an absolute path is absolute: its parent, its ancestors, its canonical form, the
path that a name adds to it, and the directory part of its text.  The current directory therefore
has no say in the absolute form of an absolute path (`Path.absolute_of_isAbsolute`), in its
ancestors (`Path.ancestors_of_isAbsolute`), or in the way from one absolute path to another
(`Path.relativeTo_of_isAbsolute`).
-/

namespace ConvertOnce

/-- The text begins with a slash. -/
def IsAbsoluteText (s : String) : Prop := s.toList.head? = some '/'

instance (s : String) : Decidable (IsAbsoluteText s) :=
  inferInstanceAs (Decidable (s.toList.head? = some '/'))

namespace Path

variable {p q start : Path} {s cwd cwd' : String}

theorem isAbsolute_of_anchor_eq (h : p.isAbsolute = true) (hanchor : q.anchor = p.anchor) :
    q.isAbsolute = true := by
  rwa [isAbsolute, hanchor]

theorem isAbsolute_ofString (h : IsAbsoluteText s) : (ofString s).isAbsolute = true := by
  show (Anchor.ofChars s.toList != .relative) = true
  unfold IsAbsoluteText at h
  cases hs : s.toList with
  | nil =>
    rw [hs] at h
    cases h
  | cons c cs =>
    rw [hs] at h
    obtain rfl : c = '/' := Option.some.inj h
    unfold Anchor.ofChars
    split <;> simp_all

/-- What is read from a text without a slash in front has no root. -/
theorem anchor_ofString_of_relative (h : ¬ IsAbsoluteText s) : (ofString s).anchor = .relative :=
  Anchor.ofChars_of_head h

theorem isAbsolute_ofString_iff : (ofString s).isAbsolute = true ↔ IsAbsoluteText s := by
  constructor
  · intro h
    by_contra hnot
    rw [isAbsolute, anchor_ofString_of_relative hnot] at h
    cases h
  · exact isAbsolute_ofString

theorem anchor_div_of_relative (h : ¬ IsAbsoluteText s) : (p / s).anchor = p.anchor := by
  show (p.join (ofString s)).anchor = p.anchor
  rw [join, if_pos (anchor_ofString_of_relative h)]

/-- A text without a slash in front adds its parts. -/
theorem parts_div_of_relative (h : ¬ IsAbsoluteText s) :
    (p / s).parts = p.parts ++ (ofString s).parts := by
  show (p.join (ofString s)).parts = p.parts ++ (ofString s).parts
  rw [join, if_pos (anchor_ofString_of_relative h)]

theorem isAbsoluteText_text (h : p.isAbsolute = true) : IsAbsoluteText p.text :=
  (head?_text_eq_slash_iff p).2 h

theorem isAbsolute_join (h : p.isAbsolute = true) (q : Path) : (p.join q).isAbsolute = true := by
  rw [join]
  split
  · exact h
  · next hq => exact bne_iff_ne.2 hq

theorem isAbsolute_div (h : p.isAbsolute = true) (s : String) : (p / s).isAbsolute = true :=
  isAbsolute_join h (ofString s)

theorem isAbsolute_parent (h : p.isAbsolute = true) : p.parent.isAbsolute = true := h

theorem isAbsolute_canonical (h : p.isAbsolute = true) : p.canonical.isAbsolute = true :=
  isAbsolute_of_anchor_eq h (anchor_canonical p)

/-- The absolute form of an absolute path is its canonical form. -/
theorem absolute_of_isAbsolute (cwd : String) (h : p.isAbsolute = true) :
    p.absolute cwd = p.canonical := by
  have hanchor : p.anchor ≠ .relative := bne_iff_ne.1 h
  rw [absolute, join, if_neg hanchor]

/-- The absolute form of a path is absolute, if the path is or the current directory is. -/
theorem isAbsolute_absolute (h : p.isAbsolute = true ∨ IsAbsoluteText cwd) :
    (p.absolute cwd).isAbsolute = true := by
  rcases h with h | h
  · rw [absolute_of_isAbsolute cwd h]
    exact isAbsolute_canonical h
  · exact isAbsolute_canonical (isAbsolute_join (isAbsolute_ofString h) p)

theorem isCanonical_absolute (p : Path) (cwd : String) : (p.absolute cwd).IsCanonical :=
  isCanonical_canonical _

theorem anchor_of_mem_outward {n : Nat} (h : q ∈ outward n p) : q.anchor = p.anchor := by
  induction n generalizing p with
  | zero => cases h
  | succ n ih =>
    rcases List.mem_cons.1 h with rfl | h
    · rfl
    · have hparent : q.anchor = p.parent.anchor := ih h
      exact hparent

theorem ancestors_of_isAbsolute (cwd cwd' : String) (h : p.isAbsolute = true) :
    p.ancestors cwd = p.ancestors cwd' := by
  rw [ancestors, ancestors, absolute_of_isAbsolute cwd h, absolute_of_isAbsolute cwd' h]

theorem isAbsolute_of_mem_ancestors (h : p.isAbsolute = true) (hq : q ∈ p.ancestors cwd) :
    q.isAbsolute = true := by
  rw [ancestors, absolute_of_isAbsolute cwd h] at hq
  exact isAbsolute_of_anchor_eq (isAbsolute_canonical h) (anchor_of_mem_outward hq)

theorem relativeTo_of_isAbsolute (cwd cwd' : String) (h : p.isAbsolute = true)
    (hstart : start.isAbsolute = true) : p.relativeTo cwd start = p.relativeTo cwd' start := by
  rw [relativeTo, relativeTo, absolute_of_isAbsolute cwd h, absolute_of_isAbsolute cwd' h,
    absolute_of_isAbsolute cwd hstart, absolute_of_isAbsolute cwd' hstart]

end Path

/-- The directory part of an absolute text is absolute. -/
theorem isAbsoluteText_directoryText {s : String} (h : IsAbsoluteText s) :
    IsAbsoluteText (directoryText s) := by
  have hslash : '/' ∈ s.toList := List.mem_of_mem_head? h
  -- From the back, what is dropped ends at the last slash, and the first one stays.
  have hsuffix : s.toList.reverse.dropWhile (· ≠ '/') <:+ s.toList.reverse :=
    List.dropWhile_suffix _
  have hne : s.toList.reverse.dropWhile (· ≠ '/') ≠ [] := by
    intro hnil
    have hall := List.dropWhile_eq_nil_iff.1 hnil '/' (List.mem_reverse.2 hslash)
    simp at hall
  unfold directoryText
  generalize s.toList.reverse.dropWhile (· ≠ '/') = head at hsuffix hne
  dsimp only
  split
  · -- Nothing but slashes, and at least one.
    next hall =>
    obtain ⟨c, rest, rfl⟩ := List.exists_cons_of_ne_nil hne
    have hc : c = '/' := by simpa using List.all_eq_true.1 hall c List.mem_cons_self
    rw [IsAbsoluteText, String.toList_ofList, hc]
    rfl
  · -- What is kept is a beginning of the text, and more than nothing.
    next hall =>
    have hkept : head.dropWhile (· = '/') ≠ [] := by
      intro hnil
      refine hall (List.all_eq_true.2 fun c hc => ?_)
      exact List.dropWhile_eq_nil_iff.1 hnil c hc
    have hprefix : (head.dropWhile (· = '/')).reverse <+: s.toList := by
      rw [← List.reverse_suffix, List.reverse_reverse]
      exact (List.dropWhile_suffix _).trans hsuffix
    obtain ⟨rest, hrest⟩ := hprefix
    rw [IsAbsoluteText, String.toList_ofList]
    rw [IsAbsoluteText, ← hrest, List.head?_append_of_ne_nil _ (by simpa using hkept)] at h
    exact h

end ConvertOnce
