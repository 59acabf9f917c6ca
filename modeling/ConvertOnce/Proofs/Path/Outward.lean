import ConvertOnce.Proofs.Path.Ancestors
import ConvertOnce.Proofs.Path.Spelling
import Mathlib.Data.List.Nodup

/-!
# The walk outwards

`Path.WalksOutward` is the walk from a path to its parent and on to the parent of that, until a path
is its own parent.  It says nothing of how far the walk goes.  From every path there is one such
walk and no other, the one that passes as many paths as there are parts (`Path.walksOutward_iff`);
each path that it passes has one part less than the one before (`Path.outward_take_eq_map`).

The ancestors of a place are therefore what is met on a walk that ends, with each of them met once
and the bare root never (`Path.meetsAncestors`).
-/

namespace ConvertOnce.Path

variable {p q start : Path} {cwd : String} {paths paths' : List Path} {i k : Nat}

/-! ### The walk -/

/-- A walk from a path outwards, and the paths that it passes, in order. -/
inductive WalksOutward : Path → List Path → Prop
  /-- A path that is its own parent ends the walk and is not passed. -/
  | stop {p : Path} (top : p.parent = p) : WalksOutward p []
  /-- Any other path is passed, and the walk goes on from its parent. -/
  | pass {p : Path} {rest : List Path} (below : p.parent ≠ p) (walk : WalksOutward p.parent rest) :
      WalksOutward p (p :: rest)

/-- The paths without parts are those that are their own parents. -/
theorem parent_eq_self_iff : p.parent = p ↔ p.parts = [] := by
  constructor
  · intro h
    by_contra hparts
    have hlength : p.parts.dropLast.length = p.parts.length := congrArg (fun q => q.parts.length) h
    have hpos : 0 < p.parts.length := List.length_pos_iff.2 hparts
    rw [List.length_dropLast] at hlength
    omega
  · intro h
    refine ext_parts rfl ?_
    show p.parts.dropLast = p.parts
    rw [h]
    rfl

/-- There is one walk from a path. -/
theorem WalksOutward.unique (h : WalksOutward p paths) (h' : WalksOutward p paths') :
    paths = paths' := by
  induction h generalizing paths' with
  | stop top =>
    cases h' with
    | stop => rfl
    | pass below => exact absurd top below
  | pass below walk ih =>
    cases h' with
    | stop top => exact absurd top below
    | pass _ walk' => rw [ih walk']

/-- **Every walk outwards ends**, and passes as many paths as there are parts. -/
theorem walksOutward_outward {n : Nat} (hn : p.parts.length = n) :
    WalksOutward p (outward n p) := by
  -- The parent has one part less.
  induction n generalizing p with
  | zero => exact .stop (parent_eq_self_iff.2 (List.eq_nil_of_length_eq_zero hn))
  | succ n ih =>
    have hbelow : p.parent ≠ p := by
      rw [Ne, parent_eq_self_iff]
      intro hnil
      rw [hnil] at hn
      cases hn
    have hparent : p.parent.parts.length = n := by
      show p.parts.dropLast.length = n
      rw [List.length_dropLast]
      omega
    exact .pass hbelow (ih hparent)

theorem walksOutward_iff : WalksOutward p paths ↔ paths = outward p.parts.length p := by
  constructor
  · intro h
    exact h.unique (walksOutward_outward rfl)
  · rintro rfl
    exact walksOutward_outward rfl

/-! ### The paths on the way -/

/-- The way outwards from the first parts of a path, with one part less at each step. -/
theorem outward_take_eq_map (hk : k ≤ p.parts.length) :
    outward k (p.take k) = (List.range k).map fun i => p.take (k - i) := by
  induction k with
  | zero => rfl
  | succ k ih =>
    rw [outward_take_succ hk, ih (by omega), List.range_succ_eq_map, List.map_cons, List.map_map]
    congr 1
    refine List.map_congr_left fun i _ => ?_
    show p.take (k - i) = p.take (k + 1 - (i + 1))
    rw [Nat.add_sub_add_right]

theorem ancestors_eq_map (start : Path) (cwd : String) :
    start.ancestors cwd = (List.range (start.absolute cwd).parts.length).map fun i =>
      (start.absolute cwd).take ((start.absolute cwd).parts.length - i) := by
  rw [ancestors_eq_outward_take]
  exact outward_take_eq_map (Nat.le_refl _)

theorem length_ancestors (start : Path) (cwd : String) :
    (start.ancestors cwd).length = (start.absolute cwd).parts.length := by
  rw [ancestors_eq_map, List.length_map, List.length_range]

/-- **Each ancestor has one part less than the one before.** -/
theorem getElem?_ancestors (hi : i < (start.absolute cwd).parts.length) :
    (start.ancestors cwd)[i]? =
      some ((start.absolute cwd).take ((start.absolute cwd).parts.length - i)) := by
  rw [ancestors_eq_map, List.getElem?_map, List.getElem?_range hi]
  rfl

/-- The first parts of a path are known by their number. -/
theorem take_inj {m n : Nat} (hm : m ≤ p.parts.length) (hn : n ≤ p.parts.length)
    (h : p.take m = p.take n) : m = n := by
  have hlength := congrArg (fun q => q.parts.length) h
  have hmin : min m p.parts.length = min n p.parts.length := by
    simpa [take, List.length_take] using hlength
  omega

theorem nodup_ancestors (start : Path) (cwd : String) : (start.ancestors cwd).Nodup := by
  rw [ancestors_eq_map]
  refine List.Nodup.map_on ?_ List.nodup_range
  intro i hi j hj heq
  have hi' := List.mem_range.1 hi
  have hj' := List.mem_range.1 hj
  have hsub := take_inj (Nat.sub_le _ i) (Nat.sub_le _ j) heq
  omega

/-- What has the anchor of a path and its first parts is made of as many of them as it has. -/
theorem eq_take_of_isPrefix (hanchor : q.anchor = p.anchor) (hbegins : q.parts <+: p.parts) :
    q = p.take q.parts.length :=
  ext_parts hanchor (List.prefix_iff_eq_take.1 hbegins)

/-- The ancestors of a place are what begins like it and has a part. -/
theorem mem_ancestors_iff_isPrefix :
    q ∈ start.ancestors cwd ↔
      q.anchor = (start.absolute cwd).anchor ∧ q.parts <+: (start.absolute cwd).parts ∧
        q.parts ≠ [] := by
  rw [mem_ancestors_iff]
  constructor
  · rintro ⟨n, hpos, hle, rfl⟩
    refine ⟨rfl, List.take_prefix _ _, ?_⟩
    show (start.absolute cwd).parts.take n ≠ []
    rw [← List.length_pos_iff, List.length_take]
    omega
  · rintro ⟨hanchor, hbegins, hne⟩
    exact ⟨q.parts.length, List.length_pos_iff.2 hne, hbegins.length_le,
      eq_take_of_isPrefix hanchor hbegins⟩

/-- The absolute form of a path is the canonical form of its text joined to the current
directory. -/
theorem text_absolute (start : Path) (cwd : String) :
    (start.absolute cwd).text = canonicalText (joinTexts cwd start.text) := by
  have hjoin : ofString (joinTexts cwd start.text) = (ofString cwd).join start := by
    rw [ofString_joinTexts]
    show (ofString cwd).join (ofString start.text) = _
    rw [ofString_text]
  rw [canonicalText, hjoin, absolute]

/-- A search outwards meets the place that it starts from and what is above it. -/
structure MeetsAncestors (start : Path) (cwd : String) : Prop where
  /-- It starts from the absolute form of the place. -/
  text_absolute : (start.absolute cwd).text = canonicalText (joinTexts cwd start.text)
  /-- It ends, and there is no other walk from there. -/
  walk_iff : ∀ paths, WalksOutward (start.absolute cwd) paths ↔ paths = start.ancestors cwd
  /-- It meets as many paths as there are parts. -/
  length_eq : (start.ancestors cwd).length = (start.absolute cwd).parts.length
  /-- They have ever fewer of the first parts, the whole path before all others. -/
  nth_eq : ∀ i < (start.absolute cwd).parts.length, (start.ancestors cwd)[i]? =
    some ((start.absolute cwd).take ((start.absolute cwd).parts.length - i))
  /-- The place itself comes first. -/
  head_eq : (start.absolute cwd).parts ≠ [] →
    (start.ancestors cwd).head? = some (start.absolute cwd)
  /-- All that begins like the place and has a part is met. -/
  mem_iff : ∀ q, q ∈ start.ancestors cwd ↔ q.anchor = (start.absolute cwd).anchor ∧
    q.parts <+: (start.absolute cwd).parts ∧ q.parts ≠ []
  /-- Nothing is met twice. -/
  nodup : (start.ancestors cwd).Nodup
  /-- No bare root is met. -/
  bare_notMem : ∀ anchor, bare anchor ∉ start.ancestors cwd

/-- **A search outwards ends, and meets every ancestor once from the inside out.** -/
theorem meetsAncestors (start : Path) (cwd : String) : MeetsAncestors start cwd where
  text_absolute := text_absolute start cwd
  walk_iff _ := walksOutward_iff
  length_eq := length_ancestors start cwd
  nth_eq _ hi := getElem?_ancestors hi
  head_eq hparts := by
    rw [List.head?_eq_getElem?, getElem?_ancestors (List.length_pos_iff.2 hparts), Nat.sub_zero,
      take_length_parts]
  mem_iff _ := mem_ancestors_iff_isPrefix
  nodup := nodup_ancestors start cwd
  bare_notMem anchor hmem := (mem_ancestors_iff_isPrefix.1 hmem).2.2 rfl

/-- From a directory below the root `//` a path that goes up meets this directory's parent
second. -/
theorem meetsAncestors_doubleRoot :
    ((ofString "../c//d").ancestors "//a/./b")[1]? = some (ofString "//a/c") ∧
      bare .doubleRoot ∉ (ofString "../c//d").ancestors "//a/./b" := by
  have hmeets := meetsAncestors (ofString "../c//d") "//a/./b"
  refine ⟨?_, hmeets.bare_notMem .doubleRoot⟩
  rw [hmeets.nth_eq 1 (by decide)]
  decide

end ConvertOnce.Path
