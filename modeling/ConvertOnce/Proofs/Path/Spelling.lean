import ConvertOnce.Proofs.ByteCache
import ConvertOnce.Proofs.OnDemand.Outcome
import ConvertOnce.Proofs.Path.Absolute
import ConvertOnce.Proofs.Path.Canonical

/-!
# Canonical spellings as texts

What the canonical spelling of a path looks like, letter by letter.  `IsNormalSpelling` says it of a
text and a root, without a path in between: the spelling is `.`, or it is the root and then names
with single slashes between them, which begin with a block of `..` only where there is no root
(`isNormalSpelling_canonicalText`).  The root is the slashes that the text begins with, cut down to
one if there are more than two (`rootText`).

A text can be spelled canonically before another one is joined to it or afterwards, the outcome is
the same (`canonicalText_joinTexts`).  Two paths share what is kept under canonical spellings
exactly when they have one canonical form (`isSettled_settle_iff`, `remembers_remember_iff`).
-/

namespace ConvertOnce

/-! ### The root of a text -/

/-- How many slashes the characters begin with. -/
def leadingSlashes (cs : List Char) : Nat := (cs.takeWhile (· = '/')).length

/-- The root that a text is read with: none, `//` for exactly two slashes, and `/` for one slash or
more than two. -/
def rootText (s : String) : String :=
  match leadingSlashes s.toList with
  | 0 => ""
  | 2 => "//"
  | _ => "/"

theorem leadingSlashes_cons_slash (cs : List Char) :
    leadingSlashes ('/' :: cs) = leadingSlashes cs + 1 := by
  rw [leadingSlashes, List.takeWhile_cons_of_pos (by simp), List.length_cons, leadingSlashes]

theorem leadingSlashes_eq_zero {cs : List Char} (h : cs.head? ≠ some '/') :
    leadingSlashes cs = 0 := by
  cases cs with
  | nil => rfl
  | cons c cs =>
    have hc : c ≠ '/' := by simpa using h
    rw [leadingSlashes, List.takeWhile_cons_of_neg (by simpa using hc), List.length_nil]

/-- What follows a text without a slash of its own in front adds no leading slash. -/
theorem leadingSlashes_append {cs ds : List Char} (hds : ds.head? ≠ some '/') :
    leadingSlashes (cs ++ ds) = leadingSlashes cs := by
  induction cs with
  | nil => exact leadingSlashes_eq_zero hds
  | cons c cs ih =>
    by_cases hc : c = '/'
    · subst hc
      rw [List.cons_append, leadingSlashes_cons_slash, leadingSlashes_cons_slash, ih]
    · rw [leadingSlashes_eq_zero (by simpa using hc), leadingSlashes_eq_zero (by simpa using hc)]

/-- Neither does anything that follows a character other than a slash. -/
theorem leadingSlashes_append_of_getLast? {cs : List Char} (hne : cs ≠ [])
    (hlast : cs.getLast? ≠ some '/') (ds : List Char) :
    leadingSlashes (cs ++ ds) = leadingSlashes cs := by
  induction cs with
  | nil => exact absurd rfl hne
  | cons c cs ih =>
    by_cases hc : c = '/'
    · subst hc
      have hcs : cs ≠ [] := by
        rintro rfl
        exact hlast rfl
      have hlast' : cs.getLast? ≠ some '/' := by
        rwa [List.getLast?_cons_of_ne_nil hcs] at hlast
      rw [List.cons_append, leadingSlashes_cons_slash, leadingSlashes_cons_slash, ih hcs hlast']
    · rw [leadingSlashes_eq_zero (by simpa using hc), leadingSlashes_eq_zero (by simpa using hc)]

theorem head?_ne_slash_of_forall {cs : List Char} (h : ∀ tail, cs = '/' :: tail → False) :
    cs.head? ≠ some '/' := by
  intro hhead
  obtain ⟨tail, rfl⟩ := List.head?_eq_some_iff.1 hhead
  exact h tail rfl

/-- The anchor of a text is a matter of its leading slashes. -/
theorem Anchor.ofChars_eq (cs : List Char) :
    Anchor.ofChars cs =
      match leadingSlashes cs with
      | 0 => .relative
      | 2 => .doubleRoot
      | _ => .root := by
  unfold Anchor.ofChars
  -- The reader of anchors tells three slashes or more, exactly two, one and none apart.
  split
  · rw [leadingSlashes_cons_slash, leadingSlashes_cons_slash, leadingSlashes_cons_slash]
    rfl
  · next rest hthree =>
    have hrest := leadingSlashes_eq_zero (head?_ne_slash_of_forall hthree)
    rw [leadingSlashes_cons_slash, leadingSlashes_cons_slash, hrest]
    rfl
  · next rest _ htwo =>
    have hrest := leadingSlashes_eq_zero (head?_ne_slash_of_forall htwo)
    rw [leadingSlashes_cons_slash, hrest]
    rfl
  · next _ _ hnone =>
    rw [leadingSlashes_eq_zero (head?_ne_slash_of_forall hnone)]
    rfl

theorem Path.text_anchor_ofString (s : String) : (Path.ofString s).anchor.text = rootText s := by
  show (Anchor.ofChars s.toList).text = rootText s
  rw [Anchor.ofChars_eq, rootText]
  split <;> rfl

/-! ### The normal form -/

/-- A text in the normal form of paths with the given root. -/
inductive IsNormalSpelling (root : String) : String → Prop
  /-- There is nothing to write. -/
  | here (hroot : root = "") : IsNormalSpelling root "."
  /-- The root, a block of `..` where it is empty, and names. -/
  | written (ups : Nat) (names : List String) (hups : root ≠ "" → ups = 0)
      (hnames : ∀ name ∈ names, IsPart name ∧ name ≠ "..")
      (hsome : root = "" → List.replicate ups ".." ++ names ≠ []) :
      IsNormalSpelling root (root ++ slashJoin (List.replicate ups ".." ++ names))

theorem Anchor.text_eq_empty_iff {a : Anchor} : a.text = "" ↔ a = .relative := by
  cases a <;> decide

/-- A canonical path is written in normal form. -/
theorem Path.IsCanonical.isNormalSpelling {p : Path} (h : p.IsCanonical) :
    IsNormalSpelling p.anchor.text p.text := by
  obtain ⟨ups, names, hparts, hnames, hups⟩ := h
  rw [text]
  -- A path without anchor and parts is written `.`, any other one as its anchor and then its parts.
  split
  · next hblank =>
    rw [hblank.1]
    exact .here rfl
  · next hblank =>
    rw [hparts]
    refine .written ups names ?_ ?_ ?_
    · intro hroot
      apply hups
      exact bne_iff_ne.2 fun hrelative => hroot (Anchor.text_eq_empty_iff.2 hrelative)
    · intro name hname
      refine ⟨p.isPart_of_mem name ?_, fun hup => hnames (hup ▸ hname)⟩
      rw [hparts]
      exact List.mem_append_right _ hname
    · intro hroot hnil
      exact hblank ⟨Anchor.text_eq_empty_iff.1 hroot, hparts.trans hnil⟩

/-- **A canonical spelling is in normal form**, with the root of the text that it stands for. -/
theorem isNormalSpelling_canonicalText (s : String) :
    IsNormalSpelling (rootText s) (canonicalText s) := by
  have hcanonical := (Path.isCanonical_canonical (Path.ofString s)).isNormalSpelling
  rwa [Path.anchor_canonical, Path.text_anchor_ofString] at hcanonical

theorem ofString_canonicalText (s : String) :
    Path.ofString (canonicalText s) = (Path.ofString s).canonical :=
  Path.ofString_text _

/-- Paths are spelled alike when they have one canonical form. -/
theorem canonicalText_eq_iff {a b : String} :
    canonicalText a = canonicalText b ↔ (Path.ofString a).canonical = (Path.ofString b).canonical :=
  Path.text_injective.eq_iff

/-! ### Joined texts -/

/-- The path `b` as seen from `a`, both as texts: a slash is put between them where there is none,
and an absolute `b` stands as it is. -/
def joinTexts (a b : String) : String :=
  if IsAbsoluteText b then b
  else if a = "" ∨ a.toList.getLast? = some '/' then a ++ b
  else a ++ "/" ++ b

namespace Path

variable {p q : Path} {a b : String}

/-- A slash at the end of a text is no part. -/
theorem parts_ofString_append_of_getLast? (hlast : a.toList.getLast? = some '/') (b : String) :
    (ofString (a ++ b)).parts = (ofString a).parts ++ (ofString b).parts := by
  obtain ⟨init, hinit⟩ := List.getLast?_eq_some_iff.1 hlast
  have ha : a = String.ofList init ++ "/" ++ "" := String.toList_inj.1 (by simp [hinit])
  have hempty : (ofString "").parts = [] := rfl
  have hinner : String.ofList init ++ "/" ++ "" ++ b = String.ofList init ++ "/" ++ b := by simp
  rw [ha, hinner, parts_ofString_append_slash, parts_ofString_append_slash, hempty, List.append_nil]

/-- What begins like a text has its anchor. -/
theorem anchor_ofString_congr (h : leadingSlashes a.toList = leadingSlashes b.toList) :
    (ofString a).anchor = (ofString b).anchor := by
  show Anchor.ofChars a.toList = Anchor.ofChars b.toList
  rw [Anchor.ofChars_eq, Anchor.ofChars_eq, h]

/-- **Joined texts are read as joined paths.** -/
theorem ofString_joinTexts (a b : String) : ofString (joinTexts a b) = ofString a / b := by
  rw [joinTexts]
  split
  · next habsolute =>
    have hanchor : (ofString b).anchor ≠ .relative := bne_iff_ne.1 (isAbsolute_ofString habsolute)
    exact (if_neg hanchor).symm
  next hrelative =>
  -- Otherwise the second text follows the first, with a slash in between if one is needed.
  have hchars : (a ++ "/" ++ b).toList = a.toList ++ ('/' :: b.toList) := by simp
  split
  · next hends =>
    refine ext_parts ?_ ?_
    · rw [anchor_div_of_relative hrelative]
      refine anchor_ofString_congr ?_
      rw [String.toList_append]
      exact leadingSlashes_append hrelative
    · rw [parts_div_of_relative hrelative]
      rcases hends with rfl | hlast
      · rw [String.empty_append]
        rfl
      · exact parts_ofString_append_of_getLast? hlast b
  · next hends =>
    rw [not_or] at hends
    obtain ⟨hne, hlast⟩ := hends
    refine ext_parts ?_ ?_
    · rw [anchor_div_of_relative hrelative]
      refine anchor_ofString_congr ?_
      rw [hchars]
      exact leadingSlashes_append_of_getLast? (by simpa using hne) hlast _
    · rw [parts_div_of_relative hrelative, parts_ofString_append_slash]

/-- The canonical form of a path goes on with the parts of what is joined to it. -/
theorem canonical_join_of_relative (h : q.anchor = .relative) :
    (p.join q).canonical = q.parts.foldl push p.canonical := by
  rw [join, if_pos h, canonical, List.foldl_append]
  rfl

/-- A path may be made canonical before another one is joined to it. -/
theorem canonical_join (p q : Path) : (p.canonical.join q).canonical = (p.join q).canonical := by
  by_cases h : q.anchor = .relative
  · rw [canonical_join_of_relative h, canonical_join_of_relative h,
      canonical_eq_self (isCanonical_canonical p)]
  · rw [join, if_neg h, join, if_neg h]

end Path

/-- **A text may be spelled canonically before another one is joined to it.** -/
theorem canonicalText_joinTexts (a b : String) :
    canonicalText (joinTexts (canonicalText a) b) = canonicalText (joinTexts a b) := by
  have hcanonical := Path.canonical_join (Path.ofString a) (Path.ofString b)
  rw [canonicalText_eq_iff, Path.ofString_joinTexts, Path.ofString_joinTexts,
    ofString_canonicalText]
  exact hcanonical

/-! ### What is kept under canonical spellings -/

/-- A file is settled along with those of the same canonical form. -/
theorem isSettled_settle_iff (state : BuildState) (a b : String) :
    (state.settle (canonicalText a)).isSettled b = true ↔
      state.isSettled b = true ∨ (Path.ofString b).canonical = (Path.ofString a).canonical := by
  rw [BuildState.isSettled_iff, BuildState.mem_settled_settle, BuildState.isSettled_iff,
    canonicalText_eq_iff, or_comm]

/-- The contents of a path are remembered of those of the same canonical form. -/
theorem remembers_remember_iff (cache : ByteCache) (a b : String) (bytes : Bytes) :
    (cache.remember a bytes).remembers b = true ↔
      cache.remembers b = true ∨ (Path.ofString b).canonical = (Path.ofString a).canonical := by
  rw [← canonicalText_eq_iff, ByteCache.remembers, ByteCache.remembers, ByteCache.get?,
    ByteCache.get?_remember]
  by_cases h : canonicalText b = canonicalText a
  · simp [h]
  · simp [h, ByteCache.get?]

/-- The canonical spelling of a path is a normal form of its texts, by which paths are told
apart. -/
structure SpellsNormally : Prop where
  /-- It is written in normal form. -/
  normal : ∀ s, IsNormalSpelling (rootText s) (canonicalText s)
  /-- It is its own canonical spelling. -/
  idempotent : ∀ s, canonicalText (canonicalText s) = canonicalText s
  /-- It is written again as it was read. -/
  printed : ∀ s, (Path.ofString (canonicalText s)).text = canonicalText s
  /-- It stands for the text wherever something is joined to it. -/
  joined : ∀ a b, canonicalText (joinTexts (canonicalText a) b) = canonicalText (joinTexts a b)
  /-- Under it files are settled. -/
  settled_iff : ∀ (state : BuildState) a b, (state.settle (canonicalText a)).isSettled b = true ↔
    state.isSettled b = true ∨ (Path.ofString b).canonical = (Path.ofString a).canonical
  /-- Under it contents are remembered. -/
  remembered_iff : ∀ (cache : ByteCache) a b bytes, (cache.remember a bytes).remembers b = true ↔
    cache.remembers b = true ∨ (Path.ofString b).canonical = (Path.ofString a).canonical

/-- **Canonical spellings are normal forms.** -/
theorem spellsNormally : SpellsNormally where
  normal := isNormalSpelling_canonicalText
  idempotent s := isCanonicalText_iff.1 (isCanonicalText_canonicalText s)
  printed s := by rw [ofString_canonicalText, canonicalText]
  joined := canonicalText_joinTexts
  settled_iff := isSettled_settle_iff
  remembered_iff := remembers_remember_iff

end ConvertOnce
