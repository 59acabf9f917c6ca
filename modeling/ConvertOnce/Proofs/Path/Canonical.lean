import ConvertOnce.Proofs.Path.NormalForm

/-!
# From a text to its canonical spelling

The canonical form of a path that is read from a text takes in the names of the text one by one
(`Path.canonical_ofString`), which is the order in which a resolution follows them.

A path keeps no more of a text than is there, and its canonical form no more of the path: the parts
of the canonical form occur among the parts of the path, in the same order
(`Path.parts_canonical_sublist`).  A canonical spelling is therefore never longer than the text it
stands for (`utf8ByteSize_canonicalText_le`), unless that is the empty text.
-/

namespace ConvertOnce

/-! ### The names in a text -/

/-- There is no slash in what is between the slashes. -/
theorem slash_not_mem_of_mem_cutAtSlashes {piece cs : List Char} (h : piece ∈ cutAtSlashes cs) :
    '/' ∉ piece := by
  -- By induction on the characters: a slash ends a piece, and any other one joins the first piece
  -- of the rest.
  induction cs generalizing piece with
  | nil =>
    rw [List.mem_singleton.1 h]
    exact List.not_mem_nil
  | cons c cs ih =>
    rw [cutAtSlashes] at h
    split at h
    · rcases List.mem_cons.1 h with rfl | h
      · exact List.not_mem_nil
      · exact ih h
    · next hc =>
      split at h
      · rw [List.mem_singleton.1 h]
        simpa using Ne.symm hc
      · next first rest hcut =>
        rw [hcut] at ih
        rcases List.mem_cons.1 h with rfl | h
        · have hfirst : '/' ∉ first := ih List.mem_cons_self
          simp [hfirst, Ne.symm hc]
        · exact ih (List.mem_cons_of_mem first h)

/-- A name in a text is a proper part of a path, unless it is `.`. -/
theorem eq_dot_or_isPart_of_mem_slashNames {name s : String} (h : name ∈ slashNames s) :
    name = "." ∨ IsPart name := by
  obtain ⟨hpiece, hne⟩ := List.mem_filter.1 h
  obtain ⟨piece, hcut, rfl⟩ := List.mem_map.1 hpiece
  have hslash := slash_not_mem_of_mem_cutAtSlashes hcut
  by_cases hdot : String.ofList piece = "."
  · exact Or.inl hdot
  · exact Or.inr ⟨by simpa using hne, hdot, by simpa using hslash⟩

namespace Path

theorem push_of_not_isPart {p : Path} {piece : String} (h : ¬ IsPart piece) : p.push piece = p := by
  have hup : piece ≠ ".." := by
    rintro rfl
    exact h (by decide)
  rw [push, if_neg hup, dif_neg h]

/-- Pieces that are no parts can be left out. -/
theorem foldl_push_filter (keep : String → Bool) (hkeep : ∀ s, keep s = false → ¬ IsPart s)
    (pieces : List String) :
    ∀ p : Path, (pieces.filter keep).foldl push p = pieces.foldl push p := by
  induction pieces with
  | nil => intro p; rfl
  | cons piece pieces ih =>
    intro p
    by_cases h : keep piece = true
    · rw [List.filter_cons_of_pos h, List.foldl_cons, List.foldl_cons, ih]
    · have hpush : p.push piece = p := push_of_not_isPart (hkeep piece (by simpa using h))
      rw [List.filter_cons_of_neg h, List.foldl_cons, hpush, ih]

/-- **The canonical form takes in the names of the text one by one.** -/
theorem canonical_ofString (s : String) :
    (ofString s).canonical = (slashNames s).foldl push (bare (ofString s).anchor) := by
  have hparts := foldl_push_filter (fun piece => decide (IsPart piece)) (by simp)
    (slashPieces s) (bare (ofString s).anchor)
  have hnames := foldl_push_filter (fun piece => decide (piece ≠ "")) (by simp [IsPart])
    (slashPieces s) (bare (ofString s).anchor)
  exact hparts.trans hnames.symm

end Path

/-! ### Joined texts -/

/-- To join what was cut at the slashes gives the text back. -/
theorem slashJoin_slashPieces (s : String) : slashJoin (slashPieces s) = s := by
  apply String.toList_inj.1
  have hslash : "/".toList = ['/'] := rfl
  have hpieces : (slashPieces s).map String.toList = s.toList.splitOn '/' := by
    simp [slashPieces, cutAtSlashes_eq_splitOn, Function.comp_def]
  rw [slashJoin, String.toList_intercalate, hslash, hpieces, List.intercalate_splitOn]

theorem utf8ByteSize_slashJoin_cons (first : String) {rest : List String} (h : rest ≠ []) :
    (slashJoin (first :: rest)).utf8ByteSize =
      first.utf8ByteSize + 1 + (slashJoin rest).utf8ByteSize := by
  obtain ⟨next, rest, rfl⟩ := List.exists_cons_of_ne_nil h
  have hslash : "/".utf8ByteSize = 1 := rfl
  rw [slashJoin, String.intercalate_cons_cons, String.utf8ByteSize_append,
    String.utf8ByteSize_append, hslash]
  rfl

/-- Where texts are left out, less is joined. -/
theorem utf8ByteSize_slashJoin_le {kept all : List String} (h : kept.Sublist all) :
    (slashJoin kept).utf8ByteSize ≤ (slashJoin all).utf8ByteSize := by
  -- By induction on what is left out. The slash between two texts is counted only where both are
  -- kept, hence the cases without a text.
  induction h with
  | slnil => exact Nat.le_refl _
  | @cons kept all first h ih =>
    by_cases hall : all = []
    · subst hall
      have hkept : kept = [] := List.sublist_nil.1 h
      simp [hkept, slashJoin]
    · rw [utf8ByteSize_slashJoin_cons first hall]
      omega
  | @cons_cons kept all first h ih =>
    by_cases hkept : kept = []
    · subst hkept
      by_cases hall : all = []
      · simp [hall]
      · rw [utf8ByteSize_slashJoin_cons first hall]
        simp [slashJoin]
        omega
    · have hall : all ≠ [] := by
        rintro rfl
        exact hkept (List.sublist_nil.1 h)
      rw [utf8ByteSize_slashJoin_cons first hkept, utf8ByteSize_slashJoin_cons first hall]
      omega

namespace Path

variable {p q : Path}

/-! ### The text of a path -/

/-- A text is its anchor and what the parts of the path are found in. -/
theorem exists_eq_anchor_append (s : String) :
    ∃ rest, s = (ofString s).anchor.text ++ rest ∧
      (ofString s).parts.Sublist (slashPieces rest) := by
  have hcut : ∀ rest, (ofPieces (Anchor.ofChars s.toList) (slashPieces s)).parts
      = (ofPieces (Anchor.ofChars s.toList) (slashPieces rest)).parts →
      (ofString s).parts.Sublist (slashPieces rest) := by
    intro rest heq
    rw [ofString, heq]
    exact List.filter_sublist
  show ∃ rest, s = (Anchor.ofChars s.toList).text ++ rest ∧ _
  generalize hanchor : Anchor.ofChars s.toList = anchor at hcut ⊢
  have htext : ∃ rest, s = anchor.text ++ rest := by
    unfold Anchor.ofChars at hanchor
    split at hanchor
    · next rest hs =>
      subst hanchor
      refine ⟨String.ofList ('/' :: '/' :: rest), String.toList_inj.1 ?_⟩
      simp [hs, Anchor.text]
    · next rest _ hs =>
      subst hanchor
      refine ⟨String.ofList rest, String.toList_inj.1 ?_⟩
      simp [hs, Anchor.text]
    · next rest _ _ hs =>
      subst hanchor
      refine ⟨String.ofList rest, String.toList_inj.1 ?_⟩
      simp [hs, Anchor.text]
    · subst hanchor
      exact ⟨s, by simp [Anchor.text]⟩
  obtain ⟨rest, rfl⟩ := htext
  refine ⟨rest, rfl, hcut rest ?_⟩
  -- The slashes of the anchor cut off nothing but empty pieces.
  cases anchor with
  | relative => simp [Anchor.text]
  | root => rw [Anchor.text, slashPieces_slash_append, ofPieces_cons_empty]
  | doubleRoot =>
    have htwo : Anchor.doubleRoot.text = "/" ++ "/" := rfl
    rw [htwo, String.append_assoc, slashPieces_slash_append, slashPieces_slash_append,
      ofPieces_cons_empty, ofPieces_cons_empty]

theorem utf8ByteSize_text_pos (p : Path) : 0 < p.text.utf8ByteSize := by
  have hne : p.text.utf8ByteSize ≠ 0 := by
    rw [Ne, String.utf8ByteSize_eq_zero_iff]
    exact p.text_ne_empty
  omega

/-- The text of a path takes up its anchor and its joined parts, or one byte for want of both. -/
theorem utf8ByteSize_text (p : Path) :
    p.text.utf8ByteSize =
      if p.anchor = .relative ∧ p.parts = [] then 1
      else p.anchor.text.utf8ByteSize + (slashJoin p.parts).utf8ByteSize := by
  rw [text]
  split
  · rfl
  · rw [String.utf8ByteSize_append]

/-- A path is no longer than the text that it was read from. -/
theorem utf8ByteSize_text_ofString_le {s : String} (h : s ≠ "") :
    (ofString s).text.utf8ByteSize ≤ s.utf8ByteSize := by
  obtain ⟨rest, hs, hsub⟩ := exists_eq_anchor_append s
  have hsize := congrArg String.utf8ByteSize hs
  rw [String.utf8ByteSize_append] at hsize
  have hjoin := utf8ByteSize_slashJoin_le hsub
  rw [slashJoin_slashPieces] at hjoin
  have hpos : s.utf8ByteSize ≠ 0 := by rwa [Ne, String.utf8ByteSize_eq_zero_iff]
  rw [utf8ByteSize_text]
  split
  · omega
  · omega

/-- A path is no shorter for more parts. -/
theorem utf8ByteSize_text_le (hanchor : q.anchor = p.anchor) (h : q.parts.Sublist p.parts) :
    q.text.utf8ByteSize ≤ p.text.utf8ByteSize := by
  have hpos := p.utf8ByteSize_text_pos
  have hjoin := utf8ByteSize_slashJoin_le h
  by_cases hq : q.anchor = .relative ∧ q.parts = []
  · rw [utf8ByteSize_text q, if_pos hq]
    omega
  · have hp : ¬ (p.anchor = .relative ∧ p.parts = []) := by
      rintro ⟨hrelative, hnil⟩
      rw [hnil] at h
      exact hq ⟨hanchor.trans hrelative, List.sublist_nil.1 h⟩
    rw [utf8ByteSize_text, utf8ByteSize_text, if_neg hq, if_neg hp, hanchor]
    omega

/-! ### The canonical form -/

/-- One more piece adds itself, or nothing. -/
theorem parts_push_sublist (p : Path) (piece : String) :
    (p.push piece).parts.Sublist (p.parts ++ [piece]) := by
  -- Only a `..` can take a part away, and then it is not added itself.
  by_cases hup : piece = ".."
  · rw [hup, parts_push_up]
    rcases List.eq_nil_or_concat' p.parts with hnil | ⟨init, last, hconcat⟩
    · rw [hnil]
      cases p.isAbsolute <;> simp [stepUp]
    · rw [hconcat, List.reverse_concat]
      by_cases hlast : last = ".."
      · simp [stepUp, hlast]
      · simp [stepUp, hlast]
  · by_cases hpart : IsPart piece
    · rw [parts_push_of_ne hpart hup]
    · rw [push, if_neg hup, dif_neg hpart]
      exact List.sublist_append_left _ _

theorem parts_foldl_push_sublist (pieces : List String) :
    ∀ p : Path, (pieces.foldl push p).parts.Sublist (p.parts ++ pieces) := by
  induction pieces with
  | nil => intro p; simp
  | cons piece pieces ih =>
    intro p
    have hpush : ((p.push piece).parts ++ pieces).Sublist (p.parts ++ [piece] ++ pieces) :=
      (parts_push_sublist p piece).append_right pieces
    rw [List.foldl_cons, List.append_cons]
    exact (ih (p.push piece)).trans hpush

/-- **The canonical form of a path has parts of the path**, in their order. -/
theorem parts_canonical_sublist (p : Path) : p.canonical.parts.Sublist p.parts :=
  parts_foldl_push_sublist p.parts (bare p.anchor)

/-! ### Going up from a canonical path -/

/-- In a canonical path with a root there is no `..`. -/
theorem IsCanonical.up_not_mem (h : p.IsCanonical) (habsolute : p.isAbsolute = true) :
    ".." ∉ p.parts := by
  obtain ⟨n, rest, hparts, hrest, hn⟩ := h
  rw [hparts, hn habsolute]
  simpa using hrest

theorem isCanonical_of_up_not_mem (h : ".." ∉ p.parts) : p.IsCanonical :=
  ⟨0, p.parts, rfl, h, fun _ => rfl⟩

/-- To go up takes back the last part. -/
theorem push_up_of_name_ne (hparts : p.parts ≠ []) (hname : p.name ≠ "..") :
    p.push ".." = p.parent := by
  refine ext_parts (anchor_push p "..") ?_
  rw [parts_push_up, parts_eq_parent_concat_name hparts, List.reverse_concat, stepUp, if_neg hname,
    List.reverse_reverse]

/-- Going up from a canonical path with a root leads to its parent, also from the root itself. -/
theorem push_up_of_isAbsolute (h : p.IsCanonical) (habsolute : p.isAbsolute = true) :
    p.push ".." = p.parent := by
  by_cases hparts : p.parts = []
  · refine ext_parts (anchor_push p "..") ?_
    show (p.push "..").parts = p.parts.dropLast
    rw [parts_push_up, hparts, habsolute]
    rfl
  · refine push_up_of_name_ne hparts ?_
    intro hname
    have hmem : p.name ∈ p.parts := by
      rw [parts_eq_parent_concat_name hparts]
      simp
    rw [hname] at hmem
    exact h.up_not_mem habsolute hmem

theorem push_eq_div {part : String} (h : IsPart part) (hne : part ≠ "..") :
    p.push part = p / part := by
  refine ext_parts ?_ ?_
  · rw [anchor_push, anchor_div_of_isPart h]
  · rw [parts_push_of_ne h hne, parts_div_of_isPart h]

/-- **What is beside a canonical path** is in the directory above. -/
theorem canonical_div_up_div {part : String} (h : p.IsCanonical) (hup : p.push ".." = p.parent)
    (hpart : IsPart part) (hne : part ≠ "..") : (p / ".." / part).canonical = p.parent / part := by
  have hdots : IsPart ".." := by decide
  calc (p / ".." / part).canonical
      = (p.push "..").push part := by
        rw [canonical_div_of_isPart hpart, canonical_div_of_isPart hdots, canonical_eq_self h]
    _ = p.parent / part := by rw [hup, push_eq_div hpart hne]

end Path

/-- A canonical spelling is no longer than the text. -/
theorem utf8ByteSize_canonicalText_le {s : String} (h : s ≠ "") :
    (canonicalText s).utf8ByteSize ≤ s.utf8ByteSize := by
  calc (canonicalText s).utf8ByteSize
      ≤ (Path.ofString s).text.utf8ByteSize :=
        Path.utf8ByteSize_text_le (Path.anchor_canonical _) (Path.parts_canonical_sublist _)
    _ ≤ s.utf8ByteSize := Path.utf8ByteSize_text_ofString_le h

end ConvertOnce
