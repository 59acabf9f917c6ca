import ConvertOnce.Path.Canonical
import Mathlib.Data.List.Basic

/-!
# Reading back the text of a path

`Path.ofString` and `Path.text` are inverse in the direction that matters: a path is what its own
text reads as (`Path.ofString_text`), so two paths with one text are one path
(`Path.text_injective`).  Resolution sees the text of a path as its parts and nothing else
(`slashNames_text`), and adding a proper part to a path adds it to the parts
(`Path.parts_div_of_isPart`).
-/

namespace ConvertOnce

/-! ### Cutting and joining -/

/-- Cutting at slashes is the splitting of lists. -/
theorem cutAtSlashes_eq_splitOn (cs : List Char) : cutAtSlashes cs = cs.splitOn '/' := by
  induction cs with
  | nil => rfl
  | cons c cs ih =>
    rw [cutAtSlashes, List.splitOn_cons_eq_if_modifyHead, ih]
    by_cases h : c = '/'
    · simp [h]
    · simp only [h, if_false, beq_iff_eq]
      have hne := List.splitOn_ne_nil '/' cs
      cases hs : cs.splitOn '/' with
      | nil => exact absurd hs hne
      | cons piece pieces => rfl

/-- Texts without a slash are cut apart again after they were joined. -/
theorem slashPieces_slashJoin {parts : List String} (hne : parts ≠ [])
    (h : ∀ p ∈ parts, '/' ∉ p.toList) : slashPieces (slashJoin parts) = parts := by
  have hslash : "/".toList = ['/'] := rfl
  rw [slashPieces, slashJoin, String.toList_intercalate, cutAtSlashes_eq_splitOn, hslash,
    List.splitOn_intercalate '/' (by simpa using h) (by simpa using hne), List.map_map]
  simp [Function.comp_def]

/-- The pieces are made of characters of the text. -/
theorem mem_of_mem_cutAtSlashes {c : Char} {piece cs : List Char} (hpiece : piece ∈ cutAtSlashes cs)
    (hc : c ∈ piece) : c ∈ cs := by
  -- By induction on the characters, along the cases of the cut.
  induction cs generalizing piece with
  | nil =>
    obtain rfl := List.mem_singleton.1 hpiece
    exact hc
  | cons d cs ih =>
    rw [cutAtSlashes] at hpiece
    split at hpiece
    · rcases List.mem_cons.1 hpiece with rfl | hpiece
      · cases hc
      · exact List.mem_cons_of_mem d (ih hpiece hc)
    · split at hpiece
      · obtain rfl := List.mem_singleton.1 hpiece
        exact List.mem_cons.2 (Or.inl (List.mem_singleton.1 hc))
      · next first rest hcut =>
        rw [hcut] at ih
        rcases List.mem_cons.1 hpiece with rfl | hpiece
        · rcases List.mem_cons.1 hc with rfl | hc
          · exact List.mem_cons_self
          · exact List.mem_cons_of_mem d (ih List.mem_cons_self hc)
        · exact List.mem_cons_of_mem d (ih (List.mem_cons_of_mem first hpiece) hc)

theorem mem_of_mem_slashPieces {c : Char} {piece s : String} (hpiece : piece ∈ slashPieces s)
    (hc : c ∈ piece.toList) : c ∈ s.toList := by
  obtain ⟨cs, hcs, rfl⟩ := List.mem_map.1 hpiece
  rw [String.toList_ofList] at hc
  exact mem_of_mem_cutAtSlashes hcs hc

/-- A slash between two texts separates the pieces of the one from those of the other. -/
theorem cutAtSlashes_append (front back : List Char) :
    cutAtSlashes (front ++ '/' :: back) = cutAtSlashes front ++ cutAtSlashes back := by
  induction front with
  | nil => rfl
  | cons c front ih =>
    rw [List.cons_append, cutAtSlashes, cutAtSlashes, ih]
    split
    · rfl
    · cases hfront : cutAtSlashes front with
      | nil =>
        rw [cutAtSlashes_eq_splitOn] at hfront
        exact absurd hfront (List.splitOn_ne_nil '/' front)
      | cons piece pieces => rfl

/-- A slash that stands between two texts separates their pieces. -/
theorem slashPieces_append_slash (a b : String) :
    slashPieces (a ++ "/" ++ b) = slashPieces a ++ slashPieces b := by
  have hchars : (a ++ "/" ++ b).toList = a.toList ++ '/' :: b.toList := by simp
  rw [slashPieces, slashPieces, slashPieces, hchars, cutAtSlashes_append, List.map_append]

/-- A slash in front cuts off an empty piece. -/
theorem slashPieces_slash_append (s : String) : slashPieces ("/" ++ s) = "" :: slashPieces s := by
  simp [slashPieces, cutAtSlashes]

/-- A text that does not begin with a slash has no anchor. -/
theorem Anchor.ofChars_of_head {cs : List Char} (h : cs.head? ≠ some '/') :
    Anchor.ofChars cs = .relative := by
  unfold Anchor.ofChars
  split <;> simp_all

/-- Joined texts begin with the first character of the first one. -/
theorem head?_slashJoin {first : String} {rest : List String} (h : first ≠ "") :
    (slashJoin (first :: rest)).toList.head? = first.toList.head? := by
  have hne : first.toList ≠ [] := by simpa using h
  cases rest with
  | nil => simp [slashJoin]
  | cons next rest =>
    rw [slashJoin, String.intercalate_cons_cons, String.append_assoc, String.toList_append,
      List.head?_append_of_ne_nil _ hne]

theorem slashJoin_concat {init : List String} {last : String} (hinit : init ≠ []) :
    slashJoin (init ++ [last]) = slashJoin init ++ "/" ++ last := by
  rw [slashJoin, String.intercalate_append_of_ne_nil hinit (by simp), String.intercalate_singleton,
    slashJoin]

/-- Joined texts end with the last character of the last one. -/
theorem getLast?_slashJoin_concat {init : List String} {last : String} (h : last ≠ "") :
    (slashJoin (init ++ [last])).toList.getLast? = last.toList.getLast? := by
  have hne : last.toList ≠ [] := by simpa using h
  cases init with
  | nil => simp [slashJoin]
  | cons first rest =>
    rw [slashJoin_concat (List.cons_ne_nil first rest), String.toList_append,
      List.getLast?_append_of_ne_nil _ hne]

/-- A proper part does not begin with a slash. -/
theorem head?_ne_slash_of_isPart {s : String} (h : IsPart s) : s.toList.head? ≠ some '/' :=
  fun hs => h.2.2 (List.mem_of_mem_head? hs)

namespace Path

variable {p q : Path}

/-! ### Reading back a text -/

theorem ext_parts (ha : p.anchor = q.anchor) (hp : p.parts = q.parts) : p = q := by
  cases p
  cases q
  simp_all

/-- Proper parts are all kept. -/
theorem parts_ofPieces_of_isPart {a : Anchor} {pieces : List String} (h : ∀ s ∈ pieces, IsPart s) :
    (ofPieces a pieces).parts = pieces := by
  simpa [ofPieces, List.filter_eq_self] using h

/-- An empty piece leaves no trace. -/
theorem ofPieces_cons_empty (a : Anchor) (pieces : List String) :
    ofPieces a ("" :: pieces) = ofPieces a pieces := by
  refine ext_parts rfl ?_
  simp [ofPieces, IsPart]

/-- The pieces of joined parts are the parts, and an empty piece when there is none. -/
theorem ofPieces_slashJoin (a : Anchor) {parts : List String} (h : ∀ s ∈ parts, IsPart s) :
    (ofPieces a (slashPieces (slashJoin parts))).parts = parts := by
  cases parts with
  | nil => rfl
  | cons first rest =>
    rw [slashPieces_slashJoin (by simp) fun s hs => (h s hs).2.2]
    exact parts_ofPieces_of_isPart h

/-- Joined parts begin with no slash. -/
theorem head?_slashJoin_parts (p : Path) : (slashJoin p.parts).toList.head? ≠ some '/' := by
  cases hp : p.parts with
  | nil => simp [slashJoin]
  | cons first rest =>
    have hpart : IsPart first := p.isPart_of_mem first (by simp [hp])
    rw [head?_slashJoin hpart.1]
    exact head?_ne_slash_of_isPart hpart

theorem anchor_ofString_text (p : Path) : Anchor.ofChars p.text.toList = p.anchor := by
  have hhead := head?_slashJoin_parts p
  rw [text]
  split
  · next h => rw [h.1]; rfl
  · cases ha : p.anchor with
    | relative => simpa [Anchor.text] using Anchor.ofChars_of_head hhead
    | root =>
      -- What follows the slash is no slash, so it is the only one.
      have htext : (Anchor.root.text ++ slashJoin p.parts).toList
          = '/' :: (slashJoin p.parts).toList := by simp [Anchor.text]
      rw [htext]
      cases hj : (slashJoin p.parts).toList with
      | nil => rfl
      | cons c cs => rw [hj] at hhead; simp_all [Anchor.ofChars]
    | doubleRoot =>
      have htext : (Anchor.doubleRoot.text ++ slashJoin p.parts).toList
          = '/' :: '/' :: (slashJoin p.parts).toList := by simp [Anchor.text]
      rw [htext]
      cases hj : (slashJoin p.parts).toList with
      | nil => rfl
      | cons c cs => rw [hj] at hhead; simp_all [Anchor.ofChars]

/-- The pieces of the text of a path are its parts and pieces that leave no trace. -/
theorem ofPieces_slashPieces_text (p : Path) (a : Anchor) :
    (ofPieces a (slashPieces p.text)).parts = p.parts := by
  have hparts := ofPieces_slashJoin a p.isPart_of_mem
  rw [text]
  split
  · next h => rw [h.2]; rfl
  · cases p.anchor with
    | relative => simpa [Anchor.text] using hparts
    | root => rw [Anchor.text, slashPieces_slash_append, ofPieces_cons_empty, hparts]
    | doubleRoot =>
      have htwo : Anchor.doubleRoot.text = "/" ++ "/" := rfl
      rw [htwo, String.append_assoc, slashPieces_slash_append, slashPieces_slash_append,
        ofPieces_cons_empty, ofPieces_cons_empty, hparts]

/-- **A path is what its text reads as.** -/
theorem ofString_text (p : Path) : ofString p.text = p :=
  ext_parts (anchor_ofString_text p) (ofPieces_slashPieces_text p _)

/-- Paths with one text are one path. -/
theorem text_injective : Function.Injective text := fun p q h => by
  rw [← ofString_text p, ← ofString_text q, h]

/-- A slash that stands between two texts separates their parts. -/
theorem parts_ofString_append_slash (a b : String) :
    (ofString (a ++ "/" ++ b)).parts = (ofString a).parts ++ (ofString b).parts := by
  show (slashPieces (a ++ "/" ++ b)).filter _ = _
  rw [slashPieces_append_slash, List.filter_append]
  rfl

/-! ### What resolution sees of a text -/

/-- The names in the text of a path with a part are its parts. -/
theorem slashNames_text (h : p.parts ≠ []) : slashNames p.text = p.parts := by
  have hjoin : (slashPieces (slashJoin p.parts)).filter (· ≠ "") = p.parts := by
    rw [slashPieces_slashJoin h fun s hs => (p.isPart_of_mem s hs).2.2, List.filter_eq_self]
    simpa using fun s hs => (p.isPart_of_mem s hs).1
  rw [slashNames, text, if_neg (by simp [h])]
  cases p.anchor with
  | relative => simpa [Anchor.text] using hjoin
  | root => rw [Anchor.text, slashPieces_slash_append]; simpa using hjoin
  | doubleRoot =>
    have htwo : Anchor.doubleRoot.text = "/" ++ "/" := rfl
    rw [htwo, String.append_assoc, slashPieces_slash_append, slashPieces_slash_append]
    simpa using hjoin

/-- The text of a path with a part ends as its last part does, so not in a slash. -/
theorem getLast?_text_ne_slash (h : p.parts ≠ []) : p.text.toList.getLast? ≠ some '/' := by
  obtain ⟨init, last, hparts⟩ := (List.eq_nil_or_concat' p.parts).resolve_left h
  have hlast : IsPart last := p.isPart_of_mem last (by simp [hparts])
  have hjoin : (slashJoin p.parts).toList.getLast? = last.toList.getLast? := by
    rw [hparts, getLast?_slashJoin_concat hlast.1]
  have hne : (slashJoin p.parts).toList ≠ [] := fun hnil => by
    rw [hnil] at hjoin
    exact hlast.1 (by simpa using (List.getLast?_eq_none_iff.1 hjoin.symm))
  rw [text, if_neg (by simp [h]), String.toList_append, List.getLast?_append_of_ne_nil _ hne, hjoin]
  exact fun hs => hlast.2.2 (List.mem_of_getLast? hs)

/-- The text of a path begins with a slash exactly when the path is absolute. -/
theorem head?_text_eq_slash_iff (p : Path) :
    p.text.toList.head? = some '/' ↔ p.isAbsolute = true := by
  have hhead := head?_slashJoin_parts p
  rw [text, isAbsolute]
  split
  · next h => simp [h.1]
  · cases p.anchor <;> simp_all [Anchor.text]

theorem text_ne_empty (p : Path) : p.text ≠ "" := by
  intro h
  have hread := ofString_text p
  rw [h] at hread
  rw [← hread] at h
  exact absurd h (by decide)

/-! ### Adding a part -/

/-- A proper part is the text of the path with nothing but this part. -/
theorem ofString_of_isPart {s : String} (h : IsPart s) :
    ofString s = ⟨.relative, [s], by simpa⟩ := by
  have htext : (⟨.relative, [s], by simpa⟩ : Path).text = s := by
    simp [text, Anchor.text, slashJoin]
  rw [← ofString_text ⟨.relative, [s], by simpa⟩, htext]

theorem anchor_div_of_isPart {s : String} (h : IsPart s) : (p / s).anchor = p.anchor := by
  show (p.join (ofString s)).anchor = p.anchor
  rw [ofString_of_isPart h, join, if_pos rfl]

theorem parts_div_of_isPart {s : String} (h : IsPart s) : (p / s).parts = p.parts ++ [s] := by
  show (p.join (ofString s)).parts = p.parts ++ [s]
  rw [ofString_of_isPart h, join, if_pos rfl]

/-- A path is the parent of what it becomes by a proper part. -/
theorem parent_div_of_isPart {s : String} (h : IsPart s) : (p / s).parent = p := by
  refine ext_parts (anchor_div_of_isPart h) ?_
  show (p / s).parts.dropLast = p.parts
  rw [parts_div_of_isPart h, List.dropLast_concat]

/-- A path with a part is its parent and its name. -/
theorem parts_eq_parent_concat_name (h : p.parts ≠ []) : p.parts = p.parent.parts ++ [p.name] := by
  show p.parts = p.parts.dropLast ++ [p.name]
  rw [name, List.getLast?_eq_getLast_of_ne_nil h, Option.getD_some, List.dropLast_append_getLast]

theorem isPart_name (h : p.parts ≠ []) : IsPart p.name := by
  refine p.isPart_of_mem _ ?_
  rw [parts_eq_parent_concat_name h]
  simp

/-- A path with a part is what its name makes of its parent. -/
theorem parent_div_name (h : p.parts ≠ []) : p.parent / p.name = p := by
  have hname := isPart_name h
  refine ext_parts (anchor_div_of_isPart hname) ?_
  rw [parts_div_of_isPart hname, ← parts_eq_parent_concat_name h]

end Path

end ConvertOnce
