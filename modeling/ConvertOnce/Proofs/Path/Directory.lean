import ConvertOnce.Path.Canonical
import ConvertOnce.Proofs.Path.NormalForm

/-!
# The directory part of a path

The text of a path is that of its parent, a slash and its name (`Path.text_eq_parent_append`), and
its directory part is what stands before that slash (`Path.directoryText_text`).  Before the name of
a path of one part there is nothing but its anchor.

A request that ends in a slash and a part gives a path that name (`Path.name_div_append`), and it
keeps it in its canonical form (`Path.name_canonical_div`).
-/

namespace ConvertOnce

/-! ### The directory part of a text -/

/-- What follows the last slash is passed over first. -/
theorem dropWhile_reverse_append {front last : List Char} (hlast : '/' ∉ last)
    (hfront : ∀ c, front.getLast? = some c → c = '/') :
    (front ++ last).reverse.dropWhile (· ≠ '/') = front.reverse := by
  have hpass : ∀ c ∈ last.reverse, decide (c ≠ '/') = true := by
    intro c hc
    rw [decide_eq_true_iff]
    rintro rfl
    exact hlast (List.mem_reverse.1 hc)
  rw [List.reverse_append, List.dropWhile_append_of_pos hpass]
  rcases List.eq_nil_or_concat' front with rfl | ⟨init, c, rfl⟩
  · rfl
  · obtain rfl := hfront c (by simp)
    rw [List.reverse_concat, List.dropWhile_cons_of_neg (by simp)]

/-- What stands before the last slash of a text is its directory part, unless that ends in a slash
too. -/
theorem directoryText_append {front last : String} {c : Char} (hlast : '/' ∉ last.toList)
    (hfront : front.toList.getLast? = some c) (hc : c ≠ '/') :
    directoryText (front ++ "/" ++ last) = front := by
  -- From the back, the slash is the first one that is met.
  have hdrop : (front ++ "/" ++ last).toList.reverse.dropWhile (· ≠ '/')
      = '/' :: front.toList.reverse := by
    rw [String.toList_append, dropWhile_reverse_append hlast (by simp)]
    simp
  obtain ⟨init, hinit⟩ := List.getLast?_eq_some_iff.1 hfront
  have hreverse : front.toList.reverse = c :: init.reverse := by simp [hinit]
  unfold directoryText
  rw [hdrop, hreverse]
  simp only [List.all_cons, hc, decide_false, Bool.false_and, Bool.and_false, Bool.false_eq_true,
    if_false]
  rw [List.dropWhile_cons_of_pos (by simp), List.dropWhile_cons_of_neg (by simpa using hc),
    ← hreverse, List.reverse_reverse, String.ofList_toList]

/-- Where there are only slashes before a name, they are all kept. -/
theorem directoryText_slashes_append {slashes last : String} (hlast : '/' ∉ last.toList)
    (hslashes : ∀ c ∈ slashes.toList, c = '/') : directoryText (slashes ++ last) = slashes := by
  have hdrop : (slashes ++ last).toList.reverse.dropWhile (· ≠ '/') = slashes.toList.reverse := by
    rw [String.toList_append,
      dropWhile_reverse_append hlast fun c hc => hslashes c (List.mem_of_getLast? hc)]
  have hall : slashes.toList.reverse.all (· = '/') = true := by
    simpa using hslashes
  have hreverse : slashes.toList.reverse = slashes.toList := by
    rw [List.eq_replicate_of_mem hslashes, List.reverse_replicate]
  unfold directoryText
  rw [hdrop]
  dsimp only
  rw [if_pos hall, hreverse, String.ofList_toList]

namespace Path

variable {p : Path}

/-! ### The directory part of the text of a path -/

theorem text_eq_anchor_append (hparts : p.parts ≠ []) :
    p.text = p.anchor.text ++ slashJoin p.parts := by
  rw [text, if_neg (by simp [hparts])]

theorem parts_ne_nil_of_parent (hparent : p.parent.parts ≠ []) : p.parts ≠ [] := by
  intro hnil
  have hdrop : p.parent.parts = p.parts.dropLast := rfl
  rw [hdrop, hnil] at hparent
  exact hparent rfl

/-- The text of a path is that of its parent, a slash and its name. -/
theorem text_eq_parent_append (hparent : p.parent.parts ≠ []) :
    p.text = p.parent.text ++ "/" ++ p.name := by
  have hparts := parts_ne_nil_of_parent hparent
  rw [text_eq_anchor_append hparts, text_eq_anchor_append hparent,
    parts_eq_parent_concat_name hparts, slashJoin_concat hparent]
  simp only [String.append_assoc]
  rfl

/-- A path of one part has no more before its name than its anchor. -/
theorem text_eq_anchor_append_name (hparts : p.parts ≠ []) (hparent : p.parent.parts = []) :
    p.text = p.anchor.text ++ p.name := by
  rw [text_eq_anchor_append hparts, parts_eq_parent_concat_name hparts, hparent]
  simp [slashJoin]

/-- **The directory part of the text of a path is the text of its parent**, where that has parts. -/
theorem directoryText_text (hparent : p.parent.parts ≠ []) :
    directoryText p.text = p.parent.text := by
  have hparts := parts_ne_nil_of_parent hparent
  have hname : '/' ∉ p.name.toList := (isPart_name hparts).2.2
  cases hlast : p.parent.text.toList.getLast? with
  | none =>
    rw [List.getLast?_eq_none_iff] at hlast
    exact absurd (by simpa using hlast) p.parent.text_ne_empty
  | some c =>
    rw [text_eq_parent_append hparent]
    refine directoryText_append hname hlast ?_
    rintro rfl
    exact getLast?_text_ne_slash hparent hlast

/-- The directory part of a path of one part is its anchor. -/
theorem directoryText_text_of_parent (hparts : p.parts ≠ []) (hparent : p.parent.parts = []) :
    directoryText p.text = p.anchor.text := by
  rw [text_eq_anchor_append_name hparts hparent]
  refine directoryText_slashes_append (isPart_name hparts).2.2 ?_
  intro c hc
  cases hanchor : p.anchor <;> simp_all [Anchor.text]

/-- Either way the directory part is the text of the parent, if there is anything of it. -/
theorem directoryText_eq_parent_text (hparts : p.parts ≠ []) (hne : directoryText p.text ≠ "") :
    directoryText p.text = p.parent.text := by
  by_cases hparent : p.parent.parts = []
  · have hdirectory := directoryText_text_of_parent hparts hparent
    have hanchor : p.parent.anchor ≠ .relative := by
      intro hrelative
      have hsame : p.anchor = .relative := hrelative
      rw [hdirectory, hsame] at hne
      exact hne rfl
    rw [hdirectory, text, if_neg (by simp [hanchor]), hparent]
    simp [parent, slashJoin]
  · exact directoryText_text hparent

/-! ### The name of a path -/

/-- A last part stands after the parts of the text before it. -/
theorem parts_ofString_append (s : String) {part : String} (h : IsPart part) :
    (ofString (s ++ "/" ++ part)).parts = (ofString s).parts ++ [part] := by
  rw [parts_ofString_append_slash, ofString_of_isPart h]

theorem name_eq_of_parts {init : List String} {part : String} (h : p.parts = init ++ [part]) :
    p.name = part := by
  rw [name, h, List.getLast?_concat, Option.getD_some]

/-- The last part of a request is the name of the path. -/
theorem name_div_append (p : Path) (s : String) {part : String} (h : IsPart part) :
    (p / (s ++ "/" ++ part)).name = part := by
  have hparts := parts_ofString_append s h
  show (p.join (ofString (s ++ "/" ++ part))).name = part
  rw [join]
  split
  · have hlast : p.parts ++ (ofString (s ++ "/" ++ part)).parts
        = (p.parts ++ (ofString s).parts) ++ [part] := by
      rw [hparts, List.append_assoc]
    exact name_eq_of_parts hlast
  · exact name_eq_of_parts hparts

/-- A last part that does not go up is kept in the canonical form. -/
theorem name_canonical_div (p : Path) {part : String} (h : IsPart part) (hne : part ≠ "..") :
    (p / part).canonical.name = part := by
  rw [canonical_div_of_isPart h]
  exact name_eq_of_parts (parts_push_of_ne h hne)

/-- A path that has a name has parts. -/
theorem parts_ne_nil_of_name (h : p.name ≠ "") : p.parts ≠ [] := by
  intro hnil
  rw [name, hnil] at h
  exact h rfl

/-! ### Paths with something to write -/

/-- There is nothing to write of the path, neither an anchor nor parts. -/
def IsBlank (p : Path) : Prop := p.anchor = .relative ∧ p.parts = []

theorem not_isBlank_of_parts (h : p.parts ≠ []) : ¬ p.IsBlank := fun hblank => h hblank.2

theorem not_isBlank_div (h : ¬ p.IsBlank) (s : String) : ¬ (p / s).IsBlank := by
  show ¬ (p.join (ofString s)).IsBlank
  rw [join]
  split
  · rintro ⟨hanchor, hparts⟩
    exact h ⟨hanchor, (List.append_eq_nil_iff.1 hparts).1⟩
  · next habsolute =>
    rintro ⟨hanchor, -⟩
    exact habsolute hanchor

/-- What stands before the last part of a request is still there. -/
theorem not_isBlank_parent_div_append (h : ¬ p.IsBlank) (s : String) {part : String}
    (hpart : IsPart part) : ¬ (p / (s ++ "/" ++ part)).parent.IsBlank := by
  have hparts := parts_ofString_append s hpart
  show ¬ (p.join (ofString (s ++ "/" ++ part))).parent.IsBlank
  rw [join]
  split
  · rintro ⟨hanchor, hnil⟩
    have hdrop : (p.parts ++ (ofString (s ++ "/" ++ part)).parts).dropLast = [] := hnil
    rw [hparts, ← List.append_assoc, List.dropLast_concat] at hdrop
    exact h ⟨hanchor, (List.append_eq_nil_iff.1 hdrop).1⟩
  · next habsolute =>
    rintro ⟨hanchor, -⟩
    exact habsolute hanchor

/-- The directory part is something where the parent is. -/
theorem directoryText_text_ne_empty (hparts : p.parts ≠ []) (h : ¬ p.parent.IsBlank) :
    directoryText p.text ≠ "" := by
  by_cases hparent : p.parent.parts = []
  · rw [directoryText_text_of_parent hparts hparent]
    intro hempty
    refine h ⟨?_, hparent⟩
    show p.anchor = .relative
    cases hanchor : p.anchor with
    | relative => rfl
    | root | doubleRoot =>
      rw [hanchor] at hempty
      exact absurd hempty (by decide)
  · rw [directoryText_text hparent]
    exact p.parent.text_ne_empty

theorem parts_ne_nil_of_mem_outward {q : Path} {n : Nat} (hn : n ≤ p.parts.length)
    (h : q ∈ outward n p) : q.parts ≠ [] := by
  induction n generalizing p with
  | zero => cases h
  | succ n ih =>
    rcases List.mem_cons.1 h with rfl | h
    · rw [← List.length_pos_iff]
      omega
    · refine ih ?_ h
      show n ≤ p.parts.dropLast.length
      rw [List.length_dropLast]
      omega

/-- The ancestors of a path end before the bare root. -/
theorem parts_ne_nil_of_mem_ancestors {q : Path} {cwd : String} (h : q ∈ p.ancestors cwd) :
    q.parts ≠ [] :=
  parts_ne_nil_of_mem_outward (Nat.le_refl _) h

end Path

end ConvertOnce
