import ConvertOnce.Proofs.FileSystem.Leads
import ConvertOnce.Proofs.Path.NormalForm

/-!
# File systems without links

Where there are no links, a path from the root without `..` leads to the location that its parts
spell, if it leads anywhere (`FileSystem.Leads.eq_reverse`).  Different such paths therefore never
lead to the same node, and writing through one of them leaves what is found through another as it is
(`FileSystem.stat_write_of_ne`).
-/

namespace ConvertOnce

/-- The text begins with one slash, and with no more than one. -/
def IsRootedText (s : String) : Prop :=
  ∃ rest, s.toList = '/' :: rest ∧ rest.head? ≠ some '/'

namespace Path

variable {p : Path} {s : String}

/-- The path goes from the root `/` and never up. -/
structure IsPlain (p : Path) : Prop where
  anchor : p.anchor = .root
  not_up : ".." ∉ p.parts

theorem anchor_ofString_of_isRootedText (h : IsRootedText s) : (ofString s).anchor = .root := by
  obtain ⟨rest, hs, hrest⟩ := h
  show Anchor.ofChars s.toList = .root
  rw [hs]
  unfold Anchor.ofChars
  split <;> simp_all

/-- Nothing can be cancelled in a canonical path from the root. -/
theorem IsCanonical.isPlain (h : p.IsCanonical) (hanchor : p.anchor = .root) : p.IsPlain := by
  obtain ⟨n, rest, hparts, hrest, hrooted⟩ := h
  have habsolute : p.isAbsolute = true := by
    rw [isAbsolute, hanchor]
    rfl
  refine ⟨hanchor, ?_⟩
  rw [hparts, hrooted habsolute]
  exact hrest

theorem isPlain_canonical (h : IsRootedText s) : (ofString s).canonical.IsPlain := by
  refine (isCanonical_canonical _).isPlain ?_
  rw [anchor_canonical, anchor_ofString_of_isRootedText h]

theorem text_of_parts_eq_nil (h : p.IsPlain) (hparts : p.parts = []) : p.text = "/" := by
  rw [text, hparts, h.anchor]
  decide

end Path

namespace FileTree

variable {t t' : FileTree} {here there : Location} {names : List String} {n : Nat}

/-- There is no link. -/
def LinkFree (t : FileTree) : Prop := ∀ l target, t.nodeAt l ≠ some (.link target)

theorem Grows.linkFree (h : Grows t t') (hlinks : t.LinkFree) : t'.LinkFree :=
  fun l target hlink => hlinks l target (h.link l target hlink)

/-- Ordinary names lead where they say. -/
theorem Walks.eq_reverse_append (hlinks : t.LinkFree)
    (hnames : ∀ name ∈ names, name ≠ "." ∧ name ≠ "..") (h : t.Walks here names there n) :
    there = names.reverse ++ here := by
  induction h with
  | nil here => rfl
  | dot _ heq => exact absurd heq (hnames _ List.mem_cons_self).1
  | up _ heq => exact absurd heq (hnames _ List.mem_cons_self).2
  | link _ _ hnode => exact absurd hnode (hlinks _ _)
  | step _ _ _ _ _ ih =>
    rw [ih fun name hname => hnames name (List.mem_cons_of_mem _ hname), List.reverse_cons,
      List.append_assoc]
    rfl

/-- Whether there are links can be seen from the table of the nodes. -/
theorem linkFree_of_entries (h : ∀ e ∈ t.nodes.entries, e.2.isLink = false) : t.LinkFree := by
  intro l target hlink
  cases l with
  | nil => cases hlink
  | cons name above => cases h _ (Table.get?_eq_some_iff.1 hlink)

end FileTree

namespace FileSystem

variable {fs fs' : FileSystem} {p q : Path} {l : Location} {bytes old : Bytes}
  {permissions : Permissions}

/-- **Without links a plain path leads to the location that it spells.** -/
theorem Leads.eq_reverse (hlinks : fs.tree.LinkFree) (hp : p.IsPlain) (h : fs.Leads p l) :
    l = p.parts.reverse := by
  obtain ⟨-, n, -, hwalks⟩ := h
  have hstart : fs.startOf p = [] := by
    rw [startOf, Path.isAbsolute, hp.anchor]
    rfl
  have hnames : ∀ name ∈ p.parts, name ≠ "." ∧ name ≠ ".." := by
    intro name hname
    refine ⟨(p.isPart_of_mem name hname).2.1, ?_⟩
    rintro rfl
    exact hp.not_up hname
  rw [hwalks.eq_reverse_append hlinks hnames, hstart, List.append_nil]

/-! ### The root -/

theorem locate_root (fs : FileSystem) (follow : Bool) :
    fs.locate follow "/" = .ok (.node [] (.directory fs.tree.root)) :=
  fs.locate_anchor follow (by decide : Anchor.root ≠ .relative)

theorem stat_root (fs : FileSystem) : fs.stat "/" = .ok (.directory fs.tree.root) := by
  rw [stat, locate_root]
  rfl

theorem write_root (fs : FileSystem) (bytes : Bytes) :
    fs.write "/" bytes = .error (.system .isDirectory "/") := by
  rw [write, locate_root]
  rfl

/-- What is a file, or becomes one by writing, has a path with a part. -/
theorem parts_ne_nil_of_write (hp : p.IsPlain) (h : fs.write p.text bytes = .ok fs') :
    p.parts ≠ [] := by
  intro hparts
  rw [Path.text_of_parts_eq_nil hp hparts, write_root] at h
  cases h

theorem parts_ne_nil_of_stat (hp : p.IsPlain)
    (h : fs.stat p.text = .ok (.file permissions bytes)) : p.parts ≠ [] := by
  intro hparts
  rw [Path.text_of_parts_eq_nil hp hparts, stat_root] at h
  cases h

/-! ### Writing -/

/-- Writing places a file where the path leads then, and no directory is lost. -/
theorem exists_place_of_write (hparts : p.parts ≠ []) (h : fs.write p.text bytes = .ok fs') :
    ∃ name directory permissions, fs' = fs.place name directory (.file permissions bytes) ∧
      IsDirectory (fs.tree.nodeAt directory) ∧ ¬ IsDirectory (fs.tree.nodeAt (name :: directory)) ∧
      fs'.Leads p (name :: directory) := by
  have hwrites := writes_of_write hparts h
  obtain ⟨spot, hlocate, hspot⟩ := bind_eq_ok_iff.1 h
  obtain ⟨-, -, hwalk⟩ := (locate_text_eq_ok_iff hparts).1 hlocate
  -- The path leads to a free name, or to a file that is there already.
  split at hspot
  · next directory name =>
    split at hspot
    · next hadd =>
      cases hspot
      have hdirectory := isDirectory_of_canAddTo hadd
      have hnone := FileTree.nodeAt_of_walk_free hwalk
      have hnot := FileTree.not_isDirectory_of_eq_none hnone
      refine ⟨name, directory, .newFile, rfl, hdirectory, hnot, hwrites.new _ ⟨hnone, ?_⟩⟩
      show ((fs.tree.place name directory (.file .newFile bytes)).nodeAt
        (name :: directory)).isSome = true
      rw [FileTree.nodeAt_place_of_not_isDirectory hdirectory hnot, if_pos rfl]
      rfl
    · cases hspot
  · next name directory permissions old =>
    split at hspot
    · cases hspot
      obtain ⟨n, hn, hwalks, hnode⟩ := FileTree.walks_of_walk hwalk
      exact ⟨name, directory, permissions, rfl, FileTree.isDirectory_of_nodeAt hnode,
        FileTree.not_isDirectory_of_eq_file hnode,
        hwrites.grows.leads ⟨Option.isSome_of_eq_some hnode, n, hn, hwalks⟩⟩
    · cases hspot
  · cases hspot

/-- **Without links writing changes the node that the path spells, and no other.** -/
theorem nodeAt_write (hlinks : fs.tree.LinkFree) (hp : p.IsPlain)
    (h : fs.write p.text bytes = .ok fs') :
    ∃ permissions, ∀ l, fs'.tree.nodeAt l =
      if l = p.parts.reverse then some (.file permissions bytes) else fs.tree.nodeAt l := by
  have hparts := parts_ne_nil_of_write hp h
  have hlinks' := (writes_of_write hparts h).grows.tree.linkFree hlinks
  obtain ⟨name, directory, permissions, rfl, hdirectory, hnot, hleads⟩ :=
    exists_place_of_write hparts h
  refine ⟨permissions, fun l => ?_⟩
  rw [← hleads.eq_reverse hlinks' hp]
  exact FileTree.nodeAt_place_of_not_isDirectory hdirectory hnot l

theorem linkFree_write (hlinks : fs.tree.LinkFree) (hp : p.IsPlain)
    (h : fs.write p.text bytes = .ok fs') : fs'.tree.LinkFree :=
  (writes_of_write (parts_ne_nil_of_write hp h) h).grows.tree.linkFree hlinks

/-- What was written is found. -/
theorem stat_write (hlinks : fs.tree.LinkFree) (hp : p.IsPlain)
    (h : fs.write p.text bytes = .ok fs') :
    ∃ permissions, fs'.stat p.text = .ok (.file permissions bytes) := by
  have hparts := parts_ne_nil_of_write hp h
  have hlinks' := linkFree_write hlinks hp h
  obtain ⟨-, haccepts, ⟨l, hleads⟩, -⟩ := writes_of_write hparts h
  obtain ⟨permissions, hnode⟩ := nodeAt_write hlinks hp h
  refine ⟨permissions, (stat_text_eq_ok_iff hparts).2 ⟨haccepts, l, hleads, ?_⟩⟩
  rw [hnode, if_pos (hleads.eq_reverse hlinks' hp)]

/-- **A file with another path is as it was.** -/
theorem stat_write_of_ne (hlinks : fs.tree.LinkFree) (hp : p.IsPlain) (hq : q.IsPlain) (hne : q ≠ p)
    (h : fs.write p.text bytes = .ok fs')
    (hstat : fs.stat q.text = .ok (.file permissions old)) :
    fs'.stat q.text = .ok (.file permissions old) := by
  have hparts := parts_ne_nil_of_stat hq hstat
  obtain ⟨_, hnodes⟩ := nodeAt_write hlinks hp h
  have hgrows := (writes_of_write (parts_ne_nil_of_write hp h) h).grows
  obtain ⟨haccepts, l, hleads, hnode⟩ := (stat_text_eq_ok_iff hparts).1 hstat
  refine (stat_text_eq_ok_iff hparts).2 ⟨haccepts, l, hgrows.leads hleads, ?_⟩
  -- Both paths are spelt by their locations, so these are different too.
  have hl : l ≠ p.parts.reverse := by
    rw [hleads.eq_reverse hlinks hq]
    intro hreverse
    exact hne (Path.ext_parts (hq.anchor.trans hp.anchor.symm) (List.reverse_injective hreverse))
  rw [hnodes, if_neg hl]
  exact hnode

end FileSystem

end ConvertOnce
