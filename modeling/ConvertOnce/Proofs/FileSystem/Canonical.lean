import ConvertOnce.Proofs.FileSystem.LinkFree
import ConvertOnce.Proofs.Path.Absolute
import ConvertOnce.Proofs.Path.Canonical

/-!
# Canonical paths in file systems without links

A canonical path cancels a part with the `..` after it.  A resolution follows both: it looks the
part up, enters what it finds and goes back to what holds that.  Where there are no links this is
where it came from, so the two ways of reading a path end in the same place.  `FileTree.Walks.push`
says so for one name and `FileTree.Walks.foldl_push` for all names of a path.

A path that can be resolved therefore leads to the node to which its canonical spelling leads
(`FileSystem.locate_canonicalText`).  The converse fails: the canonical spelling does not look up
what was cancelled.
-/

namespace ConvertOnce

namespace FileTree

variable {t : FileTree} {here mid there : Location} {names : List String} {name : String}
  {node : Node} {n : Nat} {follow : Bool} {links : Nat}

/-! ### Walks without links -/

theorem LinkFree.isLink_eq_false (hlinks : t.LinkFree) (h : t.nodeAt here = some node) :
    node.isLink = false := by
  cases node with
  | link target => exact absurd h (hlinks here target)
  | file | directory => rfl

/-- One walk after another is a walk. -/
theorem Walks.append {rest : List String} {n' : Nat} (h : t.Walks here names mid n)
    (h' : t.Walks mid rest there n') : t.Walks here (names ++ rest) there (n + n') := by
  induction h with
  | nil =>
    rw [Nat.zero_add]
    exact h'
  | dot hsearch heq _ ih => exact .dot hsearch heq (ih h')
  | up hsearch heq _ ih => exact .up hsearch heq (ih h')
  | @link _ _ _ target _ n hsearch hname hnode _ ih =>
    have hrest := ih h'
    rw [List.append_assoc] at hrest
    rw [Nat.add_right_comm]
    exact .link hsearch hname hnode hrest
  | step hsearch hname hnode hlink _ ih => exact .step hsearch hname hnode hlink (ih h')

/-- Where there are no links a search that finds a node has followed the names, the last one
included. -/
theorem walks_of_walk_of_linkFree (hlinks : t.LinkFree)
    (h : t.walk follow links here names = .ok (.node there node)) :
    t.Walks here names there 0 ∧ t.nodeAt there = some node := by
  -- By induction on the names. No links are used up on the way, so they need not be generalized.
  induction names generalizing here with
  | nil =>
    rw [walk_nil] at h
    cases hnode : t.nodeAt here with
    | none =>
      rw [hnode] at h
      cases h
    | some node' =>
      rw [hnode] at h
      cases h
      exact ⟨.nil _, hnode⟩
  | cons name names ih =>
    have hsearch := searchable_of_walk h
    have hpasses := passes_of_walk h
    cases hpasses with
    | dot h =>
      obtain ⟨hwalks, hthere⟩ := ih h
      exact ⟨.dot hsearch rfl hwalks, hthere⟩
    | up h =>
      obtain ⟨hwalks, hthere⟩ := ih h
      exact ⟨.up hsearch rfl hwalks, hthere⟩
    | last hname =>
      cases hnode : t.nodeAt (name :: here) with
      | none =>
        rw [walk_free hsearch hname hnode] at h
        cases h
      | some node' =>
        have hlink := hlinks.isLink_eq_false hnode
        rw [walk_step hsearch hname hnode hlink] at h
        obtain ⟨hwalks, hthere⟩ := ih h
        exact ⟨.step hsearch hname hnode hlink hwalks, hthere⟩
    | link _ hnode => exact absurd hnode (hlinks _ _)
    | step hname hnode hlink h =>
      obtain ⟨hwalks, hthere⟩ := ih h
      exact ⟨.step hsearch hname hnode hlink hwalks, hthere⟩

/-- The node to which names lead is then found, be the last name to be followed or not. -/
theorem walk_of_walks_of_linkFree (hlinks : t.LinkFree) (h : t.Walks here names there n)
    (hthere : t.nodeAt there = some node) :
    t.walk follow links here names = .ok (.node there node) := by
  induction h with
  | nil => rw [walk_nil, hthere]
  | dot hsearch heq _ ih =>
    rw [heq, walk_dot hsearch]
    exact ih hthere
  | up hsearch heq _ ih =>
    rw [heq, walk_up hsearch]
    exact ih hthere
  | link _ _ hnode => exact absurd hnode (hlinks _ _)
  | step hsearch hname hnode hlink _ ih =>
    rw [walk_step hsearch hname hnode hlink]
    exact ih hthere

/-! ### Cancelling on the way -/

variable {p : Path}

/-- **One name**: when the parts of a path lead to where the name is looked up, its parts with the
name taken in lead to where the name leads. -/
theorem Walks.push (hlinks : t.LinkFree) (hrooted : p.isAbsolute = true → here = [])
    (hname : name = "." ∨ IsPart name) (h : t.Walks here p.parts mid 0)
    (hstep : t.Walks mid [name] there 0) : t.Walks here (p.push name).parts there 0 := by
  by_cases hdot : name = "."
  · -- Nothing is taken in, and one stays where one is.
    subst hdot
    have hsame : p.push "." = p := Path.push_of_not_isPart (by decide)
    have hthere : there = mid := by
      cases hstep with
      | dot _ _ hwalks => cases hwalks; rfl
      | up _ heq => exact absurd heq (by decide)
      | step _ hname => exact absurd rfl hname.ne_dot
    rw [hsame, hthere]
    exact h
  have hpart : IsPart name := hname.resolve_left hdot
  by_cases hup : name = ".."
  · subst hup
    have hthere : there = mid.tail := by
      cases hstep with
      | dot _ heq => exact absurd heq (by decide)
      | up _ _ hwalks => cases hwalks; rfl
      | step _ hname => exact absurd rfl hname.ne_up
    have happend := h.append hstep
    rw [Path.parts_push_up]
    rcases List.eq_nil_or_concat' p.parts with hnil | ⟨init, last, hconcat⟩
    · rw [hnil] at h happend ⊢
      cases hcases : p.isAbsolute with
      | true =>
        -- At the root one stays at the root.
        have hhere := hrooted hcases
        subst hhere
        cases h
        rw [hthere]
        exact .nil []
      | false => exact happend
    · rw [hconcat] at h happend ⊢
      rw [List.reverse_concat]
      by_cases hlast : last = ".."
      · simpa [Path.stepUp, hlast] using happend
      · -- The last part and the `..` lead back to where the part was looked up.
        obtain ⟨before, i, j, hinit, hlastWalk, hij⟩ := h.split rfl
        have hlastPart : IsPart last := p.isPart_of_mem last (by simp [hconcat])
        have hmid : mid = last :: before :=
          hlastWalk.eq_cons_of_singleton hlastPart.2.1 hlast fun target => hlinks _ target
        have hi : i = 0 := by omega
        subst hi
        rw [hthere, hmid]
        simpa [Path.stepUp, hlast] using hinit
  · rw [Path.parts_push_of_ne hpart hup]
    exact h.append hstep

/-- **All names**: they lead to where the parts lead that are left of them. -/
theorem Walks.foldl_push (hlinks : t.LinkFree) (hrooted : p.isAbsolute = true → here = [])
    (hnames : ∀ name ∈ names, name = "." ∨ IsPart name) (h : t.Walks here p.parts mid 0)
    (hrest : t.Walks mid names there 0) :
    t.Walks here (names.foldl Path.push p).parts there 0 := by
  -- By induction on the names that are left. The parts so far lead to where the next name is looked
  -- up.
  induction names generalizing p mid with
  | nil =>
    cases hrest
    exact h
  | cons name names ih =>
    obtain ⟨next, i, j, hname, hrest, hij⟩ :=
      hrest.split (show [name] ++ names = name :: names from rfl)
    obtain ⟨rfl, rfl⟩ : i = 0 ∧ j = 0 := by omega
    have hpush := h.push hlinks hrooted (hnames name List.mem_cons_self) hname
    refine ih ?_ (fun name hmem => hnames name (List.mem_cons_of_mem _ hmem)) hpush hrest
    intro habsolute
    rw [Path.isAbsolute_push] at habsolute
    exact hrooted habsolute

end FileTree

namespace FileSystem

variable {fs : FileSystem} {path path' : String} {l l' : Location} {node node' : Node}
  {follow follow' : Bool} {bytes : Bytes}

/-! ### Canonical spellings -/

/-- A text is read from the same place as its canonical spelling. -/
theorem startOf_canonical_ofString (fs : FileSystem) (path : String) :
    fs.startOf (Path.ofString path).canonical = fs.start path := by
  have hanchor : (Path.ofString path).canonical.isAbsolute = (Path.ofString path).isAbsolute := by
    rw [Path.isAbsolute, Path.isAbsolute, Path.anchor_canonical]
  rw [startOf, start, hanchor]
  by_cases h : path.toList.head? = some '/'
  · rw [if_pos h, if_pos (Path.isAbsolute_ofString_iff.2 h)]
  · rw [if_neg h, if_neg (mt Path.isAbsolute_ofString_iff.1 h)]

theorem hasNul_of_canonicalText (h : HasNul (canonicalText path)) : HasNul path := by
  obtain ⟨part, hpart, hnul⟩ := Path.hasNul_text.1 h
  have hmem : part ∈ (Path.ofString path).parts := (Path.parts_canonical_sublist _).subset hpart
  have hpiece : part ∈ slashPieces path := (List.mem_filter.1 hmem).1
  exact mem_of_mem_slashPieces hpiece hnul

/-- Where there are no links, a path that is resolved leads to the location to which the parts of
its canonical form lead. -/
theorem walks_canonical_of_locate (hlinks : fs.tree.LinkFree)
    (h : fs.locate follow path = .ok (.node l node)) :
    fs.tree.Walks (fs.start path) (Path.ofString path).canonical.parts l 0 ∧
      fs.tree.nodeAt l = some node := by
  rw [locate_of_not_hasNul (not_hasNul_of_locate h)] at h
  cases hresolve : fs.resolve follow path with
  | error errno =>
    rw [hresolve] at h
    cases h
  | ok spot =>
    rw [hresolve] at h
    cases h
    obtain ⟨-, -, -, hwalk, -⟩ := resolve_eq_ok_node_iff.1 hresolve
    obtain ⟨hwalks, hnode⟩ := FileTree.walks_of_walk_of_linkFree hlinks hwalk
    refine ⟨?_, hnode⟩
    rw [Path.canonical_ofString]
    refine FileTree.Walks.foldl_push hlinks ?_
      (fun name hname => eq_dot_or_isPart_of_mem_slashNames hname) (.nil _) hwalks
    intro habsolute
    exact if_pos (Path.isAbsolute_ofString_iff.1 habsolute)

/-- A text that is not empty and has no root begins with a name. -/
theorem slashNames_ne_nil (hne : path ≠ "") (hrelative : ¬ IsAbsoluteText path) :
    slashNames path ≠ [] := by
  obtain ⟨c, cs, hcons⟩ : ∃ c cs, path.toList = c :: cs :=
    List.exists_cons_of_ne_nil (by simpa using hne)
  have hc : c ≠ '/' := by
    rintro rfl
    exact hrelative (by rw [IsAbsoluteText, hcons]; rfl)
  -- The first piece begins with the first character, and only an empty piece is dropped.
  have hfirst : ∃ piece ∈ cutAtSlashes path.toList, piece ≠ [] := by
    rw [hcons, cutAtSlashes, if_neg hc]
    split
    · exact ⟨[c], List.mem_cons_self, List.cons_ne_nil _ _⟩
    · exact ⟨_, List.mem_cons_self, List.cons_ne_nil _ _⟩
  obtain ⟨piece, hpiece, hpieceNe⟩ := hfirst
  have hmem : String.ofList piece ∈ slashNames path := by
    refine List.mem_filter.2 ⟨List.mem_map_of_mem hpiece, ?_⟩
    simpa using hpieceNe
  exact List.ne_nil_of_mem hmem

/-- **Where there are no links, the canonical spelling of a path leads to the node to which the path
leads.** -/
theorem locate_canonicalText (hlinks : fs.tree.LinkFree)
    (h : fs.locate follow path = .ok (.node l node)) :
    fs.locate follow (canonicalText path) = .ok (.node l node) := by
  obtain ⟨hwalks, hnode⟩ := walks_canonical_of_locate hlinks h
  have hnul := not_hasNul_of_locate h
  rw [locate_of_not_hasNul hnul] at h
  cases hresolve : fs.resolve follow path with
  | error errno =>
    rw [hresolve] at h
    cases h
  | ok spot =>
    rw [hresolve] at h
    cases h
    obtain ⟨hne, hsize, hstart, hwalk, -⟩ := resolve_eq_ok_node_iff.1 hresolve
    rw [← startOf_canonical_ofString] at hwalks hstart
    show fs.locate follow (Path.ofString path).canonical.text = _
    by_cases hparts : (Path.ofString path).canonical.parts = []
    · rw [hparts] at hwalks
      cases hwalks
      refine locate_text_of_parts_eq_nil hparts ?_ hnode
      intro hanchor
      rw [Path.anchor_canonical] at hanchor
      -- What was cancelled was looked up where the path starts.
      have hrelative : ¬ IsAbsoluteText path := by
        rw [← Path.isAbsolute_ofString_iff, Path.isAbsolute, hanchor]
        decide
      obtain ⟨name, rest, hnames⟩ := List.exists_cons_of_ne_nil (slashNames_ne_nil hne hrelative)
      rw [hnames] at hwalk
      rw [startOf_canonical_ofString]
      exact FileTree.searchable_of_walk hwalk
    · have hsize' := utf8ByteSize_canonicalText_le hne
      have haccepts : Accepts (Path.ofString path).canonical := by
        refine ⟨fun hnul' => hnul (hasNul_of_canonicalText hnul'), ?_⟩
        show (canonicalText path).utf8ByteSize ≤ maxPathBytes
        omega
      exact (locate_text_eq_ok_iff hparts).2
        ⟨haccepts, hstart, FileTree.walk_of_walks_of_linkFree hlinks hwalks hnode⟩

/-- Without links paths with one canonical spelling lead to one node. -/
theorem eq_of_canonicalText_eq (hlinks : fs.tree.LinkFree)
    (h : fs.locate follow path = .ok (.node l node))
    (h' : fs.locate follow' path' = .ok (.node l' node'))
    (hcanonical : canonicalText path = canonicalText path') : l = l' ∧ node = node' := by
  have hpath : (Path.ofString path).canonical = (Path.ofString path').canonical :=
    Path.text_injective hcanonical
  obtain ⟨hwalks, hnode⟩ := walks_canonical_of_locate hlinks h
  obtain ⟨hwalks', hnode'⟩ := walks_canonical_of_locate hlinks h'
  rw [← startOf_canonical_ofString] at hwalks hwalks'
  rw [hpath] at hwalks
  obtain rfl := hwalks.unique hwalks'
  rw [hnode] at hnode'
  exact ⟨rfl, Option.some.inj hnode'⟩

theorem stat_canonicalText (hlinks : fs.tree.LinkFree) (h : fs.stat path = .ok node) :
    fs.stat (canonicalText path) = .ok node := by
  obtain ⟨spot, hlocate, hspot⟩ := bind_eq_ok_iff.1 h
  cases spot with
  | free directory name => cases hspot
  | node l node' =>
    cases hspot
    rw [stat, locate_canonicalText hlinks hlocate]
    rfl

/-- What can be read through a path can be read through its canonical spelling. -/
theorem read_canonicalText (hlinks : fs.tree.LinkFree) (h : fs.read path = .ok bytes) :
    fs.read (canonicalText path) = .ok bytes := by
  obtain ⟨node, hstat, hnode⟩ := bind_eq_ok_iff.1 h
  rw [read, stat_canonicalText hlinks hstat, ok_bind]
  cases node with
  | file permissions contents =>
    dsimp only at hnode ⊢
    split at hnode
    · next hcan =>
      rw [if_pos hcan]
      exact hnode
    · cases hnode
  | directory => cases hnode
  | link => cases hnode

end FileSystem

end ConvertOnce
