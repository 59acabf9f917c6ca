import ConvertOnce.Proofs.FileTree.Course

/-!
# Walks as a relation

`FileTree.Walks` says which location the names of a path lead to and through how many links, with
neither fuel nor failure.  It determines the location (`Walks.unique`) and splits where the names
split (`Walks.split`).  `FileTree.walk` follows it as far as its links last: it goes on from where
the first names lead (`walk_append`), finds a node where all of them lead (`walks_of_walk`,
`walk_of_walks`), and a name that it finds free is one that they do not lead to
(`not_walks_of_walk_free`).
-/

namespace ConvertOnce.FileTree

variable {t : FileTree} {follow : Bool} {links n n' : Nat} {name : String} {node : Node}
  {here there there' directory : Location} {names rest a b : List String}

/-- The names lead from one location to another through the given number of links, with the last
name followed too. -/
inductive Walks (t : FileTree) : Location → List String → Location → Nat → Prop
  | nil (here : Location) : Walks t here [] here 0
  | dot {here there : Location} {name : String} {rest : List String} {n : Nat}
      (search : t.Searchable here) (name_eq : name = ".") (walks : Walks t here rest there n) :
      Walks t here (name :: rest) there n
  | up {here there : Location} {name : String} {rest : List String} {n : Nat}
      (search : t.Searchable here) (name_eq : name = "..")
      (walks : Walks t here.tail rest there n) :
      Walks t here (name :: rest) there n
  | link {here there : Location} {name target : String} {rest : List String} {n : Nat}
      (search : t.Searchable here) (isName : IsName name)
      (nodeAt_eq : t.nodeAt (name :: here) = some (.link target))
      (walks : Walks t (targetStart here target) (slashNames target ++ rest) there n) :
      Walks t here (name :: rest) there (n + 1)
  | step {here there : Location} {name : String} {node : Node} {rest : List String} {n : Nat}
      (search : t.Searchable here) (isName : IsName name)
      (nodeAt_eq : t.nodeAt (name :: here) = some node) (isLink : node.isLink = false)
      (walks : Walks t (name :: here) rest there n) : Walks t here (name :: rest) there n

namespace Walks

/-- Names have to be looked up where there are any. -/
theorem searchable (h : t.Walks here (name :: rest) there n) : t.Searchable here := by
  cases h with
  | dot search | up search | link search | step search => exact search

/-- A last name other than `.` and `..` that is that of no link is where the names lead. -/
theorem eq_cons_of_singleton (hdot : name ≠ ".") (hup : name ≠ "..")
    (hlink : ∀ target, t.nodeAt (name :: here) ≠ some (.link target))
    (h : t.Walks here [name] there n) : there = name :: here := by
  cases h with
  | dot _ heq => exact absurd heq hdot
  | up _ heq => exact absurd heq hup
  | link _ _ hnode => exact absurd hnode (hlink _)
  | step _ _ _ _ walks => cases walks; rfl

/-- **Names lead to one location.** -/
theorem unique (h : t.Walks here names there n) (h' : t.Walks here names there' n') :
    there = there' := by
  -- By induction on the first walk: its first name is passed in one way only, so the second walk
  -- passes it in the same way.
  induction h generalizing there' n' with
  | nil here => cases h'; rfl
  | dot search heq walks ih =>
    subst heq
    cases h' with
    | dot _ _ walks' => exact ih walks'
    | up _ heq' => exact absurd heq' (by decide)
    | link _ hname | step _ hname => exact absurd rfl hname.ne_dot
  | up search heq walks ih =>
    subst heq
    cases h' with
    | dot _ heq' => exact absurd heq' (by decide)
    | up _ _ walks' => exact ih walks'
    | link _ hname | step _ hname => exact absurd rfl hname.ne_up
  | link search hname hnode walks ih =>
    cases h' with
    | dot _ heq => exact absurd heq hname.ne_dot
    | up _ heq => exact absurd heq hname.ne_up
    | link _ _ hnode' walks' =>
      cases hnode.symm.trans hnode'
      exact ih walks'
    | step _ _ hnode' hlink =>
      cases hnode.symm.trans hnode'
      cases hlink
  | step search hname hnode hlink walks ih =>
    cases h' with
    | dot _ heq => exact absurd heq hname.ne_dot
    | up _ heq => exact absurd heq hname.ne_up
    | link _ _ hnode' =>
      cases hnode.symm.trans hnode'
      cases hlink
    | step _ _ _ _ walks' => exact ih walks'

/-- A walk can be split before its first name. -/
theorem split_nil (h : t.Walks here b there n) :
    ∃ mid i j, t.Walks here [] mid i ∧ t.Walks mid b there j ∧ i + j = n :=
  ⟨here, 0, n, .nil here, h, Nat.zero_add n⟩

/-- A walk can be split anywhere. -/
theorem split (h : t.Walks here names there n) (hnames : a ++ b = names) :
    ∃ mid i j, t.Walks here a mid i ∧ t.Walks mid b there j ∧ i + j = n := by
  induction h generalizing a with
  | nil here =>
    obtain ⟨rfl, rfl⟩ := List.append_eq_nil_iff.1 hnames
    exact split_nil (.nil here)
  | dot search heq walks ih =>
    rcases a with _ | ⟨name, a⟩
    · subst hnames
      exact split_nil (.dot search heq walks)
    · obtain ⟨rfl, rfl⟩ := List.cons.inj hnames
      obtain ⟨mid, i, j, hi, hj, hn⟩ := ih rfl
      exact ⟨mid, i, j, .dot search heq hi, hj, hn⟩
  | up search heq walks ih =>
    rcases a with _ | ⟨name, a⟩
    · subst hnames
      exact split_nil (.up search heq walks)
    · obtain ⟨rfl, rfl⟩ := List.cons.inj hnames
      obtain ⟨mid, i, j, hi, hj, hn⟩ := ih rfl
      exact ⟨mid, i, j, .up search heq hi, hj, hn⟩
  | link search hname hnode walks ih =>
    rcases a with _ | ⟨name, a⟩
    · subst hnames
      exact split_nil (.link search hname hnode walks)
    · obtain ⟨rfl, rfl⟩ := List.cons.inj hnames
      -- The names of the target come before what is left of the first part.
      obtain ⟨mid, i, j, hi, hj, hn⟩ := ih (List.append_assoc _ _ _)
      exact ⟨mid, i + 1, j, .link search hname hnode hi, hj, by omega⟩
  | step search hname hnode hlink walks ih =>
    rcases a with _ | ⟨name, a⟩
    · subst hnames
      exact split_nil (.step search hname hnode hlink walks)
    · obtain ⟨rfl, rfl⟩ := List.cons.inj hnames
      obtain ⟨mid, i, j, hi, hj, hn⟩ := ih rfl
      exact ⟨mid, i, j, .step search hname hnode hlink hi, hj, hn⟩

end Walks

/-! ### What the search finds -/

theorem walks_of_course {enter : Location → List String → Except Errno Spot}
    (henter : ∀ here names, enter here names = .ok (.node there node) →
      ∃ n < links, t.Walks here names there n ∧ t.nodeAt there = some node)
    (h : Course t true enter here names (.ok (.node there node))) :
    ∃ n ≤ links, t.Walks here names there n ∧ t.nodeAt there = some node := by
  -- By induction on the course: of all its turns only those that go on can end at a node.
  generalize hanswer : Except.ok (Spot.node there node) = answer at h
  induction h with
  | arrived hnode =>
    cases hanswer
    exact ⟨0, Nat.zero_le _, .nil _, hnode⟩
  | dot hsearch _ ih =>
    obtain ⟨n, hn, hwalks, hthere⟩ := ih hanswer
    exact ⟨n, hn, .dot hsearch rfl hwalks, hthere⟩
  | up hsearch _ ih =>
    obtain ⟨n, hn, hwalks, hthere⟩ := ih hanswer
    exact ⟨n, hn, .up hsearch rfl hwalks, hthere⟩
  | kept _ _ _ hfollow => cases hfollow
  | link hsearch hname hlink =>
    obtain ⟨n, hn, hwalks, hthere⟩ := henter _ _ hanswer.symm
    exact ⟨n + 1, hn, .link hsearch hname hlink hwalks, hthere⟩
  | step hsearch hname hnext hlink _ ih =>
    obtain ⟨n, hn, hwalks, hthere⟩ := ih hanswer
    exact ⟨n, hn, .step hsearch hname hnext hlink hwalks, hthere⟩
  | lost | blocked | closed | tooLong | free | missing => cases hanswer

/-- A node that is found is where the names lead. -/
theorem walks_of_walk (h : t.walk true links here names = .ok (.node there node)) :
    ∃ n ≤ links, t.Walks here names there n ∧ t.nodeAt there = some node := by
  induction links generalizing here names with
  | zero =>
    refine walks_of_course (fun _ _ hfail => ?_) (course_of_walkNames h)
    cases hfail
  | succ links ih =>
    refine walks_of_course (fun here names henter => ?_) (course_of_walkNames h)
    obtain ⟨n, hn, hwalks, hthere⟩ := ih henter
    exact ⟨n, by omega, hwalks, hthere⟩

/-! ### Single steps of the search -/

theorem walk_nil : t.walk follow links here [] =
    match t.nodeAt here with
    | some node => .ok (.node here node)
    | none => .error .noEntry := by
  cases hnode : t.nodeAt here <;> cases links <;> simp [walk, walkNames, hnode]

theorem walk_dot (hsearch : t.Searchable here) :
    t.walk follow links here ("." :: rest) = t.walk follow links here rest := by
  obtain ⟨permissions, hnode, hcan⟩ := hsearch
  cases links <;> simp [walk, walkNames, hnode, hcan]

theorem walk_up (hsearch : t.Searchable here) :
    t.walk follow links here (".." :: rest) = t.walk follow links here.tail rest := by
  obtain ⟨permissions, hnode, hcan⟩ := hsearch
  cases links <;> simp [walk, walkNames, hnode, hcan]

/-- A link at the end is not followed if it need not be. -/
theorem walk_last {target : String} (hsearch : t.Searchable here) (hname : IsName name)
    (hlink : t.nodeAt (name :: here) = some (.link target)) :
    t.walk false links here [name] = .ok (.node (name :: here) (.link target)) := by
  obtain ⟨permissions, hnode, hcan⟩ := hsearch
  obtain ⟨hdot, hup, hlong⟩ := hname
  cases links <;> simp [walk, walkNames, hnode, hcan, hdot, hup, hlong, hlink]

/-- Any other link is followed as long as links last. -/
theorem walk_link {target : String} (hsearch : t.Searchable here) (hname : IsName name)
    (hlink : t.nodeAt (name :: here) = some (.link target)) (h : rest ≠ [] ∨ follow = true) :
    t.walk follow links here (name :: rest) =
      match links with
      | 0 => .error .tooManyLinks
      | links + 1 => t.walk follow links (targetStart here target) (slashNames target ++ rest) := by
  obtain ⟨permissions, hnode, hcan⟩ := hsearch
  obtain ⟨hdot, hup, hlong⟩ := hname
  have hfollow : ¬ (rest = [] ∧ follow = false) := by
    rintro ⟨rfl, rfl⟩
    simp at h
  cases links <;> simp [walk, walkNames, hnode, hcan, hdot, hup, hlong, hlink, hfollow]

theorem walk_step (hsearch : t.Searchable here) (hname : IsName name)
    (hnext : t.nodeAt (name :: here) = some node) (hlink : node.isLink = false) :
    t.walk follow links here (name :: rest) = t.walk follow links (name :: here) rest := by
  obtain ⟨permissions, hnode, hcan⟩ := hsearch
  obtain ⟨hdot, hup, hlong⟩ := hname
  cases node with
  | link target => cases hlink
  | file | directory =>
    cases links <;> simp [walk, walkNames, hnode, hcan, hdot, hup, hlong, hnext]

/-- A name that nothing has is found free. -/
theorem walk_free (hsearch : t.Searchable here) (hname : IsName name)
    (hfree : t.nodeAt (name :: here) = none) :
    t.walk follow links here [name] = .ok (.free here name) := by
  obtain ⟨permissions, hnode, hcan⟩ := hsearch
  obtain ⟨hdot, hup, hlong⟩ := hname
  cases links <;> simp [walk, walkNames, hnode, hcan, hdot, hup, hlong, hfree]

/-- A last name that need not be followed leads to what has it. -/
theorem walk_named (hsearch : t.Searchable here) (hname : IsName name)
    (hnode : t.nodeAt (name :: here) = some node) :
    t.walk false links here [name] = .ok (.node (name :: here) node) := by
  cases hlink : node.isLink with
  | false => rw [walk_step hsearch hname hnode hlink, walk_nil, hnode]
  | true =>
    cases node with
    | link target => exact walk_last hsearch hname hnode
    | file | directory => cases hlink

/-- **The search goes on from where the names before lead**, with the links that are left. -/
theorem walk_append (h : t.Walks here names there n) (hn : n ≤ links)
    (hrest : rest ≠ [] ∨ follow = true) :
    t.walk follow links here (names ++ rest) = t.walk follow (links - n) there rest := by
  -- By induction on the walk, which is what the search goes through. Each link that it follows
  -- takes one of those that are left.
  induction h generalizing links with
  | nil here => rfl
  | dot search heq walks ih => rw [heq, List.cons_append, walk_dot search, ih hn]
  | up search heq walks ih => rw [heq, List.cons_append, walk_up search, ih hn]
  | link search hname hnode walks ih =>
    rw [List.cons_append, walk_link search hname hnode
      (hrest.imp_left fun hne => List.append_ne_nil_of_right_ne_nil _ hne)]
    cases links with
    | zero => omega
    | succ links =>
      dsimp only
      rw [← List.append_assoc, ih (by omega), Nat.add_sub_add_right]
  | step search hname hnode hlink walks ih =>
    rw [List.cons_append, walk_step search hname hnode hlink, ih hn]

/-- The node to which names lead is found, if the links last. -/
theorem walk_of_walks (h : t.Walks here names there n) (hn : n ≤ links)
    (hthere : t.nodeAt there = some node) :
    t.walk true links here names = .ok (.node there node) := by
  have happend := walk_append h hn (Or.inr rfl : [] ≠ [] ∨ true = true)
  rw [List.append_nil] at happend
  rw [happend, walk_nil, hthere]

/-- A node to which names lead is found, or the link that is the last of them. -/
theorem exists_walk_of_walks (h : t.Walks here names there n) (hn : n ≤ links)
    (hthere : (t.nodeAt there).isSome = true) :
    ∃ l node, t.walk follow links here names = .ok (.node l node) := by
  obtain ⟨node, hnode⟩ := Option.isSome_iff_exists.1 hthere
  cases follow with
  | true => exact ⟨there, node, walk_of_walks h hn hnode⟩
  | false =>
    induction h generalizing links with
    | nil here => exact ⟨here, node, by rw [walk_nil, hnode]⟩
    | dot search heq walks ih =>
      rw [heq, walk_dot search]
      exact ih hn hthere hnode
    | up search heq walks ih =>
      rw [heq, walk_up search]
      exact ih hn hthere hnode
    | @link here there name target rest _ search hname htarget walks ih =>
      -- A link is followed wherever names are left; as the last one it is what the search finds.
      by_cases hrest : rest = []
      · subst hrest
        exact ⟨name :: here, .link target, walk_last search hname htarget⟩
      · rw [walk_link search hname htarget (Or.inl hrest)]
        cases links with
        | zero => omega
        | succ links => exact ih (by omega) hthere hnode
    | step search hname hnext hlink walks ih =>
      rw [walk_step search hname hnext hlink]
      exact ih hn hthere hnode

/-- A name that is found free is one to which the names do not lead. -/
theorem not_walks_of_walk_free (h : t.walk follow links here names = .ok (.free directory name)) :
    ¬ t.Walks here names there n := by
  intro hwalks
  -- By induction on the walk that there would be: the search follows it and finds a node at its
  -- end.
  induction hwalks generalizing links with
  | nil here =>
    rw [walk_nil] at h
    split at h <;> cases h
  | dot search heq walks ih =>
    rw [heq, walk_dot search] at h
    exact ih h
  | up search heq walks ih =>
    rw [heq, walk_up search] at h
    exact ih h
  | @link _ _ _ _ rest _ search hname hnode walks ih =>
    by_cases hfollow : rest ≠ [] ∨ follow = true
    · rw [walk_link search hname hnode hfollow] at h
      cases links with
      | zero => cases h
      | succ links => exact ih h
    · obtain ⟨rfl, rfl⟩ : rest = [] ∧ follow = false := by simpa using hfollow
      rw [walk_last search hname hnode] at h
      cases h
  | step search hname hnode hlink walks ih =>
    rw [walk_step search hname hnode hlink] at h
    exact ih h

/-! ### Searches that succeed -/

variable {spot : Spot}

/-- Names are only looked up where they may be. -/
theorem searchable_of_walk (h : t.walk follow links here (name :: rest) = .ok spot) :
    t.Searchable here := by
  by_contra hnot
  cases hnode : t.nodeAt here with
  | none => cases links <;> simp [walk, walkNames, hnode] at h
  | some node =>
    cases node with
    | directory permissions =>
      by_cases hcan : permissions.canSearch = true
      · exact hnot ⟨permissions, hnode, hcan⟩
      · cases links <;> simp [walk, walkNames, hnode, hcan] at h
    | file | link => cases links <;> simp [walk, walkNames, hnode] at h

/-- What the first name of a search that succeeds can be. -/
inductive Passes (t : FileTree) (follow : Bool) (here : Location) (spot : Spot) :
    Nat → String → List String → Prop
  | dot {links : Nat} {rest : List String} (walk_eq : t.walk follow links here rest = .ok spot) :
      Passes t follow here spot links "." rest
  | up {links : Nat} {rest : List String}
      (walk_eq : t.walk follow links here.tail rest = .ok spot) :
      Passes t follow here spot links ".." rest
  | last {links : Nat} {name : String} (isName : IsName name) :
      Passes t follow here spot links name []
  | link {links : Nat} {name target : String} {rest : List String} (isName : IsName name)
      (nodeAt_eq : t.nodeAt (name :: here) = some (.link target))
      (walk_eq :
        t.walk follow links (targetStart here target) (slashNames target ++ rest) = .ok spot) :
      Passes t follow here spot (links + 1) name rest
  | step {links : Nat} {name : String} {rest : List String} {node : Node} (isName : IsName name)
      (nodeAt_eq : t.nodeAt (name :: here) = some node) (isLink : node.isLink = false)
      (walk_eq : t.walk follow links (name :: here) rest = .ok spot) :
      Passes t follow here spot links name rest

theorem passes_of_walk (h : t.walk follow links here (name :: rest) = .ok spot) :
    t.Passes follow here spot links name rest := by
  have hsearch := searchable_of_walk h
  by_cases hdot : name = "."
  · subst hdot
    rw [walk_dot hsearch] at h
    exact .dot h
  by_cases hup : name = ".."
  · subst hup
    rw [walk_up hsearch] at h
    exact .up h
  obtain ⟨permissions, hnode, hcan⟩ := id hsearch
  by_cases hlong : name.utf8ByteSize > maxNameBytes
  · cases links <;> simp [walk, walkNames, hnode, hcan, hdot, hup, hlong] at h
  -- From here on the name is looked up, and only the node of that name matters.
  have hname : IsName name := ⟨hdot, hup, hlong⟩
  cases rest with
  | nil => exact .last hname
  | cons next rest =>
    cases hnext : t.nodeAt (name :: here) with
    | none => cases links <;> simp [walk, walkNames, hnode, hcan, hdot, hup, hlong, hnext] at h
    | some node =>
      cases hlink : node.isLink with
      | false =>
        rw [walk_step hsearch hname hnext hlink] at h
        exact .step hname hnext hlink h
      | true =>
        cases node with
        | file | directory => cases hlink
        | link target =>
          rw [walk_link hsearch hname hnext (Or.inl (List.cons_ne_nil _ _))] at h
          cases links with
          | zero => cases h
          | succ links => exact .link hname hnext h

/-- **A search that succeeds goes on from where the names before lead.** -/
theorem exists_walks_of_walk_append {init : List String} (hrest : rest ≠ [])
    (h : t.walk follow links here (init ++ rest) = .ok spot) :
    ∃ mid n, n ≤ links ∧ t.Walks here init mid n ∧
      t.walk follow (links - n) mid rest = .ok spot := by
  -- Two inductions, since a link puts the names of its target before those that are left: there are
  -- fewer links then, and with the same links fewer names.
  induction links using Nat.strongRecOn generalizing here init with
  | _ links ih =>
  induction init generalizing here with
  | nil => exact ⟨here, 0, Nat.zero_le _, .nil here, h⟩
  | cons name init ihinit =>
    rw [List.cons_append] at h
    have hsearch := searchable_of_walk h
    have hpasses := passes_of_walk h
    generalize hnames : init ++ rest = names at hpasses
    cases hpasses with
    | dot h =>
      subst hnames
      obtain ⟨mid, n, hn, hwalks, hmid⟩ := ihinit h
      exact ⟨mid, n, hn, .dot hsearch rfl hwalks, hmid⟩
    | up h =>
      subst hnames
      obtain ⟨mid, n, hn, hwalks, hmid⟩ := ihinit h
      exact ⟨mid, n, hn, .up hsearch rfl hwalks, hmid⟩
    | last =>
      exact absurd (List.append_eq_nil_iff.1 hnames).2 hrest
    | link hname hnode h =>
      subst hnames
      rw [← List.append_assoc] at h
      obtain ⟨mid, n, hn, hwalks, hmid⟩ := ih _ (Nat.lt_succ_self _) h
      refine ⟨mid, n + 1, Nat.succ_le_succ hn, .link hsearch hname hnode hwalks, ?_⟩
      rw [Nat.add_sub_add_right]
      exact hmid
    | step hname hnode hlink h =>
      subst hnames
      obtain ⟨mid, n, hn, hwalks, hmid⟩ := ihinit h
      exact ⟨mid, n, hn, .step hsearch hname hnode hlink hwalks, hmid⟩

/-- A name that is found free is that of no node. -/
theorem nodeAt_of_course_free {enter : Location → List String → Except Errno Spot}
    (henter : ∀ here names, enter here names = .ok (.free directory name) →
      t.nodeAt (name :: directory) = none)
    (h : Course t follow enter here names (.ok (.free directory name))) :
    t.nodeAt (name :: directory) = none := by
  generalize hanswer : Except.ok (Spot.free directory name) = answer at h
  induction h with
  | dot _ _ ih | up _ _ ih | step _ _ _ _ _ ih => exact ih hanswer
  | free _ _ hnone => cases hanswer; exact hnone
  | link => exact henter _ _ hanswer.symm
  | arrived | lost | blocked | closed | tooLong | missing | kept => cases hanswer

theorem nodeAt_of_walk_free (h : t.walk follow links here names = .ok (.free directory name)) :
    t.nodeAt (name :: directory) = none := by
  induction links generalizing here names with
  | zero =>
    refine nodeAt_of_course_free (fun _ _ hfail => ?_) (course_of_walkNames h)
    cases hfail
  | succ links ih =>
    exact nodeAt_of_course_free (fun _ _ henter => ih henter) (course_of_walkNames h)

/-- Names that are none lead to no free one. -/
theorem walk_dots_ne_free (hnames : ∀ name ∈ names, name = ".") :
    t.walk follow links here names ≠ .ok (.free directory name) := by
  intro h
  induction names with
  | nil =>
    rw [walk_nil] at h
    split at h <;> cases h
  | cons first rest ih =>
    obtain rfl := hnames first List.mem_cons_self
    have hsearch := searchable_of_walk h
    rw [walk_dot hsearch] at h
    exact ih (fun name hname => hnames name (List.mem_cons_of_mem _ hname)) h

end ConvertOnce.FileTree
