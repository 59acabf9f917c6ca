import ConvertOnce.Path.Basic
import ConvertOnce.Table
import ConvertOnce.Text.Utf8

/-!
# File trees

A `FileTree` is a finite tree of files, directories and symbolic links.  A node is found by its
`Location`, the names on the way to it with the innermost first, so that the location of its
directory is the tail.  `FileTree.nodeAt` is the view through which the edits are described:

* `nodeAt_place` says what placing a node at a location does to every location,
* `nodeAt_remove` does the same for removing one.

Whatever has a location stands in a directory; this is a field of `FileTree`, kept by every edit.
-/

namespace ConvertOnce

/-! ### Nodes -/

/-- What the owner may do with a node, as the letters `r`, `w` and `x`. -/
structure Permissions where
  /-- The letters, in the order in which they were given. -/
  letters : List Char
  deriving DecidableEq, Repr

namespace Permissions

/-- Permissions from their letters. -/
def ofString (s : String) : Permissions := ⟨s.toList⟩

/-- The letters as text. -/
def text (p : Permissions) : String := String.ofList p.letters

/-- The contents may be read. -/
def canRead (p : Permissions) : Bool := p.letters.contains 'r'

/-- The contents may be changed. -/
def canWrite (p : Permissions) : Bool := p.letters.contains 'w'

/-- Names may be looked up in the directory. -/
def canSearch (p : Permissions) : Bool := p.letters.contains 'x'

/-- The permissions of a new file. -/
def newFile : Permissions := ⟨['r', 'w']⟩

/-- The permissions of a new directory. -/
def newDirectory : Permissions := ⟨['r', 'w', 'x']⟩

end Permissions

/-- One node of a file tree, without what is below it. -/
inductive Node where
  /-- A regular file. -/
  | file (permissions : Permissions) (bytes : Bytes)
  /-- A directory. -/
  | directory (permissions : Permissions)
  /-- A symbolic link. -/
  | link (target : String)
  deriving DecidableEq, Repr

namespace Node

/-- A regular file. -/
def isFile : Node → Bool
  | file .. => true
  | _ => false

/-- A directory. -/
def isDirectory : Node → Bool
  | directory _ => true
  | _ => false

/-- A symbolic link. -/
def isLink : Node → Bool
  | link _ => true
  | _ => false

/-- The node itself may be changed. -/
def canWrite : Node → Bool
  | file permissions _ | directory permissions => permissions.canWrite
  | link _ => true

end Node

/-! ### Locations -/

/-- The names on the way to a node, the innermost first; the root is the empty list. -/
abbrev Location := List String

namespace Location

/-- The location that a text names literally: its names, with neither `.`, `..` nor links
interpreted. -/
def ofString (s : String) : Location := (slashNames s).reverse

/-- The text of a location. -/
def text (l : Location) : String := "/" ++ slashJoin l.reverse

/-- The location is `top` or lies somewhere under it. -/
def isWithin (top l : Location) : Bool := top.isSuffixOf l

/-- A location with its depth.  Locations of different depths are told apart by the depth alone;
this matters in a deep tree where many names are the same. -/
structure Key where
  /-- The location. -/
  location : Location
  /-- The number of its names. -/
  depth : Nat
  /-- The depth is the one of the location. -/
  depth_eq : depth = location.length

/-- A location as a key. -/
def key (l : Location) : Key := ⟨l, l.length, rfl⟩

instance : DecidableEq Key := fun a b =>
  if depths : a.depth = b.depth then
    if locations : a.location = b.location then isTrue (by cases a; cases b; simp_all)
    else isFalse fun h => locations (congrArg Key.location h)
  else isFalse fun h => depths (congrArg Key.depth h)

@[simp] theorem key_inj {a b : Location} : key a = key b ↔ a = b :=
  ⟨congrArg Key.location, congrArg key⟩

@[simp] theorem location_key (l : Location) : (key l).location = l := rfl

end Location

/-! ### Trees -/

/-- A node that is there and is a directory. -/
def IsDirectory (node : Option Node) : Prop := ∃ permissions, node = some (.directory permissions)

instance (node : Option Node) : Decidable (IsDirectory node) :=
  match node with
  | some (.directory p) => isTrue ⟨p, rfl⟩
  | none => isFalse (by simp [IsDirectory])
  | some (.file ..) => isFalse (by simp [IsDirectory])
  | some (.link _) => isFalse (by simp [IsDirectory])

/-- The node at a location of a tree whose root has the given permissions. -/
def nodeIn (root : Permissions) (nodes : Table Location.Key Node) : Location → Option Node
  | [] => some (.directory root)
  | name :: above => nodes.get? (Location.key (name :: above))

/-- A tree of files, directories and links. -/
structure FileTree where
  /-- The permissions of the root directory. -/
  root : Permissions
  /-- Every other node, by its location. -/
  nodes : Table Location.Key Node
  /-- What stands above a node is a directory. -/
  isDirectory_above : ∀ name above, (nodeIn root nodes (name :: above)).isSome →
    IsDirectory (nodeIn root nodes above)

namespace FileTree

/-- The tree with nothing in its root. -/
def empty : FileTree := ⟨.newDirectory, .empty, by simp [nodeIn]⟩

instance : Inhabited FileTree := ⟨empty⟩

/-- The node at a location. -/
def nodeAt (t : FileTree) (l : Location) : Option Node := nodeIn t.root t.nodes l

/-- Gives the root other permissions. -/
def setRoot (t : FileTree) (root : Permissions) : FileTree where
  root := root
  nodes := t.nodes
  isDirectory_above := fun name above h => by
    cases above with
    | nil => exact ⟨root, rfl⟩
    | cons n u => exact t.isDirectory_above name (n :: u) h

/-- What is left of the other nodes when `node` is placed at `top`: nothing stands below a node
that is no directory. -/
def survives (top : Location) (node : Node) (l : Location) : Bool :=
  node.isDirectory || !Location.isWithin top l

/-- The nodes of a tree with `node` at `top`. -/
def placedNodes (nodes : Table Location.Key Node) (top : Location) (node : Node) :
    Table Location.Key Node :=
  (nodes.filterKeys fun k => survives top node k.location).insert (Location.key top) node

theorem nodeIn_placedNodes (root : Permissions) (nodes : Table Location.Key Node) (name : String)
    (above : Location) (node : Node) (l : Location) :
    nodeIn root (placedNodes nodes (name :: above) node) l =
      if l = name :: above then some node
      else if survives (name :: above) node l then nodeIn root nodes l
      else none := by
  cases l with
  | nil => simp [nodeIn, survives, Location.isWithin, List.isSuffixOf]
  | cons n u =>
    simp only [nodeIn, placedNodes, Table.get?_insert, Table.get?_filterKeys]
    by_cases h : n :: u = name :: above
    · rw [if_pos h, if_pos (Location.key_inj.2 h)]
    · rw [if_neg h, if_neg (mt Location.key_inj.1 h), Location.location_key]

theorem survives_tail {top : Location} {node : Node} {name : String} {above : Location}
    (h : survives top node (name :: above) = true) : survives top node above = true := by
  simp only [survives, Location.isWithin, Bool.or_eq_true, Bool.not_eq_true'] at h ⊢
  refine h.imp_right fun h => ?_
  rw [Bool.eq_false_iff] at h ⊢
  intro hs
  refine h ?_
  rw [List.isSuffixOf_iff_suffix] at hs ⊢
  exact hs.trans (List.suffix_cons _ _)

theorem survives_cons_self {name : String} {above : Location} (node : Node) :
    survives (name :: above) node above = true := by
  simp only [survives, Location.isWithin, Bool.or_eq_true, Bool.not_eq_true']
  refine .inr ?_
  rw [Bool.eq_false_iff]
  intro hs
  have := (List.isSuffixOf_iff_suffix.1 hs).length_le
  simp only [List.length_cons] at this
  omega

/-- Places a node in a directory, in place of what has that name.  A directory placed over a
directory keeps what is in it; otherwise what was below the replaced node goes with it.  Where
there is no directory to hold the node nothing happens. -/
def place (t : FileTree) (name : String) (above : Location) (node : Node) : FileTree :=
  if h : IsDirectory (t.nodeAt above) then
    { root := t.root
      nodes := placedNodes t.nodes (name :: above) node
      isDirectory_above := fun n u hn => by
        rw [nodeIn_placedNodes] at hn
        by_cases ht : n :: u = name :: above
        · obtain ⟨-, rfl⟩ := List.cons.inj ht
          rw [nodeIn_placedNodes, if_neg (by simp), if_pos (survives_cons_self node)]
          exact h
        · rw [if_neg ht] at hn
          by_cases hs : survives (name :: above) node (n :: u) = true
          · rw [if_pos hs] at hn
            obtain ⟨p, hp⟩ := t.isDirectory_above n u hn
            rw [nodeIn_placedNodes]
            by_cases hu : u = name :: above
            · rw [if_pos hu]
              subst hu
              simp only [survives, Location.isWithin, Bool.or_eq_true, Bool.not_eq_true'] at hs
              rcases hs with hs | hs
              · cases node <;> simp_all [Node.isDirectory, IsDirectory]
              · rw [Bool.eq_false_iff] at hs
                exact absurd (List.isSuffixOf_iff_suffix.2 (List.suffix_cons _ _)) hs
            · rw [if_neg hu, if_pos (survives_tail hs)]
              exact ⟨p, hp⟩
          · simp [hs] at hn }
  else t

/-- What placing a node does: the location gets the node, what cannot stay below it is gone,
and every other location is as before. -/
theorem nodeAt_place {t : FileTree} {name : String} {above : Location} {node : Node}
    (h : IsDirectory (t.nodeAt above)) (l : Location) :
    (t.place name above node).nodeAt l =
      if l = name :: above then some node
      else if survives (name :: above) node l then t.nodeAt l
      else none := by
  rw [place, dif_pos h]
  exact nodeIn_placedNodes t.root t.nodes name above node l

/-- Removes a node with everything below it.  The root itself stays. -/
def remove (t : FileTree) (top : Location) : FileTree where
  root := t.root
  nodes := t.nodes.filterKeys fun k => !Location.isWithin top k.location
  isDirectory_above := fun name above h => by
    simp only [nodeIn, Table.get?_filterKeys] at h
    split at h
    · next hk =>
      have hp := t.isDirectory_above name above h
      cases above with
      | nil => exact ⟨t.root, rfl⟩
      | cons n u =>
        have hs : survives top (.link "") (name :: n :: u) = true := by
          simpa [survives, Node.isDirectory] using hk
        have := survives_tail hs
        simp only [nodeIn, Table.get?_filterKeys]
        rw [if_pos (by simpa [survives, Node.isDirectory] using this)]
        exact hp
    · simp at h

/-- What removing a node does: nothing is left at its location or below, and every other
location is as before. -/
theorem nodeAt_remove (t : FileTree) (name : String) (above l : Location) :
    (t.remove (name :: above)).nodeAt l =
      if Location.isWithin (name :: above) l then none else t.nodeAt l := by
  cases l with
  | nil => simp [nodeAt, nodeIn, remove, Location.isWithin, List.isSuffixOf]
  | cons n u =>
    simp only [nodeAt, nodeIn, remove, Table.get?_filterKeys]
    by_cases h : Location.isWithin (name :: above) (n :: u) <;> simp [h]

/-- Makes each name on the way to a location a directory, unless it is one already. -/
def makeWay (t : FileTree) : Location → FileTree
  | [] => t
  | name :: above =>
    let t := t.makeWay above
    if IsDirectory (t.nodeAt (name :: above)) then t
    else t.place name above (.directory .newDirectory)

/-- Puts a node at a location, with the directories on the way to it.  Put at the root, a directory
gives the root its permissions. -/
def put (t : FileTree) : Location → Node → FileTree
  | [], .directory permissions => t.setRoot permissions
  | [], _ => t
  | name :: above, node => (t.makeWay above).place name above node

/-- Every node but the root, with the text of its location, in the order of these texts. -/
def listing (t : FileTree) : List (String × Node) :=
  (t.nodes.entries.map fun e => (Location.text e.1.location, e.2)).mergeSort
    fun a b => decide (a.1 ≤ b.1)

end FileTree

/-- A node to be put into a tree, with the path at which it goes. -/
structure Entry where
  /-- Where the node goes; read literally. -/
  path : String
  /-- The node. -/
  node : Node
  deriving DecidableEq, Repr

/-- Puts entries into a tree, one after the other. -/
def FileTree.putAll (t : FileTree) (entries : List Entry) : FileTree :=
  entries.foldl (fun t e => t.put (Location.ofString e.path) e.node) t

end ConvertOnce
