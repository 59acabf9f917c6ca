import ConvertOnce.FileTree.Walk
import Mathlib.Tactic.Common

/-!
# The course of a walk

`FileTree.walkNames` takes one of a few turns at each name.  `FileTree.Course` has a constructor for
each of them, so that facts about walks are proved turn by turn: the function runs a course
(`course_walkNames`), and a course ends as the function says (`Course.walkNames_eq`).
-/

namespace ConvertOnce

theorem Node.eq_link_of_isLink {node : Node} (h : node.isLink = true) :
    ∃ target, node = .link target := by
  cases node with
  | link target => exact ⟨target, rfl⟩
  | file | directory => cases h

namespace FileTree

variable {t : FileTree} {here : Location} {names : List String} {follow : Bool}
  {enter : Location → List String → Except Errno Spot} {answer : Except Errno Spot}

/-- Names may be looked up at the location. -/
def Searchable (t : FileTree) (here : Location) : Prop :=
  ∃ permissions, t.nodeAt here = some (.directory permissions) ∧ permissions.canSearch = true

/-- A text that is looked up as a name, unlike `.` and `..` and names that are too long. -/
structure IsName (name : String) : Prop where
  ne_dot : name ≠ "."
  ne_up : name ≠ ".."
  not_long : ¬ name.utf8ByteSize > maxNameBytes

/-- Following names from a location, and entering links as `enter` says, ends with the answer. -/
inductive Course (t : FileTree) (follow : Bool)
    (enter : Location → List String → Except Errno Spot) :
    Location → List String → Except Errno Spot → Prop
  /-- No name is left. -/
  | arrived {here : Location} {node : Node} (nodeAt_eq : t.nodeAt here = some node) :
      Course t follow enter here [] (.ok (.node here node))
  /-- There is nothing at the location. -/
  | lost {here : Location} {names : List String} (nodeAt_eq : t.nodeAt here = none) :
      Course t follow enter here names (.error .noEntry)
  /-- No name can be looked up in what is no directory. -/
  | blocked {here : Location} {name : String} {rest : List String} {node : Node}
      (nodeAt_eq : t.nodeAt here = some node) (isDirectory : node.isDirectory = false) :
      Course t follow enter here (name :: rest) (.error .notDirectory)
  /-- No name may be looked up in the directory. -/
  | closed {here : Location} {name : String} {rest : List String} {permissions : Permissions}
      (nodeAt_eq : t.nodeAt here = some (.directory permissions))
      (canSearch : permissions.canSearch = false) :
      Course t follow enter here (name :: rest) (.error .accessDenied)
  | dot {here : Location} {rest : List String} {answer : Except Errno Spot}
      (search : t.Searchable here) (goesOn : Course t follow enter here rest answer) :
      Course t follow enter here ("." :: rest) answer
  | up {here : Location} {rest : List String} {answer : Except Errno Spot}
      (search : t.Searchable here) (goesOn : Course t follow enter here.tail rest answer) :
      Course t follow enter here (".." :: rest) answer
  /-- The name is too long. -/
  | tooLong {here : Location} {name : String} {rest : List String} (search : t.Searchable here)
      (ne_dot : name ≠ ".") (ne_up : name ≠ "..") (long : name.utf8ByteSize > maxNameBytes) :
      Course t follow enter here (name :: rest) (.error .nameTooLong)
  /-- Nothing has the last name. -/
  | free {here : Location} {name : String} (search : t.Searchable here) (isName : IsName name)
      (nodeAt_eq : t.nodeAt (name :: here) = none) :
      Course t follow enter here [name] (.ok (.free here name))
  /-- Nothing has a name before the last. -/
  | missing {here : Location} {name : String} {rest : List String} (search : t.Searchable here)
      (isName : IsName name) (nodeAt_eq : t.nodeAt (name :: here) = none) (ne_nil : rest ≠ []) :
      Course t follow enter here (name :: rest) (.error .noEntry)
  /-- The last name is that of a link, which is not followed. -/
  | kept {here : Location} {name target : String} (search : t.Searchable here)
      (isName : IsName name) (nodeAt_eq : t.nodeAt (name :: here) = some (.link target))
      (not_follow : follow = false) :
      Course t follow enter here [name] (.ok (.node (name :: here) (.link target)))
  /-- The name is that of a link, which is followed. -/
  | link {here : Location} {name target : String} {rest : List String} (search : t.Searchable here)
      (isName : IsName name) (nodeAt_eq : t.nodeAt (name :: here) = some (.link target))
      (followed : rest ≠ [] ∨ follow = true) :
      Course t follow enter here (name :: rest)
        (enter (targetStart here target) (slashNames target ++ rest))
  /-- The name is that of another node. -/
  | step {here : Location} {name : String} {rest : List String} {node : Node}
      {answer : Except Errno Spot} (search : t.Searchable here) (isName : IsName name)
      (nodeAt_eq : t.nodeAt (name :: here) = some node) (isLink : node.isLink = false)
      (goesOn : Course t follow enter (name :: here) rest answer) :
      Course t follow enter here (name :: rest) answer

/-- A course ends as the function says. -/
theorem Course.walkNames_eq (h : Course t follow enter here names answer) :
    t.walkNames follow enter here names = answer := by
  induction h with
  | arrived hnode => rw [walkNames, hnode]
  | @lost _ names hnode => cases names <;> rw [walkNames, hnode]
  | @blocked _ _ _ node hnode hdirectory =>
    cases node with
    | directory => cases hdirectory
    | file | link => rw [walkNames, hnode]
  | closed hnode hcan => simp [walkNames, hnode, hcan]
  | dot hsearch _ ih | up hsearch _ ih =>
    obtain ⟨permissions, hnode, hcan⟩ := hsearch
    simpa [walkNames, hnode, hcan] using ih
  | tooLong hsearch hdot hup hlong =>
    obtain ⟨permissions, hnode, hcan⟩ := hsearch
    simp [walkNames, hnode, hcan, hdot, hup, hlong]
  | free hsearch hname hfree =>
    obtain ⟨permissions, hnode, hcan⟩ := hsearch
    simp [walkNames, hnode, hcan, hname.ne_dot, hname.ne_up, hname.not_long, hfree]
  | missing hsearch hname hfree hne =>
    obtain ⟨permissions, hnode, hcan⟩ := hsearch
    simp [walkNames, hnode, hcan, hname.ne_dot, hname.ne_up, hname.not_long, hfree, hne]
  | kept hsearch hname hlink hfollow =>
    obtain ⟨permissions, hnode, hcan⟩ := hsearch
    simp [walkNames, hnode, hcan, hname.ne_dot, hname.ne_up, hname.not_long, hlink, hfollow]
  | link hsearch hname hlink hfollowed =>
    obtain ⟨permissions, hnode, hcan⟩ := hsearch
    simp only [walkNames, hnode, hcan, hname.ne_dot, hname.ne_up, hname.not_long, hlink]
    rcases hfollowed with hne | hfollow
    · simp [hne]
    · simp [hfollow]
  | @step _ _ _ node _ hsearch hname hnext hlink _ ih =>
    obtain ⟨permissions, hnode, hcan⟩ := hsearch
    cases node with
    | link => cases hlink
    | file | directory =>
      simpa [walkNames, hnode, hcan, hname.ne_dot, hname.ne_up, hname.not_long, hnext] using ih

/-- At a name that is looked up in a directory a course takes the turn that the node of that name
asks for. -/
theorem exists_course_of_isName {name : String} {rest : List String} (hsearch : t.Searchable here)
    (hname : IsName name) (hnext : ∃ answer, Course t follow enter (name :: here) rest answer) :
    ∃ answer, Course t follow enter here (name :: rest) answer := by
  obtain ⟨answer, hanswer⟩ := hnext
  cases hnode : t.nodeAt (name :: here) with
  | none =>
    by_cases hrest : rest = []
    · subst hrest
      exact ⟨_, .free hsearch hname hnode⟩
    · exact ⟨_, .missing hsearch hname hnode hrest⟩
  | some node =>
    cases hlink : node.isLink with
    | false => exact ⟨_, .step hsearch hname hnode hlink hanswer⟩
    | true =>
      obtain ⟨target, rfl⟩ := Node.eq_link_of_isLink hlink
      by_cases hfollowed : rest ≠ [] ∨ follow = true
      · exact ⟨_, .link hsearch hname hnode hfollowed⟩
      · obtain ⟨rfl, hfollow⟩ : rest = [] ∧ follow = false := by simpa using hfollowed
        exact ⟨_, .kept hsearch hname hnode hfollow⟩

/-- Names can be followed from everywhere. -/
theorem exists_course (t : FileTree) (follow : Bool)
    (enter : Location → List String → Except Errno Spot) (here : Location) (names : List String) :
    ∃ answer, Course t follow enter here names answer := by
  -- By induction on the names, from every location: nothing is asked of the links, which are left
  -- to `enter`.
  induction names generalizing here with
  | nil =>
    cases hnode : t.nodeAt here with
    | none => exact ⟨_, .lost hnode⟩
    | some node => exact ⟨_, .arrived hnode⟩
  | cons name rest ih =>
    cases hnode : t.nodeAt here with
    | none => exact ⟨_, .lost hnode⟩
    | some node =>
      cases node with
      | file | link => exact ⟨_, .blocked hnode rfl⟩
      | directory permissions =>
        cases hcan : permissions.canSearch with
        | false => exact ⟨_, .closed hnode hcan⟩
        | true =>
          have hsearch : t.Searchable here := ⟨permissions, hnode, hcan⟩
          by_cases hdot : name = "."
          · subst hdot
            obtain ⟨answer, hanswer⟩ := ih here
            exact ⟨answer, .dot hsearch hanswer⟩
          by_cases hup : name = ".."
          · subst hup
            obtain ⟨answer, hanswer⟩ := ih here.tail
            exact ⟨answer, .up hsearch hanswer⟩
          by_cases hlong : name.utf8ByteSize > maxNameBytes
          · exact ⟨_, .tooLong hsearch hdot hup hlong⟩
          · exact exists_course_of_isName hsearch ⟨hdot, hup, hlong⟩ (ih (name :: here))

/-- **The function runs a course.** -/
theorem course_walkNames (t : FileTree) (follow : Bool)
    (enter : Location → List String → Except Errno Spot) (here : Location) (names : List String) :
    Course t follow enter here names (t.walkNames follow enter here names) := by
  obtain ⟨answer, hanswer⟩ := exists_course t follow enter here names
  rw [hanswer.walkNames_eq]
  exact hanswer

theorem course_of_walkNames (h : t.walkNames follow enter here names = answer) :
    Course t follow enter here names answer := by
  rw [← h]
  exact course_walkNames t follow enter here names

end FileTree

end ConvertOnce
