import ConvertOnce.Proofs.FileSystem.Refusals
import ConvertOnce.Proofs.Manifest
import ConvertOnce.Proofs.Path.Absolute
import ConvertOnce.Proofs.Path.Ancestors

/-!
# The nearest dependency tree

The dependency tree of a project is looked for in a directory and in those above it, from the inside
out, but never in the root of the file system.  The first directory that is not certain to be
without a tree settles the search: `FileSystem.TreeAnswer` lists the ways in which it can end, and a
search ends in exactly one of them (`FileSystem.dependencyRoot?_eq_iff`).

A tree further out is therefore shadowed by a nearer one (`FileSystem.dependencyRoot?_congr`), and a
refusal on the way is not passed over for its sake.  What the root has of that name is not looked at
(`FileSystem.dependencyRoot?_congr_of_all`).
-/

namespace ConvertOnce

namespace FileSystem

variable {fs fs' : FileSystem} {name : String} {base directory : Path} {n : Nat}
  {answer : Except Fault (Option Path)}

/-! ### A single directory -/

/-- The dependency tree that stands in a directory, if there is one. -/
def treeIn (fs : FileSystem) (name : String) (directory : Path) : Except Fault (Option Path) := do
  return if ← fs.isPresent (directory / name) then some (directory / name) else none

/-- There is certainly no tree in the directory. -/
def LacksTree (fs : FileSystem) (name : String) (directory : Path) : Prop :=
  fs.isPresent (directory / name) = .ok false

/-- A search for a tree tries one directory after the other. -/
theorem dependencyRoot?_eq (fs : FileSystem) (base : Path) (name : String) :
    fs.dependencyRoot? base name = (base.ancestors fs.cwd).findSomeM? (fs.treeIn name) := rfl

theorem treeIn_of_isPresent {isPresent : Bool}
    (h : fs.isPresent (directory / name) = .ok isPresent) :
    fs.treeIn name directory = .ok (if isPresent then some (directory / name) else none) := by
  rw [treeIn, h, ok_bind, pure_eq_ok]

theorem treeIn_of_refused {fault : Fault} (h : fs.isPresent (directory / name) = .error fault) :
    fs.treeIn name directory = .error fault := by
  rw [treeIn, h]
  rfl

theorem treeIn_congr (h : fs'.isPresent (directory / name) = fs.isPresent (directory / name)) :
    fs'.treeIn name directory = fs.treeIn name directory := by
  rw [treeIn, treeIn, h]

theorem treeIn_eq_ok_none_iff :
    fs.treeIn name directory = .ok none ↔ fs.LacksTree name directory := by
  rw [LacksTree]
  cases hpresent : fs.isPresent (directory / name) with
  | error fault => simp [treeIn_of_refused hpresent]
  | ok isPresent => cases isPresent <;> simp [treeIn_of_isPresent hpresent]

/-- A directory that is not certain to be without a tree has one, or the file system refuses to
say. -/
theorem isPresent_of_not_lacksTree (h : ¬ fs.LacksTree name directory) :
    fs.isPresent (directory / name) = .ok true ∨
      ∃ errno,
        fs.isPresent (directory / name) = .error (.system errno (directory / name).text) := by
  cases hpresent : fs.isPresent (directory / name) with
  | ok isPresent =>
    cases isPresent with
    | false => exact absurd hpresent h
    | true => exact Or.inl rfl
  | error fault =>
    rcases (probe_eq_error_iff.1 hpresent).2 with rfl | rfl
    · exact Or.inr ⟨.accessDenied, rfl⟩
    · exact Or.inr ⟨.nameTooLong, rfl⟩

/-! ### The answer to a search -/

/-- On the way outwards from the base, the directory with the first `n` parts is the first one that
is not certain to be without a tree. -/
def IsTreeHolder (fs : FileSystem) (name : String) (base : Path) (n : Nat) : Prop :=
  Path.IsNearest (fs.LacksTree name) (base.absolute fs.cwd) n

/-- The ways in which a search for a dependency tree can end. -/
inductive TreeAnswer (fs : FileSystem) (name : String) (base : Path) :
    Except Fault (Option Path) → Prop
  /-- The nearest directory that is not certain to be without a tree has one. -/
  | found {n : Nat} (hnearest : fs.IsTreeHolder name base n)
      (hpresent : fs.isPresent ((base.absolute fs.cwd).take n / name) = .ok true) :
      TreeAnswer fs name base (.ok (some ((base.absolute fs.cwd).take n / name)))
  /-- The file system refuses to say whether that directory has a tree. -/
  | refused {n : Nat} {errno : Errno} (hnearest : fs.IsTreeHolder name base n)
      (hrefused : fs.isPresent ((base.absolute fs.cwd).take n / name) =
        .error (.system errno ((base.absolute fs.cwd).take n / name).text)) :
      TreeAnswer fs name base (.error (.system errno ((base.absolute fs.cwd).take n / name).text))
  /-- All directories are without a tree. -/
  | missing (hlacks : ∀ n, 0 < n → n ≤ (base.absolute fs.cwd).parts.length →
        fs.LacksTree name ((base.absolute fs.cwd).take n)) :
      TreeAnswer fs name base (.ok none)

/-- The nearest directory that is not certain to be without a tree settles the search. -/
theorem IsTreeHolder.dependencyRoot?_eq (h : fs.IsTreeHolder name base n) :
    fs.dependencyRoot? base name = fs.treeIn name ((base.absolute fs.cwd).take n) := by
  apply Path.IsNearest.findSomeM?_ancestors
  exact h.congr fun m _ _ => treeIn_eq_ok_none_iff

/-- A search finds nothing exactly where all directories are without a tree. -/
theorem dependencyRoot?_eq_ok_none_iff :
    fs.dependencyRoot? base name = .ok none ↔
      ∀ n, 0 < n → n ≤ (base.absolute fs.cwd).parts.length →
        fs.LacksTree name ((base.absolute fs.cwd).take n) := by
  rw [dependencyRoot?_eq, Path.findSomeM?_ancestors_eq_none_iff]
  simp only [treeIn_eq_ok_none_iff]

/-- Every search ends in one of the ways. -/
theorem exists_treeAnswer (fs : FileSystem) (name : String) (base : Path) :
    ∃ answer, fs.TreeAnswer name base answer := by
  rcases Path.exists_isNearest_or (fs.LacksTree name) (base.absolute fs.cwd) with
    ⟨n, hnearest⟩ | hlacks
  · rcases isPresent_of_not_lacksTree hnearest.not_passed with hpresent | ⟨errno, hrefused⟩
    · exact ⟨_, .found hnearest hpresent⟩
    · exact ⟨_, .refused hnearest hrefused⟩
  · exact ⟨_, .missing hlacks⟩

/-- The way in which a search can end is the one in which it ends. -/
theorem TreeAnswer.dependencyRoot?_eq (h : fs.TreeAnswer name base answer) :
    fs.dependencyRoot? base name = answer := by
  cases h with
  | found hnearest hpresent =>
    rw [hnearest.dependencyRoot?_eq, treeIn_of_isPresent hpresent]
    rfl
  | refused hnearest hrefused => rw [hnearest.dependencyRoot?_eq, treeIn_of_refused hrefused]
  | missing hlacks => exact dependencyRoot?_eq_ok_none_iff.2 hlacks

/-- **A search for a tree ends in the way that the nearest directory which is not certain to be
without one calls for**, and in no other. -/
theorem dependencyRoot?_eq_iff :
    fs.dependencyRoot? base name = answer ↔ fs.TreeAnswer name base answer := by
  constructor
  · rintro rfl
    obtain ⟨answer, hanswer⟩ := exists_treeAnswer fs name base
    rw [hanswer.dependencyRoot?_eq]
    exact hanswer
  · exact TreeAnswer.dependencyRoot?_eq

/-! ### What a search depends on -/

/-- Two file systems let a search begin at the same place, and say the same about the directories
from there to the one with the first `n` parts. -/
structure TreesAlikeUpTo (fs fs' : FileSystem) (name : String) (base : Path) (n : Nat) : Prop where
  /-- The search begins at the same place. -/
  absolute_eq : base.absolute fs'.cwd = base.absolute fs.cwd
  /-- The directories have a tree in both or in neither. -/
  isPresent_eq : ∀ m, n ≤ m → m ≤ (base.absolute fs.cwd).parts.length →
    fs'.isPresent ((base.absolute fs.cwd).take m / name)
      = fs.isPresent ((base.absolute fs.cwd).take m / name)

theorem IsTreeHolder.of_treesAlikeUpTo (h : fs.IsTreeHolder name base n)
    (halike : TreesAlikeUpTo fs fs' name base n) : fs'.IsTreeHolder name base n := by
  rw [IsTreeHolder, halike.absolute_eq]
  refine h.congr ?_
  intro m hm hle
  rw [LacksTree, LacksTree, halike.isPresent_eq m hm hle]

/-- **What lies further out than the nearest tree has no influence on the answer.** -/
theorem dependencyRoot?_congr (h : fs.IsTreeHolder name base n)
    (halike : TreesAlikeUpTo fs fs' name base n) :
    fs'.dependencyRoot? base name = fs.dependencyRoot? base name := by
  have hsame := halike.isPresent_eq n (Nat.le_refl n) h.le
  rw [h.dependencyRoot?_eq, (h.of_treesAlikeUpTo halike).dependencyRoot?_eq, halike.absolute_eq,
    treeIn_congr hsame]

/-- The directories below the root are all that a search looks at. -/
theorem dependencyRoot?_congr_of_all (halike : TreesAlikeUpTo fs fs' name base 1) :
    fs'.dependencyRoot? base name = fs.dependencyRoot? base name := by
  have hancestors : base.ancestors fs'.cwd = base.ancestors fs.cwd := by
    rw [Path.ancestors, Path.ancestors, halike.absolute_eq]
  rw [dependencyRoot?_eq, dependencyRoot?_eq, hancestors]
  refine findSomeM?_congr ?_
  intro directory hmem
  obtain ⟨m, hpos, hle, rfl⟩ := Path.mem_ancestors_iff.1 hmem
  exact treeIn_congr (halike.isPresent_eq m hpos hle)

/-- A directory below the root does not have its tree where a root has one. -/
theorem take_div_ne_bare_div (habsolute : ¬ IsAbsoluteText name) {whole : Path} (hpos : 0 < n)
    (hle : n ≤ whole.parts.length) (anchor : Anchor) :
    whole.take n / name ≠ Path.bare anchor / name := by
  intro heq
  have hparts := congrArg Path.parts heq
  rw [Path.parts_div_of_relative habsolute, Path.parts_div_of_relative habsolute] at hparts
  have hnil : whole.parts.take n = [] := List.append_cancel_right hparts
  have hlength := congrArg List.length hnil
  rw [List.length_take, List.length_nil] at hlength
  omega

end FileSystem

/-- The nearest dependency tree of the given name is the one of a project. -/
structure NearestTree (name : String) : Prop where
  /-- The search ends as the nearest directory that is not certain to be without a tree has it, if
  there is one. -/
  answer_iff : ∀ (fs : FileSystem) base answer,
    fs.dependencyRoot? base name = answer ↔ fs.TreeAnswer name base answer
  /-- Nothing is found exactly where all directories are without a tree. -/
  missing_iff : ∀ (fs : FileSystem) base, fs.dependencyRoot? base name = .ok none ↔
    ∀ n, 0 < n → n ≤ (base.absolute fs.cwd).parts.length →
      fs.LacksTree name ((base.absolute fs.cwd).take n)
  /-- Nothing further out than that directory counts. -/
  independent : ∀ (fs fs' : FileSystem) base n, fs.IsTreeHolder name base n →
    FileSystem.TreesAlikeUpTo fs fs' name base n →
    fs'.dependencyRoot? base name = fs.dependencyRoot? base name
  /-- Nothing but the directories below the root counts, whatever comes of the search. -/
  rootless : ∀ (fs fs' : FileSystem) base, FileSystem.TreesAlikeUpTo fs fs' name base 1 →
    fs'.dependencyRoot? base name = fs.dependencyRoot? base name
  /-- What the root has of that name is none of what is looked at. -/
  ne_root : ¬ IsAbsoluteText name → ∀ (fs : FileSystem) (base : Path) n, 0 < n →
    n ≤ (base.absolute fs.cwd).parts.length →
    ∀ anchor, (base.absolute fs.cwd).take n / name ≠ Path.bare anchor / name

/-- **The nearest dependency tree is the one of a project.** -/
theorem nearestTree (name : String) : NearestTree name where
  answer_iff _ _ _ := FileSystem.dependencyRoot?_eq_iff
  missing_iff _ _ := FileSystem.dependencyRoot?_eq_ok_none_iff
  independent _ _ _ _ h halike := FileSystem.dependencyRoot?_congr h halike
  rootless _ _ _ halike := FileSystem.dependencyRoot?_congr_of_all halike
  ne_root habsolute _ _ _ hpos hle := FileSystem.take_div_ne_bare_div habsolute hpos hle

/-- A project in `/p/a` with its own tree. -/
def ownTree : FileSystem where
  tree := .putAll .empty [⟨"/p/a/node_modules", .directory .newDirectory⟩]
  cwd := "/p"
  executable := "/usr/bin/python3"

/-- The same project within another one, and with a tree in the root. -/
def nestedTrees : FileSystem where
  tree := .putAll .empty [⟨"/node_modules", .directory .newDirectory⟩,
    ⟨"/p/node_modules", .directory .newDirectory⟩, ⟨"/p/a/node_modules", .directory .newDirectory⟩]
  cwd := "/p"
  executable := "/usr/bin/python3"

/-- From a directory that does not exist the project's own tree is found, whatever is around the
project. -/
theorem nearestTree_nested :
    ownTree.IsTreeHolder "node_modules" (.ofString "c/../a/b") 2 ∧
      nestedTrees.dependencyRoot? (.ofString "c/../a/b") "node_modules"
        = .ok (some (.ofString "/p/a/node_modules")) := by
  have hnearest : ownTree.IsTreeHolder "node_modules" (.ofString "c/../a/b") 2 := by
    refine ⟨by decide, by decide, ?_, ?_⟩
    · rw [FileSystem.LacksTree]
      decide +kernel
    · intro m hlt hle
      have hlength : ((Path.ofString "c/../a/b").absolute ownTree.cwd).parts.length = 3 := by
        decide
      obtain rfl : m = 3 := by omega
      rw [FileSystem.LacksTree]
      decide +kernel
  -- The trees differ only in what is further out, which is not looked at.
  have halike :
      FileSystem.TreesAlikeUpTo ownTree nestedTrees "node_modules" (.ofString "c/../a/b") 2 := by
    refine ⟨by decide, ?_⟩
    intro m hm hle
    have hlength : ((Path.ofString "c/../a/b").absolute ownTree.cwd).parts.length = 3 := by
      decide
    obtain rfl | rfl : m = 2 ∨ m = 3 := by omega
    · decide +kernel
    · decide +kernel
  have hown := ((nearestTree "node_modules").answer_iff ownTree (.ofString "c/../a/b") _).2
    (.found hnearest (by decide +kernel))
  refine ⟨hnearest, ?_⟩
  rw [(nearestTree "node_modules").independent ownTree nestedTrees _ 2 hnearest halike, hown]
  decide +kernel

end ConvertOnce
