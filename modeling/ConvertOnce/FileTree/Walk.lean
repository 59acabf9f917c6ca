import ConvertOnce.FileTree.Basic
import ConvertOnce.Fault

/-!
# Resolving a path in a tree

`FileTree.walk` follows the names of a path from a directory through a tree.  A name that is a
link is replaced by the names of its target; this is done at most `maxLinks` times, so the walk is
a recursion on the links that may still be followed and, within that, on the names still to go.
-/

namespace ConvertOnce

/-- Where a path leads. -/
inductive Spot where
  /-- To a node. -/
  | node (location : Location) (node : Node)
  /-- To a name that is still free in a directory. -/
  | free (directory : Location) (name : String)
  deriving DecidableEq, Repr

namespace FileTree

/-- How many links one resolution follows. -/
def maxLinks : Nat := 40

/-- The longest name, in bytes. -/
def maxNameBytes : Nat := 255

/-- The directory from which the target of a link is read: the root for an absolute target, else
the directory that holds the link. -/
def targetStart (holder : Location) (target : String) : Location :=
  if target.toList.head? = some '/' then [] else holder

/-- Follows names from a location.  `enter` goes on from a link that has to be followed; a link at
the end is followed if `follow` says so. -/
def walkNames (t : FileTree) (follow : Bool)
    (enter : Location → List String → Except Errno Spot) :
    Location → List String → Except Errno Spot
  | here, [] =>
    match t.nodeAt here with
    | some node => .ok (.node here node)
    | none => .error .noEntry
  | here, name :: rest =>
    match t.nodeAt here with
    | some (.directory permissions) =>
      if !permissions.canSearch then .error .accessDenied
      else if name = "." then walkNames t follow enter here rest
      else if name = ".." then walkNames t follow enter here.tail rest
      else if name.utf8ByteSize > maxNameBytes then .error .nameTooLong
      else
        match t.nodeAt (name :: here) with
        | none => if rest.isEmpty then .ok (.free here name) else .error .noEntry
        | some (.link target) =>
          if rest.isEmpty && !follow then .ok (.node (name :: here) (.link target))
          else enter (targetStart here target) (slashNames target ++ rest)
        | some _ => walkNames t follow enter (name :: here) rest
    | some _ => .error .notDirectory
    | none => .error .noEntry

/-- Follows names from a location through at most the given number of links. -/
def walk (t : FileTree) (follow : Bool) : Nat → Location → List String → Except Errno Spot
  | 0 => walkNames t follow fun _ _ => .error .tooManyLinks
  | links + 1 => walkNames t follow (walk t follow links)

end FileTree

end ConvertOnce
