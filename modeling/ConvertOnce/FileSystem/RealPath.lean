import ConvertOnce.FileSystem.Probe

/-!
# The real path of a path

`FileSystem.realPath` replaces the links on a path by what they lead to, piece by piece from the
left.  Names that lead nowhere stay as they are, so every path has a real path, unless its links
lead back to themselves.

What is learnt about a link is kept in a table while a path is followed.  A link is *busy* while
its target is being followed; meeting a busy link again ends the search, and the link and all that
was still to go are kept unfollowed.  A link that was followed before is not followed again.

Following a target within a target goes one call deeper, so links that lead into one another for
longer than the process can go are a fault.
-/

namespace ConvertOnce

/-- What is known of the links met so far: the path that one leads to, or that it is busy. -/
abbrev KnownLinks := Table Path (Option Path)

/-- What came of following a path. -/
inductive Trail where
  /-- Every link was followed, and more may be known of them. -/
  | followed (path : Path) (known : KnownLinks)
  /-- A busy link was met again; it and what came after it are kept as they are. -/
  | looped (path : Path)

namespace FileSystem

/-- A path followed by pieces that are kept as they are. -/
def keepRest (p : Path) (pieces : List String) : Path := p / slashJoin pieces

/-- Follows the pieces of a path on from `here`.  `enter` follows the target of a link that is
busy from then on, given the path to the directory that holds it and the path to the link. -/
def followPieces (fs : FileSystem)
    (enter : KnownLinks → Path → Path → String → Except Fault Trail) :
    KnownLinks → Path → List String → Except Fault Trail
  | known, here, [] => .ok (.followed here known)
  | known, here, piece :: rest =>
    let next := here.push piece
    if piece = ".." ∨ ¬IsPart piece then followPieces fs enter known next rest
    else
      match fs.lstat next.text with
      | .ok (.link target) =>
        match known.get? next with
        | some (some there) => followPieces fs enter known there rest
        | some none => .ok (.looped (keepRest next rest))
        | none =>
          match enter (known.insert next none) here next target with
          | .ok (.followed there known) =>
            followPieces fs enter (known.insert next (some there)) there rest
          | .ok (.looped there) => .ok (.looped (keepRest there rest))
          | .error fault => .error fault
      | .error .nulCharacter => .error .nulCharacter
      | _ => followPieces fs enter known next rest

/-- The path from which the pieces of a text are followed: the root for an absolute text. -/
def followStart (here : Path) (s : String) : Path :=
  if s.toList.head? = some '/' then .bare .root else here

/-- Follows the pieces of a text.  The number says how many more targets can be followed, each
within the one before. -/
def followText (fs : FileSystem) : Nat → KnownLinks → Path → String → Except Fault Trail
  | 0, known, here, s =>
    fs.followPieces (fun _ _ _ _ => .error .tooDeep) known (followStart here s) (slashPieces s)
  | levels + 1, known, here, s =>
    fs.followPieces (fun known holder _ target => fs.followText levels known holder target) known
      (followStart here s) (slashPieces s)

/-- The absolute canonical path without links that `p` leads to.  Fails if the links on the way lead
back to themselves, or into one another for too long. -/
def realPath (fs : FileSystem) (p : Path) : Except Fault Path := do
  let real ← match ← fs.followText fs.maxNesting .empty (.bare .relative) p.text with
    | .followed q _ | .looped q => pure (q.absolute fs.cwd)
  match fs.stat real.text with
  | .error (.system .tooManyLinks _) => .error (.linkLoop real.text)
  | .error .nulCharacter => .error .nulCharacter
  | _ => .ok real

end FileSystem

end ConvertOnce
