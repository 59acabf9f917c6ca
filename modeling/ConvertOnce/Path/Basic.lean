/-!
# Lexical paths

A path is what is left of a text that is cut at every slash: an `Anchor`, which says how the text
begins, and the parts between the slashes, without the empty ones and without `.`.  Nothing here
looks at a file system; `..` is a part like any other until `Path.canonical` cancels it.

`Path.ofString` reads a text and `Path.text` writes it back in the one form that holds no part
twice delimited.  That every part is a proper one is a field of `Path`, so no operation has to
check it again.
-/

namespace ConvertOnce

/-! ### Cutting a text at its slashes -/

/-- The pieces of a text between its slashes, the empty ones included: `n` slashes give `n + 1`
pieces. -/
def cutAtSlashes : List Char → List (List Char)
  | [] => [[]]
  | c :: cs =>
    if c = '/' then [] :: cutAtSlashes cs
    else
      match cutAtSlashes cs with
      | [] => [[c]]
      | piece :: pieces => (c :: piece) :: pieces

/-- The pieces of a text between its slashes, the empty ones included. -/
def slashPieces (s : String) : List String := (cutAtSlashes s.toList).map String.ofList

/-- The pieces of a text that are not empty, `.` and `..` among them. -/
def slashNames (s : String) : List String := (slashPieces s).filter (· ≠ "")

/-- The texts with a slash between each two of them. -/
def slashJoin (parts : List String) : String := "/".intercalate parts

/-! ### Paths -/

/-- How a path begins.  Exactly two slashes are a root of their own; three or more are one. -/
inductive Anchor where
  /-- No slash: the path is read from wherever one stands. -/
  | relative
  /-- The root `/`. -/
  | root
  /-- The root `//`. -/
  | doubleRoot
  deriving DecidableEq, Repr

namespace Anchor

/-- The slashes an anchor is written with. -/
def text : Anchor → String
  | relative => ""
  | root => "/"
  | doubleRoot => "//"

/-- The anchor of a text, by the number of slashes it begins with. -/
def ofChars : List Char → Anchor
  | '/' :: '/' :: '/' :: _ => root
  | '/' :: '/' :: _ => doubleRoot
  | '/' :: _ => root
  | _ => relative

end Anchor

/-- A text that can stand as one part of a path: not empty, not `.`, and without a slash. -/
def IsPart (s : String) : Prop := s ≠ "" ∧ s ≠ "." ∧ '/' ∉ s.toList

instance : DecidablePred IsPart := fun s =>
  inferInstanceAs (Decidable (s ≠ "" ∧ s ≠ "." ∧ '/' ∉ s.toList))

/-- A lexical path: an anchor and proper parts. -/
structure Path where
  /-- How the path begins. -/
  anchor : Anchor
  /-- The parts, outermost first; `..` may be one of them. -/
  parts : List String
  /-- Every part is a proper one. -/
  isPart_of_mem : ∀ p ∈ parts, IsPart p
  deriving DecidableEq

namespace Path

/-- The path with no part. -/
def bare (a : Anchor) : Path := ⟨a, [], by simp⟩

/-- The path with an anchor and those of the given pieces that are proper parts. -/
def ofPieces (a : Anchor) (pieces : List String) : Path :=
  ⟨a, pieces.filter (fun p => decide (IsPart p)), fun p hp => by
    simpa using (List.mem_filter.1 hp).2⟩

/-- Reads a path: repeated slashes, a slash at the end and `.` parts leave no trace. -/
def ofString (s : String) : Path := ofPieces (Anchor.ofChars s.toList) (slashPieces s)

/-- The text of a path: its anchor and its parts, or `.` when there is nothing to write. -/
def text (p : Path) : String :=
  if p.anchor = .relative ∧ p.parts = [] then "."
  else p.anchor.text ++ slashJoin p.parts

instance : ToString Path := ⟨text⟩

/-- A path is absolute when it has a root. -/
def isAbsolute (p : Path) : Bool := p.anchor != .relative

/-- The path `q` as seen from `p`: an absolute `q` stands as it is, the parts of any other follow
those of `p`. -/
def join (p q : Path) : Path :=
  if q.anchor = .relative then
    ⟨p.anchor, p.parts ++ q.parts, fun x hx =>
      (List.mem_append.1 hx).elim (p.isPart_of_mem x) (q.isPart_of_mem x)⟩
  else q

instance : HDiv Path String Path := ⟨fun p s => p.join (ofString s)⟩

/-- The first `n` parts of a path. -/
def take (p : Path) (n : Nat) : Path :=
  ⟨p.anchor, p.parts.take n, fun x hx => p.isPart_of_mem x (List.mem_of_mem_take hx)⟩

/-- The path without its last part; a path with no part is its own parent. -/
def parent (p : Path) : Path :=
  ⟨p.anchor, p.parts.dropLast, fun x hx => p.isPart_of_mem x ((List.dropLast_sublist _).subset hx)⟩

/-- The last part, or the empty text when there is none. -/
def name (p : Path) : String := p.parts.getLast?.getD ""

end Path

/-! ### The directory part of a text -/

/-- Everything up to the last slash of a text, without slashes at its end unless it is nothing
but slashes; the empty text when there is no slash. -/
def directoryText (s : String) : String :=
  let head := s.toList.reverse.dropWhile (· ≠ '/')
  if head.all (· = '/') then String.ofList head
  else String.ofList (head.dropWhile (· = '/')).reverse

end ConvertOnce
