import ConvertOnce.Path.Basic

/-!
# Canonical and absolute paths

`Path.canonical` cancels every `..` it can: one that follows an ordinary part takes that part
back, one that follows the root vanishes, and only a path without a root keeps those it begins
with.  The rule is stated for one part at a time (`Path.push`); the canonical form is what is left
when the parts are pushed in turn.

`Path.absolute` is what a path is when it is read from a current directory, `Path.ancestors` are the
ancestors that it then has, and `Path.relativeTo` writes one path relative to another.  All of it is
lexical: the current directory is a text that need not exist.
-/

namespace ConvertOnce

namespace Path

/-- What `..` makes of the given parts, innermost first: it takes back the innermost part, vanishes
at a root, and stays where a path without a root has nothing left to take back. -/
def stepUp (rooted : Bool) : List String → List String
  | [] => if rooted then [] else [".."]
  | last :: before => if last = ".." then ".." :: last :: before else before

theorem mem_stepUp {rooted : Bool} {stack : List String} {x : String}
    (h : x ∈ stepUp rooted stack) : x = ".." ∨ x ∈ stack := by
  cases stack with
  | nil => cases rooted <;> simp_all [stepUp]
  | cons last before =>
    by_cases hl : last = ".."
    · simp_all [stepUp]
    · simp only [stepUp, hl, if_false] at h
      exact .inr (List.mem_cons_of_mem _ h)

/-- Goes on from a path by one piece: a part is added, `..` steps up, and a piece that is no part
changes nothing. -/
def push (p : Path) (piece : String) : Path :=
  if piece = ".." then
    ⟨p.anchor, (stepUp p.isAbsolute p.parts.reverse).reverse, fun x hx => by
      rcases mem_stepUp (List.mem_reverse.1 hx) with rfl | h
      · decide
      · exact p.isPart_of_mem x (List.mem_reverse.1 h)⟩
  else if h : IsPart piece then
    ⟨p.anchor, p.parts ++ [piece], fun x hx => by
      rcases List.mem_append.1 hx with hx | hx
      · exact p.isPart_of_mem x hx
      · rw [List.mem_singleton.1 hx]; exact h⟩
  else p

/-- The path with every `..` cancelled that can be. -/
def canonical (p : Path) : Path := p.parts.foldl push (bare p.anchor)

/-! ### Absolute paths -/

/-- The canonical absolute form of a path, read from the current directory `cwd`. -/
def absolute (cwd : String) (p : Path) : Path := ((ofString cwd).join p).canonical

/-- The first `n` paths met on the way outwards from `p`, itself first. -/
def outward : Nat → Path → List Path
  | 0, _ => []
  | n + 1, p => p :: outward n p.parent

/-- The absolute form of a path and its ancestors, from the inside out.  The walk ends before the
bare root, the one path that is its own parent. -/
def ancestors (cwd : String) (p : Path) : List Path :=
  let whole := p.absolute cwd
  outward whole.parts.length whole

/-- How many parts two lists have in common from the start. -/
def commonLength : List String → List String → Nat
  | a :: as, b :: bs => if a = b then commonLength as bs + 1 else 0
  | _, _ => 0

/-- The way from `start` to `p`: one `..` for each part of `start` that they do not share, and then
the rest of `p`. -/
def relativeTo (cwd : String) (p start : Path) : Path :=
  let target := (p.absolute cwd).parts
  let origin := (start.absolute cwd).parts
  let shared := commonLength origin target
  ofPieces .relative (List.replicate (origin.length - shared) ".." ++ target.drop shared)

end Path

/-- The canonical spelling of a path given as text. -/
def canonicalText (s : String) : String := (Path.ofString s).canonical.text

end ConvertOnce
