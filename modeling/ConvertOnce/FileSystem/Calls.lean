import ConvertOnce.FileTree.Walk

/-!
# The calls of a file system

A `FileSystem` is a file tree as a process sees it, above all from its current directory.  Its calls
take the text of a path: `stat`, `lstat`, `canWrite` and `read` ask, `write` and `makeDirectory`
change one node.  A call that is refused changes nothing, so a changing call answers with a new file
system or a `Fault`.
-/

namespace ConvertOnce

/-- What a process brings with it when it looks at files. -/
structure Process where
  /-- The text of the current directory, which need not exist. -/
  cwd : String
  /-- The program that the process runs. -/
  executable : String
  /-- How often a function that calls itself can go one call deeper before the process gives up.  A
  process is allowed 1000 calls within one another in all, and some of them are in use. -/
  maxNesting : Nat := 950

/-- A file tree and the process that looks at it. -/
structure FileSystem extends Process where
  /-- The files. -/
  tree : FileTree

namespace FileSystem

/-- The longest path, in bytes. -/
def maxPathBytes : Nat := 4095

/-- The directory from which the text of a path is read. -/
def start (fs : FileSystem) (path : String) : Location :=
  if path.toList.head? = some '/' then [] else Location.ofString fs.cwd

/-- A path that ends in a slash has to name a directory. -/
def demandsDirectory (path : String) : Bool := path.toList.getLast? = some '/'

/-- Resolves the text of a path without U+0000.  The last name is followed if it is a link and
either `follow` or a slash at the end asks for it. -/
def resolve (fs : FileSystem) (follow : Bool) (path : String) : Except Errno Spot :=
  if path = "" then .error .noEntry
  else if path.utf8ByteSize > maxPathBytes then .error .nameTooLong
  else if (fs.tree.nodeAt (fs.start path)).isNone then .error .noEntry
  else
    let strict := demandsDirectory path
    match fs.tree.walk (follow || strict) FileTree.maxLinks (fs.start path) (slashNames path) with
    | .ok (.node location node) =>
      if strict && !node.isDirectory then .error .notDirectory else .ok (.node location node)
    | answer => answer

/-- Resolves the text of a path; a refusal carries the whole text. -/
def locate (fs : FileSystem) (follow : Bool) (path : String) : Except Fault Spot :=
  if path.toList.contains '\x00' then .error .nulCharacter
  else
    match fs.resolve follow path with
    | .ok spot => .ok spot
    | .error errno => .error (.system errno path)

/-- The node at which a resolution ended. -/
def nodeOf (path : String) : Spot → Except Fault Node
  | .node _ node => .ok node
  | .free .. => .error (.system .noEntry path)

/-- The node that a path leads to, through links. -/
def stat (fs : FileSystem) (path : String) : Except Fault Node :=
  fs.locate true path >>= nodeOf path

/-- The node that a path names, which may itself be a link. -/
def lstat (fs : FileSystem) (path : String) : Except Fault Node :=
  fs.locate false path >>= nodeOf path

/-- The path leads to something. -/
def leadsSomewhere (fs : FileSystem) (path : String) : Bool := (fs.stat path).isOk

/-- The path leads to a node that may be changed.  What cannot be reached cannot be changed. -/
def canWrite (fs : FileSystem) (path : String) : Except Fault Bool :=
  match fs.stat path with
  | .ok node => .ok node.canWrite
  | .error (.system ..) => .ok false
  | .error fault => .error fault

/-- The contents of a file. -/
def read (fs : FileSystem) (path : String) : Except Fault Bytes := do
  match ← fs.stat path with
  | .file permissions bytes =>
    if permissions.canRead then .ok bytes else .error (.system .accessDenied path)
  | .directory permissions =>
    .error (.system (if permissions.canRead then .isDirectory else .accessDenied) path)
  | .link _ => .error (.system .tooManyLinks path)

/-- The directory lets names be added. -/
def canAddTo (fs : FileSystem) (directory : Location) : Bool :=
  match fs.tree.nodeAt directory with
  | some (.directory permissions) => permissions.canWrite
  | _ => false

/-- Places a node under a name of a directory. -/
def place (fs : FileSystem) (name : String) (directory : Location) (node : Node) : FileSystem :=
  { fs with tree := fs.tree.place name directory node }

/-- Gives a file the bytes as its whole contents.  A missing file is made, where the path leads
through a link too. -/
def write (fs : FileSystem) (path : String) (bytes : Bytes) : Except Fault FileSystem := do
  match ← fs.locate true path with
  | .free directory name =>
    if fs.canAddTo directory then .ok (fs.place name directory (.file .newFile bytes))
    else .error (.system .accessDenied path)
  | .node (name :: directory) (.file permissions _) =>
    if permissions.canWrite then .ok (fs.place name directory (.file permissions bytes))
    else .error (.system .accessDenied path)
  | .node .. => .error (.system .isDirectory path)

/-- Makes a directory under a name that nothing has, not even a link that leads nowhere. -/
def makeDirectory (fs : FileSystem) (path : String) : Except Fault FileSystem := do
  match ← fs.locate false path with
  | .free directory name =>
    if fs.canAddTo directory then .ok (fs.place name directory (.directory .newDirectory))
    else .error (.system .accessDenied path)
  | .node .. => .error (.system .alreadyExists path)

end FileSystem

end ConvertOnce
